import ArmConsole.Memory.GuestMemory

/-!
Stream channels. A channel moves one halfword at an access between a buffer in RAM and a device.
It has a current buffer and a next one, which takes over when the current one is used up. A
buffer is armed while its start address is not zero.
-/

namespace ArmConsole

structure StreamChannel where
  startAddress : Word
  startLength : Word
  /-- How many bytes of the current buffer have been moved. -/
  index : Word
  nextAddress : Word
  nextLength : Word
  deriving DecidableEq

namespace StreamChannel

def idle : StreamChannel := ⟨0, 0, 0, 0, 0⟩

instance : Inhabited StreamChannel := ⟨idle⟩

def armed (c : StreamChannel) : Bool := c.startAddress != 0

/-- What is left of the current buffer, in bytes. Below zero if an access of two bytes moved
past an odd end. -/
def remaining (c : StreamChannel) : Int := (c.startLength.toNat : Int) - c.index.toNat

def currentAddress (c : StreamChannel) : Word := c.startAddress + c.index

/-- The register at `offset`; bits 2 and 3 of it count. -/
def readRegister (c : StreamChannel) (offset : Word) : Word :=
  match offset &&& 0xC with
  | 0x0 => c.currentAddress
  | 0x4 => .ofNat c.remaining.toNat
  | 0x8 => c.nextAddress
  | _ => c.nextLength

/-- Writes the register at `offset`. A length of zero disarms its buffer. -/
def writeRegister (c : StreamChannel) (offset value : Word) : StreamChannel :=
  match offset &&& 0xC with
  | 0x0 => { c with startAddress := value, index := 0 }
  | 0x4 =>
    { c with
      startLength := value
      index := 0
      startAddress := if value == 0 then 0 else c.startAddress }
  | 0x8 => { c with nextAddress := value }
  | _ => { c with nextLength := value, nextAddress := if value == 0 then 0 else c.nextAddress }

structure Access where
  channel : StreamChannel
  /-- Whether the current buffer turned out to be used up. -/
  exhausted : Bool
  /-- Where in RAM the element is; nothing moves without one. -/
  target : Option RamAddress

/-- Moves the element at the cursor. Addresses wrap around at the end of RAM. -/
def move (c : StreamChannel) (exhausted : Bool) : Access where
  channel := { c with index := c.index + 2 }
  exhausted := exhausted
  target := some (Fin.ofNat GuestMemory.ramSize c.currentAddress.toNat)

/-- The next access. A used-up buffer gives way to the next one, which stays programmed, or
disarms the channel if there is none. -/
def access (c : StreamChannel) : Access :=
  if !c.armed then ⟨c, false, none⟩
  else if 0 < c.remaining then c.move false
  else if c.nextAddress == 0 then ⟨{ c with index := 0, startAddress := 0 }, true, none⟩
  else
    move { c with index := 0, startAddress := c.nextAddress, startLength := c.nextLength } true

end StreamChannel

end ArmConsole
