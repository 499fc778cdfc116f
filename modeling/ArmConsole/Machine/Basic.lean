import ArmConsole.Processor.Execute
import ArmConsole.Service.MathCall
import ArmConsole.Service.Redirect
import ArmConsole.System.AddressSpace

/-!
The machine: the processor in its address space. Software interrupts may be answered natively,
and the program counter may be redirected at known places.
-/

namespace ArmConsole

structure Machine (δ : Type) where
  processor : Processor
  space : AddressSpace δ
  /-- The software interrupts that are answered natively. -/
  calls : Option CallTable
  redirects : Option RedirectList

namespace Machine

variable {δ : Type}

def initial : Machine δ where
  processor := .initial
  space := { memory := .empty, io := .initial }
  calls := none
  redirects := none

instance : Inhabited (Machine δ) := ⟨initial⟩

@[inline] def mapProcessor (m : Machine δ) (f : Processor → Processor) : Machine δ :=
  { m with processor := f m.processor }

@[inline] def mapMemory (m : Machine δ) (f : GuestMemory → GuestMemory) : Machine δ :=
  { m with space := { m.space with memory := f m.space.memory } }

/-- Resets the processor and arms the redirects. Memory and peripherals stay. -/
def resetProcessor (m : Machine δ) : Machine δ :=
  { m with
    processor := m.processor.reset
    redirects := m.redirects.map RedirectList.reset }

variable [ExpansionDevice δ]

/-- Resets everything but the contents of memory. -/
def reset (m : Machine δ) : Machine δ :=
  let m := m.resetProcessor
  { m with space := { m.space with io := m.space.io.reset } }

/-! ### Access to the address space -/

def readWord (m : Machine δ) (address : Word) : Word × Machine δ :=
  let (w, space) := m.space.readWord address
  (w, { m with space := space })

def readByte (m : Machine δ) (address : Word) : Byte × Machine δ :=
  let (b, space) := m.space.readByte address
  (b, { m with space := space })

/-- A stall of the bus is noted. -/
def writeWord (m : Machine δ) (address value : Word) : Machine δ :=
  let ⟨processor, space, calls, redirects⟩ := m
  let (stalled, space) := space.writeWord address value
  ⟨{ processor with stalled := processor.stalled || stalled }, space, calls, redirects⟩

/-- A stall of the bus is noted. -/
def writeByte (m : Machine δ) (address : Word) (value : Byte) : Machine δ :=
  let ⟨processor, space, calls, redirects⟩ := m
  let (stalled, space) := space.writeByte address value
  ⟨{ processor with stalled := processor.stalled || stalled }, space, calls, redirects⟩

def wordAddress (address : Word) : Word := address &&& ~~~3

/-- A word read from an address that need not be aligned: the addressed byte ends up lowest. -/
def rotateToByte (w address : Word) : Word := w.rotateRight ((address &&& 3) * 8)

def readData (m : Machine δ) (width : Width) (address : Word) : Word × Machine δ :=
  match width with
  | .byte =>
    let (b, m) := m.readByte address
    (b.toUInt32, m)
  | .word =>
    let (w, m) := m.readWord (wordAddress address)
    (rotateToByte w address, m)

def writeData (m : Machine δ) (width : Width) (address value : Word) : Machine δ :=
  match width with
  | .byte => m.writeByte address value.toUInt8
  | .word => m.writeWord (wordAddress address) value

end Machine

end ArmConsole
