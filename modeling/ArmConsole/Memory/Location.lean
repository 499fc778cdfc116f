import ArmConsole.Memory.GuestMemory

/-!
The address map. RAM starts at 0. Every other window is recognised by the bits of the address
above it; the tests are tried in a fixed order, and what no window claims is unmapped. A location
tells where in its window an address lies, in a form that is in range by its type, so that an
access needs no test of its own.

| from | to | window |
|---|---|---|
| 0x00000000 | 0x002FFFFF | RAM |
| 0x03000000 | 0x030FFFFF | ROM, the selected bank |
| 0x03140000 | 0x0317FFFF | NVRAM, one byte for each word, twice |
| 0x03180000 | 0x031FFFFF | diagnostic channel |
| 0x03200000 | 0x032FFFFF | serial interface of video RAM |
| 0x03300000 | 0x033007FF | graphics controller |
| 0x03400000 | 0x0340FFFF | system controller |
-/

namespace ArmConsole

/-- What lies at an address outside of RAM. Offsets are counted in bytes from the start of the
window. -/
inductive Window where
  | graphics (offset : Word)
  | controller (offset : Word)
  | videoSerial (offset : Word)
  | diagnostic
  | nvram (slot : Fin GuestMemory.nvramSize)
  | rom (offset : Fin GuestMemory.romSize)
  | unmapped
  deriving DecidableEq, Inhabited

namespace Window

/-- Whether `address` agrees with `base` in all bits that `mask` leaves out. -/
def covers (base mask address : Word) : Bool := (address ^^^ base) &&& ~~~mask == 0

def ofAddress (address : Word) : Window :=
  if covers 0x03300000 0x7FF address then graphics (address &&& 0x7FF)
  else if covers 0x03400000 0xFFFF address then controller (address &&& 0xFFFF)
  else if covers 0x03200000 0xFFFFF address then videoSerial (address &&& 0xFFFFF)
  else if covers 0x03100000 0xFFFFF address then
    if address &&& 0x80000 != 0 then diagnostic
    else if address &&& 0x40000 != 0 then nvram (GuestMemory.nvramSlot address)
    else unmapped
  else if covers 0x03000000 0xFFFFF address then rom (GuestMemory.romOffset address)
  else unmapped

end Window

/-- What lies at an address. -/
inductive Location where
  | ram (a : RamAddress)
  | window (w : Window)
  deriving DecidableEq

@[inline] def Location.ofAddress (address : Word) : Location :=
  if h : address.toNat < GuestMemory.ramSize then ram ⟨address.toNat, h⟩
  else window (.ofAddress address)

end ArmConsole
