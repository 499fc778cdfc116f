import ArmConsole.Proofs.Checked.Access
import ArmConsole.Proofs.Memory.Location
import ArmConsole.Proofs.Memory.Ram
import ArmConsole.Proofs.Word

/-!
Checked access to memory. RAM is reached through the store that it shares with the shadow pages;
an index into a ROM bank or NVRAM is masked first.
-/

namespace ArmConsole

namespace Word

/-- Clearing the two lowest bits rounds down to a multiple of four. -/
theorem toNat_and_not_three (w : Word) : (w &&& ~~~3).toNat = w.toNat / 4 * 4 := by
  have mask : ∀ i < 32, Nat.testBit 0xFFFFFFFC i = decide (2 ≤ i) := by decide
  have masked : (w &&& ~~~3).toNat = w.toNat &&& 0xFFFFFFFC := UInt32.toNat_and ..
  rw [masked]
  apply Nat.eq_of_testBit_eq
  intro i
  have rounded : (w.toNat / 2 ^ 2 * 2 ^ 2).testBit i = (decide (2 ≤ i) && w.toNat.testBit i) := by
    rw [Nat.testBit_mul_two_pow, Nat.testBit_div_two_pow]
    by_cases high : 2 ≤ i
    · rw [Nat.sub_add_cancel high]
    · simp [high]
  rw [Nat.testBit_and]
  refine Eq.trans ?_ rounded.symm
  by_cases small : i < 32
  · rw [mask i small, Bool.and_comm]
  · have empty : w.toNat.testBit i = false :=
      Nat.testBit_lt_two_pow (Nat.lt_of_lt_of_le w.toNat_lt (Nat.pow_le_pow_right (by decide)
        (by omega)))
    rw [empty, Bool.false_and, Bool.and_false]

end Word

namespace Block

variable {n : Nat}

def get? (b : Block n) (i : Nat) : Checked Byte := if h : i < n then some b[i] else none

theorem get?_eq (b : Block n) {i : Nat} (h : i < n) : b.get? i = some b[i] := dif_pos h

def set? (b : Block n) (i : Nat) (v : Byte) : Checked (Block n) :=
  if h : i < n then some (b.set i v h) else none

theorem set?_eq (b : Block n) {i : Nat} (v : Byte) (h : i < n) :
    b.set? i v = some (b.set i v h) := dif_pos h

def word? (b : Block n) (i : Nat) : Checked Word := do
  return .ofBytes (← b.get? i) (← b.get? (i + 1)) (← b.get? (i + 2)) (← b.get? (i + 3))

theorem word?_eq (b : Block n) {i : Nat} (h : i + 4 ≤ n) : b.word? i = some (b.word i h) := by
  rw [word?, b.get?_eq (by omega : i < n), b.get?_eq (by omega : i + 1 < n),
    b.get?_eq (by omega : i + 2 < n), b.get?_eq (by omega : i + 3 < n)]
  rfl

end Block

namespace GuestMemory

/-- The aligned word of the selected bank that an address in the ROM window shows. -/
def readRom? (m : GuestMemory) (address : Word) : Checked Word := do
  let rom ← m.roms[m.romBank.val]?
  rom.word? ((address &&& 0xFFFFF) &&& ~~~3).toNat

theorem readRom?_eq (m : GuestMemory) (address : Word) :
    m.readRom? address = some (m.readRom (romOffset address)) := by
  have bank : m.roms[m.romBank.val]? = some m.roms[m.romBank] :=
    Vector.getElem?_eq_getElem m.romBank.isLt
  have fits : (romOffset address).val / 4 * 4 + 4 ≤ romSize := by
    have := (romOffset address).isLt
    have := layout
    omega
  rw [readRom?, bank, Word.toNat_and_not_three]
  exact Block.word?_eq _ fits

/-- The slice of the store that is lent to the serial interface. -/
def vram? (m : GuestMemory) : Checked ByteArray :=
  if vramStart ≤ ramSize ∧ ramSize ≤ storeSize then
    some (m.store.slice vramStart (ramSize - vramStart))
  else none

theorem vram?_eq (m : GuestMemory) : m.vram? = some (m.store.slice vramStart vramSize) :=
  if_pos (by decide)

/-- The index into NVRAM for an address in its window. -/
def nvramIndex (address : Word) : Nat :=
  let offset : Word := address &&& 0xFFFFF
  ((offset >>> 2) &&& 0x7FFF).toNat

theorem nvramIndex_eq (address : Word) : nvramIndex address = (nvramSlot address).val := by
  have same : (address &&& 0xFFFFF) >>> 2 &&& (0x7FFF : Word) = address >>> 2 &&& 0x7FFF := by
    rw [UInt32.shiftRight_and]
    exact Word.and_and_of_covered (by decide)
  exact congrArg UInt32.toNat same

def readNvram? (m : GuestMemory) (address : Word) : Checked Byte :=
  m.nvram.get? (nvramIndex address)

theorem readNvram?_eq (m : GuestMemory) (address : Word) :
    m.readNvram? address = some (m.readNvram (nvramSlot address)) := by
  rw [readNvram?, nvramIndex_eq]
  exact m.nvram.get?_eq (nvramSlot address).isLt

def writeNvram? (m : GuestMemory) (address : Word) (v : Byte) : Checked GuestMemory := do
  let nvram ← m.nvram.set? (nvramIndex address) v
  return { m with nvram }

theorem writeNvram?_eq (m : GuestMemory) (address : Word) (v : Byte) :
    m.writeNvram? address v = some (m.writeNvram (nvramSlot address) v) := by
  rw [writeNvram?, nvramIndex_eq, m.nvram.set?_eq v (nvramSlot address).isLt]
  rfl

end GuestMemory

end ArmConsole
