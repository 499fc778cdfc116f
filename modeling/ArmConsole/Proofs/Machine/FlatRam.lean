import ArmConsole.Proofs.Checked.Memory
import ArmConsole.Proofs.Machine.Accesses
import ArmConsole.Proofs.System.FlatRam

/-!
RAM as instructions reach it. A read that lands there changes nothing, and a write changes memory
only. A transfer of a word goes to the word that holds the addressed byte.
-/

namespace ArmConsole

/-- How much of RAM a transfer covers. -/
def Width.ram : Width → RamWidth
  | word => .word
  | byte => .byte

/-- What a transfer loads. Of a word from an address that is not aligned, the addressed byte ends up
lowest. -/
def Width.loaded (width : Width) (contents : RamAddress → Byte) (a : RamAddress) : Word :=
  match width with
  | byte => (contents a).toUInt32
  | word => ⟨(BitVec.ofNat 32 (RamWidth.word.bigEndian contents a)).rotateRight (8 * (a.val % 4))⟩

theorem Width.loaded_word (memory : GuestMemory) (a : RamAddress) :
    word.loaded memory.readByte a =
      ⟨(memory.readWord a).toBitVec.rotateRight (8 * (a.val % 4))⟩ := by
  have number : (memory.readWord a).toNat = RamWidth.word.bigEndian memory.readByte a :=
    memory.read_eq .word a
  rw [loaded, ← number]
  exact congrArg (fun v : BitVec 32 => UInt32.ofBitVec (v.rotateRight _)) (BitVec.ofNat_toNat _ _)

namespace Machine

variable {δ : Type} [ExpansionDevice δ]

theorem toNat_wordAddress (address : Word) :
    (wordAddress address).toNat = address.toNat / 4 * 4 := address.toNat_and_not_three

/-- The addressed byte gets lowest by a rotation over the bytes behind it. -/
theorem toBitVec_rotateToByte (w address : Word) :
    (rotateToByte w address).toBitVec = w.toBitVec.rotateRight (8 * (address.toNat % 4)) := by
  have low : (address &&& 3).toNat = address.toNat % 2 ^ 2 := Word.toNat_and_mask _ rfl
  have places : ((address &&& 3) * 8).toNat = (address &&& 3).toNat * 8 % 2 ^ 32 :=
    UInt32.toNat_mul _ _
  have count : ((address &&& 3) * 8).toNat = 8 * (address.toNat % 4) := by omega
  rw [rotateToByte, Word.toBitVec_rotateRight, count]

section Located

variable {address : Word} (inRam : address.toNat < GuestMemory.ramSize) (m : Machine δ)

include inRam

theorem readWord_of_lt : m.readWord address = (m.space.memory.readWord ⟨_, inRam⟩, m) := by
  rw [readWord, m.space.readWord_of_lt inRam]

theorem readByte_of_lt : m.readByte address = (m.space.memory.readByte ⟨_, inRam⟩, m) := by
  rw [readByte, m.space.readByte_of_lt inRam]

theorem writeWord_of_lt (v : Word) :
    m.writeWord address v = m.mapMemory fun memory => memory.writeWord ⟨_, inRam⟩ v := by
  obtain ⟨p, space, calls, redirects⟩ := m
  simp only [writeWord, space.writeWord_of_lt inRam, Bool.or_false]
  rfl

theorem writeByte_of_lt (v : Byte) :
    m.writeByte address v = m.mapMemory fun memory => memory.writeByte ⟨_, inRam⟩ v := by
  obtain ⟨p, space, calls, redirects⟩ := m
  simp only [writeByte, space.writeByte_of_lt inRam, Bool.or_false]
  rfl

theorem wordAddress_lt : (wordAddress address).toNat < GuestMemory.ramSize := by
  rw [toNat_wordAddress]
  exact Nat.lt_of_le_of_lt (Nat.div_mul_le_self _ _) inRam

/-- An address and the aligned one lie in the same word. -/
theorem wordAddress_div :
    (⟨_, wordAddress_lt inRam⟩ : RamAddress).val / 4 = (⟨_, inRam⟩ : RamAddress).val / 4 := by
  dsimp only
  rw [toNat_wordAddress, Nat.mul_div_cancel _ (by decide)]

theorem readData_of_lt (width : Width) :
    m.readData width address = (width.loaded m.space.memory.readByte ⟨_, inRam⟩, m) := by
  cases width with
  | byte =>
    rw [readData, readByte_of_lt inRam]
    rfl
  | word =>
    rw [readData, readWord_of_lt (wordAddress_lt inRam), Width.loaded_word,
      m.space.memory.readWord_congr (wordAddress_div inRam)]
    exact Prod.ext (UInt32.toBitVec_inj.1 (toBitVec_rotateToByte _ address)) rfl

theorem writeData_of_lt (width : Width) (v : Word) :
    m.writeData width address v =
      m.mapMemory fun memory => memory.write ⟨width.ram, ⟨_, inRam⟩, v⟩ := by
  cases width with
  | byte => exact writeByte_of_lt inRam m v.toUInt8
  | word =>
    rw [writeData, writeWord_of_lt (wordAddress_lt inRam)]
    simp only [mapMemory, m.space.memory.writeWord_congr (wordAddress_div inRam)]
    rfl

end Located

end Machine

end ArmConsole
