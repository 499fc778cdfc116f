import ArmConsole.Proofs.Memory.Shadows
import ArmConsole.Service.MathCall

/-!
Memories that differ in their shadow pages only. The processor never reads these, so that such
memories answer alike, and they stay alike when they are written alike.
-/

namespace ArmConsole

namespace GuestMemory

/-- Equal but for the shadow pages. -/
structure Alike (m n : GuestMemory) : Prop where
  store : ∀ i (h : i < storeSize), i < ramSize → m.store[i] = n.store[i]
  roms : m.roms = n.roms
  romBank : m.romBank = n.romBank
  nvram : m.nvram = n.nvram
  highResolution : m.highResolution = n.highResolution

namespace Alike

theorem refl (m : GuestMemory) : m.Alike m := ⟨fun _ _ _ => rfl, rfl, rfl, rfl, rfl⟩

theorem rederiveShadows (m : GuestMemory) : m.Alike m.rederiveShadows where
  store i h inRam := by
    simp only [GuestMemory.rederiveShadows, getElem_fillShadows, if_pos inRam]
  roms := rfl
  romBank := rfl
  nvram := rfl
  highResolution := rfl

variable {m n : GuestMemory}

theorem ram (alike : m.Alike n) : m.ram = n.ram := by
  have size : n.ram.size = ramSize := n.store.size_slice (by decide)
  apply Block.slice_eq_of_getElem _ (by decide) size
  intro i h inStore
  have inRam : i < ramSize := Nat.lt_of_lt_of_eq h size
  have byte : n.ram[i] = n.store[0 + i] := n.store.getElem_slice h inStore
  rw [byte]
  exact alike.store _ inStore (by omega)

theorem vramBlock (alike : m.Alike n) : m.vramBlock = n.vramBlock := by
  apply Block.ext_getElem
  intro i h
  have := layout
  have inStore : vramStart + i < storeSize := by omega
  have first : m.vramBlock[i] = m.store[vramStart + i] := m.store.getElem_slice _ inStore
  have second : n.vramBlock[i] = n.store[vramStart + i] := n.store.getElem_slice _ inStore
  rw [first, second]
  exact alike.store _ inStore (by omega)

/-! ### Reads -/

theorem readByte (alike : m.Alike n) (a : RamAddress) : m.readByte a = n.readByte a :=
  alike.store a.val _ a.isLt

theorem readHalfWord (alike : m.Alike n) (a : RamAddress) :
    m.readHalfWord a = n.readHalfWord a := by
  have inRam := a.halfStart_le
  unfold GuestMemory.readHalfWord Block.halfWord
  dsimp only
  rw [alike.store _ _ (by omega), alike.store _ _ (by omega)]

theorem readWord (alike : m.Alike n) (a : RamAddress) : m.readWord a = n.readWord a := by
  have inRam := a.wordStart_le
  unfold GuestMemory.readWord Block.word
  dsimp only
  rw [alike.store _ _ (by omega), alike.store _ _ (by omega), alike.store _ _ (by omega),
    alike.store _ _ (by omega)]

theorem readRom (alike : m.Alike n) (offset : Fin romSize) :
    m.readRom offset = n.readRom offset := by
  obtain ⟨_, roms, romBank, _, _⟩ := m
  obtain ⟨-, rfl, rfl, -, -⟩ := alike
  rfl

theorem readNvram (alike : m.Alike n) (slot : Fin nvramSize) :
    m.readNvram slot = n.readNvram slot := by
  rw [GuestMemory.readNvram, alike.nvram]
  rfl

/-! ### Writes -/

theorem writeByte (alike : m.Alike n) (a : RamAddress) (v : Byte) :
    (m.writeByte a v).Alike (n.writeByte a v) where
  store i h inRam := by
    simp only [GuestMemory.writeByte, getElem_storeByte, alike.highResolution,
      alike.store i h inRam]
  roms := alike.roms
  romBank := alike.romBank
  nvram := alike.nvram
  highResolution := alike.highResolution

theorem writeHalfWord (alike : m.Alike n) (a : RamAddress) (v : HalfWord) :
    (m.writeHalfWord a v).Alike (n.writeHalfWord a v) :=
  (alike.writeByte _ v.byte0).writeByte _ v.byte1

theorem writeWord (alike : m.Alike n) (a : RamAddress) (v : Word) :
    (m.writeWord a v).Alike (n.writeWord a v) :=
  (((alike.writeByte _ v.byte0).writeByte _ v.byte1).writeByte _ v.byte2).writeByte _ v.byte3

theorem withVram (alike : m.Alike n) (vram : Block vramSize) :
    (m.withVram vram).Alike (n.withVram vram) := by
  obtain ⟨_, roms, romBank, nvram, highResolution⟩ := m
  obtain ⟨store, rfl, rfl, rfl, rfl⟩ := alike
  refine ⟨?_, rfl, rfl, rfl, rfl⟩
  intro i h inRam
  simp only [GuestMemory.withVram, Block.getElem_blit, store i h inRam]

theorem writeNvram (alike : m.Alike n) (slot : Fin nvramSize) (v : Byte) :
    (m.writeNvram slot v).Alike (n.writeNvram slot v) := by
  obtain ⟨_, roms, romBank, nvram, highResolution⟩ := m
  obtain ⟨store, rfl, rfl, rfl, rfl⟩ := alike
  exact ⟨store, rfl, rfl, rfl, rfl⟩

/-! ### Math calls -/

theorem fixedAt (alike : m.Alike n) : m.fixedAt = n.fixedAt := by
  funext address
  unfold GuestMemory.fixedAt
  cases wordAddress? address with
  | none => rfl
  | some a =>
    dsimp only
    rw [alike.readWord]

theorem writeFixed (alike : m.Alike n) (address : Word) (vs : List Int64) :
    (m.writeFixed address vs).1 = (n.writeFixed address vs).1 ∧
      (m.writeFixed address vs).2.Alike (n.writeFixed address vs).2 := by
  induction vs generalizing m n address with
  | nil => exact ⟨rfl, alike⟩
  | cons v vs ih =>
    unfold GuestMemory.writeFixed
    cases wordAddress? address with
    | none => exact ⟨rfl, alike⟩
    | some a => exact ih (alike.writeWord a _) _

theorem rowTimesMatrix (alike : m.Alike n) (size : Nat) (vector matrix : Word) :
    m.rowTimesMatrix size vector matrix = n.rowTimesMatrix size vector matrix := by
  have columns : m.rowTimesColumn size vector matrix = n.rowTimesColumn size vector matrix := by
    funext column
    unfold rowTimesColumn
    rw [alike.fixedAt]
  rw [GuestMemory.rowTimesMatrix, columns]
  rfl

theorem multiplyVectors (alike : m.Alike n) (size : Nat) (dest source matrix : Word)
    (count : Nat) :
    (m.multiplyVectors size dest source matrix count).2.Alike
      (n.multiplyVectors size dest source matrix count).2 := by
  induction count generalizing m n dest source with
  | zero => exact alike
  | succ count ih =>
    unfold GuestMemory.multiplyVectors
    rw [alike.rowTimesMatrix]
    have written := alike.writeFixed dest (n.rowTimesMatrix size source matrix)
    generalize m.writeFixed dest _ = first at written ⊢
    generalize n.writeFixed dest _ = second at written ⊢
    obtain ⟨finished, m'⟩ := first
    obtain ⟨_, n'⟩ := second
    obtain ⟨rfl, still⟩ := written
    split
    · cases finished with
      | true => exact ih still _ _
      | false => exact still
    · exact alike

theorem multiplyMatrices (alike : m.Alike n) (size : Nat) (dest left right : Word) :
    (m.multiplyMatrices size dest left right).2.Alike
      (n.multiplyMatrices size dest left right).2 := by
  unfold GuestMemory.multiplyMatrices
  simp only [alike.rowTimesMatrix]
  split
  · exact (alike.writeFixed _ _).2
  · exact alike

theorem dotProduct (alike : m.Alike n) (left right : Word) :
    m.dotProduct left right = n.dotProduct left right := by
  unfold GuestMemory.dotProduct
  rw [alike.fixedAt]

theorem crossProduct (alike : m.Alike n) (dest left right : Word) :
    (m.crossProduct dest left right).2.Alike (n.crossProduct dest left right).2 := by
  unfold GuestMemory.crossProduct
  rw [alike.fixedAt]
  split
  · exact (alike.writeFixed _ _).2
  · exact alike

theorem run (alike : m.Alike n) (call : MathCall) (a : MathCall.Arguments) :
    (call.run m a).1 = (call.run n a).1 ∧ (call.run m a).2.Alike (call.run n a).2 := by
  cases call with
  | vector3 => exact ⟨rfl, alike.multiplyVectors ..⟩
  | matrix3 => exact ⟨rfl, alike.multiplyMatrices ..⟩
  | vectors3 => exact ⟨rfl, alike.multiplyVectors ..⟩
  | vector4 => exact ⟨rfl, alike.multiplyVectors ..⟩
  | matrix4 => exact ⟨rfl, alike.multiplyMatrices ..⟩
  | vectors4 => exact ⟨rfl, alike.multiplyVectors ..⟩
  | dot3 => exact ⟨congrArg some (alike.dotProduct ..), alike⟩
  | cross3 => exact ⟨rfl, alike.crossProduct ..⟩

end Alike

end GuestMemory

end ArmConsole
