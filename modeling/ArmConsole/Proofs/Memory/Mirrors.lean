import ArmConsole.Proofs.Memory.Shadows
import ArmConsole.Service.MathCall

/-!
Shadow pages that are up to date. Every write to RAM is made of writes of single bytes, and such a
write comes to the same before the shadows are made anew and after it. So a memory in high
resolution whose shadows are up to date stays one on whatever path its VRAM is written.
-/

namespace ArmConsole

namespace GuestMemory

/-- In high resolution, making the shadow pages anew would change nothing. -/
structure Mirrored (m : GuestMemory) : Prop where
  upToDate : m.highResolution = true → fillShadows m.store true = m.store

theorem origin_origin {i : Nat} (h : i < storeSize) :
    origin true (origin true i) = origin true i := by
  obtain ⟨same, -⟩ | ⟨-, inRam, -⟩ := origin_true_cases h
  · rw [same, same]
  · rw [origin, Bool.true_and, if_neg (by simpa using inRam)]

theorem fillShadows_fillShadows (store : Block storeSize) (shadowed : Bool) :
    fillShadows (fillShadows store shadowed) shadowed = fillShadows store shadowed := by
  apply fillShadows_congr
  intro i h inRam
  rw [getElem_fillShadows, if_pos inRam]

theorem fillShadows_storeByte (store : Block storeSize) (a : RamAddress) (v : Byte) :
    fillShadows (storeByte store true a v) true = storeByte (fillShadows store true) true a v := by
  apply Block.ext_getElem
  intro i h
  simp only [getElem_fillShadows, getElem_storeByte, origin_origin h, if_true]
  obtain ⟨-, inRam⟩ | ⟨low, -, page⟩ := origin_true_cases h
  · rw [if_pos inRam, if_pos inRam]
  · have behind : ¬i < ramSize := by
      simp only [vramStart, vramSize, ramSize] at *
      omega
    rw [if_neg behind, if_neg behind]

namespace Mirrored

variable {m n : GuestMemory}

/-- All pages show VRAM. -/
theorem shadow? (mirrored : m.Mirrored) (high : m.highResolution = true) {page : Nat}
    (has : page < 3) : m.shadow? page = some m.vram := by
  have same : m.rederiveShadows = m := by
    rw [GuestMemory.rederiveShadows, high, mirrored.upToDate high, ← high]
  have shown := m.shadow?_rederiveShadows has
  rwa [same, if_pos high] at shown

/-- What does not touch the store keeps its shadows up to date. -/
theorem of_store (mirrored : m.Mirrored) (store : n.store = m.store)
    (highResolution : n.highResolution = m.highResolution) : n.Mirrored where
  upToDate high := by
    rw [highResolution] at high
    rw [store, mirrored.upToDate high]

theorem rederiveShadows (m : GuestMemory) : m.rederiveShadows.Mirrored where
  upToDate high := by
    change m.highResolution = true at high
    simp only [GuestMemory.rederiveShadows, high, fillShadows_fillShadows]

theorem ofImages (m : GuestMemory) (images : Images) : (m.ofImages images).Mirrored :=
  rederiveShadows _

theorem setHighResolution (m : GuestMemory) (enabled : Bool) :
    (m.setHighResolution enabled).Mirrored := by
  cases enabled with
  | false => exact ⟨nofun⟩
  | true => exact rederiveShadows _

theorem loadRom (mirrored : m.Mirrored) {bank : Nat} {image : ByteArray}
    (loaded : m.loadRom bank image = .ok n) : n.Mirrored := by
  unfold GuestMemory.loadRom at loaded
  split at loaded
  · cases loaded
  · split at loaded
    · cases loaded
      exact mirrored.of_store rfl rfl
    · cases loaded

theorem selectRom (mirrored : m.Mirrored) {bank : Nat} (selected : m.selectRom bank = .ok n) :
    n.Mirrored := by
  unfold GuestMemory.selectRom at selected
  split at selected
  · cases selected
    exact mirrored.of_store rfl rfl
  · cases selected

theorem writeNvram (mirrored : m.Mirrored) (slot : Fin nvramSize) (v : Byte) :
    (m.writeNvram slot v).Mirrored := mirrored.of_store rfl rfl

/-! ### Writes to RAM -/

theorem writeByte (mirrored : m.Mirrored) (a : RamAddress) (v : Byte) :
    (m.writeByte a v).Mirrored where
  upToDate high := by
    change m.highResolution = true at high
    simp only [GuestMemory.writeByte, high, fillShadows_storeByte, mirrored.upToDate high]

theorem writeHalfWord (mirrored : m.Mirrored) (a : RamAddress) (v : HalfWord) :
    (m.writeHalfWord a v).Mirrored :=
  (mirrored.writeByte _ v.byte0).writeByte _ v.byte1

theorem writeWord (mirrored : m.Mirrored) (a : RamAddress) (v : Word) :
    (m.writeWord a v).Mirrored :=
  (((mirrored.writeByte _ v.byte0).writeByte _ v.byte1).writeByte _ v.byte2).writeByte _ v.byte3

/-! ### Math calls -/

theorem writeFixed (mirrored : m.Mirrored) (address : Word) (vs : List Int64) :
    (m.writeFixed address vs).2.Mirrored := by
  induction vs generalizing m address with
  | nil => exact mirrored
  | cons v vs ih =>
    unfold GuestMemory.writeFixed
    split
    · exact ih (mirrored.writeWord _ _) _
    · exact mirrored

theorem multiplyVectors (mirrored : m.Mirrored) (size : Nat) (dest source matrix : Word)
    (count : Nat) : (m.multiplyVectors size dest source matrix count).2.Mirrored := by
  induction count generalizing m dest source with
  | zero => exact mirrored
  | succ count ih =>
    unfold GuestMemory.multiplyVectors
    have written := mirrored.writeFixed dest (m.rowTimesMatrix size source matrix)
    generalize m.writeFixed dest _ = product at written ⊢
    obtain ⟨finished, m'⟩ := product
    split
    · cases finished with
      | true => exact ih written _ _
      | false => exact written
    · exact mirrored

theorem multiplyMatrices (mirrored : m.Mirrored) (size : Nat) (dest left right : Word) :
    (m.multiplyMatrices size dest left right).2.Mirrored := by
  unfold GuestMemory.multiplyMatrices
  split
  · exact mirrored.writeFixed _ _
  · exact mirrored

theorem crossProduct (mirrored : m.Mirrored) (dest left right : Word) :
    (m.crossProduct dest left right).2.Mirrored := by
  unfold GuestMemory.crossProduct
  split
  · exact mirrored.writeFixed _ _
  · exact mirrored

theorem run (mirrored : m.Mirrored) (call : MathCall) (a : MathCall.Arguments) :
    (call.run m a).2.Mirrored := by
  cases call with
  | vector3 => exact mirrored.multiplyVectors ..
  | matrix3 => exact mirrored.multiplyMatrices ..
  | vectors3 => exact mirrored.multiplyVectors ..
  | vector4 => exact mirrored.multiplyVectors ..
  | matrix4 => exact mirrored.multiplyMatrices ..
  | vectors4 => exact mirrored.multiplyVectors ..
  | dot3 => exact mirrored
  | cross3 => exact mirrored.crossProduct ..

end Mirrored

end GuestMemory

end ArmConsole
