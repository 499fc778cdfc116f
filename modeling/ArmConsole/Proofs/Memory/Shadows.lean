import ArmConsole.Proofs.Memory.Ram

/-!
The shadow pages. Making them anew leaves RAM alone and puts into each page what it has to hold,
which is VRAM in high resolution and zeros otherwise. Main statement: a memory that is given the
images of another one becomes that one, with its shadow pages made anew.
-/

namespace ArmConsole

namespace GuestMemory

theorem origin_lt {shadowed : Bool} {i : Nat} (h : i < storeSize) :
    origin shadowed i < storeSize := by
  cases shadowed with
  | false => exact h
  | true =>
    have cases := origin_true_cases h
    simp only [vramStart, vramSize, ramSize, storeSize] at *
    omega

theorem getElem_shadowPage (store : Block storeSize) (shadowed : Bool) {i : Nat}
    (h : i < (shadowPage store shadowed).size) (inStore : vramStart + i < storeSize) :
    (shadowPage store shadowed)[i] = if shadowed then store[vramStart + i] else 0 := by
  cases shadowed with
  | false => exact Block.getElem_zeroBytes h
  | true => exact store.getElem_slice h inStore

/-- Making the shadows anew leaves every byte what it stands for. -/
theorem getElem_fillShadows (store : Block storeSize) (shadowed : Bool) {i : Nat}
    (h : i < storeSize) :
    (fillShadows store shadowed)[i] =
      if i < ramSize then store[i]
      else if shadowed then getElem store (origin true i) (origin_lt h)
      else 0 := by
  have size : (shadowPage store shadowed).size = vramSize := size_shadowPage store shadowed
  have cases := origin_true_cases h
  have page {j : Nat} (inPage : j < (shadowPage store shadowed).size)
      (same : vramStart + j = origin true i) : (shadowPage store shadowed)[j] =
        if shadowed then getElem store (origin true i) (origin_lt h) else 0 := by
    rw [getElem_shadowPage _ _ _ (same ▸ origin_lt h)]
    simp only [same]
  simp only [fillShadows, Block.getElem_blit, size]
  by_cases inRam : i < ramSize
  · rw [if_pos inRam, dif_neg (by omega), dif_neg (by omega), dif_neg (by omega)]
  · rw [if_neg inRam]
    simp only [vramStart, vramSize, ramSize, storeSize] at *
    obtain ⟨-, absurd⟩ | ⟨low, high, same | same | same⟩ := cases
    · omega
    · rw [dif_neg (by omega), dif_neg (by omega), dif_pos (by omega)]
      exact page _ (by omega)
    · rw [dif_neg (by omega), dif_pos (by omega)]
      exact page _ (by omega)
    · rw [dif_pos (by omega)]
      exact page _ (by omega)

/-- Only RAM matters. -/
theorem fillShadows_congr {a b : Block storeSize} (shadowed : Bool)
    (same : ∀ i (h : i < storeSize), i < ramSize → a[i] = b[i]) :
    fillShadows a shadowed = fillShadows b shadowed := by
  apply Block.ext_getElem
  intro i h
  rw [getElem_fillShadows, getElem_fillShadows]
  by_cases inRam : i < ramSize
  · rw [if_pos inRam, if_pos inRam, same i h inRam]
  · have origin_inRam : origin true i < ramSize := by
      have cases := origin_true_cases h
      omega
    rw [if_neg inRam, if_neg inRam, same _ (origin_lt h) origin_inRam]

theorem shadow?_rederiveShadows (m : GuestMemory) {page : Nat} (has : page < 3) :
    m.rederiveShadows.shadow? page =
      some (if m.highResolution then m.vram else Block.zeroBytes vramSize) := by
  change _ = some (shadowPage m.store m.highResolution)
  rw [shadow?, if_pos has]
  apply congrArg some
  have first : page * vramSize ≤ 2 * vramSize := Nat.mul_le_mul_right _ (by omega)
  apply Block.slice_eq_of_getElem _ (by have := layout; omega) (size_shadowPage _ _)
  intro i h inStore
  have inPage : i < vramSize := size_shadowPage m.store m.highResolution ▸ h
  have behind : ramSize ≤ ramSize + page * vramSize + i := by omega
  have copied : origin true (ramSize + page * vramSize + i) = vramStart + i := by
    rw [origin, Bool.true_and, if_pos (decide_eq_true behind), Nat.add_assoc,
      Nat.add_sub_cancel_left, Nat.add_comm (page * vramSize), Nat.add_mul_mod_self_right,
      Nat.mod_eq_of_lt inPage]
  rw [getElem_shadowPage _ _ _ (copied ▸ origin_lt inStore)]
  simp only [rederiveShadows, getElem_fillShadows, if_neg (Nat.not_lt.2 behind), copied]

/-- What is put into VRAM is what the video hardware sees. -/
theorem vram_withVram (m : GuestMemory) (vram : Block vramSize) :
    (m.withVram vram).vram = vram.bytes := by
  have size : vram.bytes.size = vramSize := vram.size_bytes
  have fits : vramStart + vram.bytes.size ≤ storeSize := by
    have := layout
    omega
  apply Block.slice_eq_of_getElem _ (by decide) size
  intro i h inStore
  have replaced := m.store.getElem_blit fits inStore
  rw [dif_pos (by omega)] at replaced
  simp only [Nat.add_sub_cancel_left] at replaced
  exact replaced

/-! ### Images -/

/-- Nothing is left of the memory that was there. -/
theorem ofImages_images (m t : GuestMemory) : t.ofImages m.images = m.rederiveShadows := by
  have size : m.ram.size = ramSize := m.store.size_slice (by decide)
  have fits : 0 + m.ram.size ≤ storeSize := by
    have := layout
    omega
  have stores : fillShadows (t.store.blit 0 m.ram fits) m.highResolution =
      fillShadows m.store m.highResolution := by
    apply fillShadows_congr
    intro i h inRam
    rw [Block.getElem_blit_front _ fits (by omega) h]
    have front : i < (m.store.slice 0 ramSize).size := by rwa [← size] at inRam
    have same := m.store.getElem_slice front (by omega)
    simp only [Nat.zero_add] at same
    exact same
  exact congrArg (fun store : Block storeSize => { m with store }) stores

theorem images_ofImages (m : GuestMemory) (images : Images) :
    (m.ofImages images).images = images := by
  obtain ⟨ram, roms, nvram, romBank, highResolution⟩ := images
  have same : (m.ofImages ⟨ram, roms, nvram, romBank, highResolution⟩).ram = ram.bytes := by
    apply Block.slice_eq_of_getElem _ (by decide) ram.size_bytes
    intro i h inStore
    have inRam : i < ramSize := ram.size_bytes ▸ h
    simp only [ofImages, rederiveShadows, getElem_fillShadows, Nat.zero_add, if_pos inRam]
    exact Block.getElem_blit_front _ _ h _
  simp only [GuestMemory.images, same]
  rfl

end GuestMemory

end ArmConsole
