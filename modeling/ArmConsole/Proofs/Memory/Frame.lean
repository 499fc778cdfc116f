import ArmConsole.Proofs.Memory.Ram
import ArmConsole.Proofs.Word

/-!
What a write to memory leaves alone. The ROM images, the selected bank and the resolution are never
written; of RAM as the processor sees it, and of NVRAM, only what is addressed.
-/

namespace ArmConsole

namespace GuestMemory

/-- From `m` to `n`, RAM has changed in the bytes of `ram` and NVRAM in the slots of `nvram` at
most, and nothing else has changed that a guest can read. -/
structure Framed (ram : RamAddress → Prop) (nvram : Fin nvramSize → Prop) (m n : GuestMemory) :
    Prop where
  roms : n.roms = m.roms
  romBank : n.romBank = m.romBank
  highResolution : n.highResolution = m.highResolution
  ram : ∀ a, ¬ram a → n.readByte a = m.readByte a
  nvram : ∀ slot, ¬nvram slot → n.readNvram slot = m.readNvram slot

namespace Framed

variable {ram ram' : RamAddress → Prop} {nvram nvram' : Fin nvramSize → Prop}
  {m n o : GuestMemory}

theorem refl (m : GuestMemory) : Framed ram nvram m m :=
  ⟨rfl, rfl, rfl, fun _ _ => rfl, fun _ _ => rfl⟩

theorem trans (first : Framed ram nvram m n) (second : Framed ram nvram n o) :
    Framed ram nvram m o where
  roms := second.roms.trans first.roms
  romBank := second.romBank.trans first.romBank
  highResolution := second.highResolution.trans first.highResolution
  ram a outside := (second.ram a outside).trans (first.ram a outside)
  nvram slot outside := (second.nvram slot outside).trans (first.nvram slot outside)

theorem mono (framed : Framed ram nvram m n) (moreRam : ∀ a, ram a → ram' a)
    (moreNvram : ∀ slot, nvram slot → nvram' slot) : Framed ram' nvram' m n where
  roms := framed.roms
  romBank := framed.romBank
  highResolution := framed.highResolution
  ram a outside := framed.ram a (mt (moreRam a) outside)
  nvram slot outside := framed.nvram slot (mt (moreNvram slot) outside)

end Framed

theorem origin_of_lt {shadowed : Bool} {i : Nat} (inRam : i < ramSize) : origin shadowed i = i := by
  rw [origin, decide_eq_false (Nat.not_le.2 inRam), Bool.and_false, if_neg Bool.false_ne_true]

variable (m : GuestMemory)

theorem framed_store {ram : RamAddress → Prop} {store : Block storeSize}
    (same : ∀ a, ¬ram a → ({ m with store } : GuestMemory).readByte a = m.readByte a) :
    Framed ram (fun _ => False) m { m with store } :=
  ⟨rfl, rfl, rfl, same, fun _ _ => rfl⟩

theorem readByte_writeByte (a b : RamAddress) (v : Byte) :
    (m.writeByte a v).readByte b = if b.val = a.val then v else m.readByte b := by
  change (storeByte m.store m.highResolution a v)[b.val] = _
  rw [getElem_storeByte, origin_of_lt b.isLt]
  rfl

theorem framed_writeByte (a : RamAddress) (v : Byte) :
    Framed (fun b => b.val = a.val) (fun _ => False) m (m.writeByte a v) := by
  apply framed_store
  intro b outside
  exact (m.readByte_writeByte a b v).trans (if_neg outside)

/-- What a halfword holds at a byte of RAM. The first of two bytes is the high one. -/
def halfByte (v : HalfWord) (a : RamAddress) : Byte := if a.val % 2 = 0 then v.byte0 else v.byte1

theorem readByte_of_half {a b : RamAddress} (same : b.val / 2 = a.val / 2) :
    m.readByte b = halfByte (m.readHalfWord a) b := by
  have inRam := a.halfStart_le
  let high : RamAddress := ⟨a.halfStart, by omega⟩
  let low : RamAddress := ⟨a.halfStart + 1, by omega⟩
  have half : m.readHalfWord a = .ofBytes (m.readByte high) (m.readByte low) := rfl
  rw [half, halfByte]
  split
  next even =>
    have first : b = high := by
      refine Fin.ext ?_
      change b.val = a.val / 2 * 2
      omega
    rw [first, HalfWord.byte0_ofBytes]
  next odd =>
    have second : b = low := by
      refine Fin.ext ?_
      change b.val = a.val / 2 * 2 + 1
      omega
    rw [second, HalfWord.byte1_ofBytes]

theorem readByte_writeHalfWord (a b : RamAddress) (v : HalfWord) :
    (m.writeHalfWord a v).readByte b =
      if b.val / 2 = a.val / 2 then halfByte v b else m.readByte b := by
  have inRam := a.halfStart_le
  let high : RamAddress := ⟨a.halfStart, by omega⟩
  let low : RamAddress := ⟨a.halfStart + 1, by omega⟩
  have bytes : m.writeHalfWord a v = (m.writeByte high v.byte0).writeByte low v.byte1 := rfl
  have first : b.val = high.val ↔ b.val / 2 = a.val / 2 ∧ b.val % 2 = 0 := by
    change b.val = a.val / 2 * 2 ↔ _
    omega
  have second : b.val = low.val ↔ b.val / 2 = a.val / 2 ∧ b.val % 2 ≠ 0 := by
    change b.val = a.val / 2 * 2 + 1 ↔ _
    omega
  rw [bytes, readByte_writeByte, readByte_writeByte, halfByte]
  simp only [first, second]
  by_cases same : b.val / 2 = a.val / 2 <;> by_cases even : b.val % 2 = 0 <;> simp [same, even]

/-- Of a halfword that is written none but its two bytes change. -/
theorem framed_writeHalfWord (a : RamAddress) (v : HalfWord) :
    Framed (fun b => b.val / 2 = a.val / 2) (fun _ => False) m (m.writeHalfWord a v) := by
  apply framed_store
  intro b outside
  exact (m.readByte_writeHalfWord a b v).trans (if_neg outside)

theorem sub_vramStart_lt (b : RamAddress) : b.val - vramStart < vramSize := by
  have := b.isLt
  have := layout
  omega

theorem readByte_withVram (vram : Block vramSize) (b : RamAddress) :
    (m.withVram vram).readByte b =
      if vramStart ≤ b.val then
        have := sub_vramStart_lt b
        vram[b.val - vramStart]
      else m.readByte b := by
  have size : vram.bytes.size = vramSize := vram.size_bytes
  have fits : vramStart + vram.bytes.size ≤ storeSize := by
    have := layout
    omega
  have inVram := sub_vramStart_lt b
  have replaced : (m.withVram vram).readByte b = _ := m.store.getElem_blit fits _
  rw [replaced]
  by_cases inside : vramStart ≤ b.val
  · rw [if_pos inside, dif_pos ⟨inside, by omega⟩]
    rfl
  · rw [if_neg inside, dif_neg fun both => inside both.1]
    rfl

theorem framed_withVram (vram : Block vramSize) :
    Framed (fun b => vramStart ≤ b.val) (fun _ => False) m (m.withVram vram) := by
  apply framed_store
  intro b outside
  exact (m.readByte_withVram vram b).trans (if_neg outside)

theorem framed_writeNvram (slot : Fin nvramSize) (v : Byte) :
    Framed (fun _ => False) (fun other => other = slot) m (m.writeNvram slot v) where
  roms := rfl
  romBank := rfl
  highResolution := rfl
  ram _ _ := rfl
  nvram other outside := by
    have apart : slot.val ≠ other.val := fun same => outside (Fin.ext same.symm)
    exact m.nvram.getElem_set_ne v slot.isLt other.isLt apart

end GuestMemory

end ArmConsole
