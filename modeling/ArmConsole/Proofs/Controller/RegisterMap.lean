import ArmConsole.Controller.RegisterMap

/-!
The register map read backwards: where in the window an access was, when what it named is known.
For the signal processor also which place of its windows an offset names.
-/

namespace ArmConsole

namespace ControllerRegister

/-- Where in the window a register is, for those with one place and an effect of their own. -/
def Places (offset : Word) : ControllerRegister → Prop
  | primaryPending .clear => offset = 0x44
  | secondaryPending .clear => offset = 0x64
  | transferEnable .set => offset = 0x304
  | _ => True

theorem aligned_mod_four (offset : Word) : (offset &&& 0xFFFC).toNat % 4 = 0 := by
  rw [UInt32.toNat_and]
  exact (Nat.and_mod_two_pow (n := 2)).trans (Nat.and_zero _)

theorem places_ofOffset (offset : Word) : (ofOffset offset).Places (offset &&& 0xFFFC) := by
  have number (k : Word) (index : (offset &&& 0xFFFC).toNat / 4 = k.toNat / 4)
      (whole : k.toNat % 4 = 0) : offset &&& 0xFFFC = k := by
    have aligned := aligned_mod_four offset
    rw [← UInt32.toNat_inj]
    omega
  have index (n : Nat) : match ofNat n with
      | primaryPending .clear => n / 4 = 0x11
      | secondaryPending .clear => n / 4 = 0x19
      | transferEnable .set => n / 4 = 0xC1
      | _ => True := by
    fun_cases ofNat n <;> trivial
  have here := index (offset &&& 0xFFFC).toNat
  change (ofNat (offset &&& 0xFFFC).toNat).Places _
  split at here
  next named => rw [named]; exact number 0x44 here rfl
  next named => rw [named]; exact number 0x64 here rfl
  next named => rw [named]; exact number 0x304 here rfl
  next primary secondary transfer =>
    unfold Places
    split
    next named => exact (primary named).elim
    next named => exact (secondary named).elim
    next named => exact (transfer named).elim
    next => trivial

/-- The windows of the signal processor, from offset 0x1800 up to 0x37FF. -/
theorem ofNat_signal_cases {n : Nat} (above : 0x1800 ≤ n) (below : n < 0x3800) :
    (∃ i : Fin 512, ofNat n = .instructionPair i ∧ n / 4 = 0x600 + i) ∨
    (∃ i : Fin 1024, ofNat n = .instruction i ∧ n / 4 = 0x800 + i) ∨
    (∃ i : Fin 256, ofNat n = .dataPair i ∧ n / 4 = 0xC00 + i) ∨
    ∃ i : Fin 256, ofNat n = .datum i ∧ n / 4 = 0xD00 + i := by
  unfold ofNat
  rw [if_neg (by omega), dif_neg (by omega), if_neg (by omega), dif_neg (by omega),
    if_neg (by omega), dif_neg (by omega), if_neg (by omega), if_neg (by omega), if_neg (by omega)]
  split
  next => exact .inl ⟨_, rfl, by dsimp only; omega⟩
  next =>
    split
    next => exact .inr (.inl ⟨_, rfl, by dsimp only; omega⟩)
    next =>
      split
      next => exact .inr (.inr (.inl ⟨_, rfl, by dsimp only; omega⟩))
      next => exact .inr (.inr (.inr ⟨_, rfl, by dsimp only; omega⟩))

end ControllerRegister

end ArmConsole
