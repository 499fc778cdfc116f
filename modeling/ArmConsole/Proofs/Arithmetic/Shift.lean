import ArmConsole.Arithmetic.Shift
import ArmConsole.Processor.Execute
import ArmConsole.Proofs.Instruction.Fields
import Mathlib.Logic.Function.Iterate

/-!
The barrel shifter and shifting bit by bit. A step shifts by one place and keeps the bit that leaves
the word as the carry. Main statement: the shifter does as many steps as the amount says, whatever
the amount is, and so do the amounts in instructions and rotated numbers, up to the rotation through
carry, which is one of 33 bits.
-/

namespace ArmConsole

/-- In a rotation, bits come from as many places to the left, around the end of the word. -/
theorem getLsbD_rotateRight_mod {width : Nat} (v : BitVec width) (n : Nat) {j : Nat}
    (inWord : j < width) : (v.rotateRight n).getLsbD j = v.getLsbD ((n + j) % width) := by
  have within := Nat.mod_lt n (Nat.zero_lt_of_lt inWord)
  rw [BitVec.getLsbD_rotateRight, ← Nat.mod_add_mod]
  generalize n % width = turns at *
  by_cases below : j < width - turns
  · rw [decide_eq_true below, cond_true, Nat.mod_eq_of_lt (by omega)]
  · have place : (turns + j) % width = j - (width - turns) := by
      rw [Nat.mod_eq_sub_mod (by omega), Nat.mod_eq_of_lt (by omega)]
      omega
    rw [decide_eq_false below, cond_false, decide_eq_true inWord, Bool.true_and, place]

/-- An arithmetic shift beyond the word leaves the sign everywhere. -/
theorem getLsbD_sshiftRight_sign (v : BitVec 32) {n : Nat} (beyond : 31 ≤ n) {j : Nat}
    (inWord : j < 32) : (v.sshiftRight n).getLsbD j = v.msb := by
  rw [BitVec.getLsbD_sshiftRight, decide_eq_false (Nat.not_le.2 inWord), BitVec.msb_eq_getLsbD_last]
  split
  next last =>
    have place : n + j = 31 := by omega
    rw [place]
    rfl
  next => rfl

namespace ShiftKind

/-- A shift by one place. The bit that leaves the word is the carry. -/
def step : ShiftKind → Shifted → Shifted
  | lsl, s => ⟨s.value <<< 1, s.value.bit 31⟩
  | lsr, s => ⟨s.value >>> 1, s.value.bit 0⟩
  | asr, s => ⟨(s.value >>> 1) ||| (s.value &&& 0x80000000), s.value.bit 0⟩
  | ror, s => ⟨(s.value >>> 1) ||| (s.value <<< 31), s.value.bit 0⟩

/-- All bits moved by `n` places. -/
def moved (v : BitVec 32) (n : Nat) : ShiftKind → BitVec 32
  | lsl => v <<< n
  | lsr => v >>> n
  | asr => v.sshiftRight n
  | ror => v.rotateRight n

/-- The bit that leaves the word in a step. -/
def leaving (v : BitVec 32) : ShiftKind → Bool
  | lsl => v.getLsbD 31
  | lsr | asr | ror => v.getLsbD 0

/-! ### Steps -/

theorem moved_zero (kind : ShiftKind) (v : BitVec 32) : kind.moved v 0 = v := by
  cases kind with
  | lsl => exact BitVec.shiftLeft_zero v
  | lsr => exact BitVec.ushiftRight_zero v
  | asr => exact BitVec.sshiftRight_zero
  | ror =>
    apply BitVec.eq_of_getLsbD_eq
    intro j inWord
    change (v.rotateRight 0).getLsbD j = _
    rw [getLsbD_rotateRight_mod v 0 inWord, Nat.zero_add, Nat.mod_eq_of_lt inWord]

theorem moved_succ (kind : ShiftKind) (v : BitVec 32) (n : Nat) :
    kind.moved v (n + 1) = kind.moved (kind.moved v n) 1 := by
  cases kind with
  | lsl => exact BitVec.shiftLeft_add v n 1
  | lsr => exact BitVec.shiftRight_add v n 1
  | asr => exact BitVec.sshiftRight_add
  | ror =>
    apply BitVec.eq_of_getLsbD_eq
    intro j inWord
    have place : (n + 1 + j) % 32 = (n + (1 + j) % 32) % 32 := by omega
    change (v.rotateRight (n + 1)).getLsbD j = ((v.rotateRight n).rotateRight 1).getLsbD j
    rw [getLsbD_rotateRight_mod v _ inWord, getLsbD_rotateRight_mod _ 1 inWord,
      getLsbD_rotateRight_mod v n (Nat.mod_lt _ (by decide)), place]

theorem toBitVec_value_step (kind : ShiftKind) (s : Shifted) :
    (kind.step s).value.toBitVec = kind.moved s.value.toBitVec 1 := by
  cases kind with
  | lsl => exact s.value.toBitVec_shiftLeft 1
  | lsr => exact s.value.toBitVec_shiftRight 1
  | asr =>
    apply BitVec.eq_of_getLsbD_eq
    intro j inWord
    have mask : (0x80000000 : Word).toBitVec.getLsbD j = decide (31 = j) :=
      Word.getLsbD_one_shiftLeft (i := 31) (by decide) inWord
    have shifted : (s.value >>> 1).toBitVec.getLsbD j = s.value.toBitVec.getLsbD (1 + j) := by
      rw [Word.toBitVec_shiftRight]
      exact BitVec.getLsbD_ushiftRight ..
    change (s.value >>> 1 ||| s.value &&& 0x80000000).toBitVec.getLsbD j =
      (s.value.toBitVec.sshiftRight 1).getLsbD j
    rw [UInt32.toBitVec_or, UInt32.toBitVec_and, BitVec.getLsbD_or, BitVec.getLsbD_and, mask,
      shifted, BitVec.getLsbD_sshiftRight, decide_eq_false (Nat.not_le.2 inWord)]
    -- The mask keeps the sign, for which the shift has made room.
    by_cases last : j = 31
    · subst last
      rw [BitVec.getLsbD_of_ge _ _ (by decide), BitVec.msb_eq_getLsbD_last]
      simp
    · rw [decide_eq_false (Ne.symm last), if_pos (by omega)]
      simp
  | ror =>
    change (s.value.rotateRight 1).toBitVec = _
    exact s.value.toBitVec_rotateRight 1

theorem carry_step (kind : ShiftKind) (s : Shifted) :
    (kind.step s).carry = kind.leaving s.value.toBitVec := by
  cases kind with
  | lsl => exact Word.bit_eq_getLsbD _ (by decide)
  | lsr => exact Word.bit_eq_getLsbD _ (by decide)
  | asr => exact Word.bit_eq_getLsbD _ (by decide)
  | ror => exact Word.bit_eq_getLsbD _ (by decide)

theorem toBitVec_value_iterate (kind : ShiftKind) (s : Shifted) (n : Nat) :
    (kind.step^[n] s).value.toBitVec = kind.moved s.value.toBitVec n := by
  induction n with
  | zero => exact (kind.moved_zero _).symm
  | succ n ih => rw [Function.iterate_succ_apply', toBitVec_value_step, ih, ← moved_succ]

/-- After some steps, the carry is what the last of them moved out. -/
theorem iterate_succ (kind : ShiftKind) (s : Shifted) (n : Nat) :
    kind.step^[n + 1] s =
      ⟨.ofBitVec (kind.moved s.value.toBitVec (n + 1)),
        kind.leaving (kind.moved s.value.toBitVec n)⟩ := by
  have value := kind.toBitVec_value_iterate s (n + 1)
  have carry : (kind.step^[n + 1] s).carry = kind.leaving (kind.moved s.value.toBitVec n) := by
    rw [Function.iterate_succ_apply', carry_step, toBitVec_value_iterate]
  rw [← value, ← carry]

/-! ### The shifter -/

section

variable {amount rm : Word} {carry : Bool} {n : Nat}

theorem ne_zero_of_count (count : amount.toNat = n + 1) : ¬(amount == 0) = true := by
  intro zero
  rw [beq_iff_eq.1 zero] at count
  contradiction

theorem lt_width_iff (count : amount.toNat = n + 1) : amount < 32 ↔ n + 1 < 32 := by
  rw [UInt32.lt_iff_toNat_lt, count]
  rfl

theorem eq_width_iff (count : amount.toNat = n + 1) : (amount == 32) = true ↔ n = 31 := by
  have width : (32 : Word).toNat = 32 := rfl
  rw [beq_iff_eq, ← UInt32.toNat_inj, count, width, Nat.succ_inj]

theorem toNat_sub_one (count : amount.toNat = n + 1) : (amount - 1).toNat = n := by
  have one : (1 : Word).toNat = 1 := rfl
  have bound := amount.toNat_lt
  rw [UInt32.toNat_sub, one, count]
  omega

theorem apply_lsl (count : amount.toNat = n + 1) :
    lsl.apply amount rm carry =
      ⟨.ofBitVec (rm.toBitVec <<< (n + 1)), (rm.toBitVec <<< n).getLsbD 31⟩ := by
  rw [apply, if_neg (ne_zero_of_count count)]
  by_cases inside : n + 1 < 32
  · have width : (32 : Word).toNat = 32 := rfl
    have place : (32 - amount).toNat = 31 - n := by
      rw [UInt32.toNat_sub, width, count]
      omega
    rw [if_pos ((lt_width_iff count).2 inside)]
    refine congrArg₂ Shifted.mk ?value ?out
    case value =>
      rw [← UInt32.toBitVec_inj, Word.toBitVec_shiftLeft, count, Nat.mod_eq_of_lt inside]
    case out =>
      rw [Word.bit_eq_getLsbD rm (by omega), place, BitVec.getLsbD_shiftLeft,
        decide_eq_true (by omega : 31 < 32), decide_eq_false (by omega : ¬31 < n)]
      rfl
  · -- The lowest bit leaves in step 32, and zeros from then on.
    rw [if_neg (mt (lt_width_iff count).1 inside), BitVec.shiftLeft_eq_zero (Nat.not_lt.1 inside)]
    by_cases last : n = 31
    · rw [if_pos ((eq_width_iff count).2 last), last]
      refine congrArg (Shifted.mk 0) ?_
      rw [Word.bit_eq_getLsbD rm (by decide), BitVec.getLsbD_shiftLeft]
      rfl
    · rw [if_neg (mt (eq_width_iff count).1 last), BitVec.shiftLeft_eq_zero (by omega : 32 ≤ n)]
      rfl

theorem apply_lsr (count : amount.toNat = n + 1) :
    lsr.apply amount rm carry =
      ⟨.ofBitVec (rm.toBitVec >>> (n + 1)), (rm.toBitVec >>> n).getLsbD 0⟩ := by
  rw [apply, if_neg (ne_zero_of_count count), BitVec.getLsbD_ushiftRight]
  by_cases inside : n + 1 < 32
  · have place := toNat_sub_one count
    rw [if_pos ((lt_width_iff count).2 inside)]
    refine congrArg₂ Shifted.mk ?value ?out
    case value =>
      rw [← UInt32.toBitVec_inj, Word.toBitVec_shiftRight, count, Nat.mod_eq_of_lt inside]
    case out => rw [Word.bit_eq_getLsbD rm (by omega), place, Nat.add_zero]
  · rw [if_neg (mt (lt_width_iff count).1 inside),
      BitVec.ushiftRight_eq_zero (Nat.not_lt.1 inside)]
    by_cases last : n = 31
    · rw [if_pos ((eq_width_iff count).2 last), last, Word.bit_eq_getLsbD rm (by decide)]
      rfl
    · rw [if_neg (mt (eq_width_iff count).1 last),
        BitVec.getLsbD_of_ge _ _ (by omega : 32 ≤ n + 0)]
      rfl

theorem apply_asr (count : amount.toNat = n + 1) :
    asr.apply amount rm carry =
      ⟨.ofBitVec (rm.toBitVec.sshiftRight (n + 1)), (rm.toBitVec.sshiftRight n).getLsbD 0⟩ := by
  rw [apply, if_neg (ne_zero_of_count count)]
  by_cases inside : n + 1 < 32
  · have number : amount = .ofNat (n + 1) := by rw [← count, UInt32.ofNat_toNat]
    have place := toNat_sub_one count
    rw [if_pos ((lt_width_iff count).2 inside)]
    refine congrArg₂ Shifted.mk ?value ?out
    case value => rw [← UInt32.toBitVec_inj, number, rm.toBitVec_shiftRightSigned inside]
    case out =>
      rw [Word.bit_eq_getLsbD rm (by omega), place, BitVec.getLsbD_sshiftRight,
        if_pos (by omega : n + 0 < 32)]
      rfl
  · have beyond : 31 ≤ n := by omega
    have signs : (rm.shiftRightSigned 31).toBitVec = rm.toBitVec.sshiftRight 31 :=
      rm.toBitVec_shiftRightSigned (by decide)
    rw [if_neg (mt (lt_width_iff count).1 inside)]
    refine congrArg₂ Shifted.mk ?value ?out
    case value =>
      rw [← UInt32.toBitVec_inj, signs]
      apply BitVec.eq_of_getLsbD_eq
      intro j inWord
      rw [getLsbD_sshiftRight_sign _ (Nat.le_refl _) inWord,
        getLsbD_sshiftRight_sign _ (Nat.le_succ_of_le beyond) inWord]
    case out =>
      rw [getLsbD_sshiftRight_sign _ beyond (by decide), Word.bit_eq_getLsbD rm (by decide),
        BitVec.msb_eq_getLsbD_last]
      rfl

theorem apply_ror (count : amount.toNat = n + 1) :
    ror.apply amount rm carry =
      ⟨.ofBitVec (rm.toBitVec.rotateRight (n + 1)), (rm.toBitVec.rotateRight n).getLsbD 0⟩ := by
  have one : (1 : Word).toNat = 1 := rfl
  have turns : (amount &&& 31).toNat = (n + 1) % 32 := by
    rw [← count]
    exact Word.toNat_and_mask amount (k := 5) rfl
  have reduced : rm.toBitVec.rotateRight (n + 1) = rm.toBitVec.rotateRight (amount &&& 31).toNat := by
    rw [turns, BitVec.rotateRight_mod_eq_rotateRight]
  rw [apply, if_neg (ne_zero_of_count count), getLsbD_rotateRight_mod _ n (by decide), reduced]
  dsimp only
  by_cases whole : (amount &&& 31) = 0
  · -- Full turns put the last bit back where it was, and it is what moved last.
    have last : (n + 0) % 32 = 31 := by
      rw [whole] at turns
      change 0 = _ at turns
      omega
    rw [if_pos (beq_iff_eq.2 whole), whole, last]
    refine congrArg₂ Shifted.mk ?value ?out
    case value => exact UInt32.toBitVec_inj.1 (ror.moved_zero rm.toBitVec).symm
    case out => exact Word.bit_eq_getLsbD rm (by decide)
  · have some : (amount &&& 31).toNat ≠ 0 := fun zero => whole (UInt32.toNat_inj.1 zero)
    have place : ((amount &&& 31) - 1).toNat = (n + 0) % 32 := by
      rw [UInt32.toNat_sub, one, turns]
      omega
    rw [if_neg (mt beq_iff_eq.1 whole)]
    refine congrArg₂ Shifted.mk ?value ?out
    case value => exact UInt32.toBitVec_inj.1 (rm.toBitVec_rotateRight _)
    case out => rw [Word.bit_eq_getLsbD rm (by omega), place]

end

theorem apply_succ (kind : ShiftKind) {amount : Word} (rm : Word) (carry : Bool) {n : Nat}
    (count : amount.toNat = n + 1) :
    kind.apply amount rm carry =
      ⟨.ofBitVec (kind.moved rm.toBitVec (n + 1)), kind.leaving (kind.moved rm.toBitVec n)⟩ := by
  cases kind with
  | lsl => exact apply_lsl count
  | lsr => exact apply_lsr count
  | asr => exact apply_asr count
  | ror => exact apply_ror count

theorem apply_eq_iterate (kind : ShiftKind) (amount rm : Word) (carry : Bool) :
    kind.apply amount rm carry = kind.step^[amount.toNat] ⟨rm, carry⟩ := by
  cases count : amount.toNat with
  | zero =>
    obtain rfl : amount = 0 := UInt32.toNat_inj.1 count
    rfl
  | succ n => rw [kind.apply_succ rm carry count, iterate_succ]

/-! ### Amounts in instructions -/

/-- How many places the amount field of an instruction stands for. In ROR, 0 stands for something
else. -/
def fieldPlaces (kind : ShiftKind) (amount : Word) : Option Nat :=
  if amount = 0 then
    match kind with
    | lsl => some 0
    | lsr | asr => some 32
    | ror => none
  else some amount.toNat

theorem eq_ror_of_fieldPlaces_none {kind : ShiftKind} {amount : Word}
    (places : kind.fieldPlaces amount = none) : amount = 0 ∧ kind = ror := by
  unfold fieldPlaces at places
  split at places
  next zero =>
    cases kind with
    | lsl => contradiction
    | lsr => contradiction
    | asr => contradiction
    | ror => exact ⟨zero, rfl⟩
  next => contradiction

theorem applyField_eq_iterate {kind : ShiftKind} {amount : Word} {n : Nat}
    (places : kind.fieldPlaces amount = some n) (rm : Word) (carry : Bool) :
    kind.applyField amount rm carry = kind.step^[n] ⟨rm, carry⟩ := by
  unfold fieldPlaces at places
  split at places
  next zero =>
    subst zero
    cases kind with
    | lsl =>
      obtain rfl := Option.some.inj places
      rfl
    | lsr =>
      obtain rfl := Option.some.inj places
      exact lsr.apply_eq_iterate 32 rm carry
    | asr =>
      obtain rfl := Option.some.inj places
      exact asr.apply_eq_iterate 32 rm carry
    | ror => contradiction
  next some =>
    obtain rfl := Option.some.inj places
    have shifts : kind.applyField amount rm carry = kind.apply amount rm carry :=
      if_neg (mt beq_iff_eq.1 some)
    rw [shifts, apply_eq_iterate]

/-- A shifted word with its carry in front. -/
def withCarryBit (s : Shifted) : BitVec 33 := .cons s.carry s.value.toBitVec

theorem getLsbD_withCarryBit (s : Shifted) (j : Nat) :
    (withCarryBit s).getLsbD j = if j = 32 then s.carry else s.value.toBitVec.getLsbD j := by
  rw [withCarryBit, BitVec.getLsbD_cons]

theorem rotateThroughCarry_eq (rm : Word) (carry : Bool) :
    withCarryBit (rotateThroughCarry rm carry) = (withCarryBit ⟨rm, carry⟩).rotateRight 1 := by
  apply BitVec.eq_of_getLsbD_eq
  intro j inWord
  have top (inside : j < 32) : (carry.toUInt32 <<< 31).toBitVec.getLsbD j =
      (carry && decide (31 = j)) := by
    cases carry with
    | false => exact BitVec.getLsbD_zero
    | true => exact Word.getLsbD_one_shiftLeft (i := 31) (by decide) inside
  have shifted : (rm >>> 1).toBitVec.getLsbD j = rm.toBitVec.getLsbD (1 + j) := by
    rw [Word.toBitVec_shiftRight]
    exact BitVec.getLsbD_ushiftRight ..
  rw [getLsbD_rotateRight_mod _ 1 inWord, getLsbD_withCarryBit, getLsbD_withCarryBit]
  by_cases out : j = 32
  · subst out
    exact Word.bit_eq_getLsbD rm (by decide)
  · have inside : j < 32 := by omega
    rw [if_neg out, Nat.mod_eq_of_lt (by omega)]
    change (carry.toUInt32 <<< 31 ||| rm >>> 1).toBitVec.getLsbD j = _
    rw [UInt32.toBitVec_or, BitVec.getLsbD_or, top inside, shifted]
    by_cases last : j = 31
    · subst last
      rw [BitVec.getLsbD_of_ge _ _ (by decide), if_pos rfl]
      simp
    · rw [decide_eq_false (Ne.symm last), if_neg (by omega)]
      simp

/-- A rotated number in an instruction could have gone through the shifter. -/
theorem secondOperand_immediate (p : Processor) (base rotation : Word) :
    p.secondOperand (.immediate base rotation) = ror.apply rotation base p.status.carry := by
  change Shifted.mk (base.rotateRight rotation)
    (if rotation == 0 then p.status.carry else (base.rotateRight rotation).bit 31) = _
  cases count : rotation.toNat with
  | zero =>
    obtain rfl : rotation = 0 := UInt32.toNat_inj.1 count
    rw [Word.rotateRight_zero]
    rfl
  | succ n =>
    have place : (n + 1 + 31) % 32 = (n + 0) % 32 := by omega
    have rotated := base.toBitVec_rotateRight rotation
    rw [count] at rotated
    rw [apply_ror count, if_neg (ne_zero_of_count count)]
    refine congrArg₂ Shifted.mk (UInt32.toBitVec_inj.1 rotated) ?_
    have bit : (base.rotateRight rotation).bit 31 =
        (base.rotateRight rotation).toBitVec.getLsbD 31 := Word.bit_eq_getLsbD _ (by decide)
    rw [bit, rotated, getLsbD_rotateRight_mod _ _ (by decide),
      getLsbD_rotateRight_mod _ _ (by decide), place]

/-- The shifter does as many steps of one place as the amount says, for all amounts. -/
theorem shifter_eq_steps :
    (∀ (kind : ShiftKind) (amount rm : Word) (carry : Bool),
      kind.apply amount rm carry = kind.step^[amount.toNat] ⟨rm, carry⟩) ∧
    (∀ (kind : ShiftKind) (amount rm : Word) (carry : Bool),
      match kind.fieldPlaces amount with
      | some n => kind.applyField amount rm carry = kind.step^[n] ⟨rm, carry⟩
      | none => withCarryBit (kind.applyField amount rm carry) =
          (withCarryBit ⟨rm, carry⟩).rotateRight 1) ∧
    ∀ (p : Processor) (base rotation : Word),
      p.secondOperand (.immediate base rotation) = ror.apply rotation base p.status.carry := by
  refine ⟨apply_eq_iterate, ?_, secondOperand_immediate⟩
  intro kind amount rm carry
  cases places : kind.fieldPlaces amount with
  | some n => exact applyField_eq_iterate places rm carry
  | none =>
    obtain ⟨rfl, rfl⟩ := eq_ror_of_fieldPlaces_none places
    exact rotateThroughCarry_eq rm carry

end ShiftKind

end ArmConsole
