import ArmConsole.Arithmetic.Alu
import ArmConsole.Proofs.Instruction.Fields

/-!
Addition with carry, in numbers. The value and the carry out are the sum of both operands and the
carry in, as digits to the base 2^32; overflow says that the sum of the signed operands is no signed
word. Subtraction is the addition of a complement, which is one less than the negative.
-/

namespace ArmConsole

/-- `x` is a number in two's complement of so many bits. -/
def FitsSigned (bits : Nat) (x : Int) : Prop := -2 ^ (bits - 1) ≤ x ∧ x < 2 ^ (bits - 1)

instance (bits : Nat) (x : Int) : Decidable (FitsSigned bits x) :=
  inferInstanceAs (Decidable (_ ∧ _))

namespace Word

theorem toNat_complement (w : Word) : (~~~w).toNat + w.toNat = 2 ^ 32 - 1 := by
  have bound := w.toNat_lt
  have size : UInt32.size = 2 ^ 32 := rfl
  rw [UInt32.toNat_not, size]
  omega

theorem toSigned_complement (w : Word) : (~~~w).toSigned = -w.toSigned - 1 := by
  have sum := w.toNat_complement
  rw [toSigned_eq, toSigned_eq]
  split <;> split <;> omega

theorem fits_toSigned (w : Word) : FitsSigned 32 w.toSigned := by
  have bound := w.toNat_lt
  unfold FitsSigned
  rw [toSigned_eq]
  split <;> omega

theorem isNegative_eq (w : Word) : w.isNegative = decide (w.toSigned < 0) := by
  have bound := w.toNat_lt
  rw [Bool.eq_iff_iff, isNegative_iff, decide_eq_true_iff, toSigned_eq]
  split <;> omega

end Word

namespace AluResult

variable (a b : Word) (carryIn : Bool)

/-- The sum has no more than 33 bits. -/
theorem toNat_wide :
    (a.toUInt64 + b.toUInt64 + carryIn.toUInt64).toNat = a.toNat + b.toNat + carryIn.toNat := by
  have first := a.toNat_lt
  have second := b.toNat_lt
  have digit : carryIn.toUInt64.toNat = carryIn.toNat := by cases carryIn <;> rfl
  have small := carryIn.toNat_le
  rw [UInt64.toNat_add, UInt64.toNat_add, UInt32.toNat_toUInt64, UInt32.toNat_toUInt64, digit]
  omega

theorem toNat_value :
    (addWithCarry a b carryIn).value.toNat = (a.toNat + b.toNat + carryIn.toNat) % 2 ^ 32 := by
  rw [← toNat_wide]
  exact UInt64.toNat_toUInt32 _

theorem carry_eq :
    (addWithCarry a b carryIn).carry = decide (2 ^ 32 ≤ a.toNat + b.toNat + carryIn.toNat) := by
  have most : (0xFFFFFFFF : UInt64).toNat = 2 ^ 32 - 1 := rfl
  rw [← toNat_wide, Bool.eq_iff_iff, decide_eq_true_iff]
  change decide ((0xFFFFFFFF : UInt64) < a.toUInt64 + b.toUInt64 + carryIn.toUInt64) = true ↔ _
  rw [decide_eq_true_iff, UInt64.lt_iff_toNat_lt, most]
  omega

/-- A digit and a carry. -/
theorem value_add_carry :
    (addWithCarry a b carryIn).value.toNat + 2 ^ 32 * (addWithCarry a b carryIn).carry.toNat =
      a.toNat + b.toNat + carryIn.toNat := by
  have first := a.toNat_lt
  have second := b.toNat_lt
  have small := carryIn.toNat_le
  rw [toNat_value, carry_eq]
  by_cases wraps : 2 ^ 32 ≤ a.toNat + b.toNat + carryIn.toNat
  · rw [decide_eq_true wraps, Bool.toNat_true]
    omega
  · rw [decide_eq_false wraps, Bool.toNat_false]
    omega

/-- The sum of two signed words. -/
def signedSum : Int := a.toSigned + b.toSigned + carryIn.toNat

theorem zero_iff :
    (addWithCarry a b carryIn).zero ↔ (a.toNat + b.toNat + carryIn.toNat) % 2 ^ 32 = 0 := by
  rw [← toNat_value]
  change ((addWithCarry a b carryIn).value == 0) = true ↔ _
  rw [beq_iff_eq, ← UInt32.toNat_inj]
  rfl

theorem overflow_eq :
    (addWithCarry a b carryIn).overflow =
      ((a.isNegative ^^ (addWithCarry a b carryIn).value.isNegative) &&
        (b.isNegative ^^ (addWithCarry a b carryIn).value.isNegative)) := by
  let value := (addWithCarry a b carryIn).value
  change Word.isNegative ((a ^^^ value) &&& (b ^^^ value)) =
    ((a.isNegative ^^ value.isNegative) && (b.isNegative ^^ value.isNegative))
  simp only [← Word.bit_last]
  rw [Word.bit_and _ _ (by decide), Word.bit_xor _ _ (by decide), Word.bit_xor _ _ (by decide)]

/-- The value is the signed sum, or comes back into the word at its other end. -/
theorem toSigned_value_cases :
    FitsSigned 32 (signedSum a b carryIn) ∧
        (addWithCarry a b carryIn).value.toSigned = signedSum a b carryIn ∨
      signedSum a b carryIn < -2 ^ 31 ∧
        (addWithCarry a b carryIn).value.toSigned = signedSum a b carryIn + 2 ^ 32 ∨
      2 ^ 31 ≤ signedSum a b carryIn ∧
        (addWithCarry a b carryIn).value.toSigned = signedSum a b carryIn - 2 ^ 32 := by
  have first := a.toNat_lt
  have second := b.toNat_lt
  have small := carryIn.toNat_le
  have digit := toNat_value a b carryIn
  unfold FitsSigned signedSum
  rw [Word.toSigned_eq, Word.toSigned_eq, Word.toSigned_eq, digit]
  split <;> split <;> split <;> omega

theorem overflow_eq_decide :
    (addWithCarry a b carryIn).overflow = decide (¬FitsSigned 32 (signedSum a b carryIn)) := by
  have first := a.fits_toSigned
  have second := b.fits_toSigned
  have small := carryIn.toNat_le
  have cases := toSigned_value_cases a b carryIn
  unfold FitsSigned signedSum at *
  rw [overflow_eq, Word.isNegative_eq, Word.isNegative_eq, Word.isNegative_eq, Bool.eq_iff_iff]
  simp only [Bool.and_eq_true, bne_iff_ne, ne_eq, decide_eq_decide, decide_eq_true_eq]
  obtain ⟨fits, same⟩ | ⟨below, same⟩ | ⟨above, same⟩ := cases
  all_goals
    rw [same]
    omega

/-- Negative and overflow together say whether the signed sum is below zero. -/
theorem negative_bne_overflow :
    ((addWithCarry a b carryIn).negative != (addWithCarry a b carryIn).overflow) =
      decide (signedSum a b carryIn < 0) := by
  have sign : (addWithCarry a b carryIn).negative =
      decide ((addWithCarry a b carryIn).value.toSigned < 0) := Word.isNegative_eq _
  have first := a.fits_toSigned
  have second := b.fits_toSigned
  have small := carryIn.toNat_le
  have cases := toSigned_value_cases a b carryIn
  rw [sign, overflow_eq_decide, Bool.eq_iff_iff]
  unfold FitsSigned signedSum at *
  simp only [bne_iff_ne, ne_eq, decide_eq_decide, decide_eq_true_eq]
  obtain ⟨fits, same⟩ | ⟨below, same⟩ | ⟨above, same⟩ := cases
  all_goals
    rw [same]
    omega

end AluResult

end ArmConsole
