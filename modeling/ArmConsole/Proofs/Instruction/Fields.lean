import ArmConsole.Instruction.Encode
import ArmConsole.Proofs.Word
import Mathlib.Tactic.IntervalCases

/-!
Words as sums of fields. A field is a quotient and a remainder of the number that a word is, so
that a word which is given as a sum of fields can be read by arithmetic. The tests that tell
classes of instructions apart are statements about fields as well.
-/

namespace ArmConsole

namespace Word

variable {w : Word}

theorem toNat_ofNat {n : Nat} (small : n < 32) : (UInt32.ofNat n).toNat = n :=
  UInt32.toNat_ofNat_of_lt' (Nat.lt_trans small (by decide))

/-! ### Writing -/

theorem toNat_shiftLeft_of_fits {low : Word} (inWord : low.toNat < 32)
    (fits : w.toNat * 2 ^ low.toNat < 2 ^ 32) : (w <<< low).toNat = w.toNat * 2 ^ low.toNat := by
  rw [UInt32.toNat_shiftLeft, Nat.mod_eq_of_lt inWord, Nat.shiftLeft_eq, Nat.mod_eq_of_lt fits]

theorem toNat_ofFlag (b : Bool) {low : Word} (inWord : low.toNat < 32) :
    (ofFlag b low).toNat = b.toNat * 2 ^ low.toNat := by
  have number : b.toUInt32.toNat = b.toNat := by cases b <;> rfl
  have power : 2 ^ low.toNat < 2 ^ 32 := Nat.pow_lt_pow_right (by decide) inWord
  have fits : b.toNat * 2 ^ low.toNat < 2 ^ 32 :=
    Nat.lt_of_le_of_lt (Nat.mul_le_of_le_div _ _ _ (by simpa using b.toNat_le)) power
  rw [ofFlag, toNat_shiftLeft_of_fits inWord (by rwa [number]), number]

theorem toNat_ofRegister (r : RegisterNumber) {low : Word} (inWord : low.toNat ≤ 28) :
    (ofRegister r low).toNat = r.val * 2 ^ low.toNat := by
  have number : (UInt32.ofNat r.val).toNat = r.val := toNat_ofNat (by omega)
  have power : 2 ^ low.toNat ≤ 2 ^ 28 := Nat.pow_le_pow_right (by decide) inWord
  have fits : r.val * 2 ^ low.toNat < 2 ^ 32 := by
    have product := Nat.mul_le_mul (Nat.le_of_lt_succ r.isLt) power
    omega
  rw [ofRegister, toNat_shiftLeft_of_fits (by omega) (by rwa [number]), number]

/-! ### Reading -/

theorem toNat_field (w : Word) (low width : Nat) (fits : low < 32 ∧ width < 32) :
    (w.field (.ofNat low) (.ofNat width)).toNat = w.toNat / 2 ^ low % 2 ^ width := by
  obtain ⟨inWord, narrow⟩ := fits
  have number := toNat_ofNat narrow
  have shifted : ((1 : Word) <<< UInt32.ofNat width).toNat = 2 ^ width := by
    have power : 2 ^ width < 2 ^ 32 := Nat.pow_lt_pow_right (by decide) narrow
    rw [toNat_shiftLeft_of_fits (by omega) (by simpa [number] using power), number]
    exact Nat.one_mul _
  have ones : ((1 : Word) <<< UInt32.ofNat width - 1).toNat = 2 ^ width - 1 := by
    rw [UInt32.toNat_sub_of_le, shifted, UInt32.toNat_one]
    rw [UInt32.le_iff_toNat_le, shifted]
    exact Nat.two_pow_pos width
  rw [field, toNat_and_mask _ ones, UInt32.toNat_shiftRight, toNat_ofNat inWord,
    Nat.mod_eq_of_lt inWord, Nat.shiftRight_eq_div_pow]

theorem field_of_toNat {v : Word} (low width : Nat) (fits : low < 32 ∧ width < 32)
    (same : w.toNat / 2 ^ low % 2 ^ width = v.toNat) :
    w.field (.ofNat low) (.ofNat width) = v := by
  rw [← UInt32.toNat_inj, w.toNat_field low width fits, same]

theorem bit_of_toNat {b : Bool} (i : Nat) (inWord : i < 32)
    (same : w.toNat / 2 ^ i % 2 = b.toNat) : w.bit (.ofNat i) = b := by
  have number := toNat_ofNat inWord
  have digit : w.toBitVec.getLsbD i = decide (w.toNat / 2 ^ i % 2 = 1) :=
    Nat.testBit_eq_decide_div_mod_eq
  rw [bit_eq_getLsbD w (by omega), number, digit, same]
  cases b <;> rfl

theorem toNat_bit (w : Word) {i : Nat} (inWord : i < 32) :
    (w.bit (.ofNat i)).toNat = w.toNat / 2 ^ i % 2 := by
  obtain zero | one := Nat.mod_two_eq_zero_or_one (w.toNat / 2 ^ i)
  · rw [bit_of_toNat (b := false) i inWord zero, zero]
    rfl
  · rw [bit_of_toNat (b := true) i inWord one, one]
    rfl

theorem registerField_of_val {r : RegisterNumber} (low : Nat) (inWord : low < 32)
    (same : w.toNat / 2 ^ low % 2 ^ 4 = r.val) : w.registerField (.ofNat low) = r := by
  apply Fin.ext
  rw [← same]
  exact w.toNat_field low 4 ⟨inWord, by decide⟩

/-! ### Two's complement -/

theorem toSigned_eq (w : Word) :
    w.toSigned = if w.toNat < 2 ^ 31 then (w.toNat : Int) else w.toNat - 2 ^ 32 := by
  have cond : w.toSigned = if 2 * w.toNat < 2 ^ 32 then (w.toNat : Int) else w.toNat - 2 ^ 32 :=
    BitVec.toInt_eq_toNat_cond w.toBitVec
  rw [cond]
  split <;> split <;> omega

theorem toBitVec_shiftRightSigned (w : Word) {n : Nat} (inWord : n < 32) :
    (w.shiftRightSigned (.ofNat n)).toBitVec = w.toBitVec.sshiftRight n := by
  have places : (((UInt32.ofNat n).toInt32.toBitVec).smod 32).toNat = n := by
    interval_cases n <;> rfl
  rw [shiftRightSigned, Int32.toBitVec_toUInt32, Int32.toBitVec_shiftRight, BitVec.sshiftRight_eq',
    places, UInt32.toBitVec_toInt32]

/-- Shifting the sign in divides and rounds down. -/
theorem toSigned_shiftRightSigned (w : Word) {n : Nat} (inWord : n < 32) :
    (w.shiftRightSigned (.ofNat n)).toSigned = w.toSigned / 2 ^ n := by
  change (w.shiftRightSigned (.ofNat n)).toBitVec.toInt = w.toBitVec.toInt / 2 ^ n
  rw [w.toBitVec_shiftRightSigned inWord, BitVec.toInt_sshiftRight, Int.shiftRight_eq_div_pow]
  norm_cast

/-- A signed number of 24 bits that counts words, in bytes. -/
theorem toNat_signExtend_shiftLeft (narrow : w.toNat < 2 ^ 24) :
    (w.signExtend 24 <<< 2).toNat =
      if w.toNat < 2 ^ 23 then 4 * w.toNat else 2 ^ 32 - 2 ^ 26 + 4 * w.toNat := by
  have eight : (32 - 24 : Word) = .ofNat 8 := rfl
  have fits : w.toNat * 2 ^ 8 < 2 ^ 32 := by omega
  have shifted : (w <<< 8).toNat = w.toNat * 2 ^ 8 := toNat_shiftLeft_of_fits (by decide) fits
  have extended : (w.signExtend 24).toSigned = (w <<< 8).toSigned / 2 ^ 8 := by
    rw [signExtend, eight, toSigned_shiftRightSigned _ (by decide)]
    rfl
  have four : ((w.signExtend 24) <<< 2).toNat = (w.signExtend 24).toNat * 4 % 2 ^ 32 := by
    rw [UInt32.toNat_shiftLeft, Nat.shiftLeft_eq]
    rfl
  have bound := (w.signExtend 24).toNat_lt
  rw [toSigned_eq, toSigned_eq, shifted] at extended
  rw [four]
  split at extended <;> split at extended <;> split <;> omega

end Word

/-! ### Tests -/

/-- A field of a masked number is masked by that field of the mask. -/
theorem and_digits (a m low width : Nat) :
    (a &&& m) / 2 ^ low % 2 ^ width = (a / 2 ^ low % 2 ^ width) &&& (m / 2 ^ low % 2 ^ width) := by
  rw [Nat.and_div_two_pow, Nat.and_mod_two_pow]

theorem and_digits_of_ones {a m low width : Nat} (ones : m / 2 ^ low % 2 ^ width = 2 ^ width - 1) :
    (a &&& m) / 2 ^ low % 2 ^ width = a / 2 ^ low % 2 ^ width := by
  rw [and_digits, ones, Nat.and_two_pow_sub_one_eq_mod, Nat.mod_mod]

theorem and_digits_of_zeros {a m low width : Nat} (zeros : m / 2 ^ low % 2 ^ width = 0) :
    (a &&& m) / 2 ^ low % 2 ^ width = 0 := by
  rw [and_digits, zeros, Nat.and_zero]

namespace Instruction

variable {w : Word}

theorem isMultiply_iff :
    isMultiply w = true ↔ w.toNat / 2 ^ 22 % 2 ^ 6 = 0 ∧ w.toNat / 2 ^ 4 % 2 ^ 4 = 9 := by
  have masked : (w &&& 0x0FC000F0).toNat = w.toNat &&& 0x0FC000F0 := UInt32.toNat_and ..
  have bound := (w &&& 0x0FC000F0).toNat_lt
  have above : (w.toNat &&& 0x0FC000F0) / 2 ^ 28 % 2 ^ 4 = 0 := and_digits_of_zeros rfl
  have first : (w.toNat &&& 0x0FC000F0) / 2 ^ 22 % 2 ^ 6 = _ := and_digits_of_ones rfl
  have between : (w.toNat &&& 0x0FC000F0) / 2 ^ 8 % 2 ^ 14 = 0 := and_digits_of_zeros rfl
  have second : (w.toNat &&& 0x0FC000F0) / 2 ^ 4 % 2 ^ 4 = _ := and_digits_of_ones rfl
  have below : (w.toNat &&& 0x0FC000F0) / 2 ^ 0 % 2 ^ 4 = 0 := and_digits_of_zeros rfl
  have pattern : (0x90 : Word).toNat = 0x90 := rfl
  rw [isMultiply, beq_iff_eq, ← UInt32.toNat_inj, pattern]
  rw [masked] at *
  generalize w.toNat &&& 0x0FC000F0 = x at *
  constructor
  · rintro rfl
    exact ⟨first.symm, second.symm⟩
  · rintro ⟨zero, nine⟩
    omega

theorem isSwap_iff :
    isSwap w = true ↔ w.toNat / 2 ^ 23 % 2 ^ 5 = 2 ∧ w.toNat / 2 ^ 20 % 2 ^ 2 = 0 ∧
      w.toNat / 2 ^ 4 % 2 ^ 8 = 9 := by
  have masked : (w &&& 0x0FB00FF0).toNat = w.toNat &&& 0x0FB00FF0 := UInt32.toNat_and ..
  have bound := (w &&& 0x0FB00FF0).toNat_lt
  have above : (w.toNat &&& 0x0FB00FF0) / 2 ^ 28 % 2 ^ 4 = 0 := and_digits_of_zeros rfl
  have first : (w.toNat &&& 0x0FB00FF0) / 2 ^ 23 % 2 ^ 5 = _ := and_digits_of_ones rfl
  have width : (w.toNat &&& 0x0FB00FF0) / 2 ^ 22 % 2 ^ 1 = 0 := and_digits_of_zeros rfl
  have second : (w.toNat &&& 0x0FB00FF0) / 2 ^ 20 % 2 ^ 2 = _ := and_digits_of_ones rfl
  have registers : (w.toNat &&& 0x0FB00FF0) / 2 ^ 12 % 2 ^ 8 = 0 := and_digits_of_zeros rfl
  have third : (w.toNat &&& 0x0FB00FF0) / 2 ^ 4 % 2 ^ 8 = _ := and_digits_of_ones rfl
  have below : (w.toNat &&& 0x0FB00FF0) / 2 ^ 0 % 2 ^ 4 = 0 := and_digits_of_zeros rfl
  have pattern : (0x01000090 : Word).toNat = 0x01000090 := rfl
  rw [isSwap, beq_iff_eq, ← UInt32.toNat_inj, pattern]
  rw [masked] at *
  generalize w.toNat &&& 0x0FB00FF0 = x at *
  constructor
  · rintro rfl
    exact ⟨first.symm, second.symm, third.symm⟩
  · rintro ⟨two, zero, nine⟩
    omega

theorem isUndefined_iff :
    isUndefined w = true ↔ w.toNat / 2 ^ 25 % 2 ^ 3 = 3 ∧ w.toNat / 2 ^ 4 % 2 ^ 1 = 1 := by
  have masked : (w &&& 0x0E000010).toNat = w.toNat &&& 0x0E000010 := UInt32.toNat_and ..
  have bound := (w &&& 0x0E000010).toNat_lt
  have above : (w.toNat &&& 0x0E000010) / 2 ^ 28 % 2 ^ 4 = 0 := and_digits_of_zeros rfl
  have first : (w.toNat &&& 0x0E000010) / 2 ^ 25 % 2 ^ 3 = _ := and_digits_of_ones rfl
  have between : (w.toNat &&& 0x0E000010) / 2 ^ 5 % 2 ^ 20 = 0 := and_digits_of_zeros rfl
  have second : (w.toNat &&& 0x0E000010) / 2 ^ 4 % 2 ^ 1 = _ := and_digits_of_ones rfl
  have below : (w.toNat &&& 0x0E000010) / 2 ^ 0 % 2 ^ 4 = 0 := and_digits_of_zeros rfl
  have pattern : (0x06000010 : Word).toNat = 0x06000010 := rfl
  rw [isUndefined, beq_iff_eq, ← UInt32.toNat_inj, pattern]
  rw [masked] at *
  generalize w.toNat &&& 0x0E000010 = x at *
  constructor
  · rintro rfl
    exact ⟨first.symm, second.symm⟩
  · rintro ⟨three, one⟩
    omega

end Instruction

end ArmConsole
