import ArmConsole.Word
import Mathlib.Algebra.BigOperators.Group.Finset.Basic
import Mathlib.Data.Int.Basic

/-!
Sums of products of numbers with 16 fractional bits, modulo 2^64. What is kept of such a sum are its
bits 16 to 47, which no wrapping of the sum reaches. Main statement: the word that is kept is the
exact sum divided by 2^16, rounded down, modulo 2^32.
-/

namespace ArmConsole

namespace FixedPoint

theorem emod_bmod (s : Int) : s.bmod (2 ^ 64) % 2 ^ 64 = s % 2 ^ 64 := Int.bmod_emod

/-- A shift to the right rounds down. -/
theorem toInt_shiftRight (x : Int64) : (x >>> 16).toInt = x.toInt / 2 ^ 16 := by
  have places : ((16 : Int64).toBitVec.smod 64).toNat = 16 := by decide
  rw [← Int64.toInt_toBitVec, Int64.toBitVec_shiftRight, BitVec.sshiftRight_eq', places,
    BitVec.toInt_sshiftRight, Int.shiftRight_eq_div_pow]
  rfl

theorem low_eq_ofInt (x : Int64) : x.toUInt64.toUInt32 = .ofInt x.toInt := by
  have signed : x.toInt = (x.toUInt64.toNat : Int).bmod (2 ^ 64) :=
    BitVec.toInt_eq_toNat_bmod x.toBitVec
  have wide := emod_bmod x.toUInt64.toNat
  rw [← signed] at wide
  rw [← UInt32.toNat_inj, UInt64.toNat_toUInt32, UInt32.ofInt, UInt32.toNat_ofNat']
  omega

theorem low_shiftRight_ofInt (s : Int) :
    (Int64.ofInt s >>> 16).toUInt64.toUInt32 = .ofInt (s / 2 ^ 16) := by
  have wide : (Int64.ofInt s).toInt % 2 ^ 64 = s % 2 ^ 64 := by
    rw [Int64.toInt_ofInt]
    exact emod_bmod s
  have kept : (Int64.ofInt s).toInt / 2 ^ 16 % 2 ^ 32 = s / 2 ^ 16 % 2 ^ 32 := by omega
  rw [low_eq_ofInt, toInt_shiftRight, UInt32.ofInt, UInt32.ofInt, kept]

/-- Adding up modulo 2^64 yields the exact sum modulo 2^64. -/
theorem foldl_range_ofInt (term : Nat → Int) (count : Nat) :
    (List.range count).foldl (fun sum k => sum + Int64.ofInt (term k)) 0 =
      Int64.ofInt (∑ k ∈ Finset.range count, term k) := by
  induction count with
  | zero => rfl
  | succ count ih =>
    rw [List.range_succ, List.foldl_append, ih, Finset.sum_range_succ, Int64.ofInt_add]
    rfl

end FixedPoint

end ArmConsole
