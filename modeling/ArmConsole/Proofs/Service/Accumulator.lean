import ArmConsole.Proofs.Arithmetic.Alu
import ArmConsole.Proofs.Service.MatrixProduct
import Mathlib.Algebra.Order.BigOperators.Group.Finset
import Mathlib.Tactic.Linarith

/-!
The accumulators of math calls. Products of signed words are added up in 64 bits, where the
difference of two products always has room but a sum of two need not. Main statement: a sum is exact
after every number of terms if the magnitudes of the vector add up to less than 2^32, the
differences of a cross product are exact always, and a sum that has wrapped still yields the exact
result.
-/

namespace ArmConsole

namespace FixedPoint

variable {x y z w : ℤ}

/-- A product of two signed words, its least value as exact as its greatest. -/
theorem product_bounds (hx : FitsSigned 32 x) (hy : FitsSigned 32 y) :
    -(2 ^ 62 - 2 ^ 31) ≤ x * y ∧ x * y ≤ 2 ^ 62 := by
  have low : -2 ^ 31 ≤ x ∧ -2 ^ 31 ≤ y := ⟨hx.1, hy.1⟩
  have high : x ≤ 2 ^ 31 - 1 ∧ y ≤ 2 ^ 31 - 1 :=
    ⟨Int.le_sub_one_of_lt hx.2, Int.le_sub_one_of_lt hy.2⟩
  have first := mul_nonneg (sub_nonneg.2 low.1) (sub_nonneg.2 low.2)
  have second := mul_nonneg (sub_nonneg.2 high.1) (sub_nonneg.2 high.2)
  have third := mul_nonneg (sub_nonneg.2 low.1) (sub_nonneg.2 high.2)
  have fourth := mul_nonneg (sub_nonneg.2 high.1) (sub_nonneg.2 low.2)
  constructor <;> linarith

theorem fits_product (hx : FitsSigned 32 x) (hy : FitsSigned 32 y) : FitsSigned 64 (x * y) := by
  have bounds := product_bounds hx hy
  constructor <;> norm_num <;> linarith

/-- The greatest product is that of the least numbers. -/
theorem product_eq_max_iff (hx : FitsSigned 32 x) (hy : FitsSigned 32 y) :
    x * y = 2 ^ 62 ↔ x = -2 ^ 31 ∧ y = -2 ^ 31 := by
  have low : -2 ^ 31 ≤ x ∧ -2 ^ 31 ≤ y := ⟨hx.1, hy.1⟩
  have high : x ≤ 2 ^ 31 - 1 ∧ y ≤ 2 ^ 31 - 1 :=
    ⟨Int.le_sub_one_of_lt hx.2, Int.le_sub_one_of_lt hy.2⟩
  constructor
  · intro max
    have first := mul_nonneg (sub_nonneg.2 low.1) (sub_nonneg.2 high.2)
    have second := mul_nonneg (sub_nonneg.2 high.1) (sub_nonneg.2 low.2)
    have sum : x + y ≤ -2 ^ 32 := by linarith
    omega
  · rintro ⟨rfl, rfl⟩
    norm_num

theorem fits_difference (hx : FitsSigned 32 x) (hy : FitsSigned 32 y) (hz : FitsSigned 32 z)
    (hw : FitsSigned 32 w) : FitsSigned 64 (x * y - z * w) := by
  have first := product_bounds hx hy
  have second := product_bounds hz hw
  constructor <;> norm_num <;> linarith

theorem fits_two_iff (hx : FitsSigned 32 x) (hy : FitsSigned 32 y) (hz : FitsSigned 32 z)
    (hw : FitsSigned 32 w) :
    FitsSigned 64 (x * y + z * w) ↔ ¬((x = -2 ^ 31 ∧ y = -2 ^ 31) ∧ z = -2 ^ 31 ∧ w = -2 ^ 31) := by
  have first := product_bounds hx hy
  have second := product_bounds hz hw
  rw [← product_eq_max_iff hx hy, ← product_eq_max_iff hz hw]
  unfold FitsSigned
  omega

/-- Whatever the other factors are, terms whose first factors are small together stay small. -/
theorem fits_sum {x y : ℕ → ℤ} (signed : ∀ k, FitsSigned 32 (y k)) {terms : ℕ}
    (small : ∑ k ∈ Finset.range terms, |x k| < 2 ^ 32) :
    FitsSigned 64 (∑ k ∈ Finset.range terms, x k * y k) := by
  have factor (k : ℕ) : |y k| ≤ 2 ^ 31 := abs_le.2 ⟨(signed k).1, (signed k).2.le⟩
  have bound : |∑ k ∈ Finset.range terms, x k * y k| ≤ (2 ^ 32 - 1) * 2 ^ 31 :=
    calc |∑ k ∈ Finset.range terms, x k * y k|
      _ ≤ ∑ k ∈ Finset.range terms, |x k * y k| := Finset.abs_sum_le_sum_abs _ _
      _ ≤ ∑ k ∈ Finset.range terms, |x k| * 2 ^ 31 := by
        refine Finset.sum_le_sum fun k _ => ?_
        rw [abs_mul]
        exact mul_le_mul_of_nonneg_left (factor k) (abs_nonneg _)
      _ = (∑ k ∈ Finset.range terms, |x k|) * 2 ^ 31 := (Finset.sum_mul _ _ _).symm
      _ ≤ (2 ^ 32 - 1) * 2 ^ 31 :=
        mul_le_mul_of_nonneg_right (Int.le_sub_one_of_lt small) (by norm_num)
  rw [abs_le] at bound
  constructor <;> norm_num <;> linarith

/-- An accumulator of 64 bits holds a sum exactly if there is room for it, and what is kept of it
is exact in any case. -/
structure Accumulates (x : Int64) (s : ℤ) : Prop where
  exact_iff : x.toInt = s ↔ FitsSigned 64 s
  kept : (x >>> 16).toUInt64.toUInt32 = .ofInt (s / 2 ^ 16)

theorem accumulates_ofInt (s : ℤ) : Accumulates (.ofInt s) s := by
  refine ⟨⟨fun exact => ?_, fun fits => Int64.toInt_ofInt_of_le fits.1 fits.2⟩,
    low_shiftRight_ofInt s⟩
  rw [← exact]
  exact ⟨Int64.le_toInt _, Int64.toInt_lt _⟩

/-- An accumulator of 64 bits for a sum of products of signed words, whose first factors belong to
one vector. -/
structure AccumulatesProducts (accumulator : ℕ → Int64) (x y : ℕ → ℤ) : Prop where
  accumulates : ∀ terms,
    Accumulates (accumulator terms) (∑ k ∈ Finset.range terms, x k * y k)
  fits : ∀ terms, ∑ k ∈ Finset.range terms, |x k| < 2 ^ 32 →
    FitsSigned 64 (∑ k ∈ Finset.range terms, x k * y k)
  fits_two_iff : FitsSigned 64 (∑ k ∈ Finset.range 2, x k * y k) ↔
    ¬((x 0 = -2 ^ 31 ∧ y 0 = -2 ^ 31) ∧ x 1 = -2 ^ 31 ∧ y 1 = -2 ^ 31)

theorem accumulatesProducts {accumulator : ℕ → Int64} {x y : ℕ → ℤ}
    (hx : ∀ k, FitsSigned 32 (x k)) (hy : ∀ k, FitsSigned 32 (y k))
    (sum : ∀ terms, accumulator terms = .ofInt (∑ k ∈ Finset.range terms, x k * y k)) :
    AccumulatesProducts accumulator x y where
  accumulates terms := by
    rw [sum]
    exact accumulates_ofInt _
  fits _ small := fits_sum hy small
  fits_two_iff := by
    rw [Finset.sum_range_succ, Finset.sum_range_one]
    exact FixedPoint.fits_two_iff (hx 0) (hy 0) (hx 1) (hy 1)

end FixedPoint

namespace GuestMemory

open FixedPoint

theorem fits_signedAt (m : GuestMemory) (address : Word) : FitsSigned 32 (m.signedAt address) :=
  Word.fits_toSigned _

/-! ### Dot products and cross products -/

def dotSum (m : GuestMemory) (left right : Word) (terms : Nat) : ℤ :=
  ∑ k ∈ Finset.range terms, m.signedAt (left.past k) * m.signedAt (right.past k)

/-- What has been added up for a dot product after some of the terms. -/
def dotAccumulator (m : GuestMemory) (left right : Word) (terms : Nat) : Int64 :=
  (List.range terms).foldl (fun sum k => sum + m.fixedAt (left.past k) * m.fixedAt (right.past k)) 0

theorem dotAccumulator_eq (m : GuestMemory) (left right : Word) (terms : Nat) :
    m.dotAccumulator left right terms = .ofInt (m.dotSum left right terms) := by
  rw [dotSum, ← foldl_range_ofInt]
  simp only [Int64.ofInt_mul, ← fixedAt_eq]
  rfl

theorem dotProduct_eq (m : GuestMemory) {left right : Word}
    (leftInRam : wordsInRam left 3 = true) (rightInRam : wordsInRam right 3 = true) :
    m.dotProduct left right = (m.dotAccumulator left right 3 >>> 16).toUInt64.toUInt32 := by
  let term (k : Nat) : Int64 := m.fixedAt (left.past k) * m.fixedAt (right.past k)
  have added : m.dotAccumulator left right 3 = term 0 + term 1 + term 2 :=
    congrArg (· + term 1 + term 2) (Int64.zero_add (term 0))
  rw [added, dotProduct, leftInRam, rightInRam]
  rfl

/-- The exact difference of two products of components, as a cross product has three of them. -/
def crossDifference (m : GuestMemory) (left right : Word) (i k : Nat) : ℤ :=
  m.signedAt (left.past i) * m.signedAt (right.past k) -
    m.signedAt (left.past k) * m.signedAt (right.past i)

def crossAccumulator (m : GuestMemory) (left right : Word) (i k : Nat) : Int64 :=
  m.fixedAt (left.past i) * m.fixedAt (right.past k) -
    m.fixedAt (left.past k) * m.fixedAt (right.past i)

theorem crossAccumulator_eq (m : GuestMemory) (left right : Word) (i k : Nat) :
    m.crossAccumulator left right i k = .ofInt (m.crossDifference left right i k) := by
  simp only [crossAccumulator, crossDifference, Int64.ofInt_sub, Int64.ofInt_mul, fixedAt_eq]

/-- The components of a cross product before they are cut to words. -/
def crossComponents (m : GuestMemory) (left right : Word) : List Int64 :=
  [m.crossAccumulator left right 1 2 >>> 16, m.crossAccumulator left right 2 0 >>> 16,
    m.crossAccumulator left right 0 1 >>> 16]

theorem crossProduct_eq (m : GuestMemory) (dest left right : Word) :
    m.crossProduct dest left right =
      if wordsInRam left 3 && wordsInRam right 3 then
        m.writeFixed dest (m.crossComponents left right)
      else (false, m) := rfl

end GuestMemory

end ArmConsole
