import ArmConsole.Proofs.Checked.MathCall
import ArmConsole.Proofs.Service.Accumulator
import ArmConsole.Proofs.Service.VectorBatch
import ArmConsole.Service.Overflow
import Mathlib.Tactic.IntervalCases

/-!
Which math calls overflow. A call is a sequence of reads and sums; it overflows if a sum does,
unless a read that comes before has found an operand out of place. Main statement: a call overflows
exactly if the exact integer that one of its accumulators stands for leaves 64 bits before that. No
cross product does, and no row times a matrix does if the magnitudes of the row add up to less than
2^32; but there are operands in RAM for which a dot product does.
-/

namespace ArmConsole

open FixedPoint

namespace Fault

variable {α β : Type} {overflows overflows' accepts accepts' : Prop} {value : α}

/-- How a computation ends: it overflows under one condition, is refused an operand unless another
one holds, and has a value otherwise. -/
inductive Ends (overflows accepts : Prop) (value : α) : Except Fault α → Prop
  | overflow : overflows → Ends overflows accepts value (.error .overflow)
  | refused : ¬overflows → ¬accepts → Ends overflows accepts value (.error .operand)
  | value : ¬overflows → accepts → Ends overflows accepts value (.ok value)

namespace Ends

variable {x : Except Fault α}

theorem isOverflow_iff (ends : Ends overflows accepts value x) :
    isOverflow x = true ↔ overflows := by
  cases ends with
  | overflow exceeds => exact iff_of_true rfl exceeds
  | refused fits _ => exact iff_of_false Bool.false_ne_true fits
  | value fits _ => exact iff_of_false Bool.false_ne_true fits

theorem congr (ends : Ends overflows accepts value x) (same : overflows ↔ overflows')
    (same' : accepts ↔ accepts') : Ends overflows' accepts' value x :=
  propext same ▸ propext same' ▸ ends

/-- What follows a computation matters only where that has a value. -/
theorem bind (ends : Ends overflows accepts value x) {f : α → Except Fault β} {value' : β}
    (next : ¬overflows → accepts → Ends overflows' accepts' value' (f value)) :
    Ends (overflows ∨ accepts ∧ overflows') (accepts ∧ accepts') value' (x >>= f) := by
  cases ends with
  | overflow exceeds => exact .overflow (.inl exceeds)
  | refused fits outside =>
    exact .refused (by simp [fits, outside]) (by simp [outside])
  | value fits inside =>
    exact (next fits inside).congr (by simp [fits, inside]) (by simp [inside])

theorem map (ends : Ends overflows accepts value x) (f : α → β) :
    Ends overflows accepts (f value) (f <$> x) := by
  cases ends with
  | overflow exceeds => exact .overflow exceeds
  | refused fits outside => exact .refused fits outside
  | value fits inside => exact .value fits inside

end Ends

theorem fit_of_fits {x : ℤ} (fits : FitsSigned 64 x) : fit x = .ok (.ofInt x) := if_pos fits

theorem toInt_ofInt {x : ℤ} (fits : FitsSigned 64 x) : (Int64.ofInt x).toInt = x :=
  (accumulates_ofInt x).exact_iff.2 fits

theorem ends_fit (x : ℤ) : Ends (¬FitsSigned 64 x) True (.ofInt x) (fit x) := by
  by_cases fits : FitsSigned 64 x
  · rw [fit_of_fits fits]
    exact .value (not_not_intro fits) trivial
  · rw [show fit x = .error .overflow from if_neg fits]
    exact .overflow fits

/-- A list of computations overflows at the first of them that does, if no computation before that
is refused an operand. -/
theorem ends_mapM {f : ℕ → Except Fault α} {exceeds inside : ℕ → Prop} {g : ℕ → α}
    (each : ∀ k, Ends (exceeds k) (inside k) (g k) (f k)) (count : ℕ) :
    Ends (∃ k < count, (∀ j < k, inside j) ∧ exceeds k) (∀ k < count, inside k)
      ((List.range count).map g) ((List.range count).mapM f) := by
  induction count with
  | zero => exact .value (by simp) (by simp)
  | succ count ih =>
    have last : (List.range (count + 1)).mapM f =
        (List.range count).mapM f >>= fun values => (values ++ [·]) <$> f count := by
      simp [List.range_succ]
    rw [last, List.range_succ, List.map_append]
    refine (ih.bind fun _ _ => (each count).map (List.map g (List.range count) ++ [·])).congr ?_ ?_
    · rw [Nat.exists_lt_succ_right]
    · rw [Nat.forall_lt_succ_right]

/-- A sum of products overflows at the first partial sum that does not fit, if no second factor up
to there is out of place. -/
theorem ends_sumProducts {x : ℕ → Int64} {y : ℕ → Except Fault Int64} {z : ℕ → Int64}
    {readable : ℕ → Prop} (factor : ∀ k, Ends False (readable k) (z k) (y k))
    (product : ∀ k, FitsSigned 64 ((x k).toInt * (z k).toInt)) (count : ℕ) :
    let sum (terms : ℕ) : ℤ := ∑ k ∈ Finset.range terms, (x k).toInt * (z k).toInt
    Ends (∃ k < count, (∀ j ≤ k, readable j) ∧ ¬FitsSigned 64 (sum (k + 1)))
      (∀ k < count, readable k) (.ofInt (sum count)) (sumProducts x y count) := by
  intro sum
  induction count with
  | zero => exact .value (by simp) (by simp)
  | succ count ih =>
    have fits (going : ¬∃ k < count, (∀ j ≤ k, readable j) ∧ ¬FitsSigned 64 (sum (k + 1)))
        (read : ∀ k < count, readable k) : FitsSigned 64 (sum count) := by
      cases count with
      | zero => exact ⟨by norm_num [sum], by norm_num [sum]⟩
      | succ k =>
        by_contra exceeds
        exact going ⟨k, Nat.lt_succ_self k, fun j le => read j (Nat.lt_succ_of_le le), exceeds⟩
    have added : sum (count + 1) = sum count + (x count).toInt * (z count).toInt :=
      Finset.sum_range_succ _ count
    have last (before : FitsSigned 64 (sum count)) :
        Ends (readable count ∧ ¬FitsSigned 64 (sum (count + 1))) (readable count)
          (.ofInt (sum (count + 1))) (do
            let factor ← y count
            let product ← fit ((x count).toInt * factor.toInt)
            fit ((Int64.ofInt (sum count)).toInt + product.toInt)) := by
      have next : Ends (¬FitsSigned 64 (sum (count + 1))) True (.ofInt (sum (count + 1))) (do
          let product ← fit ((x count).toInt * (z count).toInt)
          fit ((Int64.ofInt (sum count)).toInt + product.toInt)) := by
        rw [fit_of_fits (product count)]
        change Ends _ _ _ (fit ((Int64.ofInt (sum count)).toInt + (Int64.ofInt _).toInt))
        rw [toInt_ofInt before, toInt_ofInt (product count), ← added]
        exact ends_fit _
      exact ((factor count).bind fun _ _ => next).congr (by simp) (by simp)
    refine (ih.bind fun going read => last (fits going read)).congr ?_ ?_
    · simp only [← Nat.lt_succ_iff, Nat.exists_lt_succ_right, Nat.forall_lt_succ_right, and_assoc]
    · rw [Nat.forall_lt_succ_right]

end Fault

namespace GuestMemory

open Fault

variable (m : GuestMemory)

theorem ends_operand (address : Word) :
    Ends False (wordInRam address = true) (m.fixedAt address) (m.operand address) := by
  unfold operand
  split
  next inRam => exact .value not_false inRam
  next outside => exact .refused not_false outside

theorem toInt_fixedAt (address : Word) : (m.fixedAt address).toInt = m.signedAt address := by
  have fits := m.fits_signedAt address
  rw [fixedAt_eq, Fault.toInt_ofInt]
  unfold FitsSigned at *
  omega

theorem fits_term (first second : Word) :
    FitsSigned 64 ((m.fixedAt first).toInt * (m.fixedAt second).toInt) := by
  rw [toInt_fixedAt, toInt_fixedAt]
  exact fits_product (m.fits_signedAt first) (m.fits_signedAt second)

/-! ### Rows -/

/-- The exact sum for a column does not fit after one of its rows, and the matrix is in RAM from
its first row up to there. -/
def ColumnOverflows (n : Nat) (vector matrix : Word) (column : Nat) : Prop :=
  ∃ row < n, (∀ r ≤ row, wordInRam (matrix.past (r * n + column)) = true) ∧
    ¬FitsSigned 64 (m.columnSum n vector matrix column (row + 1))

/-- The sum for a column overflows, the vector is in RAM, and so are the columns before. -/
def RowOverflows (n : Nat) (vector matrix : Word) : Prop :=
  wordsInRam vector n = true ∧ ∃ column < n,
    (∀ c < column, ∀ row < n, wordInRam (matrix.past (row * n + c)) = true) ∧
    m.ColumnOverflows n vector matrix column

theorem ends_column (n : Nat) (vector matrix : Word) (column : Nat) :
    Ends (m.ColumnOverflows n vector matrix column)
      (∀ row < n, wordInRam (matrix.past (row * n + column)) = true)
      (m.columnAccumulator n vector matrix column n)
      (sumProducts (fun row => m.fixedAt (vector.past row))
        (fun row => m.operand (matrix.past (row * n + column))) n) := by
  have ends := ends_sumProducts (x := fun row => m.fixedAt (vector.past row))
    (fun row => m.ends_operand (matrix.past (row * n + column))) (fun _ => m.fits_term _ _) n
  simp only [toInt_fixedAt] at ends
  rw [columnAccumulator_eq]
  exact ends

theorem ends_exactRow (n : Nat) (vector matrix : Word) :
    Ends (m.RowOverflows n vector matrix)
      (wordsInRam vector n = true ∧ wordsInRam matrix (n * n) = true)
      (m.rowTimesMatrix n vector matrix) (m.exactRow n vector matrix) := by
  unfold exactRow
  split
  next inRam =>
    have columns := ends_mapM (fun column =>
      (m.ends_column n vector matrix column).map (· >>> 16)) n
    refine columns.congr (and_iff_right inRam).symm ?_
    rw [and_iff_right inRam, wordsInRam_iff, forall_lt_square]
    exact ⟨fun all row hr column hc => all column hc row hr,
      fun all column hc row hr => all row hr column hc⟩
  next outside =>
    exact .refused (fun overflows => outside overflows.1) (fun accepts => outside accepts.1)

/-- Where all operands are in RAM any sum that does not fit overflows. -/
theorem rowOverflows_iff {n : Nat} {vector matrix : Word} (vectorInRam : wordsInRam vector n = true)
    (matrixInRam : wordsInRam matrix (n * n) = true) :
    m.RowOverflows n vector matrix ↔
      ∃ column < n, ∃ row < n,
        ¬FitsSigned 64 (m.columnSum n vector matrix column (row + 1)) := by
  have inRam := (forall_lt_square n _).1 (wordsInRam_iff.1 matrixInRam)
  constructor
  · rintro ⟨-, column, hc, -, row, hr, -, exceeds⟩
    exact ⟨column, hc, row, hr, exceeds⟩
  · rintro ⟨column, hc, row, hr, exceeds⟩
    exact ⟨vectorInRam, column, hc, fun c before r hr => inRam r hr c (before.trans hc), row, hr,
      fun r le => inRam r (le.trans_lt hr) column hc, exceeds⟩

/-- A partial sum is no greater in magnitude. -/
theorem fits_partialSum {x y : ℕ → ℤ} (signed : ∀ k, FitsSigned 32 (y k)) {terms : ℕ}
    (small : ∑ k ∈ Finset.range terms, |x k| < 2 ^ 32) {k : ℕ} (before : k < terms) :
    FitsSigned 64 (∑ j ∈ Finset.range (k + 1), x j * y j) := by
  refine fits_sum signed (lt_of_le_of_lt ?_ small)
  exact Finset.sum_le_sum_of_subset_of_nonneg (Finset.range_mono before) fun _ _ _ => abs_nonneg _

theorem not_rowOverflows {n : Nat} {vector : Word} (matrix : Word)
    (small : ∑ k ∈ Finset.range n, |m.signedAt (vector.past k)| < 2 ^ 32) :
    ¬m.RowOverflows n vector matrix := by
  rintro ⟨-, column, -, -, row, hr, -, exceeds⟩
  exact exceeds (fits_partialSum (fun _ => m.fits_signedAt _) small hr)

/-! ### Calls -/

/-- A row of the product overflows, and the rows before have their operands in RAM. -/
def ProductOverflows (n : Nat) (left right : Word) : Prop :=
  ∃ row < n, (∀ r < row, wordsInRam (left.past (r * n)) n = true ∧
    wordsInRam right (n * n) = true) ∧ m.RowOverflows n (left.past (row * n)) right

theorem matricesOverflow_iff (n : Nat) (left right : Word) :
    m.matricesOverflow n left right = true ↔ m.ProductOverflows n left right := by
  have rows := ends_mapM (fun row => m.ends_exactRow n (left.past (row * n)) right) n
  simp only [matricesOverflow, rowAddress]
  exact rows.isOverflow_iff

/-- The batch gets to a vector whose product overflows. -/
def BatchOverflows (n : Nat) (dest source matrix : Word) (count : Nat) : Prop :=
  ∃ i < count, ∃ after, m.multiplyVectors n dest source matrix i = (true, after) ∧
    after.RowOverflows n (source.past (i * n)) matrix

theorem vectorsOverflow_zero (n : Nat) (dest source matrix : Word) :
    m.vectorsOverflow n dest source matrix 0 = false := rfl

theorem vectorsOverflow_succ (n : Nat) (dest source matrix : Word) (count : Nat) :
    m.vectorsOverflow n dest source matrix (count + 1) = true ↔
      m.RowOverflows n source matrix ∨
        (m.multiplyVector n dest source matrix).1 = true ∧
          (m.multiplyVector n dest source matrix).2.vectorsOverflow n (dest.past n) (source.past n)
            matrix count = true := by
  have ends := m.ends_exactRow n source matrix
  simp only [vectorsOverflow, multiplyVector, Bool.and_eq_true]
  generalize m.exactRow n source matrix = x at ends ⊢
  cases ends with
  | overflow exceeds => exact iff_of_true rfl (.inl exceeds)
  | refused fits outside => simp [fits, outside]
  | value fits inside =>
    simp only [if_pos inside, or_iff_right fits]
    generalize m.writeFixed dest _ = outcome
    obtain ⟨written, after⟩ := outcome
    cases written <;> simp [Word.past]

theorem batchOverflows_succ (n : Nat) (dest source matrix : Word) (count : Nat) :
    m.BatchOverflows n dest source matrix (count + 1) ↔
      m.RowOverflows n source matrix ∨
        (m.multiplyVector n dest source matrix).1 = true ∧
          (m.multiplyVector n dest source matrix).2.BatchOverflows n (dest.past n) (source.past n)
            matrix count := by
  have later (i : Nat) : source.past ((i + 1) * n) = (source.past n).past (i * n) := by
    rw [Word.past_past, Nat.succ_mul, Nat.add_comm]
  simp only [BatchOverflows, Nat.exists_lt_succ_left, multiplyVectors_succ, later]
  generalize m.multiplyVector n dest source matrix = first
  obtain ⟨written, after⟩ := first
  cases written <;> simp [multiplyVectors, Word.past_zero]

theorem vectorsOverflow_iff (n : Nat) (dest source matrix : Word) (count : Nat) :
    m.vectorsOverflow n dest source matrix count = true ↔
      m.BatchOverflows n dest source matrix count := by
  induction count generalizing m dest source with
  | zero => simp [vectorsOverflow_zero, BatchOverflows]
  | succ count ih => rw [vectorsOverflow_succ, batchOverflows_succ, ih]

def DotOverflows (left right : Word) : Prop :=
  (wordsInRam left 3 = true ∧ wordsInRam right 3 = true) ∧
    ∃ k < 3, ¬FitsSigned 64 (m.dotSum left right (k + 1))

theorem not_dotOverflows {left : Word} (right : Word)
    (small : ∑ k ∈ Finset.range 3, |m.signedAt (left.past k)| < 2 ^ 32) :
    ¬m.DotOverflows left right := by
  rintro ⟨-, k, hk, exceeds⟩
  exact exceeds (fits_partialSum (fun _ => m.fits_signedAt _) small hk)

theorem dotOverflows_iff (left right : Word) :
    m.dotOverflows left right = true ↔ m.DotOverflows left right := by
  have ends := ends_sumProducts (x := fun k => m.fixedAt (left.past k))
    (fun k => m.ends_operand (right.past k)) (fun _ => m.fits_term _ _) 3
  simp only [toInt_fixedAt] at ends
  unfold dotOverflows DotOverflows
  rw [Bool.and_eq_true, Bool.and_eq_true]
  refine and_congr_right fun inRam => ends.isOverflow_iff.trans ?_
  have rightInRam := wordsInRam_iff.1 inRam.2
  exact exists_congr fun k => and_congr_right fun hk =>
    and_iff_right fun j le => rightInRam j (le.trans_lt hk)

theorem difference_eq (x y z w : Word) :
    difference (m.fixedAt x) (m.fixedAt y) (m.fixedAt z) (m.fixedAt w) =
      .ok (.ofInt (m.signedAt x * m.signedAt y - m.signedAt z * m.signedAt w)) := by
  have first := m.fits_term x y
  have second := m.fits_term z w
  unfold difference
  rw [fit_of_fits first, fit_of_fits second]
  change fit ((Int64.ofInt _).toInt - (Int64.ofInt _).toInt) = _
  rw [Fault.toInt_ofInt first, Fault.toInt_ofInt second]
  simp only [toInt_fixedAt]
  exact fit_of_fits (fits_difference (m.fits_signedAt x) (m.fits_signedAt y) (m.fits_signedAt z)
    (m.fits_signedAt w))

theorem crossOverflows_eq (left right : Word) : m.crossOverflows left right = false := by
  simp only [crossOverflows, difference_eq]
  exact Bool.and_false _

end GuestMemory

/-- A sum that a call takes does not fit, at a point that the call gets to. -/
def MathCall.Overflows (call : MathCall) (m : GuestMemory) (a : Arguments) : Prop :=
  match call with
  | vector3 => m.BatchOverflows 3 a.r0 a.r1 a.r2 1
  | matrix3 => m.ProductOverflows 3 a.r1 a.r2
  | vectors3 => m.BatchOverflows 3 a.r0 a.r1 a.r2 a.r3.toNat
  | vector4 => m.BatchOverflows 4 a.r0 a.r1 a.r2 1
  | matrix4 => m.ProductOverflows 4 a.r1 a.r2
  | vectors4 => m.BatchOverflows 4 a.r0 a.r1 a.r2 a.r3.toNat
  | dot3 => m.DotOverflows a.r0 a.r1
  | cross3 => False

theorem MathCall.overflows_iff (call : MathCall) (m : GuestMemory) (a : Arguments) :
    call.overflows m a = true ↔ call.Overflows m a := by
  cases call with
  | vector3 => exact m.vectorsOverflow_iff 3 a.r0 a.r1 a.r2 1
  | matrix3 => exact m.matricesOverflow_iff 3 a.r1 a.r2
  | vectors3 => exact m.vectorsOverflow_iff 3 a.r0 a.r1 a.r2 a.r3.toNat
  | vector4 => exact m.vectorsOverflow_iff 4 a.r0 a.r1 a.r2 1
  | matrix4 => exact m.matricesOverflow_iff 4 a.r1 a.r2
  | vectors4 => exact m.vectorsOverflow_iff 4 a.r0 a.r1 a.r2 a.r3.toNat
  | dot3 => exact m.dotOverflows_iff a.r0 a.r1
  | cross3 => exact iff_of_false (Bool.eq_false_iff.1 (m.crossOverflows_eq a.r1 a.r2)) not_false

namespace GuestMemory

/-! ### All accumulators -/

/-- The results of math calls are what their accumulators keep, and every accumulator stands for an
exact sum or difference. Single products and the differences of a cross product always have room. A
sum has it after any number of terms if the magnitudes of the vector, so far, add up to less than
2^32; after two terms it has it unless all four numbers are the extreme negative one. A row times a
matrix overflows if one of its sums has no room, and a call exactly if that is the case for a sum
that it gets to. -/
theorem accumulators_fit (m : GuestMemory) (n : Nat) (vector matrix left right : Word) :
    (∀ column, m.rowTimesColumn n vector matrix column =
      m.columnAccumulator n vector matrix column n >>> 16) ∧
    (wordsInRam left 3 = true → wordsInRam right 3 = true →
      m.dotProduct left right = (m.dotAccumulator left right 3 >>> 16).toUInt64.toUInt32 ∧
      ∀ dest, m.crossProduct dest left right =
        m.writeFixed dest (m.crossComponents left right)) ∧
    (∀ column, AccumulatesProducts (m.columnAccumulator n vector matrix column)
      (fun row => m.signedAt (vector.past row))
      (fun row => m.signedAt (matrix.past (row * n + column)))) ∧
    AccumulatesProducts (m.dotAccumulator left right) (fun k => m.signedAt (left.past k))
      (fun k => m.signedAt (right.past k)) ∧
    (∀ first second, FitsSigned 64 (m.signedAt first * m.signedAt second)) ∧
    (∀ i k, Accumulates (m.crossAccumulator left right i k) (m.crossDifference left right i k) ∧
      FitsSigned 64 (m.crossDifference left right i k)) ∧
    (wordsInRam vector n = true → wordsInRam matrix (n * n) = true →
      (m.RowOverflows n vector matrix ↔ ∃ column < n, ∃ row < n,
        ¬FitsSigned 64 (m.columnSum n vector matrix column (row + 1)))) ∧
    (∑ k ∈ Finset.range n, |m.signedAt (vector.past k)| < 2 ^ 32 →
      ¬m.RowOverflows n vector matrix) ∧
    (∑ k ∈ Finset.range 3, |m.signedAt (left.past k)| < 2 ^ 32 → ¬m.DotOverflows left right) ∧
    ∀ (call : MathCall) (a : MathCall.Arguments),
      call.overflows m a = true ↔ call.Overflows m a := by
  have signed := m.fits_signedAt
  refine ⟨fun column => rfl, fun leftInRam rightInRam => ⟨?_, fun dest => ?_⟩, fun column => ?_, ?_,
    fun first second => ?_, fun i k => ⟨?_, ?_⟩, m.rowOverflows_iff,
    m.not_rowOverflows matrix, m.not_dotOverflows right, fun call a => call.overflows_iff m a⟩
  · exact m.dotProduct_eq leftInRam rightInRam
  · rw [crossProduct_eq, leftInRam, rightInRam]
    rfl
  · exact accumulatesProducts (fun _ => signed _) (fun _ => signed _)
      (m.columnAccumulator_eq n vector matrix column)
  · exact accumulatesProducts (fun _ => signed _) (fun _ => signed _)
      (m.dotAccumulator_eq left right)
  · exact fits_product (signed _) (signed _)
  · rw [crossAccumulator_eq]
    exact accumulates_ofInt _
  · exact fits_difference (signed _) (signed _) (signed _) (signed _)

/-- The first row of a shear, times a column and times itself. -/
theorem accumulators_fit_shear :
    let m := (Machine.calling Machine.shear ⟨0, 0, 0, 0⟩).space.memory
    FitsSigned 64 (m.columnSum 3 0x100 0x100 1 3) ∧ FitsSigned 64 (m.dotSum 0x100 0x100 3) ∧
      m.dotProduct 0x100 0x100 = 0x20000 ∧
      (¬∃ column < 3, ∃ row < 3, ¬FitsSigned 64 (m.columnSum 3 0x100 0x100 column (row + 1))) ∧
      MathCall.dot3.overflows m ⟨0x100, 0x100, 0, 0⟩ = false := by
  intro m
  have entry {k : Nat} (inside : k < 9) : m.signedAt (Word.past 0x100 k) =
      Word.toSigned (Machine.shear.getD k 0).toUInt64.toUInt32 :=
    Machine.signedAt_calling _ (by decide) inside
  have small : ∑ k ∈ Finset.range 3, |m.signedAt (Word.past 0x100 k)| < 2 ^ 32 := by
    rw [Finset.sum_range_succ, Finset.sum_range_succ, Finset.sum_range_one, entry (by decide),
      entry (by decide), entry (by decide)]
    decide
  obtain ⟨-, results, columns, dots, -, -, overflows, rows, products, calls⟩ :=
    m.accumulators_fit 3 0x100 0x100 0x100 0x100
  refine ⟨(columns 1).fits 3 small, dots.fits 3 small, ?_, ?_, ?_⟩
  · rw [(results (by decide) (by decide)).1, (dots.accumulates 3).kept, Finset.sum_range_succ,
      Finset.sum_range_succ, Finset.sum_range_one, entry (by decide), entry (by decide),
      entry (by decide)]
    decide
  · exact (overflows (by decide) (by decide)).not.1 (rows small)
  · exact Bool.eq_false_iff.2 ((calls .dot3 ⟨0x100, 0x100, 0, 0⟩).not.2 (products small))

/-- RAM with a vector at 0x100 that begins with two extreme negative numbers. -/
def extreme : GuestMemory := (empty.writeFixed 0x100 [-0x80000000, -0x80000000, 0x10000]).2

theorem signedAt_extreme {k : Nat} (first : k < 2) :
    extreme.signedAt (Word.past 0x100 k) = -2 ^ 31 := by
  have entry : [(-0x80000000 : Int64), -0x80000000, 0x10000][k]? = some (-0x80000000) := by
    interval_cases k <;> rfl
  exact congrArg Word.toSigned (empty.wordAt_writeFixed (by decide) entry)

theorem not_fits_extreme : ¬FitsSigned 64 (extreme.dotSum 0x100 0x100 2) := by
  rw [dotSum, Finset.sum_range_succ, Finset.sum_range_one, signedAt_extreme (by decide),
    signedAt_extreme (by decide)]
  decide

/-- Not every sum that a math call adds up has room, nor does every call go on. -/
theorem accumulators_overflow :
    MathCall.dot3.overflows extreme ⟨0x100, 0x100, 0, 0⟩ = true ∧
    ¬∀ m : GuestMemory,
      (∀ n vector matrix, n = 3 ∨ n = 4 → wordsInRam vector n = true →
        wordsInRam matrix (n * n) = true → ∀ column < n, ∀ rows ≤ n,
          FitsSigned 64 (m.columnSum n vector matrix column rows)) ∧
      (∀ left right, wordsInRam left 3 = true → wordsInRam right 3 = true →
        (∀ terms ≤ 3, FitsSigned 64 (m.dotSum left right terms)) ∧
        ∀ i < 3, ∀ k < 3, FitsSigned 64 (m.crossDifference left right i k)) := by
  refine ⟨(MathCall.overflows_iff .dot3 _ _).2 ?_, fun room => ?_⟩
  · exact ⟨⟨by decide, by decide⟩, 1, by decide, not_fits_extreme⟩
  · have sums := ((room extreme).2 0x100 0x100 (by decide) (by decide)).1
    exact not_fits_extreme (sums 2 (by decide))

end GuestMemory

end ArmConsole
