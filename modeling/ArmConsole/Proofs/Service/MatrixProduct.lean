import ArmConsole.Expansion.Scripted
import ArmConsole.Machine.Execute
import ArmConsole.Proofs.Arithmetic.FixedPoint
import ArmConsole.Proofs.Memory.Words
import Mathlib.Algebra.BigOperators.Fin
import Mathlib.Data.Matrix.Mul

/-!
Products of matrices in RAM. The numbers that a math call reads are read as integers, and vectors
and matrices of them as vectors and matrices in the sense of algebra. Main statement: whatever rows
of words the three matrices take up, the product that a math call leaves is the exact one of the
matrices that were there before, each entry divided by 2^16, rounded down, modulo 2^32.
-/

namespace ArmConsole

namespace GuestMemory

open Matrix

/-- The signed integer in the word at an address. -/
def signedAt (m : GuestMemory) (address : Word) : ℤ := (m.wordAt address).toSigned

def vectorAt (m : GuestMemory) (n : Nat) (address : Word) : Fin n → ℤ :=
  fun k => m.signedAt (address.past k)

/-- The square matrix whose rows follow each other from an address up. -/
def matrixAt (m : GuestMemory) (n : Nat) (address : Word) : Matrix (Fin n) (Fin n) ℤ :=
  fun row column => m.signedAt (address.past (row * n + column))

theorem matrixAt_row (m : GuestMemory) (n : Nat) (address : Word) (row : Fin n) :
    m.matrixAt n address row = m.vectorAt n (address.past (row * n)) := by
  funext column
  rw [matrixAt, vectorAt, Word.past_past]

theorem fixedAt_eq (m : GuestMemory) (address : Word) :
    m.fixedAt address = .ofInt (m.signedAt address) := by
  unfold fixedAt signedAt wordAt
  cases wordAddress? address with
  | none => rfl
  | some a =>
    have extended : (m.readWord a).toInt32.toInt64.toInt = (m.readWord a).toSigned :=
      Int32.toInt_toInt64 _
    rw [← extended, Int64.ofInt_toInt]

/-- The exact sum of a vector times a column of a square matrix, after some of the rows. -/
def columnSum (m : GuestMemory) (n : Nat) (vector matrix : Word) (column rows : Nat) : ℤ :=
  ∑ row ∈ Finset.range rows,
    m.signedAt (vector.past row) * m.signedAt (matrix.past (row * n + column))

/-- What has been added up for a column after some of the rows. -/
def columnAccumulator (m : GuestMemory) (n : Nat) (vector matrix : Word) (column rows : Nat) :
    Int64 :=
  (List.range rows).foldl (fun sum row =>
    sum + m.fixedAt (vector.past row) * m.fixedAt (matrix.past (row * n + column))) 0

theorem columnAccumulator_eq (m : GuestMemory) (n : Nat) (vector matrix : Word)
    (column rows : Nat) :
    m.columnAccumulator n vector matrix column rows =
      .ofInt (m.columnSum n vector matrix column rows) := by
  rw [columnSum, ← FixedPoint.foldl_range_ofInt]
  simp only [Int64.ofInt_mul, ← fixedAt_eq]
  rfl

theorem columnSum_eq_vecMul (m : GuestMemory) (n : Nat) (vector matrix : Word) (column : Fin n) :
    m.columnSum n vector matrix column n = (m.vectorAt n vector ᵥ* m.matrixAt n matrix) column := by
  rw [columnSum, Finset.sum_range, vecMul_apply_eq_sum]
  rfl

theorem rowTimesColumn_eq (m : GuestMemory) (n : Nat) (vector matrix : Word) (column : Fin n) :
    m.rowTimesColumn n vector matrix column =
      Int64.ofInt ((m.vectorAt n vector ᵥ* m.matrixAt n matrix) column) >>> 16 := by
  rw [← columnSum_eq_vecMul, ← columnAccumulator_eq]
  rfl

theorem length_rowTimesMatrix (m : GuestMemory) (n : Nat) (vector matrix : Word) :
    (m.rowTimesMatrix n vector matrix).length = n := by
  rw [rowTimesMatrix, List.length_map, List.length_range]

theorem getElem?_rowTimesMatrix (m : GuestMemory) (n : Nat) (vector matrix : Word)
    (column : Fin n) :
    (m.rowTimesMatrix n vector matrix)[column.val]? =
      some (m.rowTimesColumn n vector matrix column) := by
  rw [rowTimesMatrix, List.getElem?_map, List.getElem?_range column.isLt, Option.map_some]

/-- An entry of a list that is made of rows of equal length. -/
theorem getElem?_flatMap_rows {α β : Type} {rowOf : α → List β} {n : Nat}
    (length : ∀ a, (rowOf a).length = n) (l : List α) {row column : Nat} (inside : column < n) :
    (l.flatMap rowOf)[row * n + column]? = l[row]?.bind fun a => (rowOf a)[column]? := by
  induction l generalizing row with
  | nil => rfl
  | cons a l ih =>
    rw [List.flatMap_cons]
    cases row with
    | zero =>
      rw [Nat.zero_mul, Nat.zero_add, List.getElem?_append_left (by rwa [length])]
      rfl
    | succ row =>
      have later : (row + 1) * n + column - n = row * n + column := by
        rw [Nat.succ_mul]
        omega
      rw [List.getElem?_append_right (by rw [length, Nat.succ_mul]; omega), length, later, ih]
      rfl

/-- The rows of the product, one after the other. -/
def productRows (m : GuestMemory) (n : Nat) (left right : Word) : List Int64 :=
  (List.range n).flatMap fun row => m.rowTimesMatrix n (left.past (row * n)) right

theorem length_productRows (m : GuestMemory) (n : Nat) (left right : Word) :
    (m.productRows n left right).length = n * n := by
  simp [productRows, length_rowTimesMatrix]

theorem multiplyMatrices_eq (m : GuestMemory) (n : Nat) (dest left right : Word) :
    m.multiplyMatrices n dest left right =
      if wordsInRam left (n * n) && wordsInRam right (n * n) then
        m.writeFixed dest (m.productRows n left right)
      else (false, m) := by
  simp only [multiplyMatrices, productRows, rowAddress]

theorem multiplyMatrices_of_inRam (m : GuestMemory) {n : Nat} (dest : Word) {left right : Word}
    (leftInRam : wordsInRam left (n * n) = true) (rightInRam : wordsInRam right (n * n) = true) :
    m.multiplyMatrices n dest left right = m.writeFixed dest (m.productRows n left right) := by
  rw [multiplyMatrices_eq, leftInRam, rightInRam]
  rfl

theorem getElem?_productRows (m : GuestMemory) (n : Nat) (left right : Word) (row column : Fin n) :
    (m.productRows n left right)[row * n + column.val]? =
      some (Int64.ofInt ((m.matrixAt n left * m.matrixAt n right) row column) >>> 16) := by
  rw [productRows, getElem?_flatMap_rows (fun _ => m.length_rowTimesMatrix ..) _ column.isLt,
    List.getElem?_range row.isLt, Option.bind_some, getElem?_rowTimesMatrix, rowTimesColumn_eq,
    mul_apply_eq_vecMul, matrixAt_row m n left row]

theorem wordAt_multiplyMatrices (m : GuestMemory) {n : Nat} {dest left right : Word}
    (destInRam : wordsInRam dest (n * n) = true) (leftInRam : wordsInRam left (n * n) = true)
    (rightInRam : wordsInRam right (n * n) = true) (row column : Fin n) :
    (m.multiplyMatrices n dest left right).2.wordAt (dest.past (row * n + column)) =
      .ofInt ((m.matrixAt n left * m.matrixAt n right) row column / 2 ^ 16) := by
  have length := m.length_productRows n left right
  rw [m.multiplyMatrices_of_inRam dest leftInRam rightInRam,
    m.wordAt_writeFixed (length ▸ destInRam) (m.getElem?_productRows n left right row column),
    FixedPoint.low_shiftRight_ofInt]

theorem confined_multiplyMatrices (m : GuestMemory) {n : Nat} {dest left right : Word}
    (destInRam : wordsInRam dest (n * n) = true) (leftInRam : wordsInRam left (n * n) = true)
    (rightInRam : wordsInRam right (n * n) = true) :
    Confined (InWords dest (n * n)) m (m.multiplyMatrices n dest left right).2 := by
  have length := m.length_productRows n left right
  rw [m.multiplyMatrices_of_inRam dest leftInRam rightInRam, ← length]
  exact m.confined_writeFixed_row (length ▸ destInRam)

end GuestMemory

/-- The order of the matrices that a call multiplies with each other. -/
def MathCall.matrixOrder? : MathCall → Option Nat
  | matrix3 => some 3
  | matrix4 => some 4
  | vector3 | vectors3 | vector4 | vectors4 | dot3 | cross3 => none

theorem MathCall.run_of_matrixOrder? {call : MathCall} {n : Nat}
    (multiplies : call.matrixOrder? = some n) (m : GuestMemory) (a : Arguments) :
    call.run m a = (none, (m.multiplyMatrices n a.r0 a.r1 a.r2).2) := by
  cases call <;> cases multiplies <;> rfl

namespace Machine

variable {δ : Type}

/-- A software interrupt that is answered by a call without a result changes memory only. -/
theorem softwareInterrupt_of_run {m : Machine δ} {comment : Word} {call : MathCall}
    {memory : GuestMemory}
    (answered : (m.calls.bind fun calls => calls.lookup? comment) = some call)
    (run : call.run m.space.memory m.processor.arguments = (none, memory)) :
    (m.softwareInterrupt comment).space.memory = memory ∧
      (m.softwareInterrupt comment).processor = m.processor := by
  rw [softwareInterrupt, answered]
  simp only [callNatively, run, and_self]

/-- A software interrupt that multiplies two matrices in RAM leaves the exact product of those that
were there, scaled, rounded down and modulo 2^32, however the three overlap. No other byte of RAM
changes but copies of the product, and no register. -/
theorem softwareInterrupt_matrices (m : Machine δ) {comment : Word} {call : MathCall} {n : Nat}
    (answered : (m.calls.bind fun calls => calls.lookup? comment) = some call)
    (multiplies : call.matrixOrder? = some n)
    (destInRam : GuestMemory.wordsInRam m.processor.arguments.r0 (n * n) = true)
    (leftInRam : GuestMemory.wordsInRam m.processor.arguments.r1 (n * n) = true)
    (rightInRam : GuestMemory.wordsInRam m.processor.arguments.r2 (n * n) = true) :
    let a := m.processor.arguments
    let before := m.space.memory
    let after := m.softwareInterrupt comment
    (∀ row column : Fin n, after.space.memory.wordAt (a.r0.past (row * n + column)) =
      .ofInt ((before.matrixAt n a.r1 * before.matrixAt n a.r2) row column / 2 ^ 16)) ∧
    GuestMemory.Confined (GuestMemory.InWords a.r0 (n * n)) before after.space.memory ∧
    after.processor = m.processor := by
  intro a before after
  obtain ⟨memory, processor⟩ := softwareInterrupt_of_run answered
    (MathCall.run_of_matrixOrder? multiplies before a)
  refine ⟨fun row column => ?_, ?_, processor⟩
  · rw [memory, before.wordAt_multiplyMatrices destInRam leftInRam rightInRam]
  · rw [memory]
    exact before.confined_multiplyMatrices destInRam leftInRam rightInRam

/-- A machine that answers all math calls, with numbers in RAM from 0x100 up and arguments in its
registers. -/
def calling (numbers : List Int64) (a : MathCall.Arguments) : Machine ScriptedDevice :=
  let p := ((Processor.initial.withRegister .r0 a.r0).withRegister .r1 a.r1).withRegister .r2 a.r2
  { processor := p.withRegister .r3 a.r3
    space := { memory := (GuestMemory.empty.writeFixed 0x100 numbers).2, io := .initial }
    calls := some .standard
    redirects := none }

theorem signedAt_calling {numbers : List Int64} (a : MathCall.Arguments)
    (inRam : GuestMemory.wordsInRam 0x100 numbers.length = true) {k : Nat}
    (inside : k < numbers.length) :
    (calling numbers a).space.memory.signedAt (Word.past 0x100 k) =
      Word.toSigned (numbers.getD k 0).toUInt64.toUInt32 := by
  have entry : numbers[k]? = some (numbers.getD k 0) := by
    rw [List.getD_eq_getElem?_getD, List.getElem?_eq_getElem inside]
    rfl
  exact congrArg Word.toSigned (GuestMemory.empty.wordAt_writeFixed inRam entry)

/-- A shear, row by row. -/
def shear : List Int64 := [0x10000, 0x10000, 0, 0, 0x10000, 0, 0, 0, 0x10000]

theorem matrixAt_shear (a : MathCall.Arguments) (row column : Fin 3) :
    (calling shear a).space.memory.matrixAt 3 0x100 row column =
      Word.toSigned (shear.getD (row * 3 + column) 0).toUInt64.toUInt32 :=
  signedAt_calling a (by decide) (show _ < 9 by omega)

/-- The square of a matrix, put in the place of the matrix. -/
theorem softwareInterrupt_matrices_inPlace :
    ((calling shear ⟨0x100, 0x100, 0x100, 0⟩).softwareInterrupt 0x50001).space.memory.wordAt
      (Word.past 0x100 1) = 0x20000 := by
  let m := calling shear ⟨0x100, 0x100, 0x100, 0⟩
  have answered : (m.calls.bind fun calls => calls.lookup? 0x50001) = some .matrix3 := by decide
  have inRam : GuestMemory.wordsInRam 0x100 (3 * 3) = true := by decide
  obtain ⟨product, -, -⟩ := softwareInterrupt_matrices m answered rfl inRam inRam inRam
  refine (product 0 1).trans ?_
  rw [Matrix.mul_apply, Fin.sum_univ_three]
  change UInt32.ofInt ((m.space.memory.matrixAt 3 0x100 0 0 * m.space.memory.matrixAt 3 0x100 0 1 +
    m.space.memory.matrixAt 3 0x100 0 1 * m.space.memory.matrixAt 3 0x100 1 1 +
    m.space.memory.matrixAt 3 0x100 0 2 * m.space.memory.matrixAt 3 0x100 2 1) / 2 ^ 16) = _
  simp only [m, matrixAt_shear]
  decide

end Machine

end ArmConsole
