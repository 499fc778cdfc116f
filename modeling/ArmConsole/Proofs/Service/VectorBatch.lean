import ArmConsole.Proofs.Service.MatrixProduct

/-!
Batches of vectors in RAM, multiplied by one matrix. The vectors are read and their products written
in turn, so that a product may take the place of its own vector but of no later one. Main statement:
if the products are apart from the matrix, and either in the place of the vectors or apart from them
too, each is the exact product of the vector that was there before the call.
-/

namespace ArmConsole

open Matrix

namespace GuestMemory

/-- Two rows of words have no word in common. -/
def Apart (first : Word) (count : Nat) (second : Word) (count' : Nat) : Prop :=
  ∀ i < count, ∀ k < count', first.past i ≠ second.past k

theorem Apart.past {first second : Word} {count count' i total : Nat}
    (apart : Apart first total second count') (fits : i + count ≤ total) :
    Apart (first.past i) count second count' := by
  intro j inside k inside'
  rw [Word.past_past]
  exact apart _ (by omega) k inside'

theorem Apart.symm {first second : Word} {count count' : Nat}
    (apart : Apart first count second count') : Apart second count' first count :=
  fun k inside' i inside => (apart i inside k inside').symm

/-- The parts of a row are apart. -/
theorem apart_past {address : Word} {i count total : Nat}
    (inRam : wordsInRam address total = true) (fits : i + count ≤ total) :
    Apart address i (address.past i) count := by
  intro j inside k inside' same
  have first := toNat_past inRam (k := j) (by omega)
  have second := toNat_past inRam (k := i + k) (by omega)
  rw [same, Word.past_past, second] at first
  omega

/-- A change of one row leaves the words of the other as they are. -/
theorem Confined.wordAt_of_apart {m n : GuestMemory} {written address : Word} {count total : Nat}
    (confined : Confined (InWords written count) m n)
    (writtenInRam : wordsInRam written count = true) (inRam : wordsInRam address total = true)
    (apart : Apart written count address total) {k : Nat} (inside : k < total) :
    n.wordAt (address.past k) = m.wordAt (address.past k) := by
  refine confined.wordAt fun b here there => ?_
  have aligned := (wordInRam_iff.1 (wordsInRam_iff.1 inRam k inside)).1
  unfold InWords at here there
  have base := ((wordsInRam_iff_range (by omega)).1 writtenInRam).1
  obtain ⟨i, place⟩ : ∃ i, (address.past k).toNat = written.toNat + 4 * i :=
    ⟨((address.past k).toNat - written.toNat) / 4, by omega⟩
  have hit := toNat_past writtenInRam (k := i) (by omega)
  exact apart i (by omega) k inside (UInt32.toNat_inj.1 (hit.trans place.symm))

theorem Confined.vectorAt {m n : GuestMemory} {written address : Word} {count size : Nat}
    (confined : Confined (InWords written count) m n)
    (writtenInRam : wordsInRam written count = true) (inRam : wordsInRam address size = true)
    (apart : Apart written count address size) :
    n.vectorAt size address = m.vectorAt size address :=
  funext fun k =>
    congrArg Word.toSigned (confined.wordAt_of_apart writtenInRam inRam apart k.isLt)

theorem Confined.matrixAt {m n : GuestMemory} {written address : Word} {count size : Nat}
    (confined : Confined (InWords written count) m n)
    (writtenInRam : wordsInRam written count = true)
    (inRam : wordsInRam address (size * size) = true)
    (apart : Apart written count address (size * size)) :
    n.matrixAt size address = m.matrixAt size address := by
  funext row column
  have inside : row * size + column.val < size * size :=
    Nat.lt_of_lt_of_le (by rw [Nat.succ_mul]; omega) (Nat.mul_le_mul_right size row.isLt)
  exact congrArg Word.toSigned (confined.wordAt_of_apart writtenInRam inRam apart inside)

/-! ### One vector -/

/-- The first round of a batch. -/
def multiplyVector (m : GuestMemory) (n : Nat) (dest source matrix : Word) : Bool × GuestMemory :=
  if wordsInRam source n && wordsInRam matrix (n * n) then
    m.writeFixed dest (m.rowTimesMatrix n source matrix)
  else (false, m)

theorem multiplyVectors_succ (m : GuestMemory) (n : Nat) (dest source matrix : Word) (count : Nat) :
    m.multiplyVectors n dest source matrix (count + 1) =
      let first := m.multiplyVector n dest source matrix
      if first.1 then first.2.multiplyVectors n (dest.past n) (source.past n) matrix count
      else first := by
  rw [multiplyVectors, multiplyVector]
  split
  · generalize m.writeFixed dest (m.rowTimesMatrix n source matrix) = outcome
    obtain ⟨finished, m'⟩ := outcome
    cases finished <;> rfl
  · rfl

/-- A vector in RAM is multiplied to the end. -/
theorem multiplyVector_product (m : GuestMemory) {n : Nat} {dest source matrix : Word}
    (destInRam : wordsInRam dest n = true) (sourceInRam : wordsInRam source n = true)
    (matrixInRam : wordsInRam matrix (n * n) = true) :
    let after := m.multiplyVector n dest source matrix
    after.1 = true ∧
    (∀ column : Fin n, after.2.wordAt (dest.past column) =
      .ofInt ((m.vectorAt n source ᵥ* m.matrixAt n matrix) column / 2 ^ 16)) ∧
    Confined (InWords dest n) m after.2 := by
  have length := m.length_rowTimesMatrix n source matrix
  have fits := length.symm ▸ destInRam
  have written : m.multiplyVector n dest source matrix =
      m.writeFixed dest (m.rowTimesMatrix n source matrix) := by
    rw [multiplyVector, sourceInRam, matrixInRam]
    rfl
  intro after
  rw [show after = _ from written]
  refine ⟨?_, fun column => ?_, ?_⟩
  · rw [writeFixed_finished, ← wordsInRam_eq_all, length, destInRam]
  · rw [m.wordAt_writeFixed fits (m.getElem?_rowTimesMatrix n source matrix column),
      rowTimesColumn_eq, FixedPoint.low_shiftRight_ofInt]
  · have confined := m.confined_writeFixed_row fits
    rwa [length] at confined

/-! ### All vectors -/

/-- The places of a batch: its words are in RAM, the products are apart from the matrix, and they
take the places of the vectors or are apart from these too. -/
structure Placed (n : Nat) (dest source matrix : Word) (count : Nat) : Prop where
  destInRam : wordsInRam dest (count * n) = true
  sourceInRam : wordsInRam source (count * n) = true
  matrixInRam : wordsInRam matrix (n * n) = true
  apart : Apart dest (count * n) matrix (n * n)
  vectors : dest = source ∨ Apart dest (count * n) source (count * n)

namespace Placed

variable {n count : Nat} {dest source matrix : Word}

theorem rest (placed : Placed n dest source matrix (count + 1)) :
    Placed n (dest.past n) (source.past n) matrix count := by
  have fits : n + count * n ≤ (count + 1) * n := by rw [Nat.succ_mul, Nat.add_comm]
  refine ⟨wordsInRam_past placed.destInRam fits, wordsInRam_past placed.sourceInRam fits,
    placed.matrixInRam, placed.apart.past fits, ?_⟩
  obtain same | apart := placed.vectors
  · exact .inl (congrArg (Word.past · n) same)
  · exact .inr ((apart.past fits).symm.past fits).symm

/-- The first product is put where no later vector is. -/
theorem later (placed : Placed n dest source matrix (count + 1)) :
    Apart dest n (source.past n) (count * n) := by
  have fits : n + count * n ≤ (count + 1) * n := by rw [Nat.succ_mul, Nat.add_comm]
  obtain rfl | apart := placed.vectors
  · exact apart_past placed.destInRam fits
  · intro i inside k inside'
    rw [Word.past_past]
    exact apart i (by omega) (n + k) (by omega)

end Placed

/-- The induction is on the number of vectors, over all memories: the first product changes neither
the matrix nor a vector behind the first, and what follows does not change the first product. -/
theorem multiplyVectors_products (m : GuestMemory) {n count : Nat} {dest source matrix : Word}
    (placed : Placed n dest source matrix count) :
    (∀ i < count, ∀ column : Fin n,
      (m.multiplyVectors n dest source matrix count).2.wordAt ((dest.past (i * n)).past column) =
        .ofInt ((m.vectorAt n (source.past (i * n)) ᵥ* m.matrixAt n matrix) column / 2 ^ 16)) ∧
    Confined (InWords dest (count * n)) m (m.multiplyVectors n dest source matrix count).2 := by
  induction count generalizing m dest source with
  | zero => exact ⟨fun i none => absurd none (Nat.not_lt_zero i), .refl m⟩
  | succ count ih =>
    have fits : n + count * n ≤ (count + 1) * n := by rw [Nat.succ_mul, Nat.add_comm]
    have begins : 0 + n ≤ (count + 1) * n := by omega
    have destInRam := wordsInRam_past placed.destInRam begins
    have sourceInRam := wordsInRam_past placed.sourceInRam begins
    have rest := placed.rest
    rw [dest.past_zero] at destInRam
    rw [source.past_zero] at sourceInRam
    obtain ⟨finished, first, changed⟩ :=
      m.multiplyVector_product destInRam sourceInRam placed.matrixInRam
    rw [multiplyVectors_succ]
    dsimp only
    rw [if_pos finished]
    generalize (m.multiplyVector n dest source matrix).2 = m' at first changed ⊢
    obtain ⟨products, confined⟩ := ih m' rest
    refine ⟨fun i inside column => ?_, ?_⟩
    · cases i with
      | zero =>
        have apart := (apart_past placed.destInRam fits).symm
        rw [Nat.zero_mul, source.past_zero, dest.past_zero, ← first column]
        exact confined.wordAt_of_apart rest.destInRam destInRam apart column.isLt
      | succ i =>
        have inside : i < count := Nat.lt_of_succ_lt_succ inside
        have vector : i * n + n ≤ count * n := by
          rw [← Nat.succ_mul]
          exact Nat.mul_le_mul_right n inside
        have sameMatrix := changed.matrixAt destInRam placed.matrixInRam fun j inside =>
          placed.apart j (by omega)
        have sameVector := changed.vectorAt destInRam (wordsInRam_past rest.sourceInRam vector)
          (placed.later.symm.past vector).symm
        rw [Nat.succ_mul, Nat.add_comm (i * n) n, ← Word.past_past, ← Word.past_past,
          products i inside column, sameMatrix, sameVector]
    · refine (changed.mono fun b here => ?_).trans (confined.mono fun b there => ?_)
      · unfold InWords at *
        omega
      · unfold InWords at *
        cases count with
        | zero => omega
        | succ count =>
          cases n with
          | zero => omega
          | succ n =>
            have start := toNat_past placed.destInRam (k := n + 1) (by rw [Nat.succ_mul]; omega)
            omega

end GuestMemory

/-- The size of the vectors that a call multiplies by a matrix, one after the other. -/
def MathCall.batchOrder? : MathCall → Option Nat
  | vectors3 => some 3
  | vectors4 => some 4
  | vector3 | matrix3 | vector4 | matrix4 | dot3 | cross3 => none

theorem MathCall.run_of_batchOrder? {call : MathCall} {n : Nat}
    (batches : call.batchOrder? = some n) (m : GuestMemory) (a : Arguments) :
    call.run m a = (none, (m.multiplyVectors n a.r0 a.r1 a.r2 a.r3.toNat).2) := by
  cases call <;> cases batches <;> rfl

namespace Machine

variable {δ : Type}

/-- A software interrupt that multiplies a batch of vectors by a matrix leaves for each of them the
exact product of what was there before, scaled, rounded down and modulo 2^32, also when the products
take the places of the vectors. No other byte of RAM changes but copies of the products, and no
register. -/
theorem softwareInterrupt_vectors (m : Machine δ) {comment : Word} {call : MathCall} {n : Nat}
    (answered : (m.calls.bind fun calls => calls.lookup? comment) = some call)
    (batches : call.batchOrder? = some n)
    (placed : GuestMemory.Placed n m.processor.arguments.r0 m.processor.arguments.r1
      m.processor.arguments.r2 m.processor.arguments.r3.toNat) :
    let a := m.processor.arguments
    let before := m.space.memory
    let after := m.softwareInterrupt comment
    (∀ i < a.r3.toNat, ∀ column : Fin n,
      after.space.memory.wordAt ((a.r0.past (i * n)).past column) =
        .ofInt ((before.vectorAt n (a.r1.past (i * n)) ᵥ* before.matrixAt n a.r2) column /
          2 ^ 16)) ∧
    GuestMemory.Confined (GuestMemory.InWords a.r0 (a.r3.toNat * n)) before after.space.memory ∧
    after.processor = m.processor := by
  intro a before after
  obtain ⟨memory, processor⟩ := softwareInterrupt_of_run answered
    (MathCall.run_of_batchOrder? batches before a)
  obtain ⟨products, confined⟩ := before.multiplyVectors_products placed
  refine ⟨?_, ?_, processor⟩
  · rw [memory]
    exact products
  · rw [memory]
    exact confined

/-- The rows of a matrix, multiplied by it in their places. The matrix is behind them. -/
theorem softwareInterrupt_vectors_inPlace :
    ((calling (shear ++ shear) ⟨0x100, 0x100, 0x124, 3⟩).softwareInterrupt
      0x50002).space.memory.wordAt (Word.past 0x100 1) = 0x20000 := by
  let m := calling (shear ++ shear) ⟨0x100, 0x100, 0x124, 3⟩
  have answered : (m.calls.bind fun calls => calls.lookup? 0x50002) = some .vectors3 := by decide
  have placed : GuestMemory.Placed 3 0x100 0x100 0x124 3 :=
    ⟨by decide, by decide, by decide, by unfold GuestMemory.Apart; decide, .inl rfl⟩
  obtain ⟨products, -, -⟩ := softwareInterrupt_vectors m answered rfl placed
  have entry {k : Nat} (inside : k < 18) : m.space.memory.signedAt (Word.past 0x100 k) =
      Word.toSigned ((shear ++ shear).getD k 0).toUInt64.toUInt32 :=
    signedAt_calling _ (by decide) inside
  refine (products 0 (by decide) 1).trans ?_
  rw [vecMul_apply_eq_sum, Fin.sum_univ_three]
  change UInt32.ofInt ((m.space.memory.signedAt (Word.past 0x100 0) *
    m.space.memory.signedAt (Word.past 0x100 10) + m.space.memory.signedAt (Word.past 0x100 1) *
    m.space.memory.signedAt (Word.past 0x100 13) + m.space.memory.signedAt (Word.past 0x100 2) *
    m.space.memory.signedAt (Word.past 0x100 16)) / 2 ^ 16) = _
  rw [entry (by decide), entry (by decide), entry (by decide), entry (by decide),
    entry (by decide), entry (by decide)]
  decide

end Machine

end ArmConsole
