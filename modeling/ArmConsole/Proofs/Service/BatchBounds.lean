import ArmConsole.Proofs.Checked.Access
import ArmConsole.Proofs.Service.VectorBatch

/-!
How far a batch of vectors gets. The number of vectors is the guest's and the addresses wrap around,
but a round that comes to its end has found its vector and its product in RAM, right behind those of
the round before. Main statement: so a batch gets no further than RAM does, whatever number it is
given, the distance of a vector from the first always fits in a word, and a batch that comes to its
end has all vectors and all products in RAM.
-/

namespace ArmConsole

/-- The product of a loop's index and its stride, which is an error if it does not fit in a word. -/
def Word.product? (i stride : Nat) : Checked Word :=
  if i * stride < 2 ^ 32 then some (.ofNat (i * stride)) else none

namespace GuestMemory

variable {n : Nat} {dest source : Word}

/-- The batch as a loop with an index: round `i` takes the vector `i * stride` bytes behind the
first. Yields the number of rounds that came to their end, and the outcome of the batch. -/
def runRounds? (n : Nat) (dest source matrix : Word) (m : GuestMemory) (i : Nat) :
    Nat → Checked (Nat × Bool × GuestMemory)
  | 0 => some (i, true, m)
  | left + 1 => do
    let distance ← Word.product? i (4 * n)
    let round := m.multiplyVector n (dest + distance) (source + distance) matrix
    if round.1 then runRounds? n dest source matrix round.2 (i + 1) left
    else return (i, false, round.2)

/-- The vectors and products of the first rounds are in RAM. -/
structure Passed (n : Nat) (dest source : Word) (rounds : Nat) : Prop where
  destInRam : wordsInRam dest (rounds * n) = true
  sourceInRam : wordsInRam source (rounds * n) = true

namespace Passed

variable {rounds : Nat}

theorem zero (n : Nat) (dest source : Word) : Passed n dest source 0 := by
  constructor <;> rw [Nat.zero_mul] <;> rfl

theorem succ (passed : Passed n dest source rounds) {m : GuestMemory} {matrix : Word}
    (finished : (m.multiplyVector n (dest.past (rounds * n)) (source.past (rounds * n)) matrix).1 =
      true) : Passed n dest source (rounds + 1) := by
  unfold multiplyVector at finished
  split at finished
  next operands =>
    rw [writeFixed_finished, ← wordsInRam_eq_all, length_rowTimesMatrix] at finished
    rw [Bool.and_eq_true] at operands
    constructor <;> rw [Nat.succ_mul]
    · exact wordsInRam_add passed.destInRam finished
    · exact wordsInRam_add passed.sourceInRam operands.1
  next => contradiction

/-- Rows of words in RAM end in RAM. -/
theorem ends (passed : Passed n dest source rounds) (some : 0 < rounds * n) :
    dest.toNat + rounds * (4 * n) ≤ ramSize ∧ source.toNat + rounds * (4 * n) ≤ ramSize := by
  have size : rounds * (4 * n) = 4 * (rounds * n) := Nat.mul_left_comm ..
  rw [size]
  exact ⟨((wordsInRam_iff_range some).1 passed.destInRam).2,
    ((wordsInRam_iff_range some).1 passed.sourceInRam).2⟩

theorem bound (passed : Passed n dest source rounds) : rounds * (4 * n) ≤ ramSize := by
  obtain none | some := Nat.eq_zero_or_pos (rounds * n)
  · rw [Nat.mul_left_comm, none]
    exact Nat.zero_le _
  · exact (Nat.le_add_left _ _).trans (passed.ends some).1

/-- The distance of the next vector fits in a word. -/
theorem product? (passed : Passed n dest source rounds) :
    Word.product? rounds (4 * n) = some (.ofNat (4 * (rounds * n))) := by
  have bound : rounds * (4 * n) ≤ 0x300000 := passed.bound
  rw [Word.product?, if_pos (by omega), Nat.mul_left_comm]

end Passed

theorem runRounds?_succ {i : Nat} (passed : Passed n dest source i) (m : GuestMemory)
    (matrix : Word) (left : Nat) :
    runRounds? n dest source matrix m i (left + 1) =
      let round := m.multiplyVector n (dest.past (i * n)) (source.past (i * n)) matrix
      if round.1 then runRounds? n dest source matrix round.2 (i + 1) left
      else some (i, false, round.2) := by
  rw [runRounds?, passed.product?]
  rfl

/-- The induction is on the number of rounds that are left. The rounds before have passed, so that
the next distance fits; a round that does not come to its end is the last. -/
theorem runRounds?_eq (m : GuestMemory) (matrix : Word) {i : Nat}
    (passed : Passed n dest source i) (left : Nat) :
    let outcome := m.multiplyVectors n (dest.past (i * n)) (source.past (i * n)) matrix left
    ∃ rounds, runRounds? n dest source matrix m i left = some (rounds, outcome) ∧
      Passed n dest source rounds ∧ rounds ≤ i + left ∧
      (outcome.1 = true ↔ rounds = i + left) := by
  induction left generalizing m i with
  | zero => exact ⟨i, rfl, passed, le_rfl, iff_of_true rfl rfl⟩
  | succ left ih =>
    have next (address : Word) : (address.past (i * n)).past n = address.past ((i + 1) * n) := by
      rw [Word.past_past, Nat.succ_mul]
    have total : i + 1 + left = i + (left + 1) := by omega
    rw [runRounds?_succ passed, multiplyVectors_succ, next, next]
    cases finished : (m.multiplyVector n (dest.past (i * n)) (source.past (i * n)) matrix).1 with
    | true =>
      simp only [finished, if_true]
      rw [← total]
      exact ih _ (passed.succ finished)
    | false =>
      simp only [finished, Bool.false_eq_true, if_false]
      refine ⟨i, ?_, passed, Nat.le_add_right _ _, iff_of_false (by simp) (by omega)⟩
      rw [← finished]

/-- Whatever the arguments are, the index of a batch times its stride never leaves a word, and at
most 262144 vectors of three or 196608 of four are multiplied. A batch that comes to its end has
multiplied as many as it was asked for, and no byte of its vectors and products is outside of
RAM. -/
theorem multiplyVectors_bounded (m : GuestMemory) (dest source matrix count : Word) {n : Nat}
    (some : 0 < n) :
    let outcome := m.multiplyVectors n dest source matrix count.toNat
    ∃ rounds, runRounds? n dest source matrix m 0 count.toNat = .some (rounds, outcome) ∧
      rounds ≤ count.toNat ∧ rounds ≤ ramSize / (4 * n) ∧
      (n = 3 → rounds ≤ 262144) ∧ (n = 4 → rounds ≤ 196608) ∧
      (outcome.1 = true ↔ rounds = count.toNat) ∧
      (outcome.1 = true → ∀ k < count.toNat * (4 * n),
        source.toNat + k < ramSize ∧ dest.toNat + k < ramSize) := by
  obtain ⟨rounds, run, passed, few, finished⟩ :=
    runRounds?_eq m matrix (Passed.zero n dest source) count.toNat
  rw [Nat.zero_mul, dest.past_zero, source.past_zero, Nat.zero_add] at *
  have bound : rounds * (4 * n) ≤ 0x300000 := passed.bound
  refine ⟨rounds, run, few, (Nat.le_div_iff_mul_le (by omega)).2 bound, ?_, ?_, finished, ?_⟩
  · rintro rfl
    omega
  · rintro rfl
    omega
  · intro ended k inside
    rw [← finished.1 ended] at inside
    have ends := passed.ends (by
      rw [Nat.mul_left_comm] at inside
      omega)
    omega

/-- As many vectors of three as a word can count, from address 0 up. -/
theorem multiplyVectors_bounded_beyond :
    ∃ rounds, runRounds? 3 0 0 0 empty 0 0xFFFFFFFF =
        some (rounds, empty.multiplyVectors 3 0 0 0 0xFFFFFFFF) ∧ rounds ≤ 262144 ∧
      (empty.multiplyVectors 3 0 0 0 0xFFFFFFFF).1 = false := by
  obtain ⟨rounds, run, -, -, bound, -, finished, -⟩ :=
    empty.multiplyVectors_bounded 0 0 0 0xFFFFFFFF (by decide : 0 < 3)
  have bound := bound rfl
  refine ⟨rounds, run, bound, Bool.eq_false_iff.2 fun ended => ?_⟩
  have all : rounds = 0xFFFFFFFF := finished.1 ended
  omega

end GuestMemory

end ArmConsole
