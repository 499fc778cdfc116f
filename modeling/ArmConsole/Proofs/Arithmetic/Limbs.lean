import ArmConsole.Proofs.Arithmetic.Alu
import Mathlib.Data.Nat.Digits.Defs

/-!
Numbers of several words, the least significant one first. Adding two of them limb by limb hands the
carry on from each limb to the next. Main statement: the results and the last carry are the sum, and
the last overflow says that the signed sum has no room in as many limbs.
-/

namespace ArmConsole

namespace Limbs

/-- The number that the limbs are the digits of. -/
def value (limbs : List Word) : Nat := Nat.ofDigits (2 ^ 32) (limbs.map UInt32.toNat)

/-- The number that the limbs are in two's complement. -/
def signed (limbs : List Word) : Int :=
  if value limbs < 2 ^ (32 * limbs.length - 1) then value limbs
  else value limbs - (2 ^ (32 * limbs.length) : Nat)

/-- Adds pairs of limbs, with the carry of each in the next. -/
def add (carry : Bool) : List (Word × Word) → List AluResult
  | [] => []
  | (a, b) :: pairs =>
    let r := AluResult.addWithCarry a b carry
    r :: add r.carry pairs

variable {xs : List Word}

@[simp] theorem value_nil : value [] = 0 := rfl

theorem value_cons (x : Word) (xs : List Word) : value (x :: xs) = x.toNat + 2 ^ 32 * value xs :=
  Nat.ofDigits_cons ..

theorem span_succ (n : Nat) : 2 ^ (32 * (n + 1)) = 2 ^ 32 * 2 ^ (32 * n) := by
  rw [Nat.mul_succ, Nat.add_comm, Nat.pow_add]

/-- Half of the numbers of so many limbs have the last bit clear. -/
theorem span_eq_halves {n : Nat} (positive : 0 < n) : 2 ^ (32 * n) = 2 * 2 ^ (32 * n - 1) := by
  rw [← Nat.pow_succ']
  congr 1
  omega

theorem half_succ {n : Nat} (positive : 0 < n) :
    2 ^ (32 * (n + 1) - 1) = 2 ^ 32 * 2 ^ (32 * n - 1) := by
  rw [← Nat.pow_add]
  congr 1
  omega

theorem value_lt (xs : List Word) : value xs < 2 ^ (32 * xs.length) := by
  induction xs with
  | nil => exact Nat.one_pos
  | cons x xs ih =>
    have digit := x.toNat_lt
    rw [value_cons, List.length_cons, span_succ]
    omega

theorem value_complement (xs : List Word) :
    value (xs.map (~~~·)) + value xs + 1 = 2 ^ (32 * xs.length) := by
  induction xs with
  | nil => rfl
  | cons x xs ih =>
    have digit := x.toNat_complement
    rw [List.map_cons, value_cons, value_cons, List.length_cons, span_succ]
    omega

/-! ### Signed numbers -/

theorem signed_singleton (x : Word) : signed [x] = x.toSigned := by
  have digit : value [x] = x.toNat := by rw [value_cons, value_nil, Nat.mul_zero, Nat.add_zero]
  rw [signed, digit, Word.toSigned_eq]
  rfl

theorem signed_cons (x : Word) (nonempty : xs ≠ []) :
    signed (x :: xs) = x.toNat + 2 ^ 32 * signed xs := by
  have digit := x.toNat_lt
  have positive := List.length_pos_iff.2 nonempty
  unfold signed
  rw [value_cons, List.length_cons, half_succ positive, span_succ, span_eq_halves positive]
  generalize 2 ^ (32 * xs.length - 1) = half
  split <;> split <;> omega

theorem signed_complement (nonempty : xs ≠ []) : signed (xs.map (~~~·)) = -signed xs - 1 := by
  have sum := value_complement xs
  have positive := List.length_pos_iff.2 nonempty
  unfold signed
  rw [List.length_map]
  rw [span_eq_halves positive] at sum ⊢
  generalize 2 ^ (32 * xs.length - 1) = half at *
  split <;> split <;> omega

/-- Whether a number fits does not depend on its lowest limb. -/
theorem fits_cons (x : Word) {n : Nat} (positive : 0 < n) (t : Int) :
    FitsSigned (32 * (n + 1)) (x.toNat + 2 ^ 32 * t) ↔ FitsSigned (32 * n) t := by
  have digit := x.toNat_lt
  have cast (k : Nat) : (2 : Int) ^ k = (2 ^ k : Nat) := (Nat.cast_pow 2 k).symm
  unfold FitsSigned
  rw [cast (32 * (n + 1) - 1), cast (32 * n - 1), half_succ positive]
  generalize 2 ^ (32 * n - 1) = half
  omega

/-! ### Addition -/

/-- What an addition of limbs with a carry in comes to. -/
structure Added (pairs : List (Word × Word)) (carry : Bool) (last : AluResult) : Prop where
  getLast : (add carry pairs).getLast? = some last
  value : Limbs.value ((add carry pairs).map AluResult.value) +
      2 ^ (32 * pairs.length) * last.carry.toNat =
    Limbs.value (pairs.map Prod.fst) + Limbs.value (pairs.map Prod.snd) + carry.toNat
  overflow : last.overflow = decide (¬FitsSigned (32 * pairs.length)
    (signed (pairs.map Prod.fst) + signed (pairs.map Prod.snd) + carry.toNat))

theorem added_singleton (a b : Word) (carry : Bool) :
    Added [(a, b)] carry (.addWithCarry a b carry) where
  getLast := rfl
  value := by
    simp only [add, List.map_cons, List.map_nil, value_cons, value_nil, Nat.mul_zero, Nat.add_zero]
    exact AluResult.value_add_carry a b carry
  overflow := by
    simp only [List.map_cons, List.map_nil, signed_singleton]
    exact AluResult.overflow_eq_decide a b carry

theorem Added.cons {pairs : List (Word × Word)} {last : AluResult} (a b : Word) (carry : Bool)
    (nonempty : pairs ≠ []) (rest : Added pairs (AluResult.addWithCarry a b carry).carry last) :
    Added ((a, b) :: pairs) carry last := by
  have digit := AluResult.value_add_carry a b carry
  have total := rest.value
  have sign := rest.overflow
  have firsts : pairs.map Prod.fst ≠ [] := mt List.map_eq_nil_iff.1 nonempty
  have seconds : pairs.map Prod.snd ≠ [] := mt List.map_eq_nil_iff.1 nonempty
  generalize step : AluResult.addWithCarry a b carry = r at *
  constructor
  case getLast =>
    rw [add, step, List.getLast?_cons, rest.getLast]
    rfl
  case value =>
    simp only [add, List.map_cons, value_cons, List.length_cons, span_succ, step, Nat.mul_assoc]
    omega
  case overflow =>
    have number : signed (((a, b) :: pairs).map Prod.fst) + signed (((a, b) :: pairs).map Prod.snd) +
        carry.toNat = r.value.toNat + 2 ^ 32 * (signed (pairs.map Prod.fst) +
          signed (pairs.map Prod.snd) + r.carry.toNat) := by
      rw [List.map_cons, List.map_cons, signed_cons _ firsts, signed_cons _ seconds]
      dsimp only
      omega
    rw [sign, number, List.length_cons]
    simp only [fits_cons _ (List.length_pos_iff.2 nonempty)]

theorem exists_added (carry : Bool) {pairs : List (Word × Word)} (nonempty : pairs ≠ []) :
    ∃ last, Added pairs carry last := by
  -- Induction for every carry in; the most significant limb is the base, as it has the sign.
  induction pairs generalizing carry with
  | nil => contradiction
  | cons pair pairs ih =>
    obtain ⟨a, b⟩ := pair
    by_cases more : pairs = []
    · subst more
      exact ⟨_, added_singleton a b carry⟩
    · obtain ⟨last, rest⟩ := ih (AluResult.addWithCarry a b carry).carry more
      exact ⟨last, .cons a b carry more rest⟩

end Limbs

end ArmConsole
