import Mathlib.Algebra.Order.BigOperators.Group.Finset
import Mathlib.Algebra.Order.BigOperators.Ring.Finset
import Mathlib.Data.Int.CardIntervalMod
import Mathlib.Data.Nat.Periodic
import Mathlib.Order.Interval.Finset.Fin
import Mathlib.Tactic.Ring

/-!
Numbers in mixed radix. Every place has a radix of its own, and a digit counts as often as the
radices of the places before it multiply to. Main statement: a number is counted down by borrowing
from place to place, and from zero it goes to the greatest number that its places hold.
-/

namespace ArmConsole

namespace MixedRadix

variable {n : ℕ}

/-- How many numbers the places from `first` to `last` hold. -/
def span (radix : Fin n → ℕ) (first last : Fin n) : ℕ := ∏ i ∈ Finset.Icc first last, radix i

/-- The number that the places from `first` to `last` hold. -/
def value (radix digit : Fin n → ℕ) (first last : Fin n) : ℕ :=
  ∑ i ∈ Finset.Icc first last, digit i * ∏ j ∈ Finset.Ico first i, radix j

/-- The next count below: a digit borrows from the place behind it while all before it are zero. -/
def countDown (radix digit : Fin n → ℕ) (first i : Fin n) : ℕ :=
  if ∀ j, first ≤ j → j < i → digit j = 0 then
    if digit i = 0 then radix i - 1 else digit i - 1
  else digit i

/-- From a place on, one by one. -/
theorem place_induction {first : Fin n} {P : (last : Fin n) → first ≤ last → Prop}
    (start : P first le_rfl)
    (next : ∀ (i j : Fin n) (above : first ≤ i) (later : first ≤ j), j.val = i.val + 1 →
      P i above → P j later)
    {last : Fin n} (above : first ≤ last) : P last above := by
  obtain ⟨last, small⟩ := last
  induction last with
  | zero =>
    obtain rfl : first = ⟨0, small⟩ := Fin.ext (Nat.le_zero.1 above)
    exact start
  | succ i ih =>
    by_cases same : first.val = i + 1
    · obtain rfl : first = ⟨i + 1, small⟩ := Fin.ext same
      exact start
    · have before : first ≤ ⟨i, Nat.lt_of_succ_lt small⟩ := by
        rw [Fin.le_def] at above ⊢
        dsimp only at above ⊢
        omega
      exact next _ _ before above rfl (ih _ before)

variable {radix digit : Fin n → ℕ} {first i j last : Fin n}

theorem Ico_next (next : j.val = i.val + 1) : Finset.Ico first j = Finset.Icc first i := by
  ext k
  simp only [Finset.mem_Ico, Finset.mem_Icc, Fin.le_def, Fin.lt_def]
  omega

theorem Icc_next (later : first ≤ j) (next : j.val = i.val + 1) :
    Finset.Icc first j = insert j (Finset.Icc first i) := by
  rw [← Ico_next next, Finset.Ico_insert_right later]

theorem not_mem_Icc_of_next (next : j.val = i.val + 1) : j ∉ Finset.Icc first i := by
  simp only [Finset.mem_Icc, Fin.le_def]
  omega

@[simp] theorem span_self (radix : Fin n → ℕ) (first : Fin n) :
    span radix first first = radix first := by
  simp [span]

@[simp] theorem value_self (radix digit : Fin n → ℕ) (first : Fin n) :
    value radix digit first first = digit first := by
  simp [value]

theorem span_next (later : first ≤ j) (next : j.val = i.val + 1) :
    span radix first j = radix j * span radix first i := by
  rw [span, Icc_next later next, Finset.prod_insert (not_mem_Icc_of_next next), span]

theorem value_next (later : first ≤ j) (next : j.val = i.val + 1) :
    value radix digit first j =
      value radix digit first i + digit j * span radix first i := by
  rw [value, Icc_next later next, Finset.sum_insert (not_mem_Icc_of_next next), Ico_next next, span,
    value, Nat.add_comm]

theorem span_pos (positive : ∀ i, 0 < radix i) : 0 < span radix first last :=
  Finset.prod_pos fun i _ => positive i

theorem value_eq_zero_iff (positive : ∀ i, 0 < radix i) :
    value radix digit first last = 0 ↔ ∀ i, first ≤ i → i ≤ last → digit i = 0 := by
  simp only [value, Finset.sum_eq_zero_iff, Finset.mem_Icc, Nat.mul_eq_zero, and_imp]
  constructor
  · intro zeros i above below
    obtain zero | vanishes := zeros i above below
    · exact zero
    · exact absurd vanishes (Finset.prod_pos fun i _ => positive i).ne'
  · intro zeros i above below
    exact .inl (zeros i above below)

theorem span_congr {radix' : Fin n → ℕ}
    (same : ∀ i, first ≤ i → i ≤ last → radix i = radix' i) :
    span radix first last = span radix' first last := by
  apply Finset.prod_congr rfl
  intro i inside
  obtain ⟨above, below⟩ := Finset.mem_Icc.1 inside
  exact same i above below

theorem value_congr {radix' digit' : Fin n → ℕ}
    (sameRadix : ∀ i, first ≤ i → i ≤ last → radix i = radix' i)
    (sameDigit : ∀ i, first ≤ i → i ≤ last → digit i = digit' i) :
    value radix digit first last = value radix' digit' first last := by
  apply Finset.sum_congr rfl
  intro i inside
  obtain ⟨above, below⟩ := Finset.mem_Icc.1 inside
  rw [sameDigit i above below]
  congr 1
  apply Finset.prod_congr rfl
  intro j before
  obtain ⟨least, most⟩ := Finset.mem_Ico.1 before
  exact sameRadix j least (most.le.trans below)

/-- Digits below their radices make a number below the span. -/
theorem value_lt_span (above : first ≤ last)
    (small : ∀ i, first ≤ i → i ≤ last → digit i < radix i) :
    value radix digit first last < span radix first last := by
  induction above using place_induction with
  | start => simpa using small first le_rfl le_rfl
  | next i j above later next ih =>
    have below : i ≤ j := by
      rw [Fin.le_def]
      omega
    have rest := ih fun k least most => small k least (most.trans below)
    have digitSmall := small j later le_rfl
    rw [value_next later next, span_next later next]
    calc value radix digit first i + digit j * span radix first i
        < span radix first i + digit j * span radix first i := Nat.add_lt_add_right rest _
      _ = (digit j + 1) * span radix first i := by ring
      _ ≤ radix j * span radix first i := Nat.mul_le_mul_right _ digitSmall

/-- All places borrow exactly if the number is zero. -/
theorem borrows_iff (positive : ∀ i, 0 < radix i) (next : j.val = i.val + 1) :
    (∀ k, first ≤ k → k < j → digit k = 0) ↔ value radix digit first i = 0 := by
  rw [value_eq_zero_iff positive]
  have same (k : Fin n) : k < j ↔ k ≤ i := by
    rw [Fin.lt_def, Fin.le_def]
    omega
  simp only [same]

/-- Counting down takes one from a number; below zero is the greatest one. -/
theorem value_countDown (positive : ∀ i, 0 < radix i) (above : first ≤ last) :
    value radix (countDown radix digit first) first last =
      if value radix digit first last = 0 then span radix first last - 1
      else value radix digit first last - 1 := by
  induction above using place_induction with
  | start =>
    have none : ∀ j, first ≤ j → j < first → digit j = 0 :=
      fun j above below => absurd above (not_le.2 below)
    simp only [value_self, span_self, countDown, if_pos none]
  | next i j above later next ih =>
    rw [value_next later next, value_next later next, span_next later next, ih, countDown]
    simp only [borrows_iff positive next]
    have some : 0 < span radix first i := span_pos positive
    have someHere := positive j
    generalize value radix digit first i = v at *
    generalize span radix first i = s at *
    generalize digit j = d at *
    by_cases zero : v = 0
    · obtain ⟨s, rfl⟩ := Nat.exists_eq_add_one.2 some
      obtain ⟨r, same⟩ := Nat.exists_eq_add_one.2 someHere
      subst zero
      rw [same]
      cases d with
      | zero =>
        simp only [↓reduceIte, Nat.add_sub_cancel, Nat.zero_mul, Nat.add_zero]
        have whole : (r + 1) * (s + 1) = s + r * (s + 1) + 1 := by ring
        rw [whole, Nat.add_sub_cancel]
      | succ d =>
        have whole : 0 + (d + 1) * (s + 1) = s + d * (s + 1) + 1 := by ring
        simp only [↓reduceIte, Nat.add_sub_cancel, whole, Nat.succ_ne_zero]
    · have carried : v + d * s ≠ 0 := by omega
      simp only [if_neg zero, if_neg carried]
      omega

/-! ### For ever -/

section Forever

variable {v : ℕ → ℕ} {span : ℕ}

theorem forever (start : v 0 < span)
    (down : ∀ n, v (n + 1) = if v n = 0 then span - 1 else v n - 1) (n : ℕ) :
    v n < span ∧ v n + n ≡ v 0 [MOD span] := by
  induction n with
  | zero => exact ⟨start, Nat.ModEq.refl _⟩
  | succ n ih =>
    obtain ⟨small, same⟩ := ih
    rw [down n]
    by_cases zero : v n = 0
    · rw [if_pos zero]
      refine ⟨by omega, ?_⟩
      have around : span - 1 + (n + 1) = v n + n + span := by omega
      rw [around]
      exact (Nat.add_modEq_right).trans same
    · rw [if_neg zero]
      refine ⟨by omega, ?_⟩
      have step : v n - 1 + (n + 1) = v n + n := by omega
      rw [step]
      exact same

/-- A number that is counted down for ever is zero once in every span. -/
theorem zero_iff_modEq (start : v 0 < span)
    (down : ∀ n, v (n + 1) = if v n = 0 then span - 1 else v n - 1) (n : ℕ) :
    v n = 0 ↔ n ≡ v 0 [MOD span] := by
  obtain ⟨small, same⟩ := forever start down n
  constructor
  · intro zero
    rwa [zero, Nat.zero_add] at same
  · intro turn
    have round : v n + n ≡ 0 + n [MOD span] := by
      rw [Nat.zero_add]
      exact same.trans turn.symm
    exact (Nat.ModEq.add_right_cancel' n round).eq_of_lt_of_lt small (Nat.zero_lt_of_lt start)

theorem card_filter_modEq (some : 0 < span) (v start count : ℕ) :
    ((Finset.Ico start (start + count * span)).filter (· ≡ v [MOD span])).card = count := by
  have periodic : Function.Periodic (· ≡ v [MOD span]) (count * span) := by
    intro n
    have around : n + count * span ≡ n [MOD span] := by
      simp [Nat.ModEq]
    exact propext ⟨fun same => around.symm.trans same, fun same => around.trans same⟩
  rw [Nat.filter_Ico_card_eq_of_periodic _ _ _ periodic, Nat.count_modEq_card _ some,
    Nat.mul_mod_left, if_neg (Nat.not_lt_zero _), Nat.mul_div_cancel _ some, Nat.add_zero]

end Forever

end MixedRadix

end ArmConsole
