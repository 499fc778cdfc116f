import ArmConsole.Controller.Timers
import ArmConsole.Proofs.Controller.Pending
import ArmConsole.Proofs.MixedRadix

/-!
A tick, timer by timer. A timer sees of a tick whether the one before went below zero, and changes
nothing but its own counter and control bits. So a chain of timers that reload, each counting when
the one before goes below zero, counts down as one number in mixed radix.
-/

namespace ArmConsole

namespace Timers

/-! ### Other timers -/

theorem flags_clear (control : UInt64) {t u : Fin 16} (apart : t ≠ u) :
    (control &&& ~~~((1 : UInt64) <<< shift u)) >>> shift t &&& 0xF =
      control >>> shift t &&& 0xF := by
  have outside : ~~~((1 : UInt64) <<< shift u) >>> shift t &&& 0xF = 0xF := by
    revert t u
    decide
  rw [UInt64.shiftRight_and, UInt64.and_assoc, outside]

/-- The source that an odd timer raises. -/
def source (t : Fin 16) : InterruptSource := .primary ⟨10 - t.val / 2, by omega⟩

/-- Odd timers raise different sources. -/
theorem among_timer {t u : Fin 16} (odd : t.val % 2 = 1) (other : u.val % 2 = 1) :
    (source t).among (Interrupts.timer u) = decide (t = u) := by
  revert t u
  decide

theorem counter_withCounter (timers : Timers) (t : Fin 16) (v : HalfWord) :
    (timers.withCounter t v).counter.get t = v :=
  Vector.getElem_set_self t.isLt

theorem counter_withCounter_of_ne (timers : Timers) {t u : Fin 16} (apart : t ≠ u) (v : HalfWord) :
    (timers.withCounter u v).counter.get t = timers.counter.get t :=
  Vector.getElem_set_ne u.isLt t.isLt fun same => apart (Fin.ext same.symm)

/-- Nothing has happened to timer `t`. -/
structure Untouched (t : Fin 16) (p q : Progress) : Prop where
  counter : q.timers.counter.get t = p.timers.counter.get t
  backup : q.timers.backup.get t = p.timers.backup.get t
  flags : q.timers.flags t = p.timers.flags t
  raised : t.val % 2 = 1 → (source t).among q.raised = (source t).among p.raised

theorem Untouched.refl (t : Fin 16) (p : Progress) : Untouched t p p :=
  ⟨rfl, rfl, rfl, fun _ => rfl⟩

theorem Untouched.trans {t : Fin 16} {p q r : Progress} (first : Untouched t p q)
    (second : Untouched t q r) : Untouched t p r where
  counter := second.counter.trans first.counter
  backup := second.backup.trans first.backup
  flags := second.flags.trans first.flags
  raised odd := (second.raised odd).trans (first.raised odd)

/-- A timer that goes below zero has its own counter and control bits changed. -/
theorem untouched_expire (p : Progress) {t u : Fin 16} (apart : t ≠ u) :
    Untouched t p { p with timers := p.timers.expire u, carry := true } := by
  unfold expire
  split
  · exact ⟨p.timers.counter_withCounter_of_ne apart _, rfl, rfl, fun _ => rfl⟩
  · exact ⟨p.timers.counter_withCounter_of_ne apart _, rfl, flags_clear p.timers.control apart,
      fun _ => rfl⟩

theorem untouched_advance (p : Progress) {t u : Fin 16} (apart : t ≠ u) :
    Untouched t p (advance p u) := by
  unfold advance
  split
  · exact ⟨rfl, rfl, rfl, fun _ => rfl⟩
  split
  · exact ⟨rfl, rfl, rfl, fun _ => rfl⟩
  split
  · refine (untouched_expire p apart).trans ⟨rfl, rfl, rfl, fun odd => ?_⟩
    dsimp only
    split
    next other =>
      rw [InterruptSource.among_or, among_timer odd other, decide_eq_false apart, Bool.or_false]
    next => rfl
  · exact ⟨p.timers.counter_withCounter_of_ne apart _, rfl, rfl, fun _ => rfl⟩

/-! ### Along a tick -/

/-- A tick that has gone past the first `k` timers. -/
def passed (timers : Timers) (k : ℕ) : Progress :=
  ((List.finRange 16).take k).foldl advance ⟨timers, true, 0⟩

variable {timers : Timers}

theorem passed_succ (timers : Timers) (t : Fin 16) :
    timers.passed (t.val + 1) = advance (timers.passed t.val) t := by
  have here : (List.finRange 16).take (t.val + 1) = (List.finRange 16).take t.val ++ [t] := by
    rw [List.take_succ_eq_append_getElem (by simp), List.getElem_finRange]
    rfl
  rw [passed, here, List.foldl_append]
  rfl

theorem tick_eq (timers : Timers) :
    timers.tick = ((timers.passed 16).raised, (timers.passed 16).timers) := by
  have whole : (List.finRange 16).take 16 = List.finRange 16 := rfl
  rw [tick, Fin.foldl_eq_finRange_foldl, passed, whole]

/-- A tick that does not go past a timer leaves it alone. -/
theorem untouched_passed {t : Fin 16} {k j : ℕ} (le : k ≤ j) (end_ : j ≤ 16)
    (outside : t.val < k ∨ j ≤ t.val) : Untouched t (timers.passed k) (timers.passed j) := by
  induction j, le using Nat.le_induction with
  | base => exact .refl t _
  | succ j le ih =>
    have apart : t ≠ ⟨j, end_⟩ := by
      rintro rfl
      dsimp only at outside
      omega
    have before := ih (by omega) (by omega)
    have step := untouched_advance (timers.passed j) apart
    rw [← passed_succ timers ⟨j, end_⟩] at step
    exact before.trans step

theorem untouched_before (timers : Timers) (t : Fin 16) :
    Untouched t ⟨timers, true, 0⟩ (timers.passed t.val) :=
  untouched_passed (k := 0) (Nat.zero_le _) t.isLt.le (.inr le_rfl)

theorem untouched_after (timers : Timers) (t : Fin 16) :
    Untouched t (advance (timers.passed t.val) t) (timers.passed 16) := by
  rw [← passed_succ]
  exact untouched_passed t.isLt le_rfl (.inl (Nat.lt_succ_self _))

/-! ### Timers that reload -/

variable {p : Progress} {t : Fin 16}

/-- A timer that is due counts down and starts again below zero. -/
theorem advance_of_due (counts : p.timers.counts t) (reloads : p.timers.reloads t)
    (due : p.timers.cascades t → p.carry) :
    advance p t =
      if p.timers.counter.get t = 0 then
        { timers := p.timers.withCounter t (p.timers.backup.get t)
          carry := true
          raised := if t.val % 2 = 1 then p.raised ||| Interrupts.timer t else p.raised }
      else
        { p with
          timers := p.timers.withCounter t (p.timers.counter.get t - 1)
          carry := false } := by
  have moves : ¬(p.timers.cascades t && !p.carry) = true := by
    intro waits
    rw [Bool.and_eq_true, Bool.not_eq_true'] at waits
    rw [due waits.1] at waits
    exact Bool.noConfusion waits.2
  have get (v : Vector HalfWord 16) : v[t] = v.get t := rfl
  simp only [advance, counts, get, Bool.not_true, Bool.false_eq_true, if_false, if_neg moves,
    expire, reloads, if_true, beq_iff_eq]

theorem advance_of_not_due (waits : ¬(p.timers.cascades t → p.carry)) :
    advance p t = { p with carry := false } := by
  obtain ⟨cascades, still⟩ := Classical.not_imp.1 waits
  simp only [advance, cascades, still, Bool.not_false, Bool.and_self, if_true, ite_self]

/-! ### Chains -/

/-- Timers from `first` to `last` that reload, of which each after the first counts when the one
before goes below zero. No counter is above its backup. -/
structure Chain (timers : Timers) (first last : Fin 16) : Prop where
  ordered : first ≤ last
  counts : ∀ t, first ≤ t → t ≤ last → timers.counts t
  reloads : ∀ t, first ≤ t → t ≤ last → timers.reloads t
  /-- Every tick is one for the first timer of all. -/
  free : timers.cascades first = false ∨ first = 0
  cascades : ∀ t, first < t → t ≤ last → timers.cascades t
  bounded : ∀ t, first ≤ t → t ≤ last → timers.counter.get t ≤ timers.backup.get t

/-- All counters from `first` up to `t` are zero. -/
def Zeros (timers : Timers) (first t : Fin 16) : Prop :=
  ∀ i, first ≤ i → i < t → timers.counter.get i = 0

instance (timers : Timers) (first t : Fin 16) : Decidable (timers.Zeros first t) :=
  inferInstanceAs (Decidable (∀ _, _))

theorem cascades_passed (timers : Timers) (t : Fin 16) :
    (timers.passed t).timers.cascades t = timers.cascades t := by
  have flags : (timers.passed t).timers.flags t = timers.flags t :=
    (timers.untouched_before t).flags
  unfold cascades
  rw [flags]

variable {first last : Fin 16}

theorem zeros_next {i j : Fin 16} (above : first ≤ i) (next : j.val = i.val + 1) :
    timers.Zeros first j ↔ timers.Zeros first i ∧ timers.counter.get i = 0 := by
  constructor
  · intro zeros
    have here : i < j := by
      rw [Fin.lt_def]
      omega
    exact ⟨fun k least most => zeros k least (most.trans here), zeros i above here⟩
  · rintro ⟨zeros, zero⟩ k least most
    obtain same | before : k = i ∨ k < i := by
      rw [Fin.lt_def] at most ⊢
      rw [Fin.ext_iff]
      omega
    · rw [same]
      exact zero
    · exact zeros k least before

namespace Chain

theorem initial (chain : timers.Chain first last) (above : first ≤ t) (below : t ≤ last) :
    timers.Chain first t where
  ordered := above
  counts i least most := chain.counts i least (most.trans below)
  reloads i least most := chain.reloads i least (most.trans below)
  free := chain.free
  cascades i least most := chain.cascades i least (most.trans below)
  bounded i least most := chain.bounded i least (most.trans below)

/-- A timer of a chain that is due counts down and starts again below zero. -/
theorem advance_passed (chain : timers.Chain first last) (above : first ≤ t) (below : t ≤ last)
    (due : (timers.passed t).timers.cascades t → (timers.passed t).carry) :
    let p := timers.passed t
    advance p t =
      if timers.counter.get t = 0 then
        { timers := p.timers.withCounter t (timers.backup.get t)
          carry := true
          raised := if t.val % 2 = 1 then p.raised ||| Interrupts.timer t else p.raised }
      else
        { p with timers := p.timers.withCounter t (timers.counter.get t - 1), carry := false } := by
  have before := timers.untouched_before t
  have counts := chain.counts t above below
  have reloads := chain.reloads t above below
  unfold Timers.counts at counts
  unfold Timers.reloads at reloads
  have flags : (timers.passed t).timers.flags t = timers.flags t := before.flags
  rw [← flags] at counts reloads
  intro p
  rw [advance_of_due counts reloads due, before.counter, before.backup]

/-- A timer of a chain is due when all before it are zero. -/
theorem due_iff (chain : timers.Chain first last) (above : first ≤ t) (below : t ≤ last) :
    ((timers.passed t).timers.cascades t → (timers.passed t).carry) ↔ timers.Zeros first t := by
  induction above using MixedRadix.place_induction with
  | start =>
    have zeros : timers.Zeros first first :=
      fun i least most => absurd least (not_le.2 most)
    refine iff_of_true ?_ zeros
    obtain free | rfl := chain.free
    · rw [cascades_passed, free]
      exact fun cascades => Bool.noConfusion cascades
    · exact fun _ => rfl
  | next i j above later next ih =>
    have inChain : i ≤ last := by
      rw [Fin.le_def] at below ⊢
      omega
    have cascades : timers.cascades j := by
      apply chain.cascades j _ below
      rw [Fin.le_def] at above
      rw [Fin.lt_def]
      omega
    have carried : (timers.passed j).carry = (advance (timers.passed i) i).carry := by
      rw [← passed_succ, next]
    rw [cascades_passed, cascades, carried, zeros_next above next, ← ih inChain]
    by_cases due : (timers.passed i).timers.cascades i → (timers.passed i).carry
    · rw [chain.advance_passed above inChain due]
      by_cases zero : timers.counter.get i = 0
      · rw [if_pos zero]
        exact iff_of_true (fun _ => rfl) ⟨due, zero⟩
      · rw [if_neg zero]
        exact iff_of_false (fun carry => Bool.noConfusion (carry rfl)) fun both => zero both.2
    · rw [advance_of_not_due due]
      exact iff_of_false (fun carry => Bool.noConfusion (carry rfl)) fun both => due both.1

/-! ### What a tick does to a chain -/

/-- The timers of a chain keep their control bits and backups. -/
theorem kept_tick (chain : timers.Chain first last) (above : first ≤ t) (below : t ≤ last) :
    timers.tick.2.flags t = timers.flags t ∧ timers.tick.2.backup.get t = timers.backup.get t := by
  have after := timers.untouched_after t
  have flags : (timers.passed t).timers.flags t = timers.flags t :=
    (timers.untouched_before t).flags
  have backup : (timers.passed t).timers.backup.get t = timers.backup.get t :=
    (timers.untouched_before t).backup
  rw [tick_eq, after.flags, after.backup, ← flags, ← backup]
  by_cases due : (timers.passed t).timers.cascades t → (timers.passed t).carry
  · rw [chain.advance_passed above below due]
    split <;> exact ⟨rfl, rfl⟩
  · rw [advance_of_not_due due]
    exact ⟨rfl, rfl⟩

theorem counter_tick (chain : timers.Chain first last) (above : first ≤ t) (below : t ≤ last) :
    timers.tick.2.counter.get t =
      if timers.Zeros first t then
        if timers.counter.get t = 0 then timers.backup.get t else timers.counter.get t - 1
      else timers.counter.get t := by
  rw [tick_eq, (timers.untouched_after t).counter]
  by_cases due : (timers.passed t).timers.cascades t → (timers.passed t).carry
  · rw [chain.advance_passed above below due, if_pos ((chain.due_iff above below).1 due)]
    split <;> exact counter_withCounter _ t _
  · rw [advance_of_not_due due, if_neg (mt (chain.due_iff above below).2 due)]
    exact (timers.untouched_before t).counter

/-- An odd timer of a chain raises its source when it and all before it are zero. -/
theorem among_tick (chain : timers.Chain first last) (above : first ≤ t) (below : t ≤ last)
    (odd : t.val % 2 = 1) :
    (source t).among timers.tick.1 ↔ timers.Zeros first t ∧ timers.counter.get t = 0 := by
  have quiet : (source t).among (timers.passed t).raised = false :=
    ((timers.untouched_before t).raised odd).trans (source t).among_zero
  rw [tick_eq, (timers.untouched_after t).raised odd, ← chain.due_iff above below]
  by_cases due : (timers.passed t).timers.cascades t → (timers.passed t).carry
  · rw [chain.advance_passed above below due]
    by_cases zero : timers.counter.get t = 0
    · rw [if_pos zero]
      dsimp only
      rw [if_pos odd, InterruptSource.among_or, among_timer odd odd, decide_eq_true rfl,
        Bool.or_true]
      exact iff_of_true rfl ⟨due, zero⟩
    · rw [if_neg zero, quiet]
      exact iff_of_false Bool.false_ne_true fun both => zero both.2
  · rw [advance_of_not_due due, quiet]
    exact iff_of_false Bool.false_ne_true fun both => due both.1

end Chain

end Timers

end ArmConsole
