import Mathlib.Data.List.Basic

/-!
Histories. What is kept of one thing along a list of events is what the last event left of it that
concerned it. Main statement: a state that is folded over the events holds that of everything of
which one event leaves either its own value or what was there.
-/

namespace ArmConsole

variable {α β σ : Type}

/-- What the last event of a list leaves of a thing that it concerns, or what was there before. -/
def latest (concerns : α → Bool) (value : α → β) (before : β) (events : List α) : β :=
  (events.reverse.find? concerns).elim before value

theorem latest_cons (concerns : α → Bool) (value : α → β) (before : β) (a : α) (events : List α) :
    latest concerns value before (a :: events) =
      latest concerns value (if concerns a then value a else before) events := by
  simp only [latest, List.reverse_cons, List.find?_append, List.find?_singleton]
  cases events.reverse.find? concerns with
  | none => by_cases own : concerns a <;> simp [own]
  | some last => simp

/-- Events that do not concern the thing can be left out. -/
theorem latest_filter {concerns keep : α → Bool}
    (kept : ∀ a, concerns a = true → keep a = true) (value : α → β) (before : β)
    (events : List α) :
    latest concerns value before (events.filter keep) = latest concerns value before events := by
  have both : (fun a => decide (keep a = true ∧ concerns a = true)) = concerns := by
    funext a
    cases own : concerns a with
    | false => exact decide_eq_false fun both => Bool.false_ne_true both.2
    | true => exact decide_eq_true ⟨kept a own, rfl⟩
  rw [latest, latest, ← List.filter_reverse, List.find?_filter, both]

/-- The induction is on the events, over all states: the first of them goes into what was there
before the others. -/
theorem view_foldl (view : σ → β) {step : σ → α → σ} {concerns : α → Bool} {value : α → β}
    (one : ∀ s a, view (step s a) = if concerns a then value a else view s) (s : σ)
    (events : List α) :
    view (events.foldl step s) = latest concerns value (view s) events := by
  induction events generalizing s with
  | nil => rfl
  | cons a events ih => rw [List.foldl_cons, ih, one, latest_cons]

end ArmConsole
