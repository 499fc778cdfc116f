import ArmConsole.Console.Strict
import ArmConsole.Proofs.Console.Run
import ArmConsole.Proofs.Machine.Accesses
import ArmConsole.Proofs.Machine.Services
import ArmConsole.Proofs.Service.Overflow

/-!
Runs where arithmetic is checked. Main statements: a step stops exactly if a math call answers its
instruction and overflows, and is the step without the checks otherwise; so a run that comes to its
end is the run without the checks, and every run comes to its end where no software interrupt is
answered.
-/

namespace ArmConsole

namespace Machine

variable {δ : Type} [ExpansionDevice δ]

/-- Whether the math call that answers an instruction overflows. -/
def answerOverflows (m : Machine δ) (answer : Option MathCall) : Bool :=
  answer.any fun call => call.overflows m.space.memory m.processor.arguments

theorem strictExecute_eq (m : Machine δ) (i : Instruction) :
    m.strictExecute i =
      if m.answerOverflows (m.answer? i) then none else some (m.execute i) := by
  cases i with
  | softwareInterrupt comment =>
    have same : m.overflows comment =
        m.answerOverflows (m.answer? (.softwareInterrupt comment)) := by
      rw [overflows, answer?]
      cases m.calls.bind fun calls => calls.lookup? comment <;> rfl
    rw [strictExecute, strictSoftwareInterrupt, same]
    rfl
  | _ => rfl

/-- Whether the math call that a step makes overflows. -/
def stops (m : Machine δ) : Bool := m.ready.2.answerOverflows m.answered?

theorem strictStep_eq (m : Machine δ) :
    m.strictStep = if m.stops then none else some m.step := by
  have finished : m.ready.2.strictExecuteWord m.ready.1 =
      if m.stops then none else some m.finished := by
    rw [finished_eq, stops, answered?, strictExecuteWord]
    unfold executed?
    split
    · exact m.ready.2.strictExecute_eq _
    · rfl
  change (m.ready.2.strictExecuteWord m.ready.1).bind _ = _
  rw [finished, step_eq]
  cases m.stops <;> rfl

theorem stops_iff (m : Machine δ) :
    m.stops = true ↔ ∃ call, m.answered? = some call ∧
      call.Overflows m.ready.2.space.memory m.ready.2.processor.arguments := by
  simp only [stops, answerOverflows, Option.any_eq_true, MathCall.overflows_iff]

theorem calls_ready (m : Machine δ) : m.ready.2.calls = m.calls := by
  obtain ⟨processor, space, calls, redirects⟩ := m
  cases redirects <;> rfl

theorem stops_of_calls {m : Machine δ} (unanswered : m.calls = none) : m.stops = false := by
  have answer (i : Instruction) : m.ready.2.answer? i = none := by
    cases i with
    | softwareInterrupt comment => rw [answer?, calls_ready, unanswered, Option.bind_none]
    | _ => rfl
  rw [stops, answered?]
  cases m.executed? with
  | none => rfl
  | some i =>
    rw [Option.bind_some, answer]
    rfl

theorem calls_step (m : Machine δ) : m.step.calls = m.calls := congrArg Prod.fst m.armed_step

end Machine

namespace Console

variable {δ : Type} [ExpansionDevice δ]

theorem strictStep_eq (c : Console δ) :
    c.strictStep = if c.machine.stops then none else some c.step := by
  change c.machine.strictStep.bind _ = _
  rw [Machine.strictStep_eq]
  cases c.machine.stops <;> rfl

/-! ### Runs that come to their end -/

variable {c d : Console δ}

theorem step_of_strictStep (ended : c.strictStep = some d) : c.step = d := by
  rw [strictStep_eq] at ended
  split at ended
  · contradiction
  · exact Option.some.inj ended

theorem runCycles_of_strict {budget spent : Word} {fuel : Nat} {r : Word × Console δ}
    (ended : c.strictRunCycles budget fuel spent = some r) :
    c.runCycles budget fuel spent = r := by
  induction fuel generalizing c spent with
  | zero => exact Option.some.inj ended
  | succ fuel ih =>
    rw [strictRunCycles] at ended
    rw [runCycles]
    split
    next short =>
      rw [if_pos short] at ended
      obtain ⟨d, stepped, rest⟩ := Option.bind_eq_some_iff.1 ended
      rw [step_of_strictStep stepped]
      exact ih rest
    next done =>
      rw [if_neg done] at ended
      exact Option.some.inj ended

theorem runLine_of_strict (ended : c.strictRunLine = some d) : c.runLine = d := by
  obtain ⟨r, spent, finished⟩ := Option.bind_eq_some_iff.1 ended
  rw [runLine, runCycles_of_strict spent]
  exact Option.some.inj finished

theorem runLines_of_strict {n : Nat} (ended : c.strictRunLines n = some d) :
    c.runLines n = d := by
  induction n generalizing c with
  | zero => exact Option.some.inj ended
  | succ n ih =>
    obtain ⟨e, first, rest⟩ := Option.bind_eq_some_iff.1 ended
    rw [runLines, runLine_of_strict first]
    exact ih rest

/-- A run that comes to its end is the run without the checks. -/
theorem runFields_of_strict {n : Nat} (ended : c.strictRunFields n = some d) :
    c.runFields n = d := by
  induction n generalizing c with
  | zero => exact Option.some.inj ended
  | succ n ih =>
    obtain ⟨e, first, rest⟩ := Option.bind_eq_some_iff.1 ended
    rw [runFields, runField, runLines_of_strict first]
    exact ih rest

/-! ### Runs without an overflow -/

section Going

variable {P : Console δ → Prop} (going : ∀ c, P c → c.machine.stops = false)
  (step : ∀ c, P c → P c.step)
  (endLine : ∀ c carry, P c → P ({ c with carry } : Console δ).tickLine.nextLine)

include going step

theorem strictRunCycles_of_going (start : P c) (budget : Word) (fuel : Nat) (spent : Word) :
    c.strictRunCycles budget fuel spent = some (c.runCycles budget fuel spent) := by
  induction fuel generalizing c spent with
  | zero => rfl
  | succ fuel ih =>
    rw [strictRunCycles, runCycles, strictStep_eq, going c start]
    split
    · exact ih (step c start) _
    · rfl

theorem strictRunLine_of_going (start : P c) : c.strictRunLine = some c.runLine := by
  rw [strictRunLine, strictRunCycles_of_going going step start]
  rfl

include endLine

theorem strictRunLines_of_going (start : P c) (n : Nat) :
    c.strictRunLines n = some (c.runLines n) ∧ P (c.runLines n) := by
  induction n generalizing c with
  | zero => exact ⟨rfl, start⟩
  | succ n ih =>
    rw [strictRunLines, strictRunLine_of_going going step start]
    exact ih (runLine_invariant step endLine start)

theorem strictRunFields_of_going (start : P c) (n : Nat) :
    c.strictRunFields n = some (c.runFields n) := by
  induction n generalizing c with
  | zero => rfl
  | succ n ih =>
    obtain ⟨ran, kept⟩ := strictRunLines_of_going going step endLine start
      c.configuration.video.linesPerField.toNat
    rw [strictRunFields, strictRunField, ran]
    exact ih kept

end Going

/-- Where no software interrupt is answered natively, no run overflows. -/
theorem strictRunFields_of_calls (unanswered : c.machine.calls = none) (n : Nat) :
    c.strictRunFields n = some (c.runFields n) := by
  apply strictRunFields_of_going (P := fun c => c.machine.calls = none) _ _ _ unanswered
  · exact fun c => Machine.stops_of_calls
  · exact fun c unanswered => (c.machine.calls_step).trans unanswered
  · exact fun c carry unanswered => unanswered

end Console

end ArmConsole
