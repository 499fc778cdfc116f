import ArmConsole.Proofs.Machine.Accesses
import ArmConsole.Proofs.Processor.Context
import Mathlib.Logic.Function.Iterate

/-!
How an FIQ is delivered. A request is latched while the status word disables FIQs and taken after
the first instruction that leaves them enabled, whatever that instruction was. Main statement:
`fiq_delivery`, over any number of steps of any machine.
-/

namespace ArmConsole

namespace Processor

/-- Where the processor would go on. -/
def nextPc (p : Processor) : Word := if p.stalled then p.pc + 4 else p.pc

/-- Between `p`, which has finished an instruction, and `q` an FIQ has been entered. -/
structure FiqEntered (p q : Processor) : Prop where
  enabled : p.status.fiqDisabled = false
  fiqLine : q.fiqLine = false
  mode : q.mode = .fiq
  irqDisabled : q.status.irqDisabled = true
  fiqDisabled : q.status.fiqDisabled = true
  status : q.status = ((p.status.withMode .fiq).withIrqDisabled true).withFiqDisabled true
  saved : q.saved? = some p.status
  link : q.live.get RegisterNumber.link = p.nextPc + 4
  pc : q.pc = 0x1C
  /-- Of the registers and saved status words of all modes no others have changed. -/
  context : p.Entered .fiq (p.nextPc + 4) q

theorem fiqEntered_enter {p : Processor} (enabled : p.status.fiqDisabled = false) :
    p.FiqEntered
      ({ p.withPc p.nextPc with fiqLine := false }.enter .fiq (p.nextPc + 4)) := by
  let resting := { p.withPc p.nextPc with fiqLine := false }
  have entered := resting.entered_enter .fiq (p.nextPc + 4)
  have context : p.Entered .fiq (p.nextPc + 4) (resting.enter .fiq (p.nextPc + 4)) :=
    entered_of_withPc p.nextPc ⟨entered.mode, entered.registers, entered.saved⟩
  refine ⟨enabled, rfl, rfl, resting.irqDisabled_enter .fiq _, resting.fiqDisabled_enter _, ?_,
    context.saved .fiq, context.link, resting.pc_enter .fiq _, context⟩
  rw [status_enter, if_pos rfl]
  rfl

end Processor

namespace Machine

variable {δ : Type} [ExpansionDevice δ] {m : Machine δ}

omit [ExpansionDevice δ] in
theorem skipIfStalled_eq (m : Machine δ) :
    m.skipIfStalled = m.mapProcessor fun p => p.withPc p.nextPc := by
  unfold skipIfStalled mapProcessor Processor.nextPc
  dsimp only
  split
  · rfl
  · rw [Processor.withPc_pc]

/-- Whether an FIQ is asked for, by the request line or by the controller. -/
def asksFiq (m : Machine δ) : Bool :=
  m.processor.fiqLine || m.space.io.controller.interrupts.fiqNeeded

/-! ### One step -/

theorem fiqLine_finished (m : Machine δ) : m.finished.processor.fiqLine = m.processor.fiqLine :=
  ((m.ready.2.outcome_executeWord m.stalled_ready m.ready.1).after m.confined_ready).fiqLine

omit [ExpansionDevice δ] in
theorem sampleFiq_of_masked (masked : m.processor.status.fiqDisabled = true) :
    m.sampleFiq = m := by
  have same (needed : Bool) : m.processor.sampleFiq needed = m.processor :=
    Processor.sampleFiq_of_masked masked
  rw [sampleFiq, mapProcessor, same]

omit [ExpansionDevice δ] in
theorem sampleFiq_of_quiet (quiet : m.asksFiq = false) : m.sampleFiq = m := by
  have same : m.processor.sampleFiq m.space.io.controller.interrupts.fiqNeeded = m.processor :=
    Processor.sampleFiq_of_quiet quiet
  rw [sampleFiq, mapProcessor, same]

theorem step_of_masked (masked : m.finished.processor.status.fiqDisabled = true) :
    m.step = m.finished.skipIfStalled := by
  rw [step_eq, skipIfStalled_eq]
  exact sampleFiq_of_masked masked

theorem step_of_quiet (quiet : m.finished.asksFiq = false) :
    m.step = m.finished.skipIfStalled := by
  rw [step_eq, skipIfStalled_eq]
  exact sampleFiq_of_quiet quiet

theorem fiqEntered_step (enabled : m.finished.processor.status.fiqDisabled = false)
    (asked : m.finished.asksFiq = true) :
    m.finished.processor.FiqEntered m.step.processor := by
  have taken : m.step.processor =
      { m.finished.processor.withPc m.finished.processor.nextPc with fiqLine := false }.enter .fiq
        ((m.finished.processor.withPc m.finished.processor.nextPc).pc + 4) := by
    rw [step_eq, skipIfStalled_eq]
    exact Processor.sampleFiq_of_asked enabled asked
  rw [taken, Processor.pc_withPc]
  exact Processor.fiqEntered_enter enabled

/-- An entry disables FIQs, and going on as the instruction says does not. -/
theorem not_fiqEntered_of_step_eq (on : m.step = m.finished.skipIfStalled) :
    ¬m.finished.processor.FiqEntered m.step.processor := by
  intro entered
  have disabled := entered.fiqDisabled
  rw [on, skipIfStalled_eq] at disabled
  exact Bool.false_ne_true (entered.enabled.symm.trans disabled)

/-- Behind a step an FIQ is asked for only where FIQs are disabled. -/
theorem settled_step (m : Machine δ) :
    m.step.processor.status.fiqDisabled = true ∨ m.step.asksFiq = false := by
  cases enabled : m.finished.processor.status.fiqDisabled with
  | true =>
    rw [step_of_masked enabled, skipIfStalled_eq]
    exact .inl enabled
  | false =>
    cases asked : m.finished.asksFiq with
    | true => exact .inl (fiqEntered_step enabled asked).fiqDisabled
    | false =>
      rw [step_of_quiet asked, skipIfStalled_eq]
      exact .inr asked

/-! ### Runs -/

/-- A request outlasts all instructions that leave FIQs disabled. -/
theorem fiqLine_steps (requested : m.processor.fiqLine = true) {n : Nat}
    (masked : ∀ k < n, (step^[k] m).finished.processor.status.fiqDisabled = true) :
    (step^[n] m).processor.fiqLine = true := by
  induction n with
  | zero => exact requested
  | succ n ih =>
    have before := ih fun k earlier => masked k (Nat.lt_succ_of_lt earlier)
    rw [Function.iterate_succ_apply', step_of_masked (masked n (Nat.lt_succ_self n)),
      skipIfStalled_eq]
    exact (fiqLine_finished _).trans before

/-- Behind every step FIQs are disabled or none is asked for. None is entered that is not asked for,
and one that is, where FIQs are enabled. A request stays as long as instructions leave FIQs
disabled, and nothing is entered meanwhile; behind the first that leaves them enabled the FIQ is
entered, once. -/
theorem fiq_delivery (m : Machine δ) :
    (m.step.processor.status.fiqDisabled = true ∨
      m.step.processor.fiqLine = false ∧
        m.step.space.io.controller.interrupts.fiqNeeded = false) ∧
    (m.finished.asksFiq = false → m.step = m.finished.skipIfStalled ∧
      ¬m.finished.processor.FiqEntered m.step.processor) ∧
    (m.finished.processor.status.fiqDisabled = false → m.finished.asksFiq = true →
      m.finished.processor.FiqEntered m.step.processor) ∧
    ∀ n, m.processor.fiqLine = true →
      (∀ k < n, (step^[k] m).finished.processor.status.fiqDisabled = true) →
      (∀ k ≤ n, (step^[k] m).processor.fiqLine = true) ∧
      (∀ k < n, step^[k + 1] m = (step^[k] m).finished.skipIfStalled) ∧
      ((step^[n] m).finished.processor.status.fiqDisabled = false →
        (step^[n] m).finished.processor.FiqEntered (step^[n + 1] m).processor ∧
        ∃! k, k ≤ n ∧
          (step^[k] m).finished.processor.FiqEntered (step^[k + 1] m).processor) := by
  refine ⟨?_, ?_, fiqEntered_step, ?_⟩
  · rw [← Bool.or_eq_false_iff]
    exact m.settled_step
  · intro quiet
    have on := step_of_quiet quiet
    exact ⟨on, not_fiqEntered_of_step_eq on⟩
  intro n requested masked
  have latched (k : Nat) (within : k ≤ n) : (step^[k] m).processor.fiqLine = true :=
    fiqLine_steps requested fun j earlier => masked j (by omega)
  refine ⟨latched, ?_, ?_⟩
  · intro k earlier
    rw [Function.iterate_succ_apply']
    exact step_of_masked (masked k earlier)
  intro enabled
  have entered : (step^[n] m).finished.processor.FiqEntered (step^[n + 1] m).processor := by
    rw [Function.iterate_succ_apply']
    apply fiqEntered_step enabled
    rw [asksFiq, fiqLine_finished, latched n (Nat.le_refl n), Bool.true_or]
  refine ⟨entered, n, ⟨Nat.le_refl n, entered⟩, ?_⟩
  rintro k ⟨within, other⟩
  by_contra apart
  rw [Function.iterate_succ_apply'] at other
  exact not_fiqEntered_of_step_eq (step_of_masked (masked k (by omega))) other

/-- An FIQ is asked for, an instruction that does nothing follows, and then FIQs are enabled. -/
def unmasking : Machine ScriptedDevice :=
  fed { Processor.initial with fiqLine := true } [0xE1A00000, 0xE321F013]

theorem fiq_delivery_unmasking :
    unmasking.step.processor.fiqLine = true ∧
      unmasking.step.finished.processor.FiqEntered unmasking.step.step.processor := by
  obtain ⟨-, -, -, run⟩ := fiq_delivery unmasking
  have masked (k : Nat) (first : k < 1) :
      (step^[k] unmasking).finished.processor.status.fiqDisabled = true := by
    obtain rfl := Nat.lt_one_iff.1 first
    decide
  obtain ⟨latched, -, taken⟩ := run 1 rfl masked
  exact ⟨latched 1 (Nat.le_refl 1), (taken (by decide)).1⟩

end Machine

end ArmConsole
