import ArmConsole.Machine.Execute
import ArmConsole.Proofs.Processor.Exceptions

/-!
What a step does to the processor. Accesses to the address space touch it only to note that a
write stalled the bus; an instruction makes changes or takes one exception; afterwards an FIQ may
be taken. Main statement: `step_outcome` puts these together, and no other lemma about the
processor needs to look into the instructions.
-/

namespace ArmConsole

/-- What an instruction does to the processor, before requests are looked at. -/
inductive Processor.Outcome (p : Processor) : Processor → Prop
  | changes {q : Processor} : p.Changes q → p.Outcome q
  | trap {q : Processor} {e : Exception} (cost : Word) :
      p.Confined q → q.stalled = false → e ≠ .fiq → p.Outcome ((q.enter e q.pc).spend cost)

namespace Processor.Outcome

variable {p q r : Processor}

theorem after (before : p.Confined q) (outcome : q.Outcome r) : p.Outcome r := by
  cases outcome with
  | changes changes => exact .changes (before.changes.trans changes)
  | trap cost confined quiet other => exact .trap cost (before.trans confined) quiet other

theorem coherent (outcome : p.Outcome q) (coherent : p.Coherent) : q.Coherent := by
  cases outcome with
  | changes changes => exact changes.coherent coherent
  | @trap q e cost confined quiet other => exact q.coherent_enter e q.pc

theorem fiqLine (outcome : p.Outcome q) : q.fiqLine = p.fiqLine := by
  cases outcome with
  | changes changes => exact changes.fiqLine
  | trap cost confined quiet other => exact confined.fiqLine

end Processor.Outcome

namespace Machine

variable {δ : Type} [ExpansionDevice δ]

open Processor (lookAhead sequential)

/-! ### Accesses -/

@[simp] theorem processor_readWord (m : Machine δ) (address : Word) :
    (m.readWord address).2.processor = m.processor := rfl

@[simp] theorem processor_readData (m : Machine δ) (width : Width) (address : Word) :
    (m.readData width address).2.processor = m.processor := by cases width <;> rfl

theorem confined_writeWord (m : Machine δ) (address value : Word) :
    m.processor.Confined (m.writeWord address value).processor := ⟨rfl, rfl, rfl, rfl⟩

theorem confined_writeData (m : Machine δ) (width : Width) (address value : Word) :
    m.processor.Confined (m.writeData width address value).processor := by
  cases width <;> exact ⟨rfl, rfl, rfl, rfl⟩

/-! ### Transfers -/

theorem confined_swap (m : Machine δ) (i : Swap) :
    m.processor.Confined (m.swap i).processor := by
  unfold swap
  have stored (address value : Word) : m.processor.Confined
      ((m.readData i.width address).2.writeData i.width address value).processor := by
    have written := (m.readData i.width address).2.confined_writeData i.width address value
    rwa [processor_readData] at written
  exact ((stored _ _).trans (Processor.confined_setRegister _ _ _)).trans
    (Processor.confined_spend _ _)

theorem changes_singleTransfer (m : Machine δ) (i : SingleTransfer) :
    m.processor.Changes (m.singleTransfer i).processor := by
  unfold singleTransfer
  dsimp only
  have writtenBack (p : Processor) (moved : Word) :
      p.Confined (if i.writesBack then p.setRegister i.base moved else p) :=
    (p.confined_setRegister _ _).ite _
  split
  · simp only [mapProcessor, processor_readData]
    exact ((writtenBack _ _).changes.trans (Processor.changes_load _ _ _ _)).trans
      (Processor.confined_spend _ _).changes
  · exact (((m.confined_writeData _ _ _).trans (writtenBack _ _)).trans
      (Processor.confined_spend _ _)).changes

theorem changes_loadRegisters (m : Machine δ) (user : Bool) (address : Word)
    (registers : List RegisterNumber) :
    m.processor.Changes (m.loadRegisters user address registers).processor := by
  induction registers generalizing m address with
  | nil => exact .refl
  | cons r rs ih =>
    let read := m.readWord (wordAddress address)
    have loaded : m.processor.Changes (m.processor.load user r read.1) :=
      m.processor.changes_load user r read.1
    exact loaded.trans (ih (read.2.mapProcessor fun p => p.load user r read.1) (address + 4))

theorem confined_storeValues (m : Machine δ) (address : Word) (values : List Word) :
    m.processor.Confined (m.storeValues address values).processor := by
  induction values generalizing m address with
  | nil => exact .refl _
  | cons v vs ih => exact (m.confined_writeWord _ v).trans (ih _ _)

theorem changes_blockTransfer (m : Machine δ) (i : BlockTransfer) :
    m.processor.Changes (m.blockTransfer i).processor := by
  unfold blockTransfer
  dsimp only
  have writtenBack (p : Processor) (moved : Word) :
      p.Confined (if i.writeBack then p.setRegister i.base moved else p) :=
    (p.confined_setRegister _ _).ite _
  have restored (p : Processor) : p.Changes (if i.restoresStatus then p.restoreStatus else p) := by
    split
    · exact p.changes_restoreStatus
    · exact .refl
  split
  · generalize hm : m.mapProcessor _ = moved
    have first : m.processor.Changes moved.processor := by
      rw [← hm]
      exact (writtenBack _ _).changes
    have loaded := moved.changes_loadRegisters i.usesUserBank
      (i.lowest (m.processor.operand i.base lookAhead)) i.registers
    exact ((first.trans loaded).trans (restored _)).trans (Processor.confined_spend _ _).changes
  · exact (((m.confined_storeValues _ _).trans (writtenBack _ _)).trans
      (Processor.confined_spend _ _)).changes

/-! ### Instructions -/

omit [ExpansionDevice δ] in
theorem confined_callNatively (m : Machine δ) (call : MathCall) :
    m.processor.Confined (m.callNatively call).processor := by
  unfold callNatively
  dsimp only
  split
  · exact m.processor.confined_live _
  · exact .refl _

theorem outcome_execute (m : Machine δ) (quiet : m.processor.stalled = false) (i : Instruction) :
    m.processor.Outcome (m.execute i).processor := by
  cases i with
  | dataProcessing i => exact .changes (m.processor.changes_dataProcessing i)
  | readStatus source rd => exact .changes (m.processor.confined_readStatus source rd).changes
  | writeStatus i => exact .changes (m.processor.changes_writeStatus i)
  | multiply i => exact .changes (m.processor.confined_multiply i).changes
  | swap i => exact .changes (m.confined_swap i).changes
  | singleTransfer i => exact .changes (m.changes_singleTransfer i)
  | blockTransfer i => exact .changes (m.changes_blockTransfer i)
  | branch link offset => exact .changes (m.processor.confined_branch link offset).changes
  | softwareInterrupt comment =>
    simp only [execute, softwareInterrupt]
    split
    · exact .changes (m.confined_callNatively _).changes
    · exact .trap _ (.refl _) quiet (by decide)
  | coprocessor => exact .trap _ (.refl _) quiet (by decide)
  | undefined => exact .trap _ (.refl _) quiet (by decide)

theorem outcome_executeWord (m : Machine δ) (quiet : m.processor.stalled = false) (w : Word) :
    m.processor.Outcome (m.executeWord w).processor := by
  unfold executeWord
  split
  · exact m.outcome_execute quiet _
  · exact .changes .refl

omit [ExpansionDevice δ] in
theorem confined_redirect (m : Machine δ) : m.processor.Confined m.redirect.processor := by
  obtain ⟨processor, space, calls, redirects⟩ := m
  cases redirects with
  | none => exact .refl processor
  | some redirects => exact processor.confined_live _

/-! ### Step -/

/-- The fetched word and the machine that is about to execute it. -/
def ready (m : Machine δ) : Word × Machine δ :=
  (m.mapProcessor fun p => { p with cycles := sequential, stalled := false }).redirect.fetch

theorem confined_ready (m : Machine δ) : m.processor.Confined m.ready.2.processor := by
  let started := m.mapProcessor fun p => { p with cycles := sequential, stalled := false }
  have start : m.processor.Confined started.processor := ⟨rfl, rfl, rfl, rfl⟩
  exact (start.trans started.confined_redirect).trans (Processor.confined_live _ _)

/-- Without redirects the program counter alone says what is fetched. -/
theorem ready_eq {m : Machine δ} {w : Word} (plain : m.redirects = none)
    (fetched : m.space.readWord (wordAddress m.processor.pc) = (w, m.space)) :
    m.ready = (w, m.mapProcessor fun p =>
      { p with cycles := sequential, stalled := false }.withPc (wordAddress p.pc + 4)) := by
  obtain ⟨p, space, calls, redirects⟩ := m
  obtain rfl : redirects = none := plain
  have same : ready ⟨p, space, calls, none⟩ =
    ((space.readWord (wordAddress p.pc)).1,
      ⟨{ p with cycles := sequential, stalled := false }.withPc (wordAddress p.pc + 4),
        (space.readWord (wordAddress p.pc)).2, calls, none⟩) := rfl
  rw [same, fetched]
  rfl

theorem stalled_ready (m : Machine δ) : m.ready.2.processor.stalled = false := by
  obtain ⟨processor, space, calls, redirects⟩ := m
  cases redirects <;> rfl

omit [ExpansionDevice δ] in
/-- A trap stores nothing, so that nothing is skipped behind it. -/
theorem outcome_skipIfStalled {p : Processor} {m : Machine δ} (outcome : p.Outcome m.processor) :
    p.Outcome m.skipIfStalled.processor := by
  change p.Outcome (if m.processor.stalled then m.processor.withPc (m.processor.pc + 4)
    else m.processor)
  split
  next stalled =>
    generalize m.processor = q at outcome stalled
    cases outcome with
    | changes changes => exact .changes (changes.trans (Processor.confined_live _ _).changes)
    | trap cost confined quiet other =>
      rw [Processor.stalled_spend, Processor.stalled_enter, quiet] at stalled
      contradiction
  next => exact outcome

/-- A step is an outcome of its instruction, with an FIQ on top if one is asked for. -/
theorem step_outcome (m : Machine δ) : ∃ p, m.processor.Outcome p ∧
    m.step.processor = p.sampleFiq m.step.space.io.controller.interrupts.fiqNeeded := by
  have executed := m.ready.2.outcome_executeWord m.stalled_ready m.ready.1
  exact ⟨_, outcome_skipIfStalled (executed.after m.confined_ready), rfl⟩

omit [ExpansionDevice δ] in
/-- Nothing happens behind an instruction that stored nothing and leaves FIQs masked. -/
theorem finish_of_masked {m : Machine δ} (going : m.processor.stalled = false)
    (masked : m.processor.status.fiqDisabled = true) : m.skipIfStalled.sampleFiq = m := by
  have skipped : m.skipIfStalled = m := by
    unfold skipIfStalled mapProcessor
    dsimp only
    rw [going, if_neg Bool.false_ne_true]
  have sampled (needed : Bool) : m.processor.sampleFiq needed = m.processor :=
    Processor.sampleFiq_of_masked masked
  rw [skipped, sampleFiq]
  unfold mapProcessor
  dsimp only
  rw [sampled]

/-- Without redirects a step is the fetched instruction and what happens behind it. -/
theorem step_of_fetched {m : Machine δ} {w : Word} (plain : m.redirects = none)
    (fetched : m.space.readWord (wordAddress m.processor.pc) = (w, m.space))
    (passes : (Condition.ofField (w >>> 28)).passes m.processor.status.flags = true) :
    m.step = (((m.mapProcessor fun p =>
      { p with cycles := sequential, stalled := false }.withPc (wordAddress p.pc + 4)).execute
        (Instruction.decode w)).skipIfStalled).sampleFiq := by
  change ((m.ready.2.executeWord m.ready.1).skipIfStalled).sampleFiq = _
  rw [ready_eq plain fetched]
  change ((if (Condition.ofField (w >>> 28)).passes m.processor.status.flags then _
    else _ : Machine δ).skipIfStalled).sampleFiq = _
  rw [if_pos passes]

/-- A branch concerns the processor alone, unless an FIQ follows. -/
theorem step_branch {m : Machine δ} {w offset : Word} {link : Bool} (plain : m.redirects = none)
    (masked : m.processor.status.fiqDisabled = true)
    (fetched : m.space.readWord (wordAddress m.processor.pc) = (w, m.space))
    (passes : (Condition.ofField (w >>> 28)).passes m.processor.status.flags = true)
    (decoded : Instruction.decode w = .branch link offset) :
    m.step = m.mapProcessor fun p =>
      ({ p with cycles := sequential, stalled := false }.withPc (wordAddress p.pc + 4)).branch link
        offset := by
  rw [step_of_fetched plain fetched passes, decoded]
  exact finish_of_masked rfl masked

end Machine

end ArmConsole
