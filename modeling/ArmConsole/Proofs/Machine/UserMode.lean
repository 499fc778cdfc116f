import ArmConsole.Proofs.Machine.Accesses

/-!
User mode is a cage. Main statement: whatever a step in User mode executes, it leaves the mode,
the status word below the flags and the whole bank alone, or it takes an exception and is at the
vector of one, in that exception's mode, with interrupts disabled.
-/

namespace ArmConsole

namespace Processor

/-- How a confined processor leaves its mode: by the trap of an instruction, by an FIQ, or by an
FIQ right behind a trap. -/
inductive Leaves (p : Processor) : Exception → Processor → Prop
  | trap {q : Processor} {e : Exception} (cost : Word) :
      p.Confined q → e ≠ .fiq → p.Leaves e ((q.enter e q.pc).spend cost)
  | request {q : Processor} :
      p.Confined q → p.Leaves .fiq ({ q with fiqLine := false }.enter .fiq (q.pc + 4))
  | requestInTrap {q : Processor} {e : Exception} :
      e ≠ .fiq → p.Leaves e q →
        p.Leaves .fiq ({ q with fiqLine := false }.enter .fiq (q.pc + 4))

/-- Right behind the entry of an exception. -/
structure AtVector (p : Processor) : Prop where
  place : (p.mode, p.pc) ∈ [(Mode.supervisor, 0x08), (Mode.undefined, 0x04), (Mode.fiq, 0x1C)]
  coherent : p.Coherent
  irqDisabled : p.status.irqDisabled = true
  fiqDisabled : p.mode = .fiq → p.status.fiqDisabled = true

theorem atVector_enter (p : Processor) (e : Exception) (returnAddress : Word) :
    (p.enter e returnAddress).AtVector where
  place := by
    rw [mode_enter, pc_enter]
    cases e <;> decide
  coherent := p.coherent_enter e returnAddress
  irqDisabled := p.irqDisabled_enter e returnAddress
  fiqDisabled mode := by
    cases e with
    | fiq => exact p.fiqDisabled_enter returnAddress
    | undefined => contradiction
    | softwareInterrupt => contradiction

theorem AtVector.spend {p : Processor} (h : p.AtVector) (cycles : Word) :
    (p.spend cycles).AtVector := ⟨h.place, h.coherent, h.irqDisabled, h.fiqDisabled⟩

theorem Leaves.atVector {p q : Processor} {e : Exception} (leaves : p.Leaves e q) :
    q.AtVector := by
  cases leaves with
  | trap cost confined other => exact (atVector_enter _ e _).spend cost
  | request confined => exact atVector_enter _ .fiq _
  | requestInTrap other before => exact atVector_enter _ .fiq _

/-- What an instruction and an FIQ behind it can do to a processor in User mode. -/
theorem Outcome.of_user {p q : Processor} (outcome : p.Outcome q) (user : p.mode = .user)
    (needed : Bool) :
    p.Confined (q.sampleFiq needed) ∨ ∃ e, p.Leaves e (q.sampleFiq needed) := by
  obtain stays | taken := q.sampleFiq_cases needed
  · rw [stays]
    cases outcome with
    | changes changes => exact .inl (changes.confined_of_user user)
    | trap cost confined quiet other => exact .inr ⟨_, .trap cost confined other⟩
  · rw [taken]
    cases outcome with
    | changes changes => exact .inr ⟨_, .request (changes.confined_of_user user)⟩
    | trap cost confined quiet other =>
      exact .inr ⟨_, .requestInTrap other (.trap cost confined other)⟩

end Processor

namespace Machine

variable {δ : Type} [ExpansionDevice δ]

/-- There is no way out of User mode but an exception. -/
theorem step_of_user (m : Machine δ) (user : m.processor.mode = .user) :
    m.processor.Confined m.step.processor ∨
      (∃ e, m.processor.Leaves e m.step.processor) ∧ m.step.processor.AtVector := by
  obtain ⟨p, outcome, same⟩ := m.step_outcome
  rw [same]
  obtain confined | ⟨e, leaves⟩ := outcome.of_user user _
  · exact .inl confined
  · exact .inr ⟨⟨e, leaves⟩, leaves.atVector⟩

/-- A machine in User mode, with interrupts enabled, that is about to execute `w`. R0 holds a status
word of Supervisor mode. -/
def fedUser (w : Word) : Machine ScriptedDevice :=
  let user := { Processor.initial with mode := .user, status := .ofMode .user }
  fed (user.withRegister .r0 0xF00000D3) [w]

/-- A write of R0 to the status word reaches the flags only, and a software interrupt is the way
out. -/
theorem step_fedUser :
    let write := fedUser 0xE129F000
    let call := fedUser 0xEF000000
    (write.processor.mode = .user ∧ write.processor.Confined write.step.processor ∧
      write.step.processor.status = ⟨0xF0000010⟩) ∧
    call.processor.mode = .user ∧ (∃ e, call.processor.Leaves e call.step.processor) ∧
      call.step.processor.AtVector ∧ call.step.processor.mode = .supervisor := by
  intro write call
  have kept : write.step.processor.mode = .user := by decide
  have left : call.step.processor.mode = .supervisor := by decide
  refine ⟨⟨rfl, ?_, by decide⟩, rfl, ?_⟩
  · obtain confined | ⟨-, atVector⟩ := step_of_user write rfl
    · exact confined
    · have place := atVector.place
      rw [kept] at place
      simp at place
  · obtain confined | ⟨leaves, atVector⟩ := step_of_user call rfl
    · exact absurd (left.symm.trans confined.mode) (by decide)
    · exact ⟨leaves, atVector, left⟩

end Machine

end ArmConsole
