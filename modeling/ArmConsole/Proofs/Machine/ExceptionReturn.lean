import ArmConsole.Expansion.Scripted
import ArmConsole.Machine.Execute
import ArmConsole.Proofs.Processor.Context

/-!
Exceptions and their returns. A trap leaves the address to go back to in R14, an FIQ that address
and one word more, since it is taken between instructions. Main statement: `execute_return`, from any
mode into any exception and back.
-/

namespace ArmConsole

/-- `MOVS PC, R14`, the return from a trap. A move has no first operand, so that `rn` is free. -/
def DataProcessing.trapReturn (rn : RegisterNumber) : DataProcessing where
  operation := .mov
  setFlags := true
  rn := rn
  rd := .pc
  operand := .register .link .lsl (.field 0)

/-- `SUBS PC, R14, #4`, the return from an FIQ. -/
def DataProcessing.fiqReturn : DataProcessing where
  operation := .sub
  setFlags := true
  rn := .link
  rd := .pc
  operand := .immediate 4 0

example : Opcode.decode 0xE1B0F00E = ⟨.al, .dataProcessing (.trapReturn .r0)⟩ := by decide

example : Opcode.decode 0xE25EF004 = ⟨.al, .dataProcessing .fiqReturn⟩ := by decide

theorem AluResult.value_addWithCarry (a b : Word) (carry : Bool) :
    (addWithCarry a b carry).value = a + b + carry.toUInt32 := by
  have last : carry.toUInt64.toUInt32 = carry.toUInt32 := by cases carry <;> rfl
  have sum : (addWithCarry a b carry).value =
      (a.toUInt64 + b.toUInt64 + carry.toUInt64).toUInt32 := rfl
  rw [sum, UInt64.toUInt32_add, UInt64.toUInt32_add, UInt32.toUInt32_toUInt64,
    UInt32.toUInt32_toUInt64, last]

namespace Processor

variable {p q : Processor} {e : Exception}

theorem operand_link (q : Processor) (ahead : Word) :
    q.operand .link ahead = q.live.get RegisterNumber.link :=
  if_neg (by decide)

/-- A return from a trap goes to R14. -/
theorem Entered.trapReturn (entered : p.Entered e p.pc q) (coherent : p.Coherent)
    (rn : RegisterNumber) : p.Resumed e p.pc (q.dataProcessing (.trapReturn rn)) := by
  rw [dataProcessing_of_return q rfl rfl rfl]
  have target : (q.secondOperand (DataProcessing.trapReturn rn).operand).value = p.pc := by
    change q.operand .link lookAhead = _
    rw [operand_link, entered.link]
  change p.Resumed e p.pc (((q.spend _).setRegister .pc
    (q.secondOperand (DataProcessing.trapReturn rn).operand).value).restoreStatus)
  rw [target]
  exact entered.resumed coherent

/-- A return from an FIQ goes to the word before that in R14. -/
theorem Entered.fiqReturn (entered : p.Entered e (p.pc + 4) q) (coherent : p.Coherent) :
    p.Resumed e (p.pc + 4) (q.dataProcessing .fiqReturn) := by
  rw [dataProcessing_of_return q rfl rfl rfl]
  have target : (AluResult.addWithCarry (q.operand .link lookAhead) (~~~4) true).value = p.pc := by
    rw [AluResult.value_addWithCarry, operand_link, entered.link, UInt32.add_assoc,
      UInt32.add_assoc]
    exact p.pc.add_zero
  change p.Resumed e (p.pc + 4) (((q.spend _).setRegister .pc
    (AluResult.addWithCarry (q.operand .link lookAhead) (~~~4) true).value).restoreStatus)
  rw [target]
  exact entered.resumed coherent

end Processor

namespace Machine

variable {δ : Type} [ExpansionDevice δ]

open Processor (Exception)

/-- An exception that is entered and returned from leaves the mode, the status word, R15 and every
register of every mode as they were, but R14 and the saved status word of its own mode, also where
that was the mode already. -/
theorem execute_return (m : Machine δ) (coherent : m.processor.Coherent) :
    let p := m.processor
    let leave (m : Machine δ) (i : DataProcessing) : Processor :=
      (m.execute (.dataProcessing i)).processor
    (∀ comment rn, (m.calls.bind fun calls => calls.lookup? comment) = none →
      p.Resumed .softwareInterrupt p.pc
        (leave (m.execute (.softwareInterrupt comment)) (.trapReturn rn))) ∧
    (∀ rn, p.Resumed .undefined p.pc (leave (m.execute .undefined) (.trapReturn rn))) ∧
    (∀ rn, p.Resumed .undefined p.pc (leave (m.execute .coprocessor) (.trapReturn rn))) ∧
    (p.status.fiqDisabled = false →
      (p.fiqLine || m.space.io.controller.interrupts.fiqNeeded) = true →
      p.Resumed .fiq (p.pc + 4) (leave m.sampleFiq .fiqReturn)) := by
  intro p leave
  have trapped (e : Exception) (cost : Word) :
      p.Entered e p.pc ((p.enter e p.pc).spend cost) := by
    obtain ⟨mode, registers, saved⟩ := p.entered_enter e p.pc
    exact ⟨mode, registers, saved⟩
  refine ⟨?_, ?_, ?_, ?_⟩
  · intro comment rn foreign
    have taken : m.execute (.softwareInterrupt comment) =
        m.mapProcessor Processor.trapSoftwareInterrupt := by
      rw [execute, softwareInterrupt, foreign]
    rw [taken]
    exact (trapped .softwareInterrupt _).trapReturn coherent rn
  · intro rn
    exact (trapped .undefined _).trapReturn coherent rn
  · intro rn
    exact (trapped .undefined _).trapReturn coherent rn
  · intro enabled asked
    have taken : p.sampleFiq m.space.io.controller.interrupts.fiqNeeded =
        { p with fiqLine := false }.enter .fiq (p.pc + 4) := by
      rw [Processor.sampleFiq, if_neg (by rw [enabled]; exact Bool.false_ne_true), if_pos asked]
    have entered : p.Entered .fiq (p.pc + 4)
        (p.sampleFiq m.space.io.controller.interrupts.fiqNeeded) := by
      rw [taken]
      obtain ⟨mode, registers, saved⟩ :=
        Processor.entered_enter { p with fiqLine := false } .fiq (p.pc + 4)
      exact ⟨mode, registers, saved⟩
    exact entered.fiqReturn coherent

/-- The first machine with FIQs enabled and one asked for. -/
def initialAsked : Machine ScriptedDevice :=
  { initial with
    processor := { Processor.initial with
      fiqLine := true
      status := Processor.initial.status.withFiqDisabled false } }

/-- The supervisor, who handles software interrupts, asks for one; and the FIQ is taken. -/
theorem execute_return_initialAsked :
    let p := initialAsked.processor
    p.Resumed .softwareInterrupt p.pc
      ((initialAsked.execute (.softwareInterrupt 0)).execute
        (.dataProcessing (.trapReturn .r0))).processor ∧
    p.Resumed .fiq (p.pc + 4)
      (initialAsked.sampleFiq.execute (.dataProcessing .fiqReturn)).processor := by
  have coherent : initialAsked.processor.Coherent := rfl
  obtain ⟨softwareInterrupt, -, -, fiq⟩ := execute_return initialAsked coherent
  exact ⟨softwareInterrupt 0 .r0 rfl, fiq rfl rfl⟩

end Machine

end ArmConsole
