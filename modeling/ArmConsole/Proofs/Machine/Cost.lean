import ArmConsole.Proofs.Machine.Step
import ArmConsole.Proofs.Processor.Cost
import ArmConsole.Proofs.Processor.Operands

/-!
What a step costs. Accesses to the address space are free beyond what their instruction counts for
them. The dearest instruction loads all sixteen registers and writes R15 back as their base: the
pipeline is refilled for both. Main statement: a step costs from 1 to 32 cycles.
-/

namespace ArmConsole

namespace Machine

variable {δ : Type} [ExpansionDevice δ]

open Processor (lookAhead sequential nonSequential internal Spent)

/-! ### Transfers -/

theorem spent_writeData (m : Machine δ) (width : Width) (address value : Word) :
    m.processor.Spent 0 (m.writeData width address value).processor := by
  cases width <;> exact .of_eq rfl

theorem spent_swap (m : Machine δ) (i : Swap) : m.processor.Spent 14 (m.swap i).processor := by
  unfold swap
  have stored (address value : Word) : m.processor.Spent 0
      ((m.readData i.width address).2.writeData i.width address value).processor := by
    have written := (m.readData i.width address).2.spent_writeData i.width address value
    rwa [processor_readData] at written
  exact ((stored _ _).trans (Processor.spent_setRegister_five _ _ _)).trans
    (Processor.spent_spend _ 9)

theorem spent_singleTransfer (m : Machine δ) (i : SingleTransfer) :
    m.processor.Spent 15 (m.singleTransfer i).processor := by
  unfold singleTransfer
  dsimp only
  have writtenBack (p : Processor) (moved : Word) :
      p.Spent 5 (if i.writesBack then p.setRegister i.base moved else p) :=
    (p.spent_setRegister_five i.base moved).ite _
  have loaded (p : Processor) (v : Word) : p.Spent 5 (p.load i.usesUserBank i.rd v) := by
    apply (p.spent_load _ _ _).mono
    split <;> decide
  split
  · simp only [mapProcessor, processor_readData]
    exact ((writtenBack _ _).trans (loaded _ _)).trans (Processor.spent_spend _ 5)
  · exact (((m.spent_writeData _ _ _).trans (writtenBack _ _)).trans
      (Processor.spent_spend _ 4)).mono (by decide)

/-- Each occurrence of R15 among the loaded registers refills the pipeline. -/
theorem spent_loadRegisters (m : Machine δ) (user : Bool) (address : Word)
    (registers : List RegisterNumber) :
    m.processor.Spent (5 * registers.count .pc)
      (m.loadRegisters user address registers).processor := by
  induction registers generalizing m address with
  | nil => exact .of_eq rfl
  | cons r rs ih =>
    let read := m.readWord (wordAddress address)
    have first : m.processor.Spent (if r = .pc then 5 else 0)
        (m.processor.load user r read.1) := m.processor.spent_load user r read.1
    have rest := ih (read.2.mapProcessor fun p => p.load user r read.1) (address + 4)
    have total : 5 * (r :: rs).count .pc = (if r = .pc then 5 else 0) + 5 * rs.count .pc := by
      rw [List.count_cons]
      simp only [beq_iff_eq]
      split <;> omega
    rw [total]
    exact first.trans rest

theorem spent_storeValues (m : Machine δ) (address : Word) (values : List Word) :
    m.processor.Spent 0 (m.storeValues address values).processor := by
  induction values generalizing m address with
  | nil => exact .of_eq rfl
  | cons v vs ih => exact ih (m.writeWord _ v) _

theorem spent_blockTransfer (m : Machine δ) (i : BlockTransfer) :
    m.processor.Spent 31 (m.blockTransfer i).processor := by
  have few := i.length_registers_le
  have once := List.nodup_iff_count_le_one.1 i.nodup_registers .pc
  unfold blockTransfer
  dsimp only
  have writtenBack (p : Processor) (moved : Word) :
      p.Spent 5 (if i.writeBack then p.setRegister i.base moved else p) :=
    (p.spent_setRegister_five i.base moved).ite _
  have restored (p : Processor) : p.Spent 0 (if i.restoresStatus then p.restoreStatus else p) :=
    p.spent_restoreStatus.ite _
  split
  · generalize hm : m.mapProcessor _ = moved
    have first : m.processor.Spent 5 moved.processor := by
      rw [← hm]
      exact writtenBack _ _
    have loaded := moved.spent_loadRegisters i.usesUserBank
      (i.lowest (m.processor.operand i.base lookAhead)) i.registers
    have counted : .ofNat i.registers.length * sequential + nonSequential + internal =
        (.ofNat (i.registers.length + 5) : Word) := by
      rw [sequential, UInt32.mul_one, UInt32.add_assoc, UInt32.ofNat_add]
      rfl
    rw [counted]
    exact (((first.trans loaded).trans (restored _)).trans (Processor.spent_spend _ _)).mono
      (by omega)
  · have counted : .ofNat (i.registers.length - 1) * sequential + 2 * nonSequential =
        (.ofNat (i.registers.length - 1 + 8) : Word) := by
      rw [sequential, UInt32.mul_one, UInt32.ofNat_add]
      rfl
    rw [counted]
    exact (((m.spent_storeValues _ _).trans (writtenBack _ _)).trans
      (Processor.spent_spend _ _)).mono (by omega)

/-! ### Instructions -/

omit [ExpansionDevice δ] in
theorem spent_callNatively (m : Machine δ) (call : MathCall) :
    m.processor.Spent 0 (m.callNatively call).processor := by
  unfold callNatively
  dsimp only
  split <;> exact .of_eq rfl

theorem spent_execute (m : Machine δ) (i : Instruction) :
    m.processor.Spent 31 (m.execute i).processor := by
  cases i with
  | dataProcessing i => exact (m.processor.spent_dataProcessing i).mono (by decide)
  | readStatus source rd => exact (m.processor.spent_setRegister_five rd _).mono (by decide)
  | writeStatus i => exact (m.processor.spent_writeStatus i).mono (by decide)
  | multiply i => exact (m.processor.spent_multiply i).mono (by decide)
  | swap i => exact (m.spent_swap i).mono (by decide)
  | singleTransfer i => exact (m.spent_singleTransfer i).mono (by decide)
  | blockTransfer i => exact m.spent_blockTransfer i
  | branch link offset => exact (m.processor.spent_branch link offset).mono (by decide)
  | softwareInterrupt comment =>
    simp only [execute, softwareInterrupt]
    split
    · exact (m.spent_callNatively _).mono (by decide)
    · exact m.processor.spent_trapSoftwareInterrupt.mono (by decide)
  | coprocessor => exact m.processor.spent_trapUndefined.mono (by decide)
  | undefined => exact m.processor.spent_trapUndefined.mono (by decide)

/-! ### Step -/

theorem cycles_ready (m : Machine δ) : m.ready.2.processor.cycles = sequential := by
  obtain ⟨processor, space, calls, redirects⟩ := m
  cases redirects <;> rfl

omit [ExpansionDevice δ] in
theorem spent_skipIfStalled (m : Machine δ) :
    m.processor.Spent 0 m.skipIfStalled.processor := by
  change m.processor.Spent 0 (if m.processor.stalled then m.processor.withPc (m.processor.pc + 4)
    else m.processor)
  split <;> exact .of_eq rfl

theorem spent_step (m : Machine δ) : m.ready.2.processor.Spent 31 m.step.processor := by
  have executed : m.ready.2.processor.Spent 31 (m.ready.2.executeWord m.ready.1).processor := by
    unfold executeWord
    split
    · exact m.ready.2.spent_execute _
    · exact (Spent.of_eq rfl).mono (by decide)
  exact (executed.trans (spent_skipIfStalled _)).trans (Processor.spent_sampleFiq _ _)

/-- Fetching costs the first cycle, whether the condition holds or not. -/
theorem cycles_step (m : Machine δ) :
    1 ≤ m.step.processor.cycles.toNat ∧ m.step.processor.cycles.toNat ≤ 32 := by
  obtain ⟨n, bound, cost⟩ := m.spent_step
  rw [cycles_ready] at cost
  have fits : n < 2 ^ 32 := Nat.lt_of_le_of_lt bound (by decide)
  rw [cost, UInt32.toNat_add, UInt32.toNat_ofNat_of_lt' fits, sequential, UInt32.toNat_one]
  omega

end Machine

end ArmConsole
