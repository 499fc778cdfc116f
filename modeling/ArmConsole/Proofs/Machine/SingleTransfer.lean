import ArmConsole.Proofs.Machine.FlatRam
import ArmConsole.Proofs.Processor.Operands

/-!
Transfers of one register. The address comes from the base and a displacement; the base may be
written back, and that happens between the access and the write of a loaded register. Main
statement: what a load or a store of one register does, as an update of the 31 registers and of the
bytes of RAM.
-/

namespace ArmConsole

namespace SingleTransfer

/-- How far a transfer moves its base. A register is shifted with the current carry. -/
def displacement (i : SingleTransfer) (p : Processor) : Word :=
  match i.offset with
  | .immediate offset => offset
  | .register rm kind amount => (kind.applyField amount (p.reading p.mode 8 rm) p.status.carry).value

/-- The base moved by the displacement. -/
def moved (i : SingleTransfer) (p : Processor) : Word :=
  match i.direction with
  | .up => p.held i.base + i.displacement p
  | .down => p.held i.base - i.displacement p

/-- The address of a transfer. -/
def target (i : SingleTransfer) (p : Processor) : Word :=
  match i.indexing with
  | .pre => i.moved p
  | .post => p.held i.base

/-- The mode to whose registers the transferred one belongs. -/
def bank (i : SingleTransfer) (p : Processor) : Mode :=
  if i.indexing = .post ∧ i.writeBack = true then .user else p.mode

/-- The registers when the base has been written back, if it is. -/
def writtenBack (i : SingleTransfer) (p : Processor) : PhysicalRegister → Word :=
  if i.indexing = .post ∨ i.writeBack = true then
    Function.update p.registers (p.mode.sees i.base) (i.moved p)
  else p.registers

theorem writtenBack_eq (i : SingleTransfer) (p : Processor) :
    i.writtenBack p = if i.writesBack = true then
      Function.update p.registers (p.mode.sees i.base) (i.moved p) else p.registers := by
  rw [writtenBack, writesBack]
  simp only [Bool.or_eq_true, beq_iff_eq, or_comm]

theorem bank_eq (i : SingleTransfer) (p : Processor) :
    i.bank p = p.transferMode i.usesUserBank := by
  rw [bank, Processor.transferMode, usesUserBank]
  simp only [Bool.and_eq_true, beq_iff_eq, and_comm]

theorem transferOffset_eq (i : SingleTransfer) (p : Processor) :
    p.transferOffset i.offset = i.displacement p := by
  unfold Processor.transferOffset displacement
  cases i.offset with
  | immediate offset => rfl
  | register rm kind amount => simp only [Processor.operand_eq]

section

variable {i : SingleTransfer} (plain : i.base ≠ .pc) (p : Processor)

include plain

theorem move_eq : i.direction.move (p.operand i.base Processor.lookAhead)
    (p.transferOffset i.offset) = i.moved p := by
  rw [p.operand_of_ne plain, i.transferOffset_eq]
  rfl

theorem address_eq : (if i.indexing = .pre then i.moved p
    else p.operand i.base Processor.lookAhead) = i.target p := by
  rw [p.operand_of_ne plain, target]
  cases i.indexing <;> rfl

end

end SingleTransfer

namespace Machine

variable {δ : Type} [ExpansionDevice δ]

/-! ### Transfers -/

/-- While a step executes its instruction, that is where it has fetched it. -/
theorem instructionAddress_ready (m : Machine δ) :
    m.ready.2.processor.instructionAddress = m.fetchAddress := by
  have pc : m.ready.2.processor.pc = m.fetchAddress + 4 := by
    obtain ⟨p, space, calls, redirects⟩ := m
    cases redirects <;> exact Processor.pc_withPc _ _
  rw [Processor.instructionAddress, pc, UInt32.add_sub_cancel]

section Transfer

open Processor (nonSequential internal)

variable {i : SingleTransfer} (plain : i.base ≠ .pc) (m : Machine δ)
  (inRam : (i.target m.processor).toNat < GuestMemory.ramSize)

include plain

/-- A transfer with its access to RAM carried out. -/
theorem singleTransfer_eq :
    m.singleTransfer i =
      let p := m.processor
      let p := if i.writesBack then p.setRegister i.base (i.moved p) else p
      if i.load then
        let v := i.width.loaded m.space.memory.readByte ⟨_, inRam⟩
        { m with processor := (p.load i.usesUserBank i.rd v).spend (nonSequential + internal) }
      else
        let w : RamWrite :=
          ⟨i.width.ram, ⟨_, inRam⟩, m.processor.reading (i.bank m.processor) 12 i.rd⟩
        { m with
          processor := p.spend nonSequential
          space := { m.space with memory := m.space.memory.write w } } := by
  unfold singleTransfer
  dsimp only
  rw [SingleTransfer.move_eq plain, SingleTransfer.address_eq plain, readData_of_lt inRam,
    writeData_of_lt inRam, Processor.stored_eq, SingleTransfer.bank_eq]
  rfl

end Transfer

/-- What a transfer of one register with an address in RAM does. The base is written back first, so
that a register that is loaded wins over it; a register that is stored is read before. -/
theorem execute_singleTransfer (m : Machine δ) (i : SingleTransfer) (plain : i.base ≠ .pc)
    (inRam : (i.target m.processor).toNat < GuestMemory.ramSize) :
    let p := m.processor
    let n := m.execute (.singleTransfer i)
    let a : RamAddress := ⟨_, inRam⟩
    let w : RamWrite := ⟨i.width.ram, a, p.reading (i.bank p) 12 i.rd⟩
    p.OnlyRegisters n.processor ∧
    (i.load = true →
      n = { m with processor := n.processor } ∧
      n.processor.registers = Function.update (i.writtenBack p) ((i.bank p).sees i.rd)
        (i.width.loaded m.space.memory.readByte a)) ∧
    (i.load = false →
      n = { m with
        processor := n.processor, space := { m.space with memory := n.space.memory } } ∧
      n.processor.registers = i.writtenBack p ∧
      GuestMemory.Framed (fun b => w.covers b = true) (fun _ => False) m.space.memory
        n.space.memory ∧
      ∀ b, w.covers b = true → n.space.memory.readByte b = w.byteAt b) := by
  intro p n a w
  obtain ⟨registers, only⟩ := p.setRegister_if i.writesBack i.base (i.moved p)
  rw [← i.writtenBack_eq] at registers
  have performed : n = m.singleTransfer i := rfl
  rw [singleTransfer_eq plain m inRam] at performed
  cases load : i.load with
  | true =>
    rw [if_pos load] at performed
    have loaded : p.OnlyRegisters n.processor := by
      rw [performed]
      exact (only.trans (Processor.onlyRegisters_load _ _ _ _)).trans
        (Processor.onlyRegisters_spend _ _)
    refine ⟨loaded, fun _ => ⟨?_, ?_⟩, fun stores => absurd stores (by decide)⟩
    · rw [performed]
    · rw [performed, Processor.registers_spend, Processor.registers_load, registers,
        only.transferMode, SingleTransfer.bank_eq]
  | false =>
    rw [if_neg (by rw [load]; decide)] at performed
    have memory : n.space.memory = m.space.memory.write w := by rw [performed]
    have stored : p.OnlyRegisters n.processor := by
      rw [performed]
      exact only.trans (Processor.onlyRegisters_spend _ _)
    refine ⟨stored, fun loads => absurd loads (by decide), fun _ => ⟨?_, ?_, ?_, ?_⟩⟩
    · rw [performed]
    · rw [performed]
      exact registers
    · rw [memory]
      exact m.space.memory.framed_write w
    · intro b covered
      rw [memory, GuestMemory.readByte_write, if_pos covered]

/-- R0 points into the middle of the word 0x11223344. -/
def misaligned : Machine ScriptedDevice where
  processor := Processor.initial.withRegister .r0 0x1002
  space := { memory := GuestMemory.empty.writeWord ⟨0x1000, by decide⟩ 0x11223344, io := .initial }
  calls := none
  redirects := none

/-- `LDRT R13, [R0], #4` in Supervisor mode fills User's R13. -/
theorem execute_singleTransfer_misaligned :
    let n := misaligned.execute (.singleTransfer
      ⟨true, .word, true, .post, .up, 13, .r0, .immediate 4⟩)
    n.processor.registers (.high .user 0) = 0x33441122 ∧ n.processor.registers (.low 0) = 0x1006 ∧
    n.processor.mode = .supervisor ∧ n.space.memory = misaligned.space.memory := by
  intro n
  obtain ⟨only, loaded, -⟩ := execute_singleTransfer misaligned
    ⟨true, .word, true, .post, .up, 13, .r0, .immediate 4⟩ (by decide) (by decide)
  obtain ⟨same, registers⟩ := loaded rfl
  refine ⟨?_, ?_, only.mode, congrArg (fun m => m.space.memory) same⟩
  · rw [registers]
    refine (Function.update_self _ _ _).trans ?_
    have word (a : RamAddress) (same : a.val / 4 = 0x1000 / 4) :
        misaligned.space.memory.readWord a = 0x11223344 :=
      GuestMemory.readWord_writeWord _ same _
    rw [Width.loaded_word, word _ (by decide)]
    decide
  · rw [registers]
    decide

end Machine

end ArmConsole
