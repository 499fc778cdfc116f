import ArmConsole.Proofs.Processor.Context

/-!
Registers as an instruction finds and leaves them. Operands, stored values and loads are accesses
to the 31 registers of the processor; R15 reads ahead of the instruction. What a transfer does to
the processor beyond that is either nothing or the return of a saved status word.
-/

namespace ArmConsole

/-! ### Register lists -/

namespace BlockTransfer

variable (i : BlockTransfer)

theorem mem_registers_iff {r : RegisterNumber} :
    r ∈ i.registers ↔ i.list.bit (.ofNat r) = true := by
  rw [registers, List.mem_filter]
  exact and_iff_right (List.mem_finRange r)

theorem pc_mem_registers_iff : .pc ∈ i.registers ↔ i.listsPc = true := i.mem_registers_iff

theorem sorted_registers : i.registers.Pairwise (· < ·) :=
  (List.pairwise_lt_finRange 16).filter _

/-- No register is listed twice. -/
theorem nodup_registers : i.registers.Nodup := (List.nodup_finRange 16).filter _

theorem length_registers_le : i.registers.length ≤ 16 := by
  have bound := List.length_filter_le (fun r : RegisterNumber => i.list.bit (.ofNat r))
    (List.finRange 16)
  rwa [List.length_finRange] at bound

end BlockTransfer

namespace Processor

/-! ### Operands -/

/-- Where the instruction at hand lies. R15 has been moved past it. -/
def instructionAddress (p : Processor) : Word := p.pc - 4

/-- What the register holds that the mode sees under a number. -/
def held (p : Processor) (r : RegisterNumber) : Word := p.registers (p.mode.sees r)

/-- What an instruction reads of a register of `mode`; of R15, the address that lies so many bytes
`ahead` of the instruction. -/
def reading (p : Processor) (mode : Mode) (ahead : Word) (r : RegisterNumber) : Word :=
  if r = .pc then p.instructionAddress + ahead else p.registers (mode.sees r)

/-- The mode whose registers a transfer moves. -/
def transferMode (p : Processor) (user : Bool) : Mode := if user then .user else p.mode

variable (p : Processor)

theorem pc_eq : p.pc = p.instructionAddress + 4 := (UInt32.sub_add_cancel _ _).symm

theorem operand_eq (r : RegisterNumber) : p.operand r lookAhead = p.reading p.mode 8 r := by
  unfold operand reading
  split
  · rw [pc_eq, UInt32.add_assoc]
    rfl
  · exact (p.registers_sees r).symm

theorem operand_of_ne {r : RegisterNumber} (other : r ≠ .pc) (ahead : Word) :
    p.operand r ahead = p.held r :=
  (if_neg other).trans (p.registers_sees r).symm

theorem stored_eq (user : Bool) (r : RegisterNumber) :
    p.stored user r = p.reading (p.transferMode user) 12 r := by
  unfold stored reading
  split
  · rw [pc_eq, UInt32.add_assoc]
    rfl
  · cases user with
    | true => exact BankedRegisters.readUser_eq ⟨p.mode, p.live, p.bank⟩ r
    | false => exact (p.registers_sees r).symm

/-! ### Loads -/

theorem registers_spend (cycles : Word) : (p.spend cycles).registers = p.registers := rfl

theorem registers_load (user : Bool) (r : RegisterNumber) (v : Word) :
    (p.load user r v).registers =
      Function.update p.registers ((p.transferMode user).sees r) v := by
  cases user with
  | true =>
    have written := BankedRegisters.flat_writeUser ⟨p.mode, p.live, p.bank⟩ r v
    exact congrArg FlatRegisters.file written
  | false => exact p.registers_setRegister r v

/-- Nothing differs but registers, the mode with its status word, and what the instruction has
cost. -/
structure Kept (p q : Processor) : Prop where
  saved : q.bank.saved = p.bank.saved
  fiqLine : q.fiqLine = p.fiqLine
  memoryAbort : q.memoryAbort = p.memoryAbort
  stalled : q.stalled = p.stalled

theorem Kept.trans {p q r : Processor} (first : p.Kept q) (second : q.Kept r) : p.Kept r where
  saved := second.saved.trans first.saved
  fiqLine := second.fiqLine.trans first.fiqLine
  memoryAbort := second.memoryAbort.trans first.memoryAbort
  stalled := second.stalled.trans first.stalled

/-- Mode and status word are the same, too. -/
structure OnlyRegisters (p q : Processor) : Prop extends p.Kept q where
  mode : q.mode = p.mode
  status : q.status = p.status

namespace OnlyRegisters

variable {p q r : Processor}

theorem refl (p : Processor) : p.OnlyRegisters p := ⟨⟨rfl, rfl, rfl, rfl⟩, rfl, rfl⟩

theorem trans (first : p.OnlyRegisters q) (second : q.OnlyRegisters r) : p.OnlyRegisters r where
  toKept := first.toKept.trans second.toKept
  mode := second.mode.trans first.mode
  status := second.status.trans first.status

theorem transferMode (only : p.OnlyRegisters q) (user : Bool) :
    q.transferMode user = p.transferMode user := by
  rw [Processor.transferMode, Processor.transferMode, only.mode]

end OnlyRegisters

theorem onlyRegisters_spend (cycles : Word) : p.OnlyRegisters (p.spend cycles) :=
  ⟨⟨rfl, rfl, rfl, rfl⟩, rfl, rfl⟩

theorem onlyRegisters_setRegister (r : RegisterNumber) (v : Word) :
    p.OnlyRegisters (p.setRegister r v) := by
  unfold setRegister
  split <;> exact ⟨⟨rfl, rfl, rfl, rfl⟩, rfl, rfl⟩

/-- The write of a register that an instruction may leave out. -/
theorem setRegister_if (write : Bool) (r : RegisterNumber) (v : Word) :
    let q := if write then p.setRegister r v else p
    (q.registers = if write = true then Function.update p.registers (p.mode.sees r) v
      else p.registers) ∧
    p.OnlyRegisters q := by
  cases write with
  | true => exact ⟨p.registers_setRegister r v, p.onlyRegisters_setRegister r v⟩
  | false => exact ⟨rfl, .refl p⟩

theorem onlyRegisters_load (user : Bool) (r : RegisterNumber) (v : Word) :
    p.OnlyRegisters (p.load user r v) := by
  cases user with
  | true => exact ⟨⟨p.bank.saved_writeUser p.live p.mode r v, rfl, rfl, rfl⟩, rfl, rfl⟩
  | false => exact p.onlyRegisters_setRegister r v

/-! ### The return of a status word -/

/-- Mode and status word when the saved one has returned. Bits that select no mode do not take
effect, and User has nothing saved. -/
def returned (p : Processor) : Mode × StatusWord :=
  match p.saved? with
  | none => (p.mode, p.status)
  | some saved =>
    match saved.mode? with
    | none => (p.mode, saved.withMode p.mode)
    | some mode => (mode, saved)

theorem OnlyRegisters.returned {p q : Processor} (only : p.OnlyRegisters q) :
    q.returned = p.returned := by
  have saved : q.saved? = p.saved? := by
    rw [saved?, saved?, RegisterBank.saved?, RegisterBank.saved?, only.mode, only.saved]
  rw [Processor.returned, Processor.returned, saved, only.mode, only.status]

theorem state_restoreStatus : (p.restoreStatus.mode, p.restoreStatus.status) = p.returned := by
  unfold restoreStatus returned setStatus
  cases p.saved? with
  | none => rfl
  | some saved =>
    dsimp only [StatusWord.mode?]
    cases Mode.ofBits? saved.word <;> rfl

theorem registers_setStatus (value : Word) : (p.setStatus value).registers = p.registers := by
  unfold setStatus
  split
  next mode _ => exact p.registers_switchMode mode
  next => rfl

theorem registers_restoreStatus : p.restoreStatus.registers = p.registers := by
  unfold restoreStatus
  split
  · exact p.registers_setStatus _
  · rfl

theorem kept_setStatus (value : Word) : p.Kept (p.setStatus value) := by
  unfold setStatus
  split
  next mode _ => exact ⟨p.bank.saved_switch p.live p.mode mode, rfl, rfl, rfl⟩
  next => exact ⟨rfl, rfl, rfl, rfl⟩

theorem kept_restoreStatus : p.Kept p.restoreStatus := by
  unfold restoreStatus
  split
  · exact p.kept_setStatus _
  · exact ⟨rfl, rfl, rfl, rfl⟩

/-- The return of a status word that an instruction may leave out. -/
theorem restoreStatus_if (restore : Bool) :
    let q := if restore then p.restoreStatus else p
    q.registers = p.registers ∧ p.Kept q ∧
    (q.mode, q.status) = if restore = true then p.returned else (p.mode, p.status) := by
  cases restore with
  | true => exact ⟨p.registers_restoreStatus, p.kept_restoreStatus, p.state_restoreStatus⟩
  | false => exact ⟨rfl, (OnlyRegisters.refl p).toKept, rfl⟩

end Processor

end ArmConsole
