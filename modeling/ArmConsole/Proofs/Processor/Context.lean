import ArmConsole.Proofs.Processor.Exceptions
import ArmConsole.Proofs.Processor.FlatRegisters

/-!
The context of an exception: the registers of all modes, the status word and the saved ones. An
entry writes R14 and the saved status word of its mode and nothing else of that; an instruction
that writes R15 and restores the status word undoes the rest. Main statement: `Entered.resumed`.
-/

namespace ArmConsole

/-- No two modes share a saved status word. -/
theorem Mode.savedSlot?_inj {a b : Mode} (same : a.savedSlot? = b.savedSlot?) : a = b := by
  revert same
  cases a <;> cases b <;> decide

namespace RegisterBank

theorem slot_withSaved (bank : RegisterBank) (mode : Mode) (status : StatusWord) :
    (bank.withSaved mode status).slot = bank.slot := by
  cases mode <;> rfl

theorem saved?_withSaved (bank : RegisterBank) {mode : Mode} (status : StatusWord)
    (privileged : mode ≠ .user) (other : Mode) :
    (bank.withSaved mode status).saved? other =
      if other = mode then some status else bank.saved? other := by
  obtain ⟨slot, named⟩ : ∃ slot, mode.savedSlot? = some slot := by
    cases mode <;> first | contradiction | exact ⟨_, rfl⟩
  have written : bank.withSaved mode status = { bank with saved := bank.saved.set slot status } := by
    rw [withSaved, named]
  rw [written, saved?, saved?]
  by_cases same : other = mode
  · rw [if_pos same, same, named]
    exact congrArg some (Vector.getElem_set_self _)
  · rw [if_neg same]
    cases found : other.savedSlot? with
    | none => rfl
    | some k =>
      have apart : slot.val ≠ k.val := by
        intro equal
        rw [Fin.ext equal, ← found] at named
        exact same (Mode.savedSlot?_inj named.symm)
      exact congrArg some (Vector.getElem_set_ne slot.isLt k.isLt apart)

end RegisterBank

namespace Processor

/-- The registers of all modes. -/
def registers (p : Processor) : PhysicalRegister → Word :=
  BankedRegisters.read ⟨p.mode, p.live, p.bank⟩

theorem registers_sees (p : Processor) (r : RegisterNumber) :
    p.registers (p.mode.sees r) = p.live.get r :=
  BankedRegisters.read_sees ⟨p.mode, p.live, p.bank⟩ r

theorem registers_pc (p : Processor) : p.registers .pc = p.pc := by
  rw [← p.mode.sees_pc]
  exact p.registers_sees .pc

theorem registers_withRegister (p : Processor) (r : RegisterNumber) (v : Word) :
    (p.withRegister r v).registers = Function.update p.registers (p.mode.sees r) v :=
  BankedRegisters.read_setLive ⟨p.mode, p.live, p.bank⟩ r v

theorem registers_setRegister (p : Processor) (r : RegisterNumber) (v : Word) :
    (p.setRegister r v).registers = Function.update p.registers (p.mode.sees r) v := by
  unfold setRegister
  split
  · exact p.registers_withRegister r v
  · exact p.registers_withRegister r v

/-- A change of the mode moves registers between the file and the bank, and that is all. -/
theorem registers_switchMode (p : Processor) (mode : Mode) :
    (p.switchMode mode).registers = p.registers :=
  congrArg FlatRegisters.file (BankedRegisters.flat_switch ⟨p.mode, p.live, p.bank⟩ mode)

theorem saved?_switchMode (p : Processor) (mode other : Mode) :
    (p.switchMode mode).bank.saved? other = p.bank.saved? other := by
  have saved : (p.switchMode mode).bank.saved = p.bank.saved :=
    p.bank.saved_switch p.live p.mode mode
  rw [RegisterBank.saved?, saved]
  rfl

/-! ### Entry -/

/-- In `q` an exception has been entered from `p`. -/
structure Entered (e : Exception) (returnAddress : Word) (p q : Processor) : Prop where
  mode : q.mode = e.mode
  registers : q.registers =
    Function.update (Function.update p.registers (.high e.mode 1) returnAddress) .pc e.vector
  saved (mode : Mode) :
    q.bank.saved? mode = if mode = e.mode then some p.status else p.bank.saved? mode

theorem Exception.sees_link (e : Exception) : e.mode.sees .link = .high e.mode 1 := by
  cases e <;> rfl

theorem entered_enter (p : Processor) (e : Exception) (returnAddress : Word) :
    p.Entered e returnAddress (p.enter e returnAddress) := by
  let switched := p.switchMode e.mode
  let disabled := { switched with bank := switched.bank.withSaved e.mode p.status }
  have privileged : e.mode ≠ .user := by cases e <;> decide
  refine ⟨rfl, ?_, ?_⟩
  · have unsaved : disabled.registers = p.registers := by
      rw [← p.registers_switchMode e.mode]
      funext q
      simp only [registers, BankedRegisters.read, disabled, RegisterBank.slot_withSaved]
      rfl
    have entered : (p.enter e returnAddress).registers =
        ((disabled.withRegister .link returnAddress).withRegister .pc e.vector).registers := rfl
    rw [entered, registers_withRegister, registers_withRegister, unsaved, ← e.sees_link,
      ← e.mode.sees_pc]
    rfl
  · intro mode
    have entered : (p.enter e returnAddress).bank = switched.bank.withSaved e.mode p.status := rfl
    rw [entered, RegisterBank.saved?_withSaved _ _ privileged, saved?_switchMode]

/-- The program counter is replaced anyway. -/
theorem entered_of_withPc {p q : Processor} {e : Exception} {returnAddress : Word} (pc : Word)
    (entered : (p.withPc pc).Entered e returnAddress q) : p.Entered e returnAddress q := by
  refine ⟨entered.mode, ?_, entered.saved⟩
  have apart : PhysicalRegister.pc ≠ .high e.mode 1 := by simp
  rw [entered.registers, withPc, registers_withRegister, p.mode.sees_pc,
    Function.update_comm apart, Function.update_idem]

/-- The address to return to is in R14. -/
theorem Entered.link {p q : Processor} {e : Exception} {returnAddress : Word}
    (entered : p.Entered e returnAddress q) :
    q.live.get RegisterNumber.link = returnAddress := by
  have apart : PhysicalRegister.high e.mode 1 ≠ .pc := by simp
  rw [← registers_sees, entered.mode, e.sees_link, entered.registers, Function.update_of_ne apart,
    Function.update_self]

/-! ### Return -/

/-- `q` is `p` but for what an exception leaves behind: R14 and the saved status word of its
mode. -/
structure Resumed (e : Exception) (returnAddress : Word) (p q : Processor) : Prop where
  pc : q.pc = p.pc
  mode : q.mode = p.mode
  status : q.status = p.status
  registers : q.registers = Function.update p.registers (.high e.mode 1) returnAddress
  saved (mode : Mode) :
    q.bank.saved? mode = if mode = e.mode then some p.status else p.bank.saved? mode

/-- The saved status word brings its mode back with it. -/
theorem restoreStatus_of_saved {p : Processor} {status : StatusWord} {mode : Mode}
    (has : p.saved? = some status) (selects : status.modeBits = mode.bits) :
    p.restoreStatus = { p.switchMode mode with status } := by
  have found : Mode.ofBits? status.word = some mode := StatusWord.mode?_eq_some_iff.2 selects
  rw [restoreStatus, has]
  simp only [setStatus, found]

/-- An instruction that writes R15 and sets flags restores the status word last. -/
theorem dataProcessing_of_return (q : Processor) {i : DataProcessing} (rd : i.rd = .pc)
    (writes : i.operation.writesResult = true) (flags : i.setFlags = true) :
    q.dataProcessing i = ((q.spend (secondOperandCost i.operand)).setRegister .pc
      (i.operation.compute (q.operand i.rn (lookAheadWith i.operand)) (q.secondOperand i.operand)
        q.status.carry).value).restoreStatus := by
  unfold dataProcessing updateStatus
  dsimp only
  rw [if_pos writes, if_pos flags, if_pos rd, rd]

/-- Going back to where the exception was taken undoes it. -/
theorem Entered.resumed {p q : Processor} {e : Exception} {returnAddress cost : Word}
    (entered : p.Entered e returnAddress q) (coherent : p.Coherent) :
    p.Resumed e returnAddress ((q.spend cost).setRegister .pc p.pc).restoreStatus := by
  let returned := (q.spend cost).setRegister .pc p.pc
  have confined : q.Confined returned :=
    (q.confined_spend cost).trans (confined_setRegister _ _ _)
  have has : returned.saved? = some p.status := by
    rw [saved?, confined.bank, confined.mode, entered.mode, entered.saved, if_pos rfl]
  have kept : Function.update p.registers (.high e.mode 1) returnAddress .pc = p.pc := by
    have apart : PhysicalRegister.pc ≠ .high e.mode 1 := by simp
    rw [Function.update_of_ne apart, registers_pc]
  have registers : returned.registers =
      Function.update p.registers (.high e.mode 1) returnAddress := by
    have written : returned.registers = Function.update q.registers (q.mode.sees .pc) p.pc :=
      registers_setRegister (q.spend cost) .pc p.pc
    rw [written, entered.mode, e.mode.sees_pc, entered.registers, Function.update_idem, ← kept,
      Function.update_eq_self]
  rw [restoreStatus_of_saved has coherent]
  have resumed : ({ returned.switchMode p.mode with status := p.status } : Processor).registers =
      Function.update p.registers (.high e.mode 1) returnAddress :=
    (returned.registers_switchMode p.mode).trans registers
  refine ⟨?_, rfl, rfl, resumed, ?_⟩
  · rw [← registers_pc, resumed, kept]
  · intro mode
    change (returned.switchMode p.mode).bank.saved? mode = _
    rw [saved?_switchMode, confined.bank, entered.saved]

end Processor

end ArmConsole
