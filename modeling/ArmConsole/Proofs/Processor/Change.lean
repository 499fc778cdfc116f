import ArmConsole.Processor.Execute
import ArmConsole.Proofs.Processor.Status
import Mathlib.Logic.Relation

/-!
What an instruction that takes no exception does to the processor. Most changes stay within what
User may reach; the three others ask for a privileged mode. Main statement: every operation is a
chain of such changes, so that what each of them preserves is preserved by all operations.
-/

namespace ArmConsole

namespace Processor

/-- Nothing differs that is out of User's reach: the mode, the bank, the status word below the
flags and the request line. -/
structure Confined (p q : Processor) : Prop where
  mode : q.mode = p.mode
  bank : q.bank = p.bank
  status : q.status.systemBits = p.status.systemBits
  fiqLine : q.fiqLine = p.fiqLine

inductive Change : Processor → Processor → Prop
  | confined {p q : Processor} : p.Confined q → Change p q
  | userRegister (p : Processor) (r : RegisterNumber) (v : Word) :
      p.mode.isPrivileged → Change p (p.setUserRegister r v)
  | saved (p : Processor) (status : StatusWord) :
      p.mode.isPrivileged → Change p { p with bank := p.bank.withSaved p.mode status }
  | status (p : Processor) (value : Word) : p.mode.isPrivileged → Change p (p.setStatus value)

/-- Any number of changes. -/
abbrev Changes : Processor → Processor → Prop := Relation.ReflTransGen Change

namespace Confined

variable {p q r : Processor}

theorem refl (p : Processor) : p.Confined p := ⟨rfl, rfl, rfl, rfl⟩

theorem trans (first : p.Confined q) (second : q.Confined r) : p.Confined r where
  mode := second.mode.trans first.mode
  bank := second.bank.trans first.bank
  status := second.status.trans first.status
  fiqLine := second.fiqLine.trans first.fiqLine

theorem changes (confined : p.Confined q) : p.Changes q := .single (.confined confined)

theorem ite (confined : p.Confined q) (c : Prop) [Decidable c] :
    p.Confined (if c then q else p) := by
  split
  · exact confined
  · exact .refl p

end Confined

/-! ### What changes preserve -/

/-- The mode bits of the status word are those of the mode. -/
def Coherent (p : Processor) : Prop := p.status.modeBits = p.mode.bits

theorem Change.confined_of_user {p q : Processor} (change : Change p q) (user : p.mode = .user) :
    p.Confined q := by
  cases change with
  | confined confined => exact confined
  | userRegister r v privileged => simp [user, Mode.isPrivileged] at privileged
  | saved status privileged => simp [user, Mode.isPrivileged] at privileged
  | status value privileged => simp [user, Mode.isPrivileged] at privileged

/-- User stays confined for any number of changes. -/
theorem Changes.confined_of_user {p q : Processor} (changes : p.Changes q)
    (user : p.mode = .user) : p.Confined q := by
  induction changes with
  | refl => exact .refl p
  | tail _ change ih => exact ih.trans (change.confined_of_user (ih.mode.trans user))

theorem coherent_setStatus (p : Processor) (value : Word) : (p.setStatus value).Coherent := by
  unfold setStatus
  split
  next mode found => exact Mode.ofBits?_eq_some_iff.1 found
  next => exact StatusWord.modeBits_withMode ⟨value⟩ p.mode

theorem Confined.coherent {p q : Processor} (confined : p.Confined q) (coherent : p.Coherent) :
    q.Coherent := by
  rw [Coherent, StatusWord.modeBits_of_systemBits confined.status, confined.mode]
  exact coherent

theorem Change.coherent {p q : Processor} (change : Change p q) (coherent : p.Coherent) :
    q.Coherent := by
  cases change with
  | confined confined => exact confined.coherent coherent
  | userRegister r v privileged => exact coherent
  | saved status privileged => exact coherent
  | status value privileged => exact p.coherent_setStatus value

theorem Changes.coherent {p q : Processor} (changes : p.Changes q) (coherent : p.Coherent) :
    q.Coherent := by
  induction changes with
  | refl => exact coherent
  | tail _ change ih => exact change.coherent ih

theorem fiqLine_setStatus (p : Processor) (value : Word) :
    (p.setStatus value).fiqLine = p.fiqLine := by
  unfold setStatus
  split <;> rfl

theorem Change.fiqLine {p q : Processor} (change : Change p q) : q.fiqLine = p.fiqLine := by
  cases change with
  | confined confined => exact confined.fiqLine
  | userRegister r v privileged => rfl
  | saved status privileged => rfl
  | status value privileged => exact p.fiqLine_setStatus value

/-- No instruction touches the request line. -/
theorem Changes.fiqLine {p q : Processor} (changes : p.Changes q) : q.fiqLine = p.fiqLine := by
  induction changes with
  | refl => rfl
  | tail _ change ih => exact change.fiqLine.trans ih

/-! ### Registers -/

theorem confined_live (p : Processor) (live : Registers) : p.Confined { p with live } :=
  ⟨rfl, rfl, rfl, rfl⟩

theorem confined_spend (p : Processor) (cycles : Word) : p.Confined (p.spend cycles) :=
  ⟨rfl, rfl, rfl, rfl⟩

theorem confined_setRegister (p : Processor) (r : RegisterNumber) (v : Word) :
    p.Confined (p.setRegister r v) := by
  unfold setRegister
  split
  · exact (p.confined_live _).trans (confined_spend _ _)
  · exact p.confined_live _

theorem confined_setUserRegister (p : Processor) (user : p.mode = .user) (r : RegisterNumber)
    (v : Word) : p.Confined (p.setUserRegister r v) := by
  have visible : p.setUserRegister r v = { p with live := p.live.set r v } := by
    simp only [setUserRegister, user, RegisterBank.writeUser, RegisterBank.userSlot?]
  rw [visible]
  exact p.confined_live _

theorem changes_load (p : Processor) (user : Bool) (r : RegisterNumber) (v : Word) :
    p.Changes (p.load user r v) := by
  cases user with
  | false => exact (p.confined_setRegister r v).changes
  | true =>
    cases privileged : p.mode.isPrivileged with
    | true => exact .single (.userRegister p r v privileged)
    | false =>
      have user : p.mode = .user := by simpa [Mode.isPrivileged] using privileged
      exact (p.confined_setUserRegister user r v).changes

/-! ### Status words -/

theorem confined_status (p : Processor) {status : StatusWord}
    (same : status.systemBits = p.status.systemBits) : p.Confined { p with status } :=
  ⟨rfl, rfl, same, rfl⟩

/-- Only a privileged mode has a saved status word. -/
theorem isPrivileged_of_saved? {p : Processor} {saved : StatusWord} (has : p.saved? = some saved) :
    p.mode.isPrivileged := by
  cases h : p.mode with
  | user => simp [saved?, RegisterBank.saved?, Mode.savedSlot?, h] at has
  | _ => rfl

theorem changes_restoreStatus (p : Processor) : p.Changes p.restoreStatus := by
  unfold restoreStatus
  split
  next saved has => exact .single (.status p saved.word (isPrivileged_of_saved? has))
  next => exact .refl

theorem changes_updateStatus (p : Processor) (i : DataProcessing) (r : AluResult) :
    p.Changes (p.updateStatus i r) := by
  unfold updateStatus
  split
  · exact p.changes_restoreStatus
  · split
    · exact (p.confined_status (p.status.systemBits_withLogicalFlags r)).changes
    · exact (p.confined_status (p.status.systemBits_withFlags r)).changes

theorem confined_readStatus (p : Processor) (source : StatusRegister) (rd : RegisterNumber) :
    p.Confined (p.readStatus source rd) := p.confined_setRegister rd _

theorem changes_writeStatus (p : Processor) (i : StatusWrite) : p.Changes (p.writeStatus i) := by
  unfold writeStatus
  dsimp only
  split
  · split
    next all =>
      rw [Bool.and_eq_true] at all
      exact .single (.status p _ all.2)
    next => exact (p.confined_status (p.status.systemBits_withFlagBits _)).changes
  · split
    next => exact .refl
    next saved has => exact .single (.saved p _ (isPrivileged_of_saved? has))

/-! ### Instructions -/

theorem changes_dataProcessing (p : Processor) (i : DataProcessing) :
    p.Changes (p.dataProcessing i) := by
  unfold dataProcessing
  dsimp only
  have written (result : AluResult) : p.Confined
      (if i.operation.writesResult then
        (p.spend (secondOperandCost i.operand)).setRegister i.rd result.value
      else p.spend (secondOperandCost i.operand)) :=
    (p.confined_spend _).trans ((confined_setRegister _ _ _).ite _)
  split
  · exact (written _).changes.trans (changes_updateStatus _ i _)
  · exact (written _).changes

theorem confined_multiply (p : Processor) (i : Multiply) : p.Confined (p.multiply i) := by
  unfold multiply
  dsimp only
  have written : p.Confined ((p.setRegister i.rd (p.product i)).spend
      (multiplyCost (p.operand i.rs lookAhead))) :=
    (p.confined_setRegister _ _).trans (confined_spend _ _)
  split
  · apply written.trans
    apply confined_status
    rw [StatusWord.systemBits_withZero, StatusWord.systemBits_withNegative]
  · exact written

@[simp] theorem pc_withPc (p : Processor) (v : Word) : (p.withPc v).pc = v :=
  Vector.getElem_set_self _

theorem withPc_pc (p : Processor) : p.withPc p.pc = p := by
  have same : p.live.set 15 p.live[15] = p.live := Vector.set_getElem_self _
  change { p with live := p.live.set 15 p.live[15] } = p
  rw [same]

theorem pc_branch (p : Processor) (link : Bool) (offset : Word) :
    (p.branch link offset).pc = p.pc + lookAhead + offset := Vector.getElem_set_self _

theorem confined_branch (p : Processor) (link : Bool) (offset : Word) :
    p.Confined (p.branch link offset) := (p.confined_live _).trans (confined_spend _ _)

end Processor

end ArmConsole
