import ArmConsole.Processor.Registers
import Mathlib.Data.Fintype.Card
import Mathlib.Data.Fintype.Sigma
import Mathlib.Data.Fintype.Sum
import Mathlib.Tactic.DeriveFintype
import Mathlib.Tactic.FinCases

/-!
The register file behind the banks. A processor has 31 registers, of which a mode sees sixteen.
The visible registers together with the bank are one way to store them; the abstraction
`BankedRegisters.flat` reads all 31 out of it. Main statement: operations on the banked
registers are operations on a flat file that knows nothing of banks.
-/

namespace ArmConsole

instance : Fintype Mode where
  elems := ⟨Mode.all, by decide⟩
  complete mode := by cases mode <;> decide

/-- A register of the processor, whatever mode it is in. -/
inductive PhysicalRegister where
  /-- R0 to R7, one for all modes. -/
  | low (r : Fin 8)
  /-- R8 to R12, of FIQ or of the five other modes. -/
  | middle (fiq : Bool) (r : Fin 5)
  /-- R13 and R14 of a mode. -/
  | high (mode : Mode) (r : Fin 2)
  | pc
  deriving DecidableEq, Fintype

namespace PhysicalRegister

/-- The number under which the register is visible in some mode. -/
def number : PhysicalRegister → RegisterNumber
  | low r => ⟨r.val, by omega⟩
  | middle _ r => ⟨r.val + 8, by omega⟩
  | high _ r => ⟨r.val + 13, by omega⟩
  | pc => .pc

/-- R0 to R7 and R15 are visible in every mode and have no slot in a bank. -/
def isShared : PhysicalRegister → Bool
  | low _ | pc => true
  | middle .. | high .. => false

end PhysicalRegister

example : Fintype.card PhysicalRegister = 31 := rfl

/-- The register that a mode sees under a number. -/
def Mode.sees (mode : Mode) (r : RegisterNumber) : PhysicalRegister :=
  if low : r.val < 8 then .low ⟨r.val, low⟩
  else if middle : r.val < 13 then .middle (mode == .fiq) ⟨r.val - 8, by omega⟩
  else if high : r.val < 15 then .high mode ⟨r.val - 13, by omega⟩
  else .pc

/-- The slot of a bank that keeps a register while it is out of sight. -/
def RegisterBank.slot (bank : RegisterBank) : PhysicalRegister → Word
  | .low _ | .pc => 0
  | .middle false r => bank.user[r.val]
  | .middle true r => bank.fiq[r.val]
  | .high .user r => bank.user[r.val + 5]
  | .high .fiq r => bank.fiq[r.val + 5]
  | .high .irq r => bank.irq[r]
  | .high .supervisor r => bank.supervisor[r]
  | .high .abort r => bank.abort[r]
  | .high .undefined r => bank.undefined[r]

structure BankedRegisters where
  mode : Mode
  live : Registers
  bank : RegisterBank

structure FlatRegisters where
  mode : Mode
  file : PhysicalRegister → Word

inductive RegisterOperation where
  | switch (mode : Mode)
  | write (r : RegisterNumber) (value : Word)
  | writeUser (r : RegisterNumber) (value : Word)
  | readUser (r : RegisterNumber)
  deriving DecidableEq

namespace BankedRegisters

def visible (s : BankedRegisters) (q : PhysicalRegister) : Prop := s.mode.sees q.number = q

instance (s : BankedRegisters) (q : PhysicalRegister) : Decidable (s.visible q) :=
  inferInstanceAs (Decidable (_ = _))

/-- The value of a register, from the visible registers if the mode sees it. -/
def read (s : BankedRegisters) (q : PhysicalRegister) : Word :=
  if s.visible q then s.live[q.number] else s.bank.slot q

/-- The flat file that banked registers stand for. -/
def flat (s : BankedRegisters) : FlatRegisters := ⟨s.mode, s.read⟩

def perform (s : BankedRegisters) : RegisterOperation → BankedRegisters
  | .switch mode =>
    let (live, bank) := s.bank.switch s.live s.mode mode
    ⟨mode, live, bank⟩
  | .write r value => { s with live := s.live.set r value r.bound }
  | .writeUser r value =>
    let (live, bank) := s.bank.writeUser s.live s.mode r value
    { s with live, bank }
  | .readUser _ => s

/-- What an operation yields; only a read yields something. -/
def answer (s : BankedRegisters) : RegisterOperation → Option Word
  | .readUser r => some (s.bank.readUser s.live s.mode r)
  | .switch _ | .write _ _ | .writeUser _ _ => none

def run (s : BankedRegisters) : List RegisterOperation → List (Option Word) × BankedRegisters
  | [] => ([], s)
  | op :: ops =>
    let (answers, last) := (s.perform op).run ops
    (s.answer op :: answers, last)

end BankedRegisters

namespace FlatRegisters

/-- A switch moves nothing, and a write reaches exactly one register. -/
def perform (s : FlatRegisters) : RegisterOperation → FlatRegisters
  | .switch mode => { s with mode }
  | .write r value => { s with file := Function.update s.file (s.mode.sees r) value }
  | .writeUser r value => { s with file := Function.update s.file (Mode.user.sees r) value }
  | .readUser _ => s

def answer (s : FlatRegisters) : RegisterOperation → Option Word
  | .readUser r => some (s.file (Mode.user.sees r))
  | .switch _ | .write _ _ | .writeUser _ _ => none

def run (s : FlatRegisters) : List RegisterOperation → List (Option Word) × FlatRegisters
  | [] => ([], s)
  | op :: ops =>
    let (answers, last) := (s.perform op).run ops
    (s.answer op :: answers, last)

end FlatRegisters

/-! ### Visibility -/

theorem Mode.number_sees (mode : Mode) (r : RegisterNumber) : (mode.sees r).number = r := by
  cases mode <;> fin_cases r <;> rfl

/-- Under different numbers different registers are visible, be it in different modes. -/
theorem Mode.eq_of_sees {a b : Mode} {r s : RegisterNumber} (same : a.sees r = b.sees s) :
    r = s := by
  rw [← a.number_sees r, same, b.number_sees]

theorem Mode.sees_pc (mode : Mode) : mode.sees .pc = .pc := by cases mode <;> rfl

theorem Mode.sees_ne_pc (mode : Mode) {r : RegisterNumber} (other : r ≠ .pc) :
    mode.sees r ≠ .pc := by
  intro same
  exact other (eq_of_sees (same.trans mode.sees_pc.symm))

theorem Mode.sees_number_of_shared (mode : Mode) {q : PhysicalRegister}
    (shared : q.isShared = true) : mode.sees q.number = q := by
  cases q with
  | low r => cases mode <;> fin_cases r <;> rfl
  | pc => cases mode <;> rfl
  | middle fiq r => contradiction
  | high mode r => contradiction

namespace RegisterBank

/-- Once the visible registers are stashed, the bank holds every register that it has a slot for. -/
theorem slot_stash (bank : RegisterBank) (live : Registers) (old : Mode) {q : PhysicalRegister}
    (banked : q.isShared = false) :
    (bank.stash live old).slot q = (BankedRegisters.mk old live bank).read q := by
  cases q with
  | low r => contradiction
  | pc => contradiction
  | middle fiq r => cases fiq <;> cases old <;> fin_cases r <;> rfl
  | high mode r => cases mode <;> cases old <;> fin_cases r <;> rfl

/-- Loading makes the slots of the new mode visible and keeps the shared registers. -/
theorem read_load (bank : RegisterBank) (live : Registers) (new : Mode) (q : PhysicalRegister) :
    (BankedRegisters.mk new (bank.load live new) bank).read q =
      if q.isShared then live[q.number] else bank.slot q := by
  cases q with
  | low r => cases new <;> fin_cases r <;> rfl
  | pc => cases new <;> rfl
  | middle fiq r => cases fiq <;> cases new <;> fin_cases r <;> rfl
  | high mode r => cases mode <;> cases new <;> fin_cases r <;> rfl

/-- User's copy of a register is the visible one exactly where no slot of the bank is named. -/
theorem userSlot?_cases (mode : Mode) (r : RegisterNumber) :
    (userSlot? mode r = none ∧ mode.sees r = Mode.user.sees r) ∨
      ∃ slot : Fin 7, userSlot? mode r = some slot ∧ r.val = slot.val + 8 ∧
        mode.sees r ≠ Mode.user.sees r := by
  cases mode <;> fin_cases r <;> decide

/-- User's slots are the registers R8 to R14 of User. -/
theorem slot_sees_user (bank : RegisterBank) {r : RegisterNumber} {slot : Fin 7}
    (number : r.val = slot.val + 8) : bank.slot (Mode.user.sees r) = bank.user[slot] := by
  have small : slot.val + 8 < 16 := by omega
  obtain rfl : r = ⟨slot.val + 8, small⟩ := Fin.ext number
  fin_cases slot <;> rfl

theorem slot_setUser (bank : RegisterBank) {r : RegisterNumber} {slot : Fin 7}
    (number : r.val = slot.val + 8) (value : Word) :
    { bank with user := bank.user.set slot value }.slot =
      Function.update bank.slot (Mode.user.sees r) value := by
  have small : slot.val + 8 < 16 := by omega
  obtain rfl : r = ⟨slot.val + 8, small⟩ := Fin.ext number
  funext q
  cases q with
  | low r => fin_cases slot <;> rfl
  | pc => fin_cases slot <;> rfl
  | middle fiq r =>
    cases fiq with
    | true => fin_cases slot <;> rfl
    | false =>
      fin_cases slot <;> fin_cases r <;> simp [Function.update_apply, Mode.sees, RegisterBank.slot]
  | high mode r =>
    cases mode <;> fin_cases slot <;> fin_cases r <;> simp [Mode.sees, RegisterBank.slot]

theorem saved_switch (bank : RegisterBank) (live : Registers) (old new : Mode) :
    (bank.switch live old new).2.saved = bank.saved := by
  unfold switch
  split
  · rfl
  · cases old <;> rfl

theorem saved_writeUser (bank : RegisterBank) (live : Registers) (mode : Mode)
    (r : RegisterNumber) (value : Word) :
    (bank.writeUser live mode r value).2.saved = bank.saved := by
  unfold writeUser
  split <;> rfl

end RegisterBank

namespace BankedRegisters

theorem read_sees (s : BankedRegisters) (r : RegisterNumber) :
    s.read (s.mode.sees r) = s.live.get r := by
  have seen : s.visible (s.mode.sees r) := by rw [visible, Mode.number_sees]
  rw [read, if_pos seen]
  simp only [Mode.number_sees]
  rfl

theorem flat_switch (s : BankedRegisters) (new : Mode) :
    (s.perform (.switch new)).flat = s.flat.perform (.switch new) := by
  have same : (s.perform (.switch new)).read = s.read := by
    by_cases h : s.mode = new
    · simp only [perform, RegisterBank.switch, if_pos h]
      rw [← h]
    · funext q
      simp only [perform, RegisterBank.switch, if_neg h]
      rw [RegisterBank.read_load]
      cases shared : q.isShared with
      | true =>
        have seen : s.visible q := s.mode.sees_number_of_shared shared
        rw [if_pos rfl, read, if_pos seen]
      | false => rw [if_neg (by decide), RegisterBank.slot_stash _ _ _ shared]
  exact congrArg (FlatRegisters.mk new) same

/-- A write of a visible register reaches the physical one that the mode sees. -/
theorem read_setLive (s : BankedRegisters) (r : RegisterNumber) (value : Word) :
    { s with live := s.live.set r value r.bound }.read =
      Function.update s.read (s.mode.sees r) value := by
  funext q
  by_cases seen : s.visible q
  · have names : r = q.number ↔ q = s.mode.sees r := by
      constructor
      · rintro rfl
        exact seen.symm
      · rintro rfl
        exact (s.mode.number_sees r).symm
    have element : (s.live.set r value)[q.number] =
        if r = q.number then value else s.live[q.number] := by
      simp only [Fin.getElem_fin, Vector.getElem_set, Fin.ext_iff]
    have written : { s with live := s.live.set r value }.read q = (s.live.set r value)[q.number] :=
      if_pos seen
    rw [written, element, Function.update_apply]
    simp only [names, read, if_pos seen]
  · have other : q ≠ s.mode.sees r := by
      rintro rfl
      exact seen (by rw [visible, Mode.number_sees])
    rw [Function.update_of_ne other]
    exact (if_neg seen).trans (if_neg seen).symm

theorem flat_write (s : BankedRegisters) (r : RegisterNumber) (value : Word) :
    (s.perform (.write r value)).flat = s.flat.perform (.write r value) :=
  congrArg (FlatRegisters.mk s.mode) (s.read_setLive r value)

/-- A register of User that the mode does not see is in User's slot. -/
theorem not_visible_user (s : BankedRegisters) {r : RegisterNumber}
    (banked : s.mode.sees r ≠ Mode.user.sees r) : ¬s.visible (Mode.user.sees r) := by
  intro seen
  rw [visible, Mode.number_sees] at seen
  exact banked seen

/-- A write of User's slot reaches the physical register that it stands for. -/
theorem read_setUser (s : BankedRegisters) {r : RegisterNumber} {slot : Fin 7}
    (number : r.val = slot.val + 8) (banked : s.mode.sees r ≠ Mode.user.sees r) (value : Word) :
    { s with bank := { s.bank with user := s.bank.user.set slot value } }.read =
      Function.update s.read (Mode.user.sees r) value := by
  funext q
  by_cases seen : s.visible q
  · have other : q ≠ Mode.user.sees r := by
      rintro rfl
      exact s.not_visible_user banked seen
    rw [Function.update_of_ne other]
    exact (if_pos seen).trans (if_pos seen).symm
  · have stored : { s with bank := { s.bank with user := s.bank.user.set slot value } }.read q =
        { s.bank with user := s.bank.user.set slot value }.slot q := if_neg seen
    rw [stored, s.bank.slot_setUser number]
    by_cases same : q = Mode.user.sees r
    · subst same
      rw [Function.update_self, Function.update_self]
    · rw [Function.update_of_ne same, Function.update_of_ne same]
      exact (if_neg seen).symm

theorem flat_writeUser (s : BankedRegisters) (r : RegisterNumber) (value : Word) :
    (s.perform (.writeUser r value)).flat = s.flat.perform (.writeUser r value) := by
  have same : (s.perform (.writeUser r value)).read =
      Function.update s.read (Mode.user.sees r) value := by
    obtain ⟨visible, seen⟩ | ⟨slot, named, number, banked⟩ :=
      RegisterBank.userSlot?_cases s.mode r
    · simp only [perform, RegisterBank.writeUser, visible]
      rw [← seen]
      exact s.read_setLive r value
    · simp only [perform, RegisterBank.writeUser, named]
      exact s.read_setUser number banked value
  exact congrArg (FlatRegisters.mk s.mode) same

theorem readUser_eq (s : BankedRegisters) (r : RegisterNumber) :
    s.bank.readUser s.live s.mode r = s.read (Mode.user.sees r) := by
  obtain ⟨visible, seen⟩ | ⟨slot, named, number, banked⟩ := RegisterBank.userSlot?_cases s.mode r
  · simp only [RegisterBank.readUser, visible]
    rw [← seen, s.read_sees]
    rfl
  · simp only [RegisterBank.readUser, named]
    rw [read, if_neg (s.not_visible_user banked), s.bank.slot_sees_user number]

/-! ### Simulation -/

theorem flat_perform (s : BankedRegisters) (op : RegisterOperation) :
    (s.perform op).flat = s.flat.perform op := by
  cases op with
  | switch mode => exact s.flat_switch mode
  | write r value => exact s.flat_write r value
  | writeUser r value => exact s.flat_writeUser r value
  | readUser r => rfl

theorem answer_flat (s : BankedRegisters) (op : RegisterOperation) :
    s.flat.answer op = s.answer op := by
  cases op with
  | switch mode => rfl
  | write r value => rfl
  | writeUser r value => rfl
  | readUser r => exact congrArg some (s.readUser_eq r).symm

theorem saved_perform (s : BankedRegisters) (op : RegisterOperation) :
    (s.perform op).bank.saved = s.bank.saved := by
  cases op with
  | switch mode => exact s.bank.saved_switch s.live s.mode mode
  | write r value => rfl
  | writeUser r value => exact s.bank.saved_writeUser s.live s.mode r value
  | readUser r => rfl

/-- Operations on banked registers answer and act as they do on a flat file, and leave the saved
status words alone. -/
theorem run_flat (s : BankedRegisters) (ops : List RegisterOperation) :
    s.flat.run ops = ((s.run ops).1, (s.run ops).2.flat) ∧
      (s.run ops).2.bank.saved = s.bank.saved := by
  induction ops generalizing s with
  | nil => exact ⟨rfl, rfl⟩
  | cons op ops ih =>
    obtain ⟨simulated, saved⟩ := ih (s.perform op)
    rw [flat_perform] at simulated
    constructor
    · simp only [FlatRegisters.run, run, simulated, answer_flat]
    · exact saved.trans (s.saved_perform op)

end BankedRegisters

end ArmConsole
