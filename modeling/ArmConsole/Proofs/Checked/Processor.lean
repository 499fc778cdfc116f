import ArmConsole.Processor.Execute
import ArmConsole.Proofs.Checked.Registers
import ArmConsole.Proofs.Word

/-!
The checked processor. A register that an instruction names is in range by its type, since its
number was tested when the instruction was decoded. Tested here are the bits of the status words,
the link register, and everything that goes through the register banks.
-/

namespace ArmConsole

/-! ### Status words -/

namespace StatusWord

def flag? (s : StatusWord) (i : Word) : Checked Bool := s.word.bit? i

def withFlag? (s : StatusWord) (i : Word) (b : Bool) : Checked StatusWord := do
  return ⟨← s.word.withBit? i b⟩

@[simp] theorem flag?_eq (s : StatusWord) {i : Word} (h : i < 32) :
    s.flag? i = some (s.word.bit i) := s.word.bit?_eq h

@[simp] theorem withFlag?_eq (s : StatusWord) {i : Word} (b : Bool) (h : i < 32) :
    s.withFlag? i b = some ⟨s.word.withBit i b⟩ := by
  rw [withFlag?, Word.withBit?_eq _ _ h]
  rfl

def withLogicalFlags? (s : StatusWord) (r : AluResult) : Checked StatusWord := do
  let s ← s.withFlag? 31 r.negative
  let s ← s.withFlag? 30 r.zero
  s.withFlag? 29 r.carry

@[simp] theorem withLogicalFlags?_eq (s : StatusWord) (r : AluResult) :
    s.withLogicalFlags? r = some (s.withLogicalFlags r) := by
  simp [withLogicalFlags?, withLogicalFlags, withNegative, withZero, withCarry]

def withFlags? (s : StatusWord) (r : AluResult) : Checked StatusWord := do
  let s ← s.withLogicalFlags? r
  s.withFlag? 28 r.overflow

@[simp] theorem withFlags?_eq (s : StatusWord) (r : AluResult) :
    s.withFlags? r = some (s.withFlags r) := by
  simp [withFlags?, withFlags, withLogicalFlags, withOverflow]

end StatusWord

namespace Processor

/-! ### Modes and exceptions -/

def switchMode? (p : Processor) (mode : Mode) : Checked Processor := do
  let (live, bank) ← p.bank.switch? p.live p.mode mode
  return { p with live, bank, mode, status := p.status.withMode mode }

@[simp] theorem switchMode?_eq (p : Processor) (mode : Mode) :
    p.switchMode? mode = some (p.switchMode mode) := by
  rw [switchMode?, RegisterBank.switch?_eq]
  rfl

def setStatus? (p : Processor) (value : Word) : Checked Processor :=
  match Mode.ofBits? value with
  | some mode => do
    let p ← p.switchMode? mode
    return { p with status := ⟨value⟩ }
  | none => some { p with status := (StatusWord.mk value).withMode p.mode }

@[simp] theorem setStatus?_eq (p : Processor) (value : Word) :
    p.setStatus? value = some (p.setStatus value) := by
  unfold setStatus? setStatus
  cases Mode.ofBits? value with
  | none => rfl
  | some mode =>
    simp only [switchMode?_eq]
    rfl

def restoreStatus? (p : Processor) : Checked Processor := do
  match ← p.bank.readSaved? p.mode with
  | some saved => p.setStatus? saved.word
  | none => return p

@[simp] theorem restoreStatus?_eq (p : Processor) : p.restoreStatus? = some p.restoreStatus := by
  unfold restoreStatus? restoreStatus saved?
  rw [RegisterBank.readSaved?_eq]
  cases p.bank.saved? p.mode with
  | none => rfl
  | some saved => exact p.setStatus?_eq saved.word

def enter? (p : Processor) (e : Exception) (returnAddress : Word) : Checked Processor := do
  let old := p.status
  let p ← p.switchMode? e.mode
  let bank ← p.bank.writeSaved? e.mode old
  let status ← p.status.withFlag? 7 true
  let status ← if e = .fiq then status.withFlag? 6 true else some status
  let live ← replace? p.live 14 returnAddress
  return ({ p with bank, status, live } : Processor).withPc e.vector

@[simp] theorem enter?_eq (p : Processor) (e : Exception) (returnAddress : Word) :
    p.enter? e returnAddress = some (p.enter e returnAddress) := by
  simp only [enter?, switchMode?_eq, RegisterBank.writeSaved?_eq, Option.bind_eq_bind,
    Option.bind_some, StatusWord.withFlag?_eq _ _ (by decide : (7 : Word) < 32),
    StatusWord.withFlag?_eq _ _ (by decide : (6 : Word) < 32), Option.pure_def, ite_some,
    replace?_eq _ _ (by decide : 14 < 16)]
  cases e <;> rfl

def sampleFiq? (p : Processor) (needed : Bool) : Checked Processor := do
  if ← p.status.flag? 6 then return p
  else if p.fiqLine || needed then ({ p with fiqLine := false } : Processor).enter? .fiq (p.pc + 4)
  else return p

@[simp] theorem sampleFiq?_eq (p : Processor) (needed : Bool) :
    p.sampleFiq? needed = some (p.sampleFiq needed) := by
  simp only [sampleFiq?, StatusWord.flag?_eq _ (by decide : (6 : Word) < 32), enter?_eq,
    Option.bind_eq_bind, Option.bind_some, Option.pure_def, ite_some]
  rfl

def trapUndefined? (p : Processor) : Checked Processor := do
  let p ← p.enter? .undefined p.pc
  return p.spend (sequential + nonSequential + internal)

@[simp] theorem trapUndefined?_eq (p : Processor) : p.trapUndefined? = some p.trapUndefined := by
  rw [trapUndefined?, enter?_eq]
  rfl

def trapSoftwareInterrupt? (p : Processor) : Checked Processor := do
  let p ← p.enter? .softwareInterrupt p.pc
  return p.spend (sequential + nonSequential)

@[simp] theorem trapSoftwareInterrupt?_eq (p : Processor) :
    p.trapSoftwareInterrupt? = some p.trapSoftwareInterrupt := by
  rw [trapSoftwareInterrupt?, enter?_eq]
  rfl

/-! ### Data processing -/

def secondOperand? (p : Processor) (o : SecondOperand) : Checked Shifted := do
  let carry ← p.status.flag? 29
  match o with
  | .immediate base rotation =>
    let value := base.rotateRight rotation
    if rotation == 0 then return ⟨value, carry⟩ else return ⟨value, ← value.bit? 31⟩
  | .register rm kind (.field amount) =>
    return kind.applyField amount (p.operand rm lookAhead) carry
  | .register rm kind (.register rs) =>
    return kind.apply (p.operand rs lookFurtherAhead &&& 0xFF) (p.operand rm lookFurtherAhead) carry

@[simp] theorem secondOperand?_eq (p : Processor) (o : SecondOperand) :
    p.secondOperand? o = some (p.secondOperand o) := by
  rw [secondOperand?, StatusWord.flag?_eq _ (by decide)]
  cases o with
  | immediate base rotation =>
    simp only [Option.bind_eq_bind, Option.bind_some, Word.bit?_eq _ (by decide : (31 : Word) < 32),
      Option.pure_def, secondOperand]
    split <;> rfl
  | register rm kind amount => cases amount <;> rfl

def updateStatus? (p : Processor) (i : DataProcessing) (r : AluResult) : Checked Processor :=
  if i.rd = .pc then p.restoreStatus?
  else if i.operation.isLogical then do
    let status ← p.status.withLogicalFlags? r
    return { p with status }
  else do
    let status ← p.status.withFlags? r
    return { p with status }

@[simp] theorem updateStatus?_eq (p : Processor) (i : DataProcessing) (r : AluResult) :
    p.updateStatus? i r = some (p.updateStatus i r) := by
  simp [updateStatus?, updateStatus]

def dataProcessing? (p : Processor) (i : DataProcessing) : Checked Processor := do
  let carry ← p.status.flag? 29
  let second ← p.secondOperand? i.operand
  let first := p.operand i.rn (lookAheadWith i.operand)
  let result := i.operation.compute first second carry
  let p := p.spend (secondOperandCost i.operand)
  let p := if i.operation.writesResult then p.setRegister i.rd result.value else p
  if i.setFlags then p.updateStatus? i result else return p

@[simp] theorem dataProcessing?_eq (p : Processor) (i : DataProcessing) :
    p.dataProcessing? i = some (p.dataProcessing i) := by
  simp only [dataProcessing?, StatusWord.flag?_eq _ (by decide : (29 : Word) < 32),
    secondOperand?_eq, updateStatus?_eq, Option.bind_eq_bind, Option.bind_some, Option.pure_def,
    ite_some]
  rfl

/-! ### Status transfers -/

def readStatus? (p : Processor) (source : StatusRegister) (rd : RegisterNumber) :
    Checked Processor :=
  match source with
  | .current => some (p.setRegister rd p.status.word)
  | .saved => do
    let saved ← p.bank.readSaved? p.mode
    return p.setRegister rd (saved.getD p.status).word

@[simp] theorem readStatus?_eq (p : Processor) (source : StatusRegister) (rd : RegisterNumber) :
    p.readStatus? source rd = some (p.readStatus source rd) := by
  cases source with
  | current => rfl
  | saved =>
    rw [readStatus?, RegisterBank.readSaved?_eq]
    rfl

def writeStatus? (p : Processor) (i : StatusWrite) : Checked Processor :=
  let value := p.statusSource i.source
  match i.target with
  | .current =>
    if i.allFields && p.mode.isPrivileged then p.setStatus? value
    else some { p with status := p.status.withFlagBits value }
  | .saved => do
    match ← p.bank.readSaved? p.mode with
    | none => return p
    | some saved =>
      let saved := if i.allFields then ⟨value⟩ else saved.withFlagBits value
      let bank ← p.bank.writeSaved? p.mode saved
      return { p with bank }

@[simp] theorem writeStatus?_eq (p : Processor) (i : StatusWrite) :
    p.writeStatus? i = some (p.writeStatus i) := by
  unfold writeStatus? writeStatus saved?
  cases i.target with
  | current =>
    simp only [setStatus?_eq, ite_some]
  | saved =>
    simp only [RegisterBank.readSaved?_eq, Option.bind_eq_bind, Option.bind_some]
    cases p.bank.saved? p.mode with
    | none => rfl
    | some saved =>
      simp only [RegisterBank.writeSaved?_eq]
      rfl

/-! ### Multiplication, branches and transfers -/

def multiply? (p : Processor) (i : Multiply) : Checked Processor := do
  let result := p.product i
  let cost := multiplyCost (p.operand i.rs lookAhead)
  let p := (p.setRegister i.rd result).spend cost
  if i.setFlags then
    let status ← p.status.withFlag? 31 (← result.bit? 31)
    let status ← status.withFlag? 30 (result == 0)
    return { p with status }
  else return p

@[simp] theorem multiply?_eq (p : Processor) (i : Multiply) :
    p.multiply? i = some (p.multiply i) := by
  simp only [multiply?, Word.bit?_eq _ (by decide : (31 : Word) < 32), Word.bit_last,
    StatusWord.withFlag?_eq _ _ (by decide : (31 : Word) < 32),
    StatusWord.withFlag?_eq _ _ (by decide : (30 : Word) < 32), Option.bind_eq_bind,
    Option.bind_some, Option.pure_def, ite_some]
  rfl

def branch? (p : Processor) (link : Bool) (offset : Word) : Checked Processor := do
  let pc := p.pc
  let live ← if link then replace? p.live 14 pc else some p.live
  return (({ p with live } : Processor).withPc (pc + lookAhead + offset)).spend
    (sequential + nonSequential)

@[simp] theorem branch?_eq (p : Processor) (link : Bool) (offset : Word) :
    p.branch? link offset = some (p.branch link offset) := by
  simp only [branch?, replace?_eq _ _ (by decide : 14 < 16), Option.pure_def, ite_some,
    Option.bind_eq_bind, Option.bind_some]
  cases link <;> rfl

def transferOffset? (p : Processor) : TransferOffset → Checked Word
  | .immediate offset => some offset
  | .register rm kind amount => do
    let carry ← p.status.flag? 29
    return (kind.applyField amount (p.operand rm lookAhead) carry).value

@[simp] theorem transferOffset?_eq (p : Processor) (o : TransferOffset) :
    p.transferOffset? o = some (p.transferOffset o) := by
  cases o with
  | immediate offset => rfl
  | register rm kind amount =>
    rw [transferOffset?, StatusWord.flag?_eq _ (by decide)]
    rfl

def load? (p : Processor) (user : Bool) (r : RegisterNumber) (v : Word) : Checked Processor := do
  if user then
    let (live, bank) ← p.bank.writeUser? p.live p.mode r v
    return { p with live, bank }
  else return p.setRegister r v

@[simp] theorem load?_eq (p : Processor) (user : Bool) (r : RegisterNumber) (v : Word) :
    p.load? user r v = some (p.load user r v) := by
  unfold load? load
  split
  · rw [RegisterBank.writeUser?_eq]
    rfl
  · rfl

def stored? (p : Processor) (user : Bool) (r : RegisterNumber) : Checked Word :=
  if r = .pc then some (p.operand r lookFurtherAhead)
  else if user then p.bank.readUser? p.live p.mode r
  else some (p.live.get r)

@[simp] theorem stored?_eq (p : Processor) (user : Bool) (r : RegisterNumber) :
    p.stored? user r = some (p.stored user r) := by
  unfold stored? stored
  split
  next h =>
    subst h
    rfl
  next => rw [RegisterBank.readUser?_eq, ite_some]

end Processor

end ArmConsole
