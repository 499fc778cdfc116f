import ArmConsole.Console
import ArmConsole.Proofs.Checked.AddressSpace
import ArmConsole.Proofs.Checked.Decode
import ArmConsole.Proofs.Checked.MathCall
import ArmConsole.Proofs.Checked.Processor

/-!
The checked machine. Every access of a step goes through the checked address space, processor,
decoder and math calls. Main statement: `Console.step?_eq_step` says that whatever the state of a
console, its checked step has a result, which is the step. No program, no contents of memory and
no value of a register makes the machine index an array out of range, break an assertion or run
on without an end. Arithmetic wraps here; where it is checked too, a math call may stop the step.
-/

namespace ArmConsole

namespace Machine

variable {δ : Type} [ExpansionDevice δ]

open Processor (lookAhead sequential nonSequential internal)

/-! ### Access to the address space -/

omit [ExpansionDevice δ] in
def mapProcessor? (m : Machine δ) (f : Processor → Checked Processor) : Checked (Machine δ) := do
  let processor ← f m.processor
  return { m with processor }

def readWord? (m : Machine δ) (address : Word) : Checked (Word × Machine δ) := do
  let (w, space) ← m.space.readWord? address
  return (w, { m with space })

def readByte? (m : Machine δ) (address : Word) : Checked (Byte × Machine δ) := do
  let (b, space) ← m.space.readByte? address
  return (b, { m with space })

def writeWord? (m : Machine δ) (address value : Word) : Checked (Machine δ) := do
  let (stalled, space) ← m.space.writeWord? address value
  let processor := { m.processor with stalled := m.processor.stalled || stalled }
  return { m with processor, space }

def writeByte? (m : Machine δ) (address : Word) (value : Byte) : Checked (Machine δ) := do
  let (stalled, space) ← m.space.writeByte? address value
  let processor := { m.processor with stalled := m.processor.stalled || stalled }
  return { m with processor, space }

def readData? (m : Machine δ) (width : Width) (address : Word) : Checked (Word × Machine δ) :=
  match width with
  | .byte => do
    let (b, m) ← m.readByte? address
    return (b.toUInt32, m)
  | .word => do
    let (w, m) ← m.readWord? (wordAddress address)
    return (rotateToByte w address, m)

def writeData? (m : Machine δ) (width : Width) (address value : Word) : Checked (Machine δ) :=
  match width with
  | .byte => m.writeByte? address value.toUInt8
  | .word => m.writeWord? (wordAddress address) value

omit [ExpansionDevice δ] in
theorem mapProcessor?_eq (m : Machine δ) {f : Processor → Checked Processor}
    {g : Processor → Processor} (same : ∀ p, f p = some (g p)) :
    m.mapProcessor? f = some (m.mapProcessor g) := by
  rw [mapProcessor?, same]
  rfl

@[simp] theorem readWord?_eq (m : Machine δ) (address : Word) :
    m.readWord? address = some (m.readWord address) := by
  rw [readWord?, AddressSpace.readWord?_eq]
  rfl

@[simp] theorem readByte?_eq (m : Machine δ) (address : Word) :
    m.readByte? address = some (m.readByte address) := by
  rw [readByte?, AddressSpace.readByte?_eq]
  rfl

@[simp] theorem writeWord?_eq (m : Machine δ) (address value : Word) :
    m.writeWord? address value = some (m.writeWord address value) := by
  rw [writeWord?, AddressSpace.writeWord?_eq]
  rfl

@[simp] theorem writeByte?_eq (m : Machine δ) (address : Word) (value : Byte) :
    m.writeByte? address value = some (m.writeByte address value) := by
  rw [writeByte?, AddressSpace.writeByte?_eq]
  rfl

@[simp] theorem readData?_eq (m : Machine δ) (width : Width) (address : Word) :
    m.readData? width address = some (m.readData width address) := by
  cases width with
  | byte =>
    rw [readData?, readByte?_eq]
    rfl
  | word =>
    rw [readData?, readWord?_eq]
    rfl

@[simp] theorem writeData?_eq (m : Machine δ) (width : Width) (address value : Word) :
    m.writeData? width address value = some (m.writeData width address value) := by
  cases width with
  | byte => exact m.writeByte?_eq address value.toUInt8
  | word => exact m.writeWord?_eq (wordAddress address) value

/-! ### Single transfers -/

def swap? (m : Machine δ) (i : Swap) : Checked (Machine δ) := do
  let address := m.processor.operand i.base lookAhead
  let value := m.processor.operand i.source lookAhead
  let (old, m) ← m.readData? i.width address
  let m ← m.writeData? i.width address value
  return m.mapProcessor fun p => (p.setRegister i.rd old).spend (2 * nonSequential + internal)

@[simp] theorem swap?_eq (m : Machine δ) (i : Swap) : m.swap? i = some (m.swap i) := by
  simp only [swap?, readData?_eq, writeData?_eq, Option.bind_eq_bind, Option.bind_some]
  rfl

def singleTransfer? (m : Machine δ) (i : SingleTransfer) : Checked (Machine δ) := do
  let base := m.processor.operand i.base lookAhead
  let moved := i.direction.move base (← m.processor.transferOffset? i.offset)
  let address := if i.indexing = .pre then moved else base
  let writeBack (p : Processor) : Processor :=
    if i.writesBack then p.setRegister i.base moved else p
  if i.load then
    let (value, m) ← m.readData? i.width address
    m.mapProcessor? fun p => do
      let p ← (writeBack p).load? i.usesUserBank i.rd value
      return p.spend (nonSequential + internal)
  else
    let value ← m.processor.stored? i.usesUserBank i.rd
    let m ← m.writeData? i.width address value
    return m.mapProcessor fun p => (writeBack p).spend nonSequential

@[simp] theorem singleTransfer?_eq (m : Machine δ) (i : SingleTransfer) :
    m.singleTransfer? i = some (m.singleTransfer i) := by
  simp only [singleTransfer?, Processor.transferOffset?_eq, readData?_eq, writeData?_eq,
    Processor.load?_eq, Processor.stored?_eq, mapProcessor?, Option.bind_eq_bind,
    Option.bind_some, Option.pure_def, ite_some]
  rfl

/-! ### Block transfers -/

/-- The numbers of the listed registers. -/
def listed (list : HalfWord) : List Nat := (List.range 16).filter fun r => list.bit (.ofNat r)

theorem listed_eq (i : BlockTransfer) : listed i.list = i.registers.map Fin.val := by
  have numbers : List.range 16 = (List.finRange 16).map Fin.val := rfl
  rw [listed, numbers, List.filter_map]
  rfl

def loadRegisters? (m : Machine δ) (user : Bool) (address : Word) :
    List Nat → Checked (Machine δ)
  | [] => some m
  | r :: rs => do
    let (value, m) ← m.readWord? (wordAddress address)
    let r ← RegisterNumber.ofNat? r
    let m ← m.mapProcessor? fun p => p.load? user r value
    m.loadRegisters? user (address + 4) rs

theorem loadRegisters?_eq (m : Machine δ) (user : Bool) (address : Word)
    (rs : List RegisterNumber) :
    m.loadRegisters? user address (rs.map Fin.val) = some (m.loadRegisters user address rs) := by
  induction rs generalizing m address with
  | nil => rfl
  | cons r rs ih =>
    simp only [List.map_cons, loadRegisters?, readWord?_eq, RegisterNumber.ofNat?_val,
      Option.bind_eq_bind, Option.bind_some]
    rw [mapProcessor?_eq _ fun p => p.load?_eq user r _]
    exact ih _ _

omit [ExpansionDevice δ] in
/-- Notes what a store puts out for each listed register, at the register's number. -/
def takeValues? (p : Processor) (user : Bool) (values : Vector Word 16) :
    List Nat → Checked (Vector Word 16)
  | [] => some values
  | r :: rs => do
    let value ← p.stored? user (← RegisterNumber.ofNat? r)
    takeValues? p user (← replace? values r value) rs

theorem takeValues?_eq (p : Processor) (user : Bool) (values : Vector Word 16)
    (rs : List RegisterNumber) :
    ∃ taken, takeValues? p user values (rs.map Fin.val) = some taken ∧
      ∀ r : RegisterNumber, (r ∈ rs → taken.get r = p.stored user r) ∧
        (r ∉ rs → taken.get r = values.get r) := by
  induction rs generalizing values with
  | nil => exact ⟨values, rfl, fun r => ⟨nofun, fun _ => rfl⟩⟩
  | cons r rs ih =>
    obtain ⟨taken, result, noted⟩ := ih (values.set r.val (p.stored user r) r.isLt)
    refine ⟨taken, ?_, fun q => ?_⟩
    · simp only [List.map_cons, takeValues?, RegisterNumber.ofNat?_val, Option.bind_eq_bind,
        Option.bind_some, Processor.stored?_eq, replace?_fin]
      exact result
    · obtain ⟨later, never⟩ := noted q
      constructor
      · intro member
        by_cases again : q ∈ rs
        · exact later again
        · obtain rfl := (List.mem_cons.1 member).resolve_right again
          exact (never again).trans (Vector.getElem_set_self _)
      · intro other
        have before := never fun member => other (List.mem_cons_of_mem r member)
        refine before.trans (Vector.getElem_set_ne _ _ fun same => other ?_)
        exact List.mem_cons.2 (.inl (Fin.ext same.symm))

/-- Stores the values that were noted to consecutive words. -/
def storeValues? (m : Machine δ) (values : Vector Word 16) (address : Word) :
    List Nat → Checked (Machine δ)
  | [] => some m
  | r :: rs => do
    let v ← values[r]?
    let m ← m.writeWord? (wordAddress address) v
    m.storeValues? values (address + 4) rs

theorem storeValues?_eq (m : Machine δ) (values : Vector Word 16) (address : Word)
    (rs : List RegisterNumber) :
    m.storeValues? values address (rs.map Fin.val) =
      some (m.storeValues address (rs.map values.get)) := by
  induction rs generalizing m address with
  | nil => rfl
  | cons r rs ih =>
    have value : values[r.val]? = some (values.get r) := getElem?_of_val values rfl
    simp only [List.map_cons, storeValues?, value, Option.bind_eq_bind, Option.bind_some,
      writeWord?_eq]
    exact ih _ _

def blockTransfer? (m : Machine δ) (i : BlockTransfer) : Checked (Machine δ) := do
  let base := m.processor.operand i.base lookAhead
  let count := i.registers.length
  let listsPc ← i.list.bit? 15
  let user := i.status && !listsPc
  let writeBack (p : Processor) : Processor :=
    if i.writeBack then p.setRegister i.base (i.finalBase base) else p
  if i.load then
    let m ← (m.mapProcessor writeBack).loadRegisters? user (i.lowest base) (listed i.list)
    m.mapProcessor? fun p => do
      let p ← if i.status && listsPc then p.restoreStatus? else some p
      return p.spend (.ofNat count * sequential + nonSequential + internal)
  else
    let values ← takeValues? m.processor user (.replicate 16 0) (listed i.list)
    let m ← m.storeValues? values (i.lowest base) (listed i.list)
    return m.mapProcessor fun p =>
      (writeBack p).spend (.ofNat (count - 1) * sequential + 2 * nonSequential)

@[simp] theorem blockTransfer?_eq (m : Machine δ) (i : BlockTransfer) :
    m.blockTransfer? i = some (m.blockTransfer i) := by
  obtain ⟨taken, result, noted⟩ :=
    takeValues?_eq m.processor i.usesUserBank (.replicate 16 0) i.registers
  have values : i.registers.map taken.get = i.registers.map (m.processor.stored i.usesUserBank) :=
    List.map_congr_left fun r member => (noted r).1 member
  have last : i.list.bit? 15 = some i.listsPc := i.list.bit?_eq (by decide)
  have user : (i.status && !i.listsPc) = i.usesUserBank := rfl
  have restores : (i.status && i.listsPc) = i.restoresStatus := rfl
  simp only [blockTransfer?, last, user, restores, listed_eq, loadRegisters?_eq, result,
    storeValues?_eq, values, Processor.restoreStatus?_eq, Option.bind_eq_bind, Option.bind_some]
  unfold blockTransfer
  split
  · refine mapProcessor?_eq _ fun p => ?_
    cases i.restoresStatus <;> rfl
  · rfl

/-! ### Software interrupts -/

omit [ExpansionDevice δ] in
def callNatively? (m : Machine δ) (call : MathCall) : Checked (Machine δ) := do
  let live := m.processor.live
  let arguments : MathCall.Arguments := ⟨← live[0]?, ← live[1]?, ← live[2]?, ← live[3]?⟩
  let (result, memory) ← call.run? m.space.memory arguments
  let live ← match result with
    | some value => replace? live 0 value
    | none => some live
  return { m with processor := { m.processor with live }, space := { m.space with memory } }

omit [ExpansionDevice δ] in
@[simp] theorem callNatively?_eq (m : Machine δ) (call : MathCall) :
    m.callNatively? call = some (m.callNatively call) := by
  obtain ⟨processor, ⟨memory, io⟩, calls, redirects⟩ := m
  have argument (r : RegisterNumber) : processor.live[r.val]? = some (processor.live.get r) :=
    getElem?_of_val processor.live rfl
  have r0 : processor.live[0]? = some (processor.live.get RegisterNumber.r0) := argument .r0
  have r1 : processor.live[1]? = some (processor.live.get RegisterNumber.r1) := argument .r1
  have r2 : processor.live[2]? = some (processor.live.get RegisterNumber.r2) := argument .r2
  have r3 : processor.live[3]? = some (processor.live.get RegisterNumber.r3) := argument .r3
  simp only [callNatively?, callNatively, Processor.arguments, r0, r1, r2, r3, MathCall.run?_eq,
    Option.bind_eq_bind, Option.bind_some]
  generalize call.run memory _ = outcome
  obtain ⟨result, memory⟩ := outcome
  cases result with
  | none => rfl
  | some value =>
    simp only [replace?_eq _ _ (by decide : 0 < 16)]
    rfl

omit [ExpansionDevice δ] in
def softwareInterrupt? (m : Machine δ) (comment : Word) : Checked (Machine δ) :=
  match m.calls.bind fun calls => calls.lookup? comment with
  | some call => m.callNatively? call
  | none => m.mapProcessor? Processor.trapSoftwareInterrupt?

omit [ExpansionDevice δ] in
@[simp] theorem softwareInterrupt?_eq (m : Machine δ) (comment : Word) :
    m.softwareInterrupt? comment = some (m.softwareInterrupt comment) := by
  unfold softwareInterrupt? softwareInterrupt
  cases m.calls.bind fun calls => calls.lookup? comment with
  | none => exact m.mapProcessor?_eq Processor.trapSoftwareInterrupt?_eq
  | some call => exact m.callNatively?_eq call

/-! ### Step -/

def execute? (m : Machine δ) : Instruction → Checked (Machine δ)
  | .dataProcessing i => m.mapProcessor? fun p => p.dataProcessing? i
  | .readStatus source rd => m.mapProcessor? fun p => p.readStatus? source rd
  | .writeStatus i => m.mapProcessor? fun p => p.writeStatus? i
  | .multiply i => m.mapProcessor? fun p => p.multiply? i
  | .swap i => m.swap? i
  | .singleTransfer i => m.singleTransfer? i
  | .blockTransfer i => m.blockTransfer? i
  | .branch link offset => m.mapProcessor? fun p => p.branch? link offset
  | .softwareInterrupt comment => m.softwareInterrupt? comment
  | .coprocessor | .undefined => m.mapProcessor? Processor.trapUndefined?

@[simp] theorem execute?_eq (m : Machine δ) (i : Instruction) :
    m.execute? i = some (m.execute i) := by
  cases i with
  | dataProcessing i => exact m.mapProcessor?_eq fun p => p.dataProcessing?_eq i
  | readStatus source rd => exact m.mapProcessor?_eq fun p => p.readStatus?_eq source rd
  | writeStatus i => exact m.mapProcessor?_eq fun p => p.writeStatus?_eq i
  | multiply i => exact m.mapProcessor?_eq fun p => p.multiply?_eq i
  | swap i => exact m.swap?_eq i
  | singleTransfer i => exact m.singleTransfer?_eq i
  | blockTransfer i => exact m.blockTransfer?_eq i
  | branch link offset => exact m.mapProcessor?_eq fun p => p.branch?_eq link offset
  | softwareInterrupt comment => exact m.softwareInterrupt?_eq comment
  | coprocessor => exact m.mapProcessor?_eq Processor.trapUndefined?_eq
  | undefined => exact m.mapProcessor?_eq Processor.trapUndefined?_eq

def fetch? (m : Machine δ) : Checked (Word × Machine δ) := do
  let pc := wordAddress m.processor.pc
  let (w, m) ← m.readWord? pc
  return (w, m.mapProcessor fun p => p.withPc (pc + 4))

@[simp] theorem fetch?_eq (m : Machine δ) : m.fetch? = some m.fetch := by
  rw [fetch?, readWord?_eq]
  rfl

/-- Decodes the instruction in `w` and executes it if its condition holds. -/
def executeWord? (m : Machine δ) (w : Word) : Checked (Machine δ) := do
  let i ← Instruction.decode? w
  let condition := Condition.ofField (← w.bits? 28 31)
  if ← condition.passes? m.processor.status.flags then m.execute? i else return m

@[simp] theorem executeWord?_eq (m : Machine δ) (w : Word) :
    m.executeWord? w = some (m.executeWord w) := by
  have field : Condition.ofField (w.field 28 4) = Condition.ofField (w >>> 28) := by
    have masked : w.field 28 4 &&& (0xF : Word) = w >>> 28 &&& 0xF :=
      Word.and_and_of_covered (by decide)
    rw [Condition.ofField, masked, Condition.ofField]
  have bits : w.bits? 28 31 = some (w.field 28 4) := w.bits?_eq (by decide) (by decide)
  simp only [executeWord?, Instruction.decode?_eq, bits, field, Condition.passes?_eq, execute?_eq,
    Option.bind_eq_bind, Option.bind_some, Option.pure_def, ite_some]
  rfl

omit [ExpansionDevice δ] in
def sampleFiq? (m : Machine δ) : Checked (Machine δ) :=
  m.mapProcessor? fun p => p.sampleFiq? m.space.io.controller.interrupts.fiqNeeded

omit [ExpansionDevice δ] in
@[simp] theorem sampleFiq?_eq (m : Machine δ) : m.sampleFiq? = some m.sampleFiq :=
  m.mapProcessor?_eq fun p => p.sampleFiq?_eq _

def step? (m : Machine δ) : Checked (Machine δ) := do
  let m := m.mapProcessor fun p => { p with cycles := sequential, stalled := false }
  let (w, m) ← m.redirect.fetch?
  let m ← m.executeWord? w
  m.skipIfStalled.sampleFiq?

@[simp] theorem step?_eq (m : Machine δ) : m.step? = some m.step := by
  simp only [step?, fetch?_eq, executeWord?_eq, Option.bind_eq_bind, Option.bind_some,
    sampleFiq?_eq]
  rfl

end Machine

namespace Console

variable {δ : Type} [ExpansionDevice δ]

def step? (c : Console δ) : Checked (Console δ) := do
  let machine ← c.machine.step?
  return { c with machine, cycles := c.cycles + machine.processor.cycles.toUInt64 }

/-- A step never runs into an error. -/
theorem step?_eq_step (c : Console δ) : c.step? = some c.step := by
  rw [step?, Machine.step?_eq]
  rfl

end Console

end ArmConsole
