import ArmConsole.Expansion.Scripted
import ArmConsole.Proofs.Machine.Step

/-!
What a step asks of the bus. An instruction and the registers that it finds say which addresses it
reads and writes, in which order and with which values, before any of that is done. Main statement:
`space_step`, by which the address space behind a step is the one before it after these accesses;
only a math call reaches memory without the bus.
-/

namespace ArmConsole

/-- An access of the processor to the bus. -/
inductive BusAccess where
  | readWord (address : Word)
  | readByte (address : Word)
  | writeWord (address value : Word)
  | writeByte (address : Word) (value : Byte)
  deriving DecidableEq

namespace BusAccess

def read (width : Width) (address : Word) : BusAccess :=
  match width with
  | .byte => readByte address
  | .word => readWord (Machine.wordAddress address)

def write (width : Width) (address value : Word) : BusAccess :=
  match width with
  | .byte => writeByte address value.toUInt8
  | .word => writeWord (Machine.wordAddress address) value

def isWrite : BusAccess → Bool
  | readWord _ | readByte _ => false
  | writeWord _ _ | writeByte _ _ => true

/-- What a write reaches outside of RAM, and the word that is driven there. -/
def window? : BusAccess → Option (Window × Word)
  | readWord _ | readByte _ => none
  | writeWord address value =>
    match Location.ofAddress address with
    | .ram _ => none
    | .window w => some (w, value)
  | writeByte address value =>
    match Location.ofAddress address with
    | .ram _ => none
    | .window w => some (w, value.toUInt32 * 0x01010101)

end BusAccess

/-! ### Accesses of an instruction -/

open Processor (lookAhead)

def SingleTransfer.address (i : SingleTransfer) (p : Processor) : Word :=
  let base := p.operand i.base lookAhead
  if i.indexing = .pre then i.direction.move base (p.transferOffset i.offset) else base

/-- The words of a block, from `address` up. -/
def BlockTransfer.addresses (address : Word) : Nat → List Word
  | 0 => []
  | count + 1 => Machine.wordAddress address :: addresses (address + 4) count

/-- What an instruction asks of the bus. A swap reads before it writes, and a block goes upwards. -/
def Processor.accesses (p : Processor) : Instruction → List BusAccess
  | .swap i =>
    let address := p.operand i.base lookAhead
    [.read i.width address, .write i.width address (p.operand i.source lookAhead)]
  | .singleTransfer i =>
    if i.load then [.read i.width (i.address p)]
    else [.write i.width (i.address p) (p.stored i.usesUserBank i.rd)]
  | .blockTransfer i =>
    let lowest := i.lowest (p.operand i.base lookAhead)
    let addresses := BlockTransfer.addresses lowest i.registers.length
    if i.load then addresses.map .readWord
    else addresses.zipWith .writeWord (i.registers.map (p.stored i.usesUserBank))
  | .dataProcessing _ | .readStatus _ _ | .writeStatus _ | .multiply _ | .branch _ _
  | .softwareInterrupt _ | .coprocessor | .undefined => []

variable {δ : Type} [ExpansionDevice δ]

namespace AddressSpace

def perform (s : AddressSpace δ) : BusAccess → AddressSpace δ
  | .readWord address => (s.readWord address).2
  | .readByte address => (s.readByte address).2
  | .writeWord address value => (s.writeWord address value).2
  | .writeByte address value => (s.writeByte address value).2

def performAll (s : AddressSpace δ) (accesses : List BusAccess) : AddressSpace δ :=
  accesses.foldl perform s

/-- What an access comes to: a read of memory, a read outside of it, a store to RAM, or a write
outside of it. -/
inductive Performed (s : AddressSpace δ) : BusAccess → AddressSpace δ → Prop
  | read {access : BusAccess} : access.isWrite = false → Performed s access s
  | readWindow {access : BusAccess} (w : Window) :
      access.isWrite = false → Performed s access (s.readWindow w).2
  | storeWord {address : Word} {a : RamAddress} (value : Word) :
      Location.ofAddress address = .ram a →
      Performed s (.writeWord address value) { s with memory := s.memory.writeWord a value }
  | storeByte {address : Word} {a : RamAddress} (value : Byte) :
      Location.ofAddress address = .ram a →
      Performed s (.writeByte address value) { s with memory := s.memory.writeByte a value }
  | writeWindow {access : BusAccess} {w : Window} {value : Word} :
      access.window? = some (w, value) → Performed s access (s.writeWindow w value).2

theorem performed (s : AddressSpace δ) (access : BusAccess) :
    s.Performed access (s.perform access) := by
  cases access with
  | readWord address =>
    change s.Performed _ (s.readWord address).2
    unfold readWord
    split
    · exact .read rfl
    · exact .readWindow _ rfl
  | readByte address =>
    change s.Performed _ (s.readByte address).2
    unfold readByte
    split
    · exact .read rfl
    · exact .read rfl
    · exact .readWindow _ rfl
  | writeWord address value =>
    change s.Performed _ (s.writeWord address value).2
    unfold writeWord
    split
    next a ram => exact .storeWord value ram
    next w window => exact .writeWindow (by rw [BusAccess.window?, window])
  | writeByte address value =>
    change s.Performed _ (s.writeByte address value).2
    unfold writeByte
    split
    next a ram => exact .storeByte value ram
    next w window => exact .writeWindow (by rw [BusAccess.window?, window])

end AddressSpace

namespace Machine

theorem space_readData (m : Machine δ) (width : Width) (address : Word) :
    (m.readData width address).2.space = m.space.perform (.read width address) := by
  cases width <;> rfl

theorem space_writeData (m : Machine δ) (width : Width) (address value : Word) :
    (m.writeData width address value).space = m.space.perform (.write width address value) := by
  cases width <;> rfl

theorem space_swap (m : Machine δ) (i : Swap) :
    (m.swap i).space = m.space.performAll (m.processor.accesses (.swap i)) := by
  unfold swap
  dsimp only [mapProcessor]
  rw [space_writeData, space_readData]
  rfl

theorem space_singleTransfer (m : Machine δ) (i : SingleTransfer) :
    (m.singleTransfer i).space =
      m.space.performAll (m.processor.accesses (.singleTransfer i)) := by
  unfold singleTransfer
  simp only [Processor.accesses, mapProcessor]
  split
  · rw [space_readData]
    rfl
  · rw [space_writeData]
    rfl

/-- What has been loaded moves no address that is still to be read. -/
theorem space_loadRegisters (m : Machine δ) (user : Bool) (address : Word)
    (registers : List RegisterNumber) :
    (m.loadRegisters user address registers).space =
      m.space.performAll ((BlockTransfer.addresses address registers.length).map .readWord) := by
  induction registers generalizing m address with
  | nil => rfl
  | cons r rs ih => exact ih _ (address + 4)

theorem space_storeValues (m : Machine δ) (address : Word) (values : List Word) :
    (m.storeValues address values).space = m.space.performAll
      ((BlockTransfer.addresses address values.length).zipWith .writeWord values) := by
  induction values generalizing m address with
  | nil => rfl
  | cons v vs ih => exact ih _ (address + 4)

theorem space_blockTransfer (m : Machine δ) (i : BlockTransfer) :
    (m.blockTransfer i).space =
      m.space.performAll (m.processor.accesses (.blockTransfer i)) := by
  unfold blockTransfer
  simp only [Processor.accesses]
  split
  · exact space_loadRegisters _ _ _ _
  · have stored := m.space_storeValues (i.lowest (m.processor.operand i.base lookAhead))
      (i.registers.map (m.processor.stored i.usesUserBank))
    rwa [List.length_map] at stored

/-- The math call that answers an instruction. -/
def answer? (m : Machine δ) : Instruction → Option MathCall
  | .softwareInterrupt comment => m.calls.bind fun calls => calls.lookup? comment
  | _ => none

theorem space_execute_of_answer? {m : Machine δ} {i : Instruction} {call : MathCall}
    (answered : m.answer? i = some call) :
    (m.execute i).space =
      { m.space with memory := (call.run m.space.memory m.processor.arguments).2 } := by
  cases i with
  | softwareInterrupt comment =>
    change (m.calls.bind fun calls => calls.lookup? comment) = some call at answered
    rw [execute, softwareInterrupt, answered]
    rfl
  | _ => contradiction

theorem space_execute {m : Machine δ} {i : Instruction} (unanswered : m.answer? i = none) :
    (m.execute i).space = m.space.performAll (m.processor.accesses i) := by
  cases i with
  | swap i => exact m.space_swap i
  | singleTransfer i => exact m.space_singleTransfer i
  | blockTransfer i => exact m.space_blockTransfer i
  | softwareInterrupt comment =>
    change (m.calls.bind fun calls => calls.lookup? comment) = none at unanswered
    rw [execute, softwareInterrupt, unanswered]
    rfl
  | _ => rfl

/-- No math call reaches a peripheral. -/
theorem io_execute (m : Machine δ) (i : Instruction) :
    (m.execute i).space.io = (m.space.performAll (m.processor.accesses i)).io := by
  cases answered : m.answer? i with
  | none => rw [space_execute answered]
  | some call =>
    rw [space_execute_of_answer? answered]
    cases i with
    | softwareInterrupt comment => rfl
    | _ => contradiction

/-! ### Accesses of a step -/

/-- Where the next instruction is fetched, when a redirect has had its say. -/
def fetchAddress (m : Machine δ) : Word := wordAddress m.redirect.processor.pc

theorem space_ready (m : Machine δ) :
    m.ready.2.space = (m.space.readWord m.fetchAddress).2 := by
  obtain ⟨p, space, calls, redirects⟩ := m
  cases redirects <;> rfl

/-- The instruction that a step executes, if its condition holds. -/
def executed? (m : Machine δ) : Option Instruction :=
  if (Condition.ofField (m.ready.1 >>> 28)).passes m.ready.2.processor.status.flags then
    some (.decode m.ready.1)
  else none

/-- The math call that a step makes. -/
def answered? (m : Machine δ) : Option MathCall := m.executed?.bind m.ready.2.answer?

/-- What a step asks of the bus: the fetch, then what its instruction asks for. -/
def accesses (m : Machine δ) : List BusAccess :=
  .readWord m.fetchAddress :: m.executed?.elim [] m.ready.2.processor.accesses

/-- The machine when the instruction of a step is done. -/
def finished (m : Machine δ) : Machine δ := m.ready.2.executeWord m.ready.1

theorem step_eq (m : Machine δ) : m.step = m.finished.skipIfStalled.sampleFiq := rfl

theorem finished_eq (m : Machine δ) :
    m.finished = m.executed?.elim m.ready.2 m.ready.2.execute := by
  unfold finished executeWord executed?
  split <;> rfl

theorem space_step {m : Machine δ} (unanswered : m.answered? = none) :
    m.step.space = m.space.performAll m.accesses := by
  change m.finished.space = (m.space.readWord m.fetchAddress).2.performAll _
  rw [finished_eq, ← space_ready]
  cases executed : m.executed? with
  | none => rfl
  | some i =>
    rw [answered?, executed] at unanswered
    exact space_execute unanswered

theorem io_step (m : Machine δ) : m.step.space.io = (m.space.performAll m.accesses).io := by
  change m.finished.space.io = ((m.space.readWord m.fetchAddress).2.performAll _).io
  rw [finished_eq, ← space_ready]
  cases m.executed? with
  | none => rfl
  | some i => exact m.ready.2.io_execute i

/-- A machine that is fed its instructions by the diagnostic channel. -/
def fed (p : Processor) (instructions : List Word) : Machine ScriptedDevice where
  processor := p.withPc 0x03180000
  space :=
    { memory := .empty
      io := { Peripherals.initial with diagnostic := ⟨instructions, #[]⟩ } }
  calls := none
  redirects := none

end Machine

end ArmConsole
