import ArmConsole.Instruction.Decode
import ArmConsole.Machine.Basic

/-!
Instructions that reach memory, software interrupts, and the step of the machine: fetch, decode,
execute if the condition holds, then look for an FIQ.
-/

namespace ArmConsole

namespace BlockTransfer

def span (i : BlockTransfer) : Word := 4 * .ofNat i.registers.length

/-- The lowest address of a block. Transfers always go upwards from there. -/
def lowest (i : BlockTransfer) (base : Word) : Word :=
  match i.direction, i.indexing with
  | .up, .post => base
  | .up, .pre => base + 4
  | .down, .post => base - i.span + 4
  | .down, .pre => base - i.span

def finalBase (i : BlockTransfer) (base : Word) : Word := i.direction.move base i.span

end BlockTransfer

/-- What the processor hands to a native call. -/
def Processor.arguments (p : Processor) : MathCall.Arguments :=
  let argument (r : RegisterNumber) : Word := p.live.get r
  ⟨argument .r0, argument .r1, argument .r2, argument .r3⟩

namespace Machine

variable {δ : Type} [ExpansionDevice δ]

open Processor (lookAhead sequential nonSequential internal)

def swap (m : Machine δ) (i : Swap) : Machine δ :=
  let address := m.processor.operand i.base lookAhead
  let value := m.processor.operand i.source lookAhead
  let (old, m) := m.readData i.width address
  let m := m.writeData i.width address value
  m.mapProcessor fun p => (p.setRegister i.rd old).spend (2 * nonSequential + internal)

/-- Loads or stores one register. The base is written back before a loaded value is written, so
that a loaded base wins, and after a stored value is read. -/
def singleTransfer (m : Machine δ) (i : SingleTransfer) : Machine δ :=
  let base := m.processor.operand i.base lookAhead
  let moved := i.direction.move base (m.processor.transferOffset i.offset)
  let address := if i.indexing = .pre then moved else base
  let writeBack (p : Processor) : Processor :=
    if i.writesBack then p.setRegister i.base moved else p
  if i.load then
    let (value, m) := m.readData i.width address
    m.mapProcessor fun p =>
      ((writeBack p).load i.usesUserBank i.rd value).spend (nonSequential + internal)
  else
    let value := m.processor.stored i.usesUserBank i.rd
    let m := m.writeData i.width address value
    m.mapProcessor fun p => (writeBack p).spend nonSequential

def loadRegisters (m : Machine δ) (user : Bool) (address : Word) :
    List RegisterNumber → Machine δ
  | [] => m
  | r :: rs =>
    let (value, m) := m.readWord (wordAddress address)
    (m.mapProcessor fun p => p.load user r value).loadRegisters user (address + 4) rs

def storeValues (m : Machine δ) (address : Word) : List Word → Machine δ
  | [] => m
  | v :: vs => (m.writeWord (wordAddress address) v).storeValues (address + 4) vs

/-- Loads or stores a list of registers. A load writes the base back first; a store takes all
values before it writes any. -/
def blockTransfer (m : Machine δ) (i : BlockTransfer) : Machine δ :=
  let base := m.processor.operand i.base lookAhead
  let count := i.registers.length
  let writeBack (p : Processor) : Processor :=
    if i.writeBack then p.setRegister i.base (i.finalBase base) else p
  if i.load then
    let m := (m.mapProcessor writeBack).loadRegisters i.usesUserBank (i.lowest base) i.registers
    m.mapProcessor fun p =>
      let p := if i.restoresStatus then p.restoreStatus else p
      p.spend (.ofNat count * sequential + nonSequential + internal)
  else
    let values := i.registers.map (m.processor.stored i.usesUserBank)
    let m := m.storeValues (i.lowest base) values
    m.mapProcessor fun p =>
      (writeBack p).spend (.ofNat (count - 1) * sequential + 2 * nonSequential)

/-- Carries out a math call; its result goes to R0. -/
def callNatively (m : Machine δ) (call : MathCall) : Machine δ :=
  let ⟨processor, ⟨memory, io⟩, calls, redirects⟩ := m
  let (result, memory) := call.run memory processor.arguments
  let processor :=
    match result with
    | some value => processor.withRegister .r0 value
    | none => processor
  ⟨processor, ⟨memory, io⟩, calls, redirects⟩

/-- Answers a software interrupt natively if its comment names a call, and traps otherwise. -/
def softwareInterrupt (m : Machine δ) (comment : Word) : Machine δ :=
  match m.calls.bind fun calls => calls.lookup? comment with
  | some call => m.callNatively call
  | none => m.mapProcessor Processor.trapSoftwareInterrupt

def execute (m : Machine δ) : Instruction → Machine δ
  | .dataProcessing i => m.mapProcessor fun p => p.dataProcessing i
  | .readStatus source rd => m.mapProcessor fun p => p.readStatus source rd
  | .writeStatus i => m.mapProcessor fun p => p.writeStatus i
  | .multiply i => m.mapProcessor fun p => p.multiply i
  | .swap i => m.swap i
  | .singleTransfer i => m.singleTransfer i
  | .blockTransfer i => m.blockTransfer i
  | .branch link offset => m.mapProcessor fun p => p.branch link offset
  | .softwareInterrupt comment => m.softwareInterrupt comment
  | .coprocessor | .undefined => m.mapProcessor Processor.trapUndefined

def redirect (m : Machine δ) : Machine δ :=
  let ⟨processor, space, calls, redirects⟩ := m
  match redirects with
  | none => ⟨processor, space, calls, none⟩
  | some redirects =>
    let (_, redirects, live) := redirects.apply processor.live
    ⟨{ processor with live := live }, space, calls, some redirects⟩

def fetch (m : Machine δ) : Word × Machine δ :=
  let pc := wordAddress m.processor.pc
  let (w, m) := m.readWord pc
  (w, m.mapProcessor fun p => p.withPc (pc + 4))

def executeWord (m : Machine δ) (w : Word) : Machine δ :=
  if (Condition.ofField (w >>> 28)).passes m.processor.status.flags then
    m.execute (Instruction.decode w)
  else m

/-- A write that stalled the bus lets the processor skip one instruction. -/
def skipIfStalled (m : Machine δ) : Machine δ :=
  m.mapProcessor fun p => if p.stalled then p.withPc (p.pc + 4) else p

def sampleFiq (m : Machine δ) : Machine δ :=
  let needed := m.space.io.controller.interrupts.fiqNeeded
  m.mapProcessor fun p => p.sampleFiq needed

/-- One instruction. What it cost is left in the processor. -/
def step (m : Machine δ) : Machine δ :=
  let m := m.mapProcessor fun p => { p with cycles := sequential, stalled := false }
  let (w, m) := m.redirect.fetch
  ((m.executeWord w).skipIfStalled).sampleFiq

end Machine

end ArmConsole
