import ArmConsole.Console
import ArmConsole.Service.Overflow

/-!
The console where arithmetic is checked. A step, a line or a run is the one without the checks as
long as no math call overflows; it has no result if one does, since the program stops there.
-/

namespace ArmConsole

namespace Machine

variable {δ : Type} [ExpansionDevice δ]

omit [ExpansionDevice δ] in
/-- Whether a software interrupt is a math call that overflows. -/
def overflows (m : Machine δ) (comment : Word) : Bool :=
  match m.calls.bind fun calls => calls.lookup? comment with
  | some call => call.overflows m.space.memory m.processor.arguments
  | none => false

omit [ExpansionDevice δ] in
def strictSoftwareInterrupt (m : Machine δ) (comment : Word) : Option (Machine δ) :=
  if m.overflows comment then none else some (m.softwareInterrupt comment)

def strictExecute (m : Machine δ) : Instruction → Option (Machine δ)
  | .softwareInterrupt comment => m.strictSoftwareInterrupt comment
  | i => some (m.execute i)

def strictExecuteWord (m : Machine δ) (w : Word) : Option (Machine δ) :=
  if (Condition.ofField (w >>> 28)).passes m.processor.status.flags then
    m.strictExecute (Instruction.decode w)
  else some m

def strictStep (m : Machine δ) : Option (Machine δ) := do
  let m := m.mapProcessor fun p => { p with cycles := Processor.sequential, stalled := false }
  let (w, m) := m.redirect.fetch
  let m ← m.strictExecuteWord w
  return m.skipIfStalled.sampleFiq

end Machine

namespace Console

variable {δ : Type} [ExpansionDevice δ]

def strictStep (c : Console δ) : Option (Console δ) := do
  let ⟨configuration, machine, line, field, carry, cycles⟩ := c
  let machine ← machine.strictStep
  return ⟨configuration, machine, line, field, carry, cycles + machine.processor.cycles.toUInt64⟩

def strictRunCycles (budget : Word) : Nat → Word → Console δ → Option (Word × Console δ)
  | 0, spent, c => some (spent, c)
  | fuel + 1, spent, c =>
    if spent < budget then do
      let c ← c.strictStep
      strictRunCycles budget fuel (spent + c.machine.processor.cycles) c
    else some (spent, c)

def strictRunLine (c : Console δ) : Option (Console δ) := do
  let budget := c.configuration.cyclesPerLine
  let carry := c.carry
  let (spent, c) ← c.strictRunCycles budget (budget.toNat - carry.toNat) carry
  return { c with carry := spent - budget }.tickLine.nextLine

def strictRunLines (c : Console δ) : Nat → Option (Console δ)
  | 0 => some c
  | n + 1 => do
    let c ← c.strictRunLine
    c.strictRunLines n

def strictRunField (c : Console δ) : Option (Console δ) :=
  c.strictRunLines c.configuration.video.linesPerField.toNat

def strictRunFields (c : Console δ) : Nat → Option (Console δ)
  | 0 => some c
  | n + 1 => do
    let c ← c.strictRunField
    c.strictRunFields n

end Console

end ArmConsole
