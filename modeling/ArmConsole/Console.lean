import ArmConsole.Configuration
import ArmConsole.Controller.Snapshot
import ArmConsole.Machine.Execute
import ArmConsole.Machine.Snapshot

/-!
The console: a machine driven line by line. A line runs the processor until the cycles of the
line are spent; what is spent too much counts against the next line. Then the timers tick, the
expansion bus is polled and the new position of the beam is published, which may raise the line
interrupts.
-/

namespace ArmConsole

structure Console (δ : Type) where
  configuration : Configuration
  machine : Machine δ
  /-- The position of the beam. -/
  line : Word
  field : Word
  /-- Cycles that were spent past the budget of the line before. -/
  carry : Word
  /-- Cycles since the start or the last reset. -/
  cycles : UInt64

/-- One blob for each subsystem. -/
structure ConsoleSnapshot where
  processor : ByteArray
  controller : ByteArray
  expansion : ByteArray

namespace Console

variable {δ : Type}

def new (c : Configuration) : Console δ where
  configuration := c
  machine :=
    { processor := .initial
      space := { memory := GuestMemory.empty.setHighResolution c.highResolution, io := .initial }
      calls := if c.nativeCalls then some .standard else none
      redirects := if c.redirects then some .known else none }
  line := 0
  field := 0
  carry := 0
  cycles := 0

instance : Inhabited (Console δ) := ⟨new .standard⟩

@[inline] def mapMachine (c : Console δ) (f : Machine δ → Machine δ) : Console δ :=
  { c with machine := f c.machine }

def loadRom (c : Console δ) (bank : Nat) (image : ByteArray) : Except RomError (Console δ) :=
  (c.machine.space.memory.loadRom bank image).map fun memory =>
    c.mapMachine fun m => m.mapMemory fun _ => memory

variable [ExpansionDevice δ]

/-- Resets processor and peripherals and starts at the first line. RAM, ROM and NVRAM keep their
contents. -/
def reset (c : Console δ) : Console δ where
  configuration := c.configuration
  machine := c.machine.reset
  line := 0
  field := 0
  carry := 0
  cycles := 0

def step (c : Console δ) : Console δ :=
  let ⟨configuration, machine, line, field, carry, cycles⟩ := c
  let machine := machine.step
  ⟨configuration, machine, line, field, carry, cycles + machine.processor.cycles.toUInt64⟩

/-- Runs instructions until `budget` cycles are spent; yields how many were. An instruction costs
at least one cycle, so `fuel` of what is missing is enough. -/
def runCycles (budget : Word) : Nat → Word → Console δ → Word × Console δ
  | 0, spent, c => (spent, c)
  | fuel + 1, spent, c =>
    if spent < budget then
      let c := c.step
      runCycles budget fuel (spent + c.machine.processor.cycles) c
    else (spent, c)

def nextLine (c : Console δ) : Console δ :=
  let ⟨configuration, machine, line, field, carry, cycles⟩ := c
  let wraps := configuration.video.linesPerField ≤ line + 1
  let line := if wraps then 0 else line + 1
  let field := if wraps then field ^^^ 1 else field
  let ⟨processor, space, calls, redirects⟩ := machine
  let space := space.mapController fun controller => controller.updateLine line field
  ⟨configuration, ⟨processor, space, calls, redirects⟩, line, field, carry, cycles⟩

def tickLine (c : Console δ) : Console δ :=
  c.mapMachine fun m => { m with space := { m.space with io := m.space.io.tickLine } }

def runLine (c : Console δ) : Console δ :=
  let budget := c.configuration.cyclesPerLine
  let carry := c.carry
  let (spent, c) := c.runCycles budget (budget.toNat - carry.toNat) carry
  { c with carry := spent - budget }.tickLine.nextLine

def runLines (c : Console δ) : Nat → Console δ
  | 0 => c
  | n + 1 => c.runLine.runLines n

def runField (c : Console δ) : Console δ :=
  c.runLines c.configuration.video.linesPerField.toNat

def runFields (c : Console δ) : Nat → Console δ
  | 0 => c
  | n + 1 => c.runField.runFields n

/-! ### Snapshots -/

def save (c : Console δ) : ConsoleSnapshot where
  processor := c.machine.saveProcessor
  controller := c.machine.space.io.controller.save
  expansion := c.machine.space.io.expansion.save

/-- Restores all subsystems. Every blob is checked before any is applied; the beam goes where the
controller says that it is. -/
def load (s : ConsoleSnapshot) : EStateM SnapshotError (Console δ) Unit := fun c =>
  let decoded : Except SnapshotError _ := do
    let processor ← ProcessorSnapshot.decode s.processor
    let controller ← SystemController.decode s.controller
    let expansion ← c.machine.space.io.expansion.decode s.expansion
    return (processor, controller, expansion)
  match decoded with
  | .error e => .error e c
  | .ok (processor, controller, expansion) =>
    let ⟨configuration, ⟨p, ⟨memory, io⟩, calls, redirects⟩, line, field, carry, cycles⟩ := c
    match ExpansionBus.apply expansion io.expansion with
    | .error e bus =>
      let io := { io with expansion := bus }
      .error e ⟨configuration, ⟨p, ⟨memory, io⟩, calls, redirects⟩, line, field, carry, cycles⟩
    | .ok () bus =>
      let io := { io with expansion := bus, controller := controller }
      let machine := Machine.restoreProcessor ⟨p, ⟨memory, io⟩, calls, redirects⟩ processor
      .ok () ⟨configuration, machine, controller.line, controller.field &&& 1, 0, cycles⟩

end Console

end ArmConsole
