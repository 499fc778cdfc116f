import ArmConsole.Controller.RegisterMap
import ArmConsole.Controller.StreamChannel
import ArmConsole.Controller.Timers

/-!
The system controller: interrupts, timers, stream channels, and a file of plain registers that
read back what was written last.
-/

namespace ArmConsole

structure SystemController where
  registers : Vector Word 65536
  interrupts : Interrupts
  timers : Timers
  inputs : Vector StreamChannel 13
  outputs : Vector StreamChannel 4
  /-- What was written last to each window of the signal processor: instructions in pairs and
  single, data in pairs and single. -/
  lastWritten : Vector Word 4
  deriving DecidableEq

namespace SystemController

def zero : SystemController where
  registers := .replicate 65536 0
  interrupts := .none
  timers := .zero
  inputs := .replicate 13 .idle
  outputs := .replicate 4 .idle
  lastWritten := .replicate 4 0

instance : Inhabited SystemController := ⟨zero⟩

def revision : Word := 0x02020000

/-! ### Offsets of registers that the controller itself uses -/

/-- The lines that the beam is compared with. -/
def firstCompare : Word := 0x08
def secondCompare : Word := 0x0C

def lineCounter : Word := 0x34

def transferEnable : Word := 0x304

def transferControl : Word := 0x5C0

def processorRun : Word := 0x17FC

def slot (offset : Word) : Fin 65536 :=
  ⟨((offset >>> 2) &&& 0xFFFF).toNat, Word.toNat_and_lt (by decide)⟩

def register (c : SystemController) (offset : Word) : Word := c.registers[slot offset]

def withRegister (c : SystemController) (offset value : Word) : SystemController :=
  { c with registers := c.registers.set (slot offset) value }

def raise (c : SystemController) (sources : Word) : SystemController :=
  { c with interrupts := c.interrupts.raise sources 0 }

def tickTimers (c : SystemController) : SystemController :=
  let (raised, timers) := c.timers.tick
  let c := { c with timers := timers }
  if raised == 0 then c else c.raise raised

/-- Raises a source if the beam is at the line in a compare register. -/
def compareLine (c : SystemController) (line compare source : Word) : SystemController :=
  if line == c.register compare &&& 0x7FF then c.raise source else c

/-- Publishes the position of the beam and compares it with the two compare lines. -/
def updateLine (c : SystemController) (line field : Word) : SystemController :=
  let c := c.withRegister lineCounter ((field <<< 11) ||| (line &&& 0x7FF))
  let c := c.compareLine line firstCompare Interrupts.firstLine
  c.compareLine line secondCompare Interrupts.secondLine

/-- The line and field that were published last. -/
def line (c : SystemController) : Word := c.register lineCounter &&& 0x7FF
def field (c : SystemController) : Word := c.register lineCounter >>> 11

/-! ### Channels -/

def writeInputRegister (c : SystemController) (channel : Fin 13) (offset value : Word) :
    SystemController :=
  { c with inputs := c.inputs.set channel (c.inputs[channel].writeRegister offset value) }

def writeOutputRegister (c : SystemController) (channel : Fin 4) (offset value : Word) :
    SystemController :=
  { c with outputs := c.outputs.set channel (c.outputs[channel].writeRegister offset value) }

/-- Keeps what is written to a window of the signal processor. -/
def withLastWritten (c : SystemController) (window : Fin 4) (value : Word) : SystemController :=
  { c with lastWritten := c.lastWritten.set window value }

/-- Reads one element through an input channel. A channel with nothing to move yields 0. -/
def readInput (c : SystemController) (channel : Fin 13) (memory : GuestMemory) :
    HalfWord × SystemController :=
  let access := c.inputs[channel].access
  let c := { c with inputs := c.inputs.set channel access.channel }
  let c := if access.exhausted then c.raise (Interrupts.inputChannel channel) else c
  match access.target with
  | some address => (memory.readHalfWord address, c)
  | none => (0, c)

/-- Writes one element through an output channel. A channel with nothing to move drops it. -/
def writeOutput (c : SystemController) (channel : Fin 4) (value : HalfWord)
    (memory : GuestMemory) : SystemController × GuestMemory :=
  let access := c.outputs[channel].access
  let c := { c with outputs := c.outputs.set channel access.channel }
  let c := if access.exhausted then c.raise (Interrupts.outputChannel channel) else c
  match access.target with
  | some address => (c, memory.writeHalfWord address value)
  | none => (c, memory)

end SystemController

end ArmConsole
