import ArmConsole.Controller.Basic
import ArmConsole.Device.DiagnosticChannel
import ArmConsole.Device.GraphicsRegisters
import ArmConsole.Device.SignalProcessor
import ArmConsole.Device.VideoSerial
import ArmConsole.Expansion.Bus

/-!
Everything on the bus besides RAM and ROM, and reads through the system controller, which reach
the signal processor and the expansion bus.
-/

namespace ArmConsole

structure Peripherals (δ : Type) where
  controller : SystemController
  expansion : ExpansionBus δ
  diagnostic : DiagnosticChannel
  graphics : GraphicsRegisters
  videoSerial : VideoSerial
  signal : SignalProcessor

namespace Peripherals

variable {δ : Type}

def initial : Peripherals δ where
  controller := .zero
  expansion := .empty
  diagnostic := .empty
  graphics := .zero
  videoSerial := .detached
  signal := .zero

instance : Inhabited (Peripherals δ) := ⟨initial⟩

variable [ExpansionDevice δ]

/-- The graphics registers and the serial interface have no reset, nor have the memories of the
signal processor. -/
def reset (io : Peripherals δ) : Peripherals δ :=
  { io with
    controller := .zero
    expansion := io.expansion.reset
    signal := io.signal.reset
    diagnostic := .empty }

/-- Raises the expansion interrupt if a device asks for attention. -/
def pollExpansion (io : Peripherals δ) : Peripherals δ :=
  let (needed, expansion) := io.expansion.attentionNeeded
  let io := { io with expansion := expansion }
  if needed then { io with controller := io.controller.raise Interrupts.expansion } else io

/-- What happens at the end of every line: the timers tick and the devices are polled. -/
def tickLine (io : Peripherals δ) : Peripherals δ :=
  pollExpansion { io with controller := io.controller.tickTimers }

def peek (io : Peripherals δ) (offset : Word) : Word × Peripherals δ :=
  let c := io.controller
  match ControllerRegister.ofOffset offset with
  | .instructionPair i => (io.signal.instructionPair i, io)
  | .instruction i => (io.signal.instruction i, io)
  | .dataPair i => (io.signal.dataPair i, io)
  | .datum i => (io.signal.datum i, io)
  | .revision => (SystemController.revision, io)
  | .primaryPending _ => (c.interrupts.primaryPending, io)
  | .primaryEnable _ => (c.interrupts.primaryEnable, io)
  | .secondaryPending _ => (c.interrupts.secondaryPending, io)
  | .secondaryEnable _ => (c.interrupts.secondaryEnable, io)
  | .timerCounter t => ((c.timers.counter.get t).toUInt32, io)
  | .timerBackup t => ((c.timers.backup.get t).toUInt32, io)
  | .timerControl high _ => (c.timers.controlWord high, io)
  | .transferEnable _ => (c.register SystemController.transferEnable, io)
  | .inputChannel ch => ((c.inputs.get ch).readRegister offset, io)
  | .outputChannel ch => ((c.outputs.get ch).readRegister offset, io)
  | .expansion =>
    let (w, expansion) := io.expansion.read (offset &&& 0xFFFC)
    (w, { io with expansion := expansion })
  | .semaphore => (io.signal.semaphore, io)
  | .processorReset | .processorRun | .plain => (c.register (offset &&& 0xFFFC), io)

end Peripherals

end ArmConsole
