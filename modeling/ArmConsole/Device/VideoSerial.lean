import ArmConsole.Memory.GuestMemory

/-!
The serial interface of video RAM. With nothing behind it, it ignores what the processor does. An
engine may be plugged in instead: every write hands it all of VRAM, to do with it what it likes.
-/

namespace ArmConsole

/-- What the processor has done at the interface. A write finds VRAM as it is then. -/
inductive SerialAccess where
  | source (offset : Word)
  | write (offset mask : Word) (vram : Block GuestMemory.vramSize)

/-- What may be plugged in: the contents of VRAM after a write. A state of the engine's own is what
the accesses before, the last one first, have led to. -/
structure SerialEngine where
  write (history : List SerialAccess) (offset mask : Word) (vram : Block GuestMemory.vramSize) :
    Block GuestMemory.vramSize

inductive VideoSerial where
  | detached
  | attached (engine : SerialEngine) (history : List SerialAccess)
  deriving Inhabited

namespace VideoSerial

def setSource (v : VideoSerial) (offset : Word) : VideoSerial :=
  match v with
  | detached => detached
  | attached engine history => attached engine (.source offset :: history)

def write (v : VideoSerial) (memory : GuestMemory) (offset mask : Word) :
    VideoSerial × GuestMemory :=
  match v with
  | detached => (detached, memory)
  | attached engine history =>
    let vram := memory.vramBlock
    (attached engine (.write offset mask vram :: history),
      memory.withVram (engine.write history offset mask vram))

/-- The accesses since an engine was plugged in, the last one first. -/
def history : VideoSerial → List SerialAccess
  | detached => []
  | attached _ history => history

end VideoSerial

end ArmConsole
