import ArmConsole.Word

/-!
The configuration of a console: the video standard, the clock, and which conveniences are on.
-/

namespace ArmConsole

inductive VideoStandard where
  | ntsc | pal
  deriving DecidableEq, Inhabited

namespace VideoStandard

def name : VideoStandard → String
  | ntsc => "ntsc"
  | pal => "pal"

def linesPerField : VideoStandard → Word
  | ntsc => 263
  | pal => 312

def fieldsPerSecond : VideoStandard → Word
  | ntsc => 60
  | pal => 50

end VideoStandard

structure Configuration where
  video : VideoStandard
  clock : Word
  /-- Whether writes to VRAM reach the shadow pages. -/
  highResolution : Bool
  /-- Whether known software interrupts are answered natively. -/
  nativeCalls : Bool
  /-- Whether the redirects for known boot ROMs are armed. -/
  redirects : Bool
  deriving DecidableEq

namespace Configuration

def standard : Configuration := ⟨.ntsc, 12500000, false, false, false⟩

instance : Inhabited Configuration := ⟨standard⟩

/-- How many cycles a line has, rounded down. -/
def cyclesPerLine (c : Configuration) : Word :=
  c.clock / (c.video.fieldsPerSecond * c.video.linesPerField)

end Configuration

end ArmConsole
