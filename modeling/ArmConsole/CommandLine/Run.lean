import ArmConsole.CommandLine.Files
import ArmConsole.CommandLine.Options
import ArmConsole.CommandLine.Report
import ArmConsole.Configuration.Text
import ArmConsole.Console.Strict

/-!
The command: a console runs a boot ROM for some fields and reports. Files are accessed in a fixed
order, and the first fault ends the run: the log file, the configuration, the boot ROM, the
second ROM. Arithmetic is checked, so that a math call that overflows ends it too.
-/

namespace ArmConsole

/-- A bus that nothing is ever plugged into. -/
instance : ExpansionDevice Empty where
  reset := nofun
  setCommand _ := nofun
  status := nofun
  setData _ := nofun
  data := nofun
  poll := nofun
  setPoll _ := nofun

namespace CommandLine

inductive RunError where
  | missingRom (path : String)
  | file (path : String) (error : FileError)
  | configuration (path : String)
  | rom (error : RomError)
  /-- A math call overflowed. -/
  | overflow
  deriving DecidableEq, Inhabited

namespace RunError

def message : RunError → String
  | missingRom path => s!"ROM {path} not found"
  | file path error => s!"cannot access {path}: {error.message}"
  | configuration path => s!"invalid config {path}"
  | rom error => error.message
  | overflow => "attempt to add with overflow"

/-- The exit code of the command: 1 for a missing ROM, 101 for a program that has stopped. -/
def exitCode : RunError → Nat
  | missingRom _ => 1
  | overflow => 101
  | file _ _ | configuration _ | rom _ => 2

end RunError

def versionText : String := "opal 0.1.0\n"

/-- The configuration of a text, with the flags of the command line put on top. -/
def configure (o : Options) (c : Configuration) : Configuration :=
  { c with
    nativeCalls := c.nativeCalls || o.nativeCalls
    highResolution := c.highResolution || o.highResolution
    redirects := c.redirects || o.redirects }

variable {m : Type → Type} [Monad m]

def readConfiguration (files : FileAccess m) (o : Options) : ExceptT RunError m Configuration :=
  match o.config with
  | none => return .standard
  | some path => do
    match ← files.read path with
    | .error e => throw (.file path e)
    | .ok bytes =>
      match String.fromUTF8? bytes with
      | none => throw (.file path .invalidText)
      | some text =>
        match Configuration.ofText? text with
        | none => throw (.configuration path)
        | some c => return c

def installRom (files : FileAccess m) (path : String) (bank : Nat) (c : Console Empty) :
    ExceptT RunError m (Console Empty) := do
  match ← files.read path with
  | .error .notFound => throw (.missingRom path)
  | .error e => throw (.file path e)
  | .ok image =>
    match c.loadRom bank image with
    | .error e => throw (.rom e)
    | .ok c => return c

def run (files : FileAccess m) (o : Options) : ExceptT RunError m String := do
  if let some path := o.logFile then
    if let .error e ← files.create path then throw (.file path e)
  let configuration ← readConfiguration files o
  let c := Console.new (configure o configuration)
  let c ← installRom files o.rom 0 c
  let c ←
    match o.secondRom with
    | some path => installRom files path 1 c
    | none => pure c
  let some c := c.strictRunFields o.fields.toNat | throw .overflow
  return if o.dumpRegisters then (Report.of c).text else ""

end CommandLine

end ArmConsole
