import ArmConsole.Word

/-!
The command line. One argument is the boot ROM; the others are options. A long option takes its
value from the next argument or behind an equals sign. Arguments are looked at from left to
right, and the first fault or request for the version decides. Behind `--` nothing is an option.
-/

namespace ArmConsole.CommandLine

structure Options where
  rom : String
  secondRom : Option String
  fields : Word
  config : Option String
  logFile : Option String
  nativeCalls : Bool
  highResolution : Bool
  redirects : Bool
  dumpRegisters : Bool
  deriving DecidableEq, Inhabited

inductive Request where
  | version
  | run (options : Options)
  deriving DecidableEq, Inhabited

inductive UsageError where
  | unknownOption (argument : String)
  | surplusArgument (argument : String)
  | missingRom
  | missingValue (option : String)
  | unexpectedValue (option : String)
  | invalidValue (option value : String)
  | repeated (option : String)
  deriving DecidableEq, Inhabited

def UsageError.message : UsageError → String
  | unknownOption argument => s!"unexpected argument '{argument}' found"
  | surplusArgument argument => s!"unexpected argument '{argument}' found"
  | missingRom => "the ROM was not provided"
  | missingValue option => s!"a value is required for '--{option}' but none was supplied"
  | unexpectedValue option => s!"unexpected value for '--{option}' found"
  | invalidValue option value => s!"invalid value '{value}' for '--{option}'"
  | repeated option => s!"the argument '--{option}' cannot be used multiple times"

structure Given where
  rom : Option String
  secondRom : Option String
  fields : Option Word
  config : Option String
  logFile : Option String
  nativeCalls : Bool
  highResolution : Bool
  redirects : Bool
  dumpRegisters : Bool

namespace Given

def nothing : Given := ⟨none, none, none, none, none, false, false, false, false⟩

/-- The options, which need a ROM; 60 fields are run if nothing else is said. -/
def complete (g : Given) : Except UsageError Options :=
  match g.rom with
  | none => .error .missingRom
  | some rom =>
    .ok
      { rom
        secondRom := g.secondRom
        fields := g.fields.getD 60
        config := g.config
        logFile := g.logFile
        nativeCalls := g.nativeCalls
        highResolution := g.highResolution
        redirects := g.redirects
        dumpRegisters := g.dumpRegisters }

end Given

/-- A decimal number with an optional sign. -/
def signedNumber? (text : String) : Option Int :=
  let (negative, cs) :=
    match text.toList with
    | '-' :: cs => (true, cs)
    | '+' :: cs => (false, cs)
    | cs => (false, cs)
  if cs.isEmpty || !cs.all Char.isDigit then none
  else
    let n : Nat := cs.foldl (fun n c => n * 10 + (c.toNat - 48)) 0
    some (if negative then -(n : Int) else n)

/-- A count of fields: a number from 0 to 2^32 - 1. -/
def fieldCount? (text : String) : Option Word :=
  match signedNumber? text with
  | some n => if 0 ≤ n ∧ n < UInt32.size then some (.ofNat n.toNat) else none
  | none => none

inductive ValueOption where
  | secondRom | fields | config | logFile
  deriving DecidableEq

namespace ValueOption

def all : List ValueOption := [secondRom, fields, config, logFile]

def name : ValueOption → String
  | secondRom => "rom2"
  | fields => "fields"
  | config => "config"
  | logFile => "log-file"

def ofName? (name : String) : Option ValueOption := all.find? fun o => o.name == name

/-- Notes a path, which must not be empty, unless there is one. -/
def path (o : ValueOption) (value : String) (old : Option String) :
    Except UsageError (Option String) :=
  if value.isEmpty then .error (.invalidValue o.name value)
  else if old.isSome then .error (.repeated o.name)
  else .ok (some value)

def note (o : ValueOption) (value : String) (g : Given) : Except UsageError Given :=
  match o with
  | secondRom => (o.path value g.secondRom).map fun v => { g with secondRom := v }
  | config => (o.path value g.config).map fun v => { g with config := v }
  | logFile => (o.path value g.logFile).map fun v => { g with logFile := v }
  | fields =>
    match fieldCount? value with
    | none => .error (.invalidValue o.name value)
    | some n =>
      if g.fields.isSome then .error (.repeated o.name) else .ok { g with fields := some n }

end ValueOption

inductive FlagOption where
  | nativeCalls | highResolution | redirects | dumpRegisters
  deriving DecidableEq

namespace FlagOption

def all : List FlagOption := [nativeCalls, highResolution, redirects, dumpRegisters]

def name : FlagOption → String
  | nativeCalls => "hle"
  | highResolution => "hires"
  | redirects => "compat"
  | dumpRegisters => "dump-registers"

def ofName? (name : String) : Option FlagOption := all.find? fun o => o.name == name

def note (o : FlagOption) (g : Given) : Except UsageError Given :=
  let once (old : Bool) (g : Given) : Except UsageError Given :=
    if old then .error (.repeated o.name) else .ok g
  match o with
  | nativeCalls => once g.nativeCalls { g with nativeCalls := true }
  | highResolution => once g.highResolution { g with highResolution := true }
  | redirects => once g.redirects { g with redirects := true }
  | dumpRegisters => once g.dumpRegisters { g with dumpRegisters := true }

end FlagOption

/-- Notes an argument that is no option: the ROM, of which there is one. -/
def notePositional (argument : String) (g : Given) : Except UsageError Given :=
  if g.rom.isSome then .error (.surplusArgument argument)
  else if argument.isEmpty then .error (.invalidValue "rom" argument)
  else .ok { g with rom := some argument }

def notePositionals : List String → Given → Except UsageError Given
  | [], g => .ok g
  | a :: rest, g => do notePositionals rest (← notePositional a g)

inductive Shape where
  /-- `--` alone. -/
  | separator
  /-- `--name`, perhaps with a value behind an equals sign. -/
  | long (name : String) (value : Option String)
  /-- `-` and letters. -/
  | short (letters : List Char)
  | plain

/-- What stands before the first equals sign and behind it. -/
def splitValue (cs : List Char) : String × Option String :=
  match cs.span (· != '=') with
  | (name, []) => (.ofList name, none)
  | (name, _ :: value) => (.ofList name, some (.ofList value))

def shapeOf (argument : String) : Shape :=
  match argument.toList with
  | ['-', '-'] => .separator
  | '-' :: '-' :: cs =>
    let (name, value) := splitValue cs
    .long name value
  | ['-'] => .plain
  | '-' :: cs => .short cs
  | _ => .plain

/-- Reads arguments from left to right. A value does not start with a dash, unless it is one. -/
def parseFrom (g : Given) : List String → Except UsageError Request
  | [] => g.complete.map .run
  | a :: rest =>
    match shapeOf a with
    | .separator => do (← notePositionals rest g).complete.map .run
    | .plain => do parseFrom (← notePositional a g) rest
    | .short letters =>
      if letters.head? == some 'V' then .ok .version else .error (.unknownOption a)
    | .long name value =>
      match FlagOption.ofName? name, ValueOption.ofName? name, value with
      | some o, _, none => do parseFrom (← o.note g) rest
      | some o, _, some _ => .error (.unexpectedValue o.name)
      | _, some o, some value => do parseFrom (← o.note value g) rest
      | _, some o, none =>
        match rest with
        | [] => .error (.missingValue o.name)
        | value :: rest =>
          match shapeOf value with
          | .plain => do parseFrom (← o.note value g) rest
          | _ => .error (.missingValue o.name)
      | none, none, value =>
        if name == "version" then
          if value.isSome then .error (.unexpectedValue name) else .ok .version
        else .error (.unknownOption a)

def parse (arguments : List String) : Except UsageError Request := parseFrom .nothing arguments

end ArmConsole.CommandLine
