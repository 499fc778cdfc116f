import ArmConsole.Configuration
import ArmConsole.Json.Token

/-!
Configurations as JSON. A configuration is an object whose fields may stand in any order and may
be missing, or an array of their values in the fixed order, which may end early. What is missing
has its standard value. A field that is not known is passed over; one that is known must not
stand twice.
-/

namespace ArmConsole.Configuration

open ArmConsole.Json

structure Given where
  video : Option VideoStandard
  clock : Option Word
  highResolution : Option Bool
  nativeCalls : Option Bool
  redirects : Option Bool

namespace Given

def empty : Given := ⟨none, none, none, none, none⟩

def complete (p : Given) : Configuration where
  video := p.video.getD standard.video
  clock := p.clock.getD standard.clock
  highResolution := p.highResolution.getD standard.highResolution
  nativeCalls := p.nativeCalls.getD standard.nativeCalls
  redirects := p.redirects.getD standard.redirects

end Given

inductive Field where
  | video | clock | highResolution | nativeCalls | redirects
  deriving DecidableEq, Inhabited

namespace Field

/-- The fields in the order in which an array has them. -/
def all : List Field := [video, clock, highResolution, nativeCalls, redirects]

def name : Field → String
  | video => "video"
  | clock => "cpu_clock_hz"
  | highResolution => "high_resolution"
  | nativeCalls => "hle_swi"
  | redirects => "compat_patches"

def ofName? (name : String) : Option Field := all.find? fun f => f.name == name

end Field

def standardOfName? (name : String) : Option VideoStandard :=
  [VideoStandard.ntsc, .pal].find? fun v => v.name == name

/-- A video standard: its name, or an object with the name as its only key and null behind it. -/
def video? : List Token → Option (VideoStandard × List Token)
  | .string (some name) :: rest => (standardOfName? name).map (·, rest)
  | .openObject :: .string (some name) :: .colon :: .null :: .closeObject :: rest =>
    (standardOfName? name).map (·, rest)
  | _ => none

def clock? : List Token → Option (Word × List Token)
  | .natural n :: rest => if n < UInt32.size then some (.ofNat n, rest) else none
  | _ => none

def flag? : List Token → Option (Bool × List Token)
  | .bool b :: rest => some (b, rest)
  | _ => none

/-- Reads the value of a field that has not been read yet. -/
def field? (p : Given) (f : Field) (tokens : List Token) : Option (Given × List Token) :=
  match f with
  | .video =>
    if p.video.isSome then none
    else (video? tokens).map fun (v, rest) => ({ p with video := some v }, rest)
  | .clock =>
    if p.clock.isSome then none
    else (clock? tokens).map fun (v, rest) => ({ p with clock := some v }, rest)
  | .highResolution =>
    if p.highResolution.isSome then none
    else (flag? tokens).map fun (v, rest) => ({ p with highResolution := some v }, rest)
  | .nativeCalls =>
    if p.nativeCalls.isSome then none
    else (flag? tokens).map fun (v, rest) => ({ p with nativeCalls := some v }, rest)
  | .redirects =>
    if p.redirects.isSome then none
    else (flag? tokens).map fun (v, rest) => ({ p with redirects := some v }, rest)

def member? (p : Given) (key : String) (tokens : List Token) : Option (Given × List Token) :=
  match Field.ofName? key with
  | some f => field? p f tokens
  | none => (skipValue? [] tokens).map (p, ·)

/-- The members of an object from a key on, and what follows the object. There are at most
`fuel` of them. -/
def members? : Nat → Given → List Token → Option (Given × List Token)
  | 0, _, _ => none
  | fuel + 1, p, .string (some key) :: .colon :: tokens => do
    let (p, rest) ← member? p key tokens
    match rest with
    | .closeObject :: rest => return (p, rest)
    | .comma :: rest => members? fuel p rest
    | _ => none
  | _, _, _ => none

/-- The elements of an array for these fields, and what follows the array. -/
def elements? : List Field → Given → List Token → Option (Given × List Token)
  | [], _, _ => none
  | f :: fields, p, tokens => do
    let (p, rest) ← field? p f tokens
    match rest with
    | .closeArray :: rest => return (p, rest)
    | .comma :: rest => elements? fields p rest
    | _ => none

/-- A configuration, and what follows it. -/
def value? : List Token → Option (Given × List Token)
  | .openObject :: .closeObject :: rest => some (.empty, rest)
  | .openObject :: tokens => members? tokens.length .empty tokens
  | .openArray :: .closeArray :: rest => some (.empty, rest)
  | .openArray :: tokens => elements? Field.all .empty tokens
  | _ => none

def ofText? (text : String) : Option Configuration := do
  let tokens ← tokens? text
  let (p, rest) ← value? tokens
  if rest.isEmpty then return p.complete else none

/-- The configuration as an object with all fields and without white space. -/
def text (c : Configuration) : String :=
  let member (f : Field) (value : String) : String := s!"\"{f.name}\":{value}"
  let members :=
    [member .video s!"\"{c.video.name}\"", member .clock (toString c.clock),
      member .highResolution (toString c.highResolution),
      member .nativeCalls (toString c.nativeCalls), member .redirects (toString c.redirects)]
  let list := ",".intercalate members
  s!"\x7b{list}\x7d"

end ArmConsole.Configuration
