import ArmConsole.Processor.Registers

/-!
Redirects. Some boot ROMs wait for events that the machine does not have. A redirect names the
place and the values of R0 and R1 that are seen there, and where to go on instead. Each happens
once until it is armed again.
-/

namespace ArmConsole

structure Redirect where
  pc : Word
  r0 : Word
  r1 : Word
  target : Word
  deriving DecidableEq, Inhabited

namespace Redirect

/-- Whether the visible registers are those that a redirect waits for. -/
def fits (r : Redirect) (live : Registers) : Bool :=
  let value (number : RegisterNumber) : Word := live.get number
  r.pc == value .pc && r.r0 == value .r0 && r.r1 == value .r1

end Redirect

/-- Redirects in the order in which they are tried, each with whether it has happened. -/
structure RedirectList where
  entries : List (Redirect × Bool)
  deriving DecidableEq, Inhabited

namespace RedirectList

def ofList (redirects : List Redirect) : RedirectList := ⟨redirects.map (·, false)⟩

def known : RedirectList :=
  ofList [{ pc := 0x00094D60, r0 := 0x00113000, r1 := 0x00113000, target := 0x0009E9CC }]

/-- The target of the first redirect that fits and has not happened, and the list in which it
has. -/
def fire (live : Registers) : List (Redirect × Bool) → Option (Word × List (Redirect × Bool))
  | [] => none
  | (r, done) :: entries =>
    if !done && r.fits live then some (r.target, (r, true) :: entries)
    else (fire live entries).map fun (target, entries) => (target, (r, done) :: entries)

/-- Redirects the program counter if a redirect fits; says whether one did. -/
def apply (l : RedirectList) (live : Registers) : Bool × RedirectList × Registers :=
  match fire live l.entries with
  | some (target, entries) => (true, ⟨entries⟩, live.set 15 target RegisterNumber.pc.bound)
  | none => (false, l, live)

def reset (l : RedirectList) : RedirectList := ⟨l.entries.map fun (r, _) => (r, false)⟩

end RedirectList

end ArmConsole
