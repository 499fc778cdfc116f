import ArmConsole.Word

/-!
The diagnostic channel. The guest reads words that a host has queued and writes words that the
host collects.
-/

namespace ArmConsole

structure DiagnosticChannel where
  input : List Word
  output : Array Word
  deriving DecidableEq

namespace DiagnosticChannel

def empty : DiagnosticChannel := ⟨[], #[]⟩

instance : Inhabited DiagnosticChannel := ⟨empty⟩

/-- The next queued word, 0 if there is none. -/
def read (p : DiagnosticChannel) : Word × DiagnosticChannel :=
  match p.input with
  | [] => (0, p)
  | w :: rest => (w, { p with input := rest })

def write (p : DiagnosticChannel) (value : Word) : DiagnosticChannel :=
  { p with output := p.output.push value }

end DiagnosticChannel

end ArmConsole
