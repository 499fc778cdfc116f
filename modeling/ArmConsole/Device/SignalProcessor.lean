import ArmConsole.Word

/-!
The signal processor as the rest of the machine sees it: two memories of 1024 halfwords, a run
flag and a semaphore. It executes nothing.
-/

namespace ArmConsole

structure SignalProcessor where
  instructions : Vector HalfWord 1024
  data : Vector HalfWord 1024
  running : Bool
  semaphore : Word
  deriving DecidableEq

namespace SignalProcessor

def zero : SignalProcessor := ⟨.replicate 1024 0, .replicate 1024 0, false, 0⟩

instance : Inhabited SignalProcessor := ⟨zero⟩

/-- Stops it and clears the semaphore. The memories stay. -/
def reset (p : SignalProcessor) : SignalProcessor := { p with running := false, semaphore := 0 }

/-- The word at halfwords `2 i` and `2 i + 1` of a memory, high half first. -/
def pair {n : Nat} (memory : Vector HalfWord n) (i : Nat) (h : 2 * i + 1 < n) : Word :=
  .ofHalves memory[2 * i] memory[2 * i + 1]

/-- A memory with the word at halfwords `2 i` and `2 i + 1` replaced. -/
def setPair {n : Nat} (memory : Vector HalfWord n) (i : Nat) (v : Word) (h : 2 * i + 1 < n) :
    Vector HalfWord n :=
  (memory.set (2 * i) v.highHalf).set (2 * i + 1) v.lowHalf

def instructionPair (p : SignalProcessor) (i : Fin 512) : Word :=
  pair p.instructions i (by omega)

def dataPair (p : SignalProcessor) (i : Fin 256) : Word := pair p.data i (by omega)

def instruction (p : SignalProcessor) (i : Fin 1024) : Word := p.instructions[i].toUInt32

def datum (p : SignalProcessor) (i : Fin 256) : Word := p.data[i.val].toUInt32

def setInstructionPair (p : SignalProcessor) (i : Fin 512) (v : Word) : SignalProcessor :=
  { p with instructions := setPair p.instructions i v (by omega) }

def setDataPair (p : SignalProcessor) (i : Fin 256) (v : Word) : SignalProcessor :=
  { p with data := setPair p.data i v (by omega) }

def setInstruction (p : SignalProcessor) (i : Fin 1024) (v : Word) : SignalProcessor :=
  { p with instructions := p.instructions.set i v.lowHalf }

def setDatum (p : SignalProcessor) (i : Fin 256) (v : Word) : SignalProcessor :=
  { p with data := p.data.set i v.lowHalf }

end SignalProcessor

end ArmConsole
