import ArmConsole.Word

/-!
The register window of the graphics controller: 512 words without any behaviour behind them.
Two of them hold the destination and length of a transfer from the expansion bus.
-/

namespace ArmConsole

structure GraphicsRegisters where
  words : Vector Word 512
  deriving DecidableEq

namespace GraphicsRegisters

def zero : GraphicsRegisters := ⟨.replicate 512 0⟩

instance : Inhabited GraphicsRegisters := ⟨zero⟩

/-- Offset of the transfer's destination address. -/
def transferAddress : Word := 0x540

/-- Offset of the transfer's byte count. -/
def transferLength : Word := 0x544

def slot (offset : Word) : Fin 512 :=
  ⟨((offset >>> 2) &&& 0x1FF).toNat, Word.toNat_and_lt (by decide)⟩

def read (r : GraphicsRegisters) (offset : Word) : Word := r.words[slot offset]

def write (r : GraphicsRegisters) (offset value : Word) : GraphicsRegisters :=
  ⟨r.words.set (slot offset) value⟩

end GraphicsRegisters

end ArmConsole
