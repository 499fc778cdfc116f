import ArmConsole.Arithmetic.Alu
import ArmConsole.Processor.Mode

/-!
Status words. Bits 31 to 28 hold the flags N, Z, C and V, bits 7 and 6 disable IRQ and FIQ, and
bits 4 to 0 select the mode. A saved status word is plain storage and may hold any pattern.
-/

namespace ArmConsole

structure StatusWord where
  word : Word
  deriving DecidableEq, Inhabited

namespace StatusWord

def modeMask : Word := 0x1F
def flagMask : Word := 0xF0000000

def ofMode (mode : Mode) : StatusWord := ⟨mode.bits⟩

/-- The flags as a nibble, N first. -/
def flags (s : StatusWord) : Word := s.word >>> 28

def negative (s : StatusWord) : Bool := s.word.bit 31
def zero (s : StatusWord) : Bool := s.word.bit 30
def carry (s : StatusWord) : Bool := s.word.bit 29
def overflow (s : StatusWord) : Bool := s.word.bit 28
def irqDisabled (s : StatusWord) : Bool := s.word.bit 7
def fiqDisabled (s : StatusWord) : Bool := s.word.bit 6

def mode? (s : StatusWord) : Option Mode := Mode.ofBits? s.word

def withNegative (s : StatusWord) (b : Bool) : StatusWord := ⟨s.word.withBit 31 b⟩
def withZero (s : StatusWord) (b : Bool) : StatusWord := ⟨s.word.withBit 30 b⟩
def withCarry (s : StatusWord) (b : Bool) : StatusWord := ⟨s.word.withBit 29 b⟩
def withOverflow (s : StatusWord) (b : Bool) : StatusWord := ⟨s.word.withBit 28 b⟩
def withIrqDisabled (s : StatusWord) (b : Bool) : StatusWord := ⟨s.word.withBit 7 b⟩
def withFiqDisabled (s : StatusWord) (b : Bool) : StatusWord := ⟨s.word.withBit 6 b⟩

def withMode (s : StatusWord) (mode : Mode) : StatusWord :=
  ⟨(s.word &&& ~~~modeMask) ||| mode.bits⟩

/-- Takes the four flags from `value` and keeps the other bits. -/
def withFlagBits (s : StatusWord) (value : Word) : StatusWord :=
  ⟨(s.word &&& ~~~flagMask) ||| (value &&& flagMask)⟩

def withFlags (s : StatusWord) (r : AluResult) : StatusWord :=
  (((s.withNegative r.negative).withZero r.zero).withCarry r.carry).withOverflow r.overflow

/-- Takes the flags of a logical result, which leaves V alone. -/
def withLogicalFlags (s : StatusWord) (r : AluResult) : StatusWord :=
  ((s.withNegative r.negative).withZero r.zero).withCarry r.carry

end StatusWord

end ArmConsole
