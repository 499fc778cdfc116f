import ArmConsole.Word

/-!
The barrel shifter. A shift yields a value and a carry, the last bit that left the word.
Amounts may be anything; the 5-bit amount field of an instruction gives its zero three special
meanings, which `ShiftKind.applyField` knows.
-/

namespace ArmConsole

inductive ShiftKind where
  /-- Logical to the left. -/
  | lsl
  /-- Logical to the right. -/
  | lsr
  /-- Arithmetic to the right. -/
  | asr
  /-- Rotation to the right. -/
  | ror
  deriving DecidableEq, Inhabited

structure Shifted where
  value : Word
  carry : Bool
  deriving DecidableEq, Inhabited

namespace ShiftKind

def ofField (w : Word) : ShiftKind :=
  match w &&& 3 with
  | 0 => lsl
  | 1 => lsr
  | 2 => asr
  | _ => ror

def toField : ShiftKind → Word
  | lsl => 0
  | lsr => 1
  | asr => 2
  | ror => 3

theorem ofField_toField (kind : ShiftKind) : ofField kind.toField = kind := by cases kind <;> rfl

def mnemonic : ShiftKind → String
  | lsl => "LSL"
  | lsr => "LSR"
  | asr => "ASR"
  | ror => "ROR"

/-- Shifts `rm` by `amount` places. An amount of 0 lets value and carry through unchanged. -/
def apply (kind : ShiftKind) (amount rm : Word) (carry : Bool) : Shifted :=
  if amount == 0 then ⟨rm, carry⟩
  else match kind with
    | lsl =>
      if amount < 32 then ⟨rm <<< amount, rm.bit (32 - amount)⟩
      else if amount == 32 then ⟨0, rm.bit 0⟩
      else ⟨0, false⟩
    | lsr =>
      if amount < 32 then ⟨rm >>> amount, rm.bit (amount - 1)⟩
      else if amount == 32 then ⟨0, rm.bit 31⟩
      else ⟨0, false⟩
    | asr =>
      if amount < 32 then ⟨rm.shiftRightSigned amount, rm.bit (amount - 1)⟩
      else ⟨rm.shiftRightSigned 31, rm.bit 31⟩
    | ror =>
      let turns := amount &&& 31
      if turns == 0 then ⟨rm, rm.bit 31⟩
      else ⟨rm.rotateRight turns, rm.bit (turns - 1)⟩

/-- Rotates the 33 bits of carry and `rm` by one place to the right. -/
def rotateThroughCarry (rm : Word) (carry : Bool) : Shifted :=
  ⟨(carry.toUInt32 <<< 31) ||| (rm >>> 1), rm.bit 0⟩

/-- Shifts by an amount that stands in the instruction. There, 0 stands for 32 places in LSR and
ASR and for a rotation through carry in ROR. -/
def applyField (kind : ShiftKind) (amount rm : Word) (carry : Bool) : Shifted :=
  if amount == 0 then
    match kind with
    | lsl => ⟨rm, carry⟩
    | lsr => lsr.apply 32 rm carry
    | asr => asr.apply 32 rm carry
    | ror => rotateThroughCarry rm carry
  else kind.apply amount rm carry

end ShiftKind

end ArmConsole
