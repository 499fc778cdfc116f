import ArmConsole.Arithmetic.Shift

/-!
The sixteen operations of the arithmetic and logic unit and the flags that they compute.
Subtraction is an addition of the complement with a carry of one, so that a set carry means
that nothing was borrowed.
-/

namespace ArmConsole

inductive AluOperation where
  | and | eor | sub | rsb | add | adc | sbc | rsc
  | tst | teq | cmp | cmn | orr | mov | bic | mvn
  deriving DecidableEq, Inhabited

/-- A result with the four flags that go with it. -/
structure AluResult where
  value : Word
  carry : Bool
  overflow : Bool
  negative : Bool
  zero : Bool
  deriving DecidableEq, Inhabited

namespace AluResult

/-- A result whose carry comes from the shifter. -/
def logical (value : Word) (carry : Bool) : AluResult :=
  { value, carry, overflow := false, negative := value.isNegative, zero := value == 0 }

/-- `a + b + carryIn`. The carry is the one out of bit 31; overflow says that the operands have
one sign and the sum has the other. -/
def addWithCarry (a b : Word) (carryIn : Bool) : AluResult :=
  let wide := a.toUInt64 + b.toUInt64 + carryIn.toUInt64
  let value : Word := wide.toUInt32
  { value
    carry := 0xFFFFFFFF < wide
    overflow := Word.isNegative ((a ^^^ value) &&& (b ^^^ value))
    negative := value.isNegative
    zero := value == 0 }

end AluResult

namespace AluOperation

def ofField (w : Word) : AluOperation :=
  match w &&& 0xF with
  | 0x0 => and | 0x1 => eor | 0x2 => sub | 0x3 => rsb
  | 0x4 => add | 0x5 => adc | 0x6 => sbc | 0x7 => rsc
  | 0x8 => tst | 0x9 => teq | 0xA => cmp | 0xB => cmn
  | 0xC => orr | 0xD => mov | 0xE => bic | _ => mvn

def toField : AluOperation → Word
  | and => 0x0 | eor => 0x1 | sub => 0x2 | rsb => 0x3
  | add => 0x4 | adc => 0x5 | sbc => 0x6 | rsc => 0x7
  | tst => 0x8 | teq => 0x9 | cmp => 0xA | cmn => 0xB
  | orr => 0xC | mov => 0xD | bic => 0xE | mvn => 0xF

theorem ofField_toField (op : AluOperation) : ofField op.toField = op := by cases op <;> rfl

def mnemonic : AluOperation → String
  | and => "AND" | eor => "EOR" | sub => "SUB" | rsb => "RSB"
  | add => "ADD" | adc => "ADC" | sbc => "SBC" | rsc => "RSC"
  | tst => "TST" | teq => "TEQ" | cmp => "CMP" | cmn => "CMN"
  | orr => "ORR" | mov => "MOV" | bic => "BIC" | mvn => "MVN"

/-- Logical operations take the carry from the shifter and leave overflow alone. -/
def isLogical : AluOperation → Bool
  | and | eor | tst | teq | orr | mov | bic | mvn => true
  | sub | rsb | add | adc | sbc | rsc | cmp | cmn => false

/-- The two tests and the two comparisons only set flags. -/
def writesResult : AluOperation → Bool
  | tst | teq | cmp | cmn => false
  | _ => true

/-- The two moves ignore their first operand. -/
def usesFirst : AluOperation → Bool
  | mov | mvn => false
  | _ => true

/-- Computes on a first operand and a shifted second one; `carry` is the carry flag before the
instruction. -/
def compute (op : AluOperation) (first : Word) (second : Shifted) (carry : Bool) : AluResult :=
  match op with
  | and | tst => .logical (first &&& second.value) second.carry
  | eor | teq => .logical (first ^^^ second.value) second.carry
  | orr => .logical (first ||| second.value) second.carry
  | bic => .logical (first &&& ~~~second.value) second.carry
  | mov => .logical second.value second.carry
  | mvn => .logical (~~~second.value) second.carry
  | sub | cmp => .addWithCarry first (~~~second.value) true
  | rsb => .addWithCarry second.value (~~~first) true
  | add | cmn => .addWithCarry first second.value false
  | adc => .addWithCarry first second.value carry
  | sbc => .addWithCarry first (~~~second.value) carry
  | rsc => .addWithCarry second.value (~~~first) carry

end AluOperation

end ArmConsole
