import ArmConsole.Word

/-!
Condition codes. Bits 28-31 of an instruction name a condition on the four flags N, Z, C and V;
the instruction runs only when it holds. A condition is one row of a table: bit `f` of the row
says whether it holds for the flag nibble `f`, in which N is bit 3 and V is bit 0.
-/

namespace ArmConsole

inductive Condition where
  | eq | ne | cs | cc | mi | pl | vs | vc
  | hi | ls | ge | lt | gt | le | al | nv
  deriving DecidableEq, Inhabited

namespace Condition

def ofField (w : Word) : Condition :=
  match w &&& 0xF with
  | 0x0 => eq | 0x1 => ne | 0x2 => cs | 0x3 => cc
  | 0x4 => mi | 0x5 => pl | 0x6 => vs | 0x7 => vc
  | 0x8 => hi | 0x9 => ls | 0xA => ge | 0xB => lt
  | 0xC => gt | 0xD => le | 0xE => al | _ => nv

def toField : Condition → Word
  | eq => 0x0 | ne => 0x1 | cs => 0x2 | cc => 0x3
  | mi => 0x4 | pl => 0x5 | vs => 0x6 | vc => 0x7
  | hi => 0x8 | ls => 0x9 | ge => 0xA | lt => 0xB
  | gt => 0xC | le => 0xD | al => 0xE | nv => 0xF

theorem ofField_toField (c : Condition) : ofField c.toField = c := by cases c <;> rfl

/-- The flag nibbles for which a condition holds. -/
def row : Condition → Word
  | eq => 0xF0F0 | ne => 0x0F0F | cs => 0xCCCC | cc => 0x3333
  | mi => 0xFF00 | pl => 0x00FF | vs => 0xAAAA | vc => 0x5555
  | hi => 0x0C0C | ls => 0xF3F3 | ge => 0xAA55 | lt => 0x55AA
  | gt => 0x0A05 | le => 0xF5FA | al => 0xFFFF | nv => 0x0000

/-- Whether the condition holds for the flags in the low four bits of `flags`. -/
def passes (c : Condition) (flags : Word) : Bool := c.row.bit (flags &&& 0xF)

/-- What a mnemonic carries for the condition. "Always" is not written. -/
def suffix : Condition → String
  | eq => "EQ" | ne => "NE" | cs => "CS" | cc => "CC"
  | mi => "MI" | pl => "PL" | vs => "VS" | vc => "VC"
  | hi => "HI" | ls => "LS" | ge => "GE" | lt => "LT"
  | gt => "GT" | le => "LE" | al => "" | nv => "NV"

end Condition

end ArmConsole
