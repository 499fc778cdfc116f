import ArmConsole.Word

/-!
Processor modes. The low five bits of the status word select one of six modes; there is no
other valid pattern. Every mode but User has a saved status word of its own.
-/

namespace ArmConsole

inductive Mode where
  | user | fiq | irq | supervisor | abort | undefined
  deriving DecidableEq, Inhabited

/-- Five bits that select no mode. -/
structure InvalidMode where
  bits : Word
  deriving DecidableEq

namespace InvalidMode

/-- The five bits in binary, most significant first. -/
def digits (e : InvalidMode) : String :=
  .ofList ([4, 3, 2, 1, 0].map fun i => if e.bits.bit i then '1' else '0')

def message (e : InvalidMode) : String := s!"invalid mode bits 0b{e.digits}"

end InvalidMode

namespace Mode

def all : List Mode := [user, fiq, irq, supervisor, abort, undefined]

def bits : Mode → Word
  | user => 0b10000
  | fiq => 0b10001
  | irq => 0b10010
  | supervisor => 0b10011
  | abort => 0b10111
  | undefined => 0b11011

/-- The mode that the low five bits of `w` select. -/
def ofBits? (w : Word) : Option Mode :=
  match w &&& 0x1F with
  | 0b10000 => some user
  | 0b10001 => some fiq
  | 0b10010 => some irq
  | 0b10011 => some supervisor
  | 0b10111 => some abort
  | 0b11011 => some undefined
  | _ => none

def ofBits (w : Word) : Except InvalidMode Mode :=
  match ofBits? w with
  | some mode => .ok mode
  | none => .error ⟨w &&& 0x1F⟩

def isPrivileged (mode : Mode) : Bool := mode != user

/-- Where the saved status word of a mode is kept; User has none. -/
def savedSlot? : Mode → Option (Fin 5)
  | user => none
  | fiq => some 0
  | irq => some 1
  | supervisor => some 2
  | abort => some 3
  | undefined => some 4

def abbreviation : Mode → String
  | user => "USR"
  | fiq => "FIQ"
  | irq => "IRQ"
  | supervisor => "SVC"
  | abort => "ABT"
  | undefined => "UND"

def name : Mode → String
  | user => "User"
  | fiq => "Fiq"
  | irq => "Irq"
  | supervisor => "Supervisor"
  | abort => "Abort"
  | undefined => "Undefined"

theorem ofBits?_bits (mode : Mode) : ofBits? mode.bits = some mode := by cases mode <;> rfl

end Mode

end ArmConsole
