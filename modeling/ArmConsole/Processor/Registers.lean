import ArmConsole.Processor.StatusWord

/-!
Registers and their banks. Sixteen registers are visible at a time. FIQ mode has its own copies
of R8 to R14, and the other privileged modes have their own R13 and R14. The visible copy of a
register is always the one in `Registers`; the bank holds the copies that are out of sight,
User's among them while another mode's are visible. A slot whose register is visible holds a
stale value.
-/

namespace ArmConsole

abbrev Registers := Vector Word 16

structure RegisterBank where
  /-- User's R8 to R14. -/
  user : Vector Word 7
  /-- FIQ's R8 to R14. -/
  fiq : Vector Word 7
  /-- R13 and R14 of the remaining modes. -/
  irq : Vector Word 2
  supervisor : Vector Word 2
  abort : Vector Word 2
  undefined : Vector Word 2
  /-- Saved status words, at `Mode.savedSlot?`. -/
  saved : Vector StatusWord 5
  deriving DecidableEq

namespace RegisterBank

def zero : RegisterBank where
  user := .replicate 7 0
  fiq := .replicate 7 0
  irq := .replicate 2 0
  supervisor := .replicate 2 0
  abort := .replicate 2 0
  undefined := .replicate 2 0
  saved := .replicate 5 ⟨0⟩

instance : Inhabited RegisterBank := ⟨zero⟩

/-- Seven registers from R8 up. -/
def upperSeven (live : Registers) : Vector Word 7 :=
  #v[live[8], live[9], live[10], live[11], live[12], live[13], live[14]]

def upperTwo (live : Registers) : Vector Word 2 := #v[live[13], live[14]]

/-- User's slots with R8 to R12 taken from the visible registers. -/
def shareLower (user : Vector Word 7) (live : Registers) : Vector Word 7 :=
  #v[live[8], live[9], live[10], live[11], live[12], user[5], user[6]]

/-- Puts the visible registers that `mode` owns, or shares with User, out of sight. -/
def stash (bank : RegisterBank) (live : Registers) : Mode → RegisterBank
  | .user => { bank with user := upperSeven live }
  | .fiq => { bank with fiq := upperSeven live }
  | .irq => { bank with user := shareLower bank.user live, irq := upperTwo live }
  | .supervisor => { bank with user := shareLower bank.user live, supervisor := upperTwo live }
  | .abort => { bank with user := shareLower bank.user live, abort := upperTwo live }
  | .undefined => { bank with user := shareLower bank.user live, undefined := upperTwo live }

/-- The visible registers with R8 to R12 and R13, R14 replaced. -/
def reveal (live : Registers) (lower : Vector Word 7) (r13 r14 : Word) : Registers :=
  #v[live[0], live[1], live[2], live[3], live[4], live[5], live[6], live[7],
    lower[0], lower[1], lower[2], lower[3], lower[4], r13, r14, live[15]]

/-- Makes the registers of `mode` visible. -/
def load (bank : RegisterBank) (live : Registers) : Mode → Registers
  | .user => reveal live bank.user bank.user[5] bank.user[6]
  | .fiq => reveal live bank.fiq bank.fiq[5] bank.fiq[6]
  | .irq => reveal live bank.user bank.irq[0] bank.irq[1]
  | .supervisor => reveal live bank.user bank.supervisor[0] bank.supervisor[1]
  | .abort => reveal live bank.user bank.abort[0] bank.abort[1]
  | .undefined => reveal live bank.user bank.undefined[0] bank.undefined[1]

/-- Takes the registers of `old` out of sight and makes those of `new` visible. -/
def switch (bank : RegisterBank) (live : Registers) (old new : Mode) : Registers × RegisterBank :=
  if old = new then (live, bank)
  else
    let bank := bank.stash live old
    (bank.load live new, bank)

/-- Where User's copy of `reg` is while `current` is the mode: a slot of the bank, or `none` if
it is the visible one. -/
def userSlot? (current : Mode) (reg : RegisterNumber) : Option (Fin 7) :=
  match current with
  | .user => none
  | .fiq => if h : 8 ≤ reg.val ∧ reg.val ≤ 14 then some ⟨reg.val - 8, by omega⟩ else none
  | _ => if h : 13 ≤ reg.val ∧ reg.val ≤ 14 then some ⟨reg.val - 8, by omega⟩ else none

def readUser (bank : RegisterBank) (live : Registers) (current : Mode) (reg : RegisterNumber) :
    Word :=
  match userSlot? current reg with
  | some slot => bank.user[slot]
  | none => live[reg]

def writeUser (bank : RegisterBank) (live : Registers) (current : Mode) (reg : RegisterNumber)
    (value : Word) : Registers × RegisterBank :=
  match userSlot? current reg with
  | some slot => (live, { bank with user := bank.user.set slot value })
  | none => (live.set reg value, bank)

def saved? (bank : RegisterBank) (mode : Mode) : Option StatusWord :=
  mode.savedSlot?.map fun slot => bank.saved[slot]

/-- Replaces the saved status word of a mode; User has none and nothing changes. -/
def withSaved (bank : RegisterBank) (mode : Mode) (status : StatusWord) : RegisterBank :=
  match mode.savedSlot? with
  | some slot => { bank with saved := bank.saved.set slot status }
  | none => bank

end RegisterBank

end ArmConsole
