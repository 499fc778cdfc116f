import ArmConsole.Processor.Registers
import ArmConsole.Proofs.Checked.Access
import Mathlib.Tactic.IntervalCases

/-!
Checked register banks. Registers are put out of sight and made visible by copying slices, a slot
of User's copies is computed from the register's number, and a mode tells the index of its saved
status word.
-/

namespace ArmConsole

/-- `target` with `count` elements from `first` up replaced by those of `source` from `start` up. -/
def copy? {n m : Nat} (target : Vector Word n) (first : Nat) (source : Vector Word m)
    (start count : Nat) : Checked (Vector Word n) :=
  (List.range count).foldlM (fun target k => do
    let w ← source[start + k]?
    replace? target (first + k) w) target

theorem copy?_eq {n m : Nat} (target : Vector Word n) {first : Nat} (source : Vector Word m)
    {start count : Nat} (fits : first + count ≤ n) (covers : start + count ≤ m) :
    copy? target first source start count =
      some (.ofFn fun i : Fin n =>
        if h : first ≤ i.val ∧ i.val < first + count then source[start + (i.val - first)]
        else target[i]) := by
  induction count with
  | zero =>
    refine congrArg some (Vector.ext fun i hi => ?_)
    rw [Vector.getElem_ofFn, dif_neg (by simp only [Nat.add_zero]; omega)]
    rfl
  | succ count ih =>
    have copied := ih (by omega) (by omega)
    unfold copy? at copied
    rw [copy?, List.range_succ, List.foldlM_append, copied]
    simp only [List.foldlM_cons, List.foldlM_nil, Option.bind_eq_bind, Option.bind_some,
      Vector.getElem?_eq_getElem (by omega : start + count < m),
      replace?_eq _ _ (by omega : first + count < n)]
    refine congrArg some (Vector.ext fun i hi => ?_)
    rw [Vector.getElem_set, Vector.getElem_ofFn, Vector.getElem_ofFn]
    by_cases last : first + count = i
    · rw [if_pos last, dif_pos (by simp only; omega)]
      exact getElem_congr_idx (by simp only; omega)
    · rw [if_neg last]
      by_cases inside : first ≤ i ∧ i < first + count
      · rw [dif_pos inside, dif_pos ⟨inside.1, by simp only; omega⟩]
      · rw [dif_neg inside, dif_neg (by simp only; omega)]

theorem copy?_of_getElem {n m : Nat} {target result : Vector Word n} {source : Vector Word m}
    {first start count : Nat} (fits : first + count ≤ n) (covers : start + count ≤ m)
    (same : ∀ i (hi : i < n),
      (if h : first ≤ i ∧ i < first + count then source[start + (i - first)] else target[i]) =
        result[i]) :
    copy? target first source start count = some result := by
  rw [copy?_eq target source fits covers]
  refine congrArg some (Vector.ext fun i hi => ?_)
  rw [Vector.getElem_ofFn]
  exact same i hi

namespace RegisterBank

def stash? (bank : RegisterBank) (live : Registers) : Mode → Checked RegisterBank
  | .user => do return { bank with user := ← copy? bank.user 0 live 8 7 }
  | .fiq => do return { bank with fiq := ← copy? bank.fiq 0 live 8 7 }
  | .irq => do
    let user ← copy? bank.user 0 live 8 5
    return { bank with user, irq := ← copy? bank.irq 0 live 13 2 }
  | .supervisor => do
    let user ← copy? bank.user 0 live 8 5
    return { bank with user, supervisor := ← copy? bank.supervisor 0 live 13 2 }
  | .abort => do
    let user ← copy? bank.user 0 live 8 5
    return { bank with user, abort := ← copy? bank.abort 0 live 13 2 }
  | .undefined => do
    let user ← copy? bank.user 0 live 8 5
    return { bank with user, undefined := ← copy? bank.undefined 0 live 13 2 }

def load? (bank : RegisterBank) (live : Registers) : Mode → Checked Registers
  | .user => copy? live 8 bank.user 0 7
  | .fiq => copy? live 8 bank.fiq 0 7
  | .irq => do copy? (← copy? live 8 bank.user 0 5) 13 bank.irq 0 2
  | .supervisor => do copy? (← copy? live 8 bank.user 0 5) 13 bank.supervisor 0 2
  | .abort => do copy? (← copy? live 8 bank.user 0 5) 13 bank.abort 0 2
  | .undefined => do copy? (← copy? live 8 bank.user 0 5) 13 bank.undefined 0 2

theorem copy?_upperSeven (slots : Vector Word 7) (live : Registers) :
    copy? slots 0 live 8 7 = some (upperSeven live) := by
  apply copy?_of_getElem (by decide) (by decide)
  intro i hi
  interval_cases i <;> rfl

theorem copy?_upperTwo (slots : Vector Word 2) (live : Registers) :
    copy? slots 0 live 13 2 = some (upperTwo live) := by
  apply copy?_of_getElem (by decide) (by decide)
  intro i hi
  interval_cases i <;> rfl

theorem copy?_shareLower (user : Vector Word 7) (live : Registers) :
    copy? user 0 live 8 5 = some (shareLower user live) := by
  apply copy?_of_getElem (by decide) (by decide)
  intro i hi
  interval_cases i <;> rfl

theorem copy?_reveal (live : Registers) (slots : Vector Word 7) :
    copy? live 8 slots 0 7 = some (reveal live slots (slots.get 5) (slots.get 6)) := by
  apply copy?_of_getElem (by decide) (by decide)
  intro i hi
  interval_cases i <;> rfl

theorem copy?_copy?_reveal (live : Registers) (user : Vector Word 7) (upper : Vector Word 2) :
    (copy? live 8 user 0 5 >>= fun live => copy? live 13 upper 0 2) =
      some (reveal live user (upper.get 0) (upper.get 1)) := by
  rw [copy?_eq live user (by decide) (by decide), Option.bind_eq_bind, Option.bind_some]
  apply copy?_of_getElem (by decide) (by decide)
  intro i hi
  by_cases banked : 13 ≤ i ∧ i < 13 + 2
  · rw [dif_pos banked]
    obtain rfl | rfl : i = 13 ∨ i = 14 := by omega
    · rfl
    · rfl
  · rw [dif_neg banked]
    refine (Vector.getElem_ofFn _).trans ?_
    interval_cases i <;> first | rfl | omega

@[simp] theorem stash?_eq (bank : RegisterBank) (live : Registers) (mode : Mode) :
    bank.stash? live mode = some (bank.stash live mode) := by
  cases mode <;> simp only [stash?, copy?_upperSeven, copy?_shareLower, copy?_upperTwo] <;> rfl

@[simp] theorem load?_eq (bank : RegisterBank) (live : Registers) (mode : Mode) :
    bank.load? live mode = some (bank.load live mode) := by
  cases mode <;> simp only [load?, copy?_reveal, copy?_copy?_reveal] <;> rfl

def switch? (bank : RegisterBank) (live : Registers) (old new : Mode) :
    Checked (Registers × RegisterBank) :=
  if old = new then some (live, bank)
  else do
    let bank ← bank.stash? live old
    return (← bank.load? live new, bank)

@[simp] theorem switch?_eq (bank : RegisterBank) (live : Registers) (old new : Mode) :
    bank.switch? live old new = some (bank.switch live old new) := by
  unfold switch? switch
  split
  · rfl
  · rw [stash?_eq]
    simp only [Option.bind_eq_bind, Option.bind_some, load?_eq]
    rfl

/-! ### User's copies -/

def readUser? (bank : RegisterBank) (live : Registers) (current : Mode) (reg : RegisterNumber) :
    Checked Word :=
  match userSlot? current reg with
  | some _ => bank.user[reg.val - 8]?
  | none => live[reg.val]?

def writeUser? (bank : RegisterBank) (live : Registers) (current : Mode) (reg : RegisterNumber)
    (value : Word) : Checked (Registers × RegisterBank) :=
  match userSlot? current reg with
  | some _ => do return (live, { bank with user := ← replace? bank.user (reg.val - 8) value })
  | none => do return (← replace? live reg.val value, bank)

theorem val_of_userSlot? {current : Mode} {reg : RegisterNumber} {slot : Fin 7}
    (banked : userSlot? current reg = some slot) : reg.val - 8 = slot.val := by
  unfold userSlot? at banked
  split at banked
  · contradiction
  all_goals
    split at banked
    · cases banked
      rfl
    · contradiction

@[simp] theorem readUser?_eq (bank : RegisterBank) (live : Registers) (current : Mode)
    (reg : RegisterNumber) :
    bank.readUser? live current reg = some (bank.readUser live current reg) := by
  unfold readUser? readUser
  cases h : userSlot? current reg with
  | none => exact getElem?_of_val live rfl
  | some slot => exact getElem?_of_val bank.user (val_of_userSlot? h)

@[simp] theorem writeUser?_eq (bank : RegisterBank) (live : Registers) (current : Mode)
    (reg : RegisterNumber) (value : Word) :
    bank.writeUser? live current reg value = some (bank.writeUser live current reg value) := by
  unfold writeUser? writeUser
  cases h : userSlot? current reg with
  | none =>
    simp only [replace?_fin]
    rfl
  | some slot =>
    simp only [replace?_of_val bank.user value (val_of_userSlot? h)]
    rfl

/-! ### Saved status words -/

/-- The index of the saved status word of a mode. -/
def savedIndex? : Mode → Option Nat
  | .user => none
  | .fiq => some 0
  | .irq => some 1
  | .supervisor => some 2
  | .abort => some 3
  | .undefined => some 4

def readSaved? (bank : RegisterBank) (mode : Mode) : Checked (Option StatusWord) :=
  match savedIndex? mode with
  | some i => do return some (← bank.saved[i]?)
  | none => some none

def writeSaved? (bank : RegisterBank) (mode : Mode) (status : StatusWord) :
    Checked RegisterBank :=
  match savedIndex? mode with
  | some i => do return { bank with saved := ← replace? bank.saved i status }
  | none => some bank

theorem savedIndex?_eq (mode : Mode) : savedIndex? mode = mode.savedSlot?.map Fin.val := by
  cases mode <;> rfl

@[simp] theorem readSaved?_eq (bank : RegisterBank) (mode : Mode) :
    bank.readSaved? mode = some (bank.saved? mode) := by
  rw [readSaved?, savedIndex?_eq, saved?]
  cases mode.savedSlot? with
  | none => rfl
  | some slot =>
    simp only [Option.map_some, getElem?_of_val bank.saved (rfl : slot.val = slot.val)]
    rfl

@[simp] theorem writeSaved?_eq (bank : RegisterBank) (mode : Mode) (status : StatusWord) :
    bank.writeSaved? mode status = some (bank.withSaved mode status) := by
  rw [writeSaved?, savedIndex?_eq, withSaved]
  cases mode.savedSlot? with
  | none => rfl
  | some slot =>
    simp only [Option.map_some, replace?_fin]
    rfl

end RegisterBank

end ArmConsole
