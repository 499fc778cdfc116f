import ArmConsole.Word

/-!
Accesses that may fail. The machine of this library is safe by its types: an index carries its
bound, and the bits of a word are named by constants. The checked machine forgets these bounds.
Its indices are plain numbers, computed as the processor computes them, and every one is tested
where it is used, as is every number of a bit. A computation without a result has run out of an
array or broken an assertion, and a loop comes with the measure that brings it to an end. The
functions of the checked machine end in a question mark and stand next to the lemma that they
always have the result of the machine.
-/

namespace ArmConsole

/-- The result of a computation, unless it ran into an error. -/
abbrev Checked (α : Type) := Option α

@[simp] theorem ite_some {α : Type} {p : Prop} [Decidable p] (a b : α) :
    (if p then some a else some b) = some (if p then a else b) := (apply_ite some p a b).symm

/-- Element `i` replaced, if there is one. -/
def replace? {α : Type} {n : Nat} (v : Vector α n) (i : Nat) (x : α) : Checked (Vector α n) :=
  if h : i < n then some (v.set i x h) else none

theorem replace?_eq {α : Type} {n : Nat} (v : Vector α n) {i : Nat} (x : α) (h : i < n) :
    replace? v i x = some (v.set i x h) := dif_pos h

theorem replace?_of_val {α : Type} {n : Nat} (v : Vector α n) {i : Nat} {j : Fin n} (x : α)
    (same : i = j.val) : replace? v i x = some (v.set j.val x j.isLt) := by
  subst same
  exact replace?_eq v x j.isLt

theorem getElem?_of_val {α : Type} {n : Nat} (v : Vector α n) {i : Nat} {j : Fin n}
    (same : i = j.val) : v[i]? = some v[j] := by
  subst same
  exact Vector.getElem?_eq_getElem j.isLt

@[simp] theorem replace?_fin {α : Type} {n : Nat} (v : Vector α n) (i : Fin n) (x : α) :
    replace? v i.val x = some (v.set i.val x i.isLt) := replace?_eq v x i.isLt

namespace Word

def bit? (w i : Word) : Checked Bool := if i < 32 then some (w.bit i) else none

@[simp] theorem bit?_eq (w : Word) {i : Word} (h : i < 32) : w.bit? i = some (w.bit i) := if_pos h

def withBit? (w i : Word) (value : Bool) : Checked Word :=
  if i < 32 then some (w.withBit i value) else none

@[simp] theorem withBit?_eq (w : Word) {i : Word} (value : Bool) (h : i < 32) :
    w.withBit? i value = some (w.withBit i value) := if_pos h

/-- The bits from `first` to `last`, as a number. -/
def bits? (w first last : Word) : Checked Word :=
  if first ≤ last ∧ last < 32 then
    let width := last - first + 1
    some (if width = 32 then w >>> first else (w >>> first) &&& ((1 <<< width) - 1))
  else none

@[simp] theorem bits?_eq (w : Word) {first last : Word} (h : first ≤ last ∧ last < 32)
    (narrow : last - first + 1 ≠ 32) :
    w.bits? first last = some (w.field first (last - first + 1)) := by
  rw [bits?, if_pos h]
  exact congrArg some (if_neg narrow)

/-- The low `bits` bits as a two's complement number, if a word has that many. -/
def signExtend? (w bits : Word) : Checked Word :=
  if 0 < bits ∧ bits ≤ 32 then some (w.signExtend bits) else none

@[simp] theorem signExtend?_eq (w : Word) {bits : Word} (h : 0 < bits ∧ bits ≤ 32) :
    w.signExtend? bits = some (w.signExtend bits) := if_pos h

end Word

def HalfWord.bit? (w i : HalfWord) : Checked Bool := if i < 16 then some (w.bit i) else none

@[simp] theorem HalfWord.bit?_eq (w : HalfWord) {i : HalfWord} (h : i < 16) :
    w.bit? i = some (w.bit i) := if_pos h

namespace RegisterNumber

def ofNat? (n : Nat) : Checked RegisterNumber := if h : n < 16 then some ⟨n, h⟩ else none

@[simp] theorem ofNat?_val (r : RegisterNumber) : ofNat? r.val = some r := dif_pos r.isLt

/-- The register in the four bits from bit `first` up. -/
def field? (w first : Word) : Checked RegisterNumber := do
  let n ← w.bits? first (first + 3)
  ofNat? n.toNat

@[simp] theorem field?_eq (w : Word) {first : Word} (h : first ≤ first + 3 ∧ first + 3 < 32) :
    field? w first = some (w.registerField first) := by
  have width : first + 3 - first + 1 = 4 := by
    rw [UInt32.add_comm first, UInt32.add_sub_cancel]
    rfl
  have field : w.field first 4 = (w >>> first) &&& 15 := rfl
  rw [field?, w.bits?_eq h (by rw [width]; decide), width, field]
  exact ofNat?_val (w.registerField first)

end RegisterNumber

end ArmConsole
