import ArmConsole.Proofs.Checked.Memory
import ArmConsole.Proofs.Memory.Words

/-!
Checked math calls. An operand that is not an aligned word of RAM is refused, which ends the call;
every other operand is read from the store with its index tested. Operands are read in the order
in which they are needed. `guarded` says when a read is refused and what it yields otherwise, and
reading a list of operands is guarded by the conditions of all.
-/

namespace ArmConsole

/-- The result of a read, unless the call refuses it. -/
abbrev Operand (α : Type) := OptionT Checked α

namespace Operand

variable {α β : Type}

/-- A result that is refused unless a condition holds. -/
def guarded (condition : Bool) (x : α) : Operand α := if condition then pure x else failure

theorem run_guarded (condition : Bool) (x : α) :
    (guarded condition x).run = some (if condition then some x else none) := by
  cases condition <;> rfl

theorem guarded_bind (condition : Bool) (x : α) (f : α → Operand β) :
    guarded condition x >>= f = if condition then f x else failure := by
  cases condition with
  | false => rfl
  | true => exact pure_bind x f

theorem mapM_guarded {l : List α} {f : α → Operand β} {condition : α → Bool} {g : α → β}
    (same : ∀ a ∈ l, f a = guarded (condition a) (g a)) :
    l.mapM f = guarded (l.all condition) (l.map g) := by
  induction l with
  | nil => rfl
  | cons a l ih =>
    rw [List.mapM_cons, same a List.mem_cons_self,
      ih fun b member => same b (List.mem_cons_of_mem a member), guarded_bind, List.all_cons]
    cases condition a with
    | false => rfl
    | true =>
      rw [if_pos rfl, guarded_bind]
      rfl

theorem foldlM_guarded {l : List α} {f : β → α → Operand β} {condition : α → Bool}
    {g : β → α → β} (same : ∀ b, ∀ a ∈ l, f b a = guarded (condition a) (g b a)) (init : β) :
    l.foldlM f init = guarded (l.all condition) (l.foldl g init) := by
  induction l generalizing init with
  | nil => rfl
  | cons a l ih =>
    rw [List.foldlM_cons, same init a List.mem_cons_self, guarded_bind, List.all_cons,
      ih fun b c member => same b c (List.mem_cons_of_mem a member)]
    cases condition a <;> rfl

end Operand

namespace GuestMemory

open Operand (guarded)

def fixed? (m : GuestMemory) (address : Word) : Operand Int64 :=
  match wordAddress? address with
  | some _ => do
    let w ← OptionT.lift (m.peekStore? 4 address)
    return w.toInt32.toInt64
  | none => failure

theorem fixed?_eq (m : GuestMemory) (address : Word) :
    m.fixed? address = guarded (wordAddress? address).isSome (m.fixedAt address) := by
  unfold fixed? fixedAt
  cases h : wordAddress? address with
  | none => rfl
  | some a =>
    rw [m.peekStore?_word (toNat_of_wordAddress? h)]
    rfl

def vector? (m : GuestMemory) (n : Nat) (address : Word) : Operand (List Int64) :=
  (List.range n).mapM fun i => m.fixed? (address + .ofNat (4 * i))

theorem vector?_eq (m : GuestMemory) (n : Nat) (address : Word) :
    m.vector? n address = guarded (wordsInRam address n)
      ((List.range n).map fun i => m.fixedAt (address + .ofNat (4 * i))) :=
  Operand.mapM_guarded fun _ _ => m.fixed?_eq _

def rowTimesMatrix? (m : GuestMemory) (n : Nat) (vector matrix : Word) : Operand (List Int64) := do
  let v ← m.vector? n vector
  (List.range n).mapM fun column => do
    let sum ← (List.range n).foldlM (fun sum row => do
      let x ← OptionT.lift v[row]?
      let y ← m.fixed? (matrix + .ofNat (4 * (row * n + column)))
      return sum + x * y) 0
    return sum >>> 16

/-- The elements of a square matrix, row by row. -/
theorem forall_lt_square (n : Nat) (p : Nat → Prop) :
    (∀ i < n * n, p i) ↔ ∀ row < n, ∀ column < n, p (row * n + column) := by
  constructor
  · intro all row hr column hc
    refine all _ ?_
    calc row * n + column < row * n + n := Nat.add_lt_add_left hc _
      _ = (row + 1) * n := (Nat.succ_mul row n).symm
      _ ≤ n * n := Nat.mul_le_mul_right n hr
  · intro all i hi
    have size : 0 < n := Nat.pos_of_mul_pos_left (Nat.zero_lt_of_lt hi)
    have element := all (i / n) (Nat.div_lt_of_lt_mul hi) (i % n) (Nat.mod_lt i size)
    rwa [Nat.mul_comm, Nat.div_add_mod] at element

/-- A matrix is in RAM if its columns are. -/
theorem wordsInRam_columns (matrix : Word) (n : Nat) :
    wordsInRam matrix (n * n) =
      (List.range n).all fun column => (List.range n).all fun row =>
        wordInRam (matrix.past (row * n + column)) := by
  rw [Bool.eq_iff_iff, wordsInRam_iff, forall_lt_square]
  simp only [List.all_eq_true, List.mem_range]
  exact ⟨fun all column hc row hr => all row hr column hc,
    fun all row hr column hc => all column hc row hr⟩

theorem rowTimesMatrix?_eq (m : GuestMemory) (n : Nat) (vector matrix : Word) :
    m.rowTimesMatrix? n vector matrix =
      guarded (wordsInRam vector n && wordsInRam matrix (n * n))
        (m.rowTimesMatrix n vector matrix) := by
  let element (row column : Nat) : Word := matrix + .ofNat (4 * (row * n + column))
  let v := (List.range n).map fun i => m.fixedAt (vector + .ofNat (4 * i))
  let readable (column : Nat) : Bool :=
    (List.range n).all fun row => (wordAddress? (element row column)).isSome
  have term (column : Nat) (sum : Int64) (row : Nat) (h : row < n) :
      (do
        let x ← OptionT.lift v[row]?
        let y ← m.fixed? (element row column)
        return sum + x * y : Operand Int64) =
      guarded (wordAddress? (element row column)).isSome
        (sum + m.fixedAt (vector + .ofNat (4 * row)) * m.fixedAt (element row column)) := by
    have read : v[row]? = some (m.fixedAt (vector + .ofNat (4 * row))) := by
      rw [List.getElem?_map, List.getElem?_range h]
      rfl
    rw [read, m.fixed?_eq]
    exact Operand.guarded_bind ..
  have entry (column : Nat) :
      (do
        let sum ← (List.range n).foldlM (fun sum row => do
          let x ← OptionT.lift v[row]?
          let y ← m.fixed? (element row column)
          return sum + x * y) 0
        return sum >>> 16 : Operand Int64) =
      guarded (readable column) (m.rowTimesColumn n vector matrix column) := by
    rw [Operand.foldlM_guarded fun sum row member =>
      term column sum row (List.mem_range.mp member)]
    exact Operand.guarded_bind ..
  have columns := Operand.mapM_guarded (l := List.range n) fun column _ => entry column
  rw [rowTimesMatrix?, vector?_eq, Operand.guarded_bind]
  cases wordsInRam vector n with
  | false => rfl
  | true =>
    rw [wordsInRam_columns]
    exact columns

def writeFixed? (m : GuestMemory) (address : Word) : List Int64 → Checked (Bool × GuestMemory)
  | [] => some (true, m)
  | v :: vs =>
    match wordAddress? address with
    | some _ => do
      let m ← m.pokeStore? 4 address v.toUInt64.toUInt32
      m.writeFixed? (address + 4) vs
    | none => some (false, m)

@[simp] theorem writeFixed?_eq (m : GuestMemory) (address : Word) (vs : List Int64) :
    m.writeFixed? address vs = some (m.writeFixed address vs) := by
  induction vs generalizing m address with
  | nil => rfl
  | cons v vs ih =>
    unfold writeFixed? writeFixed
    cases h : wordAddress? address with
    | none => rfl
    | some a =>
      simp only [m.pokeStore?_word _ (toNat_of_wordAddress? h), Option.bind_eq_bind,
        Option.bind_some]
      exact ih _ _

def multiplyVectors? (n : Nat) (m : GuestMemory) (dest source matrix : Word) :
    Nat → Checked (Bool × GuestMemory)
  | 0 => some (true, m)
  | count + 1 => do
    match ← (m.rowTimesMatrix? n source matrix).run with
    | none => return (false, m)
    | some product =>
      match ← m.writeFixed? dest product with
      | (true, m) =>
        multiplyVectors? n m (dest + .ofNat (4 * n)) (source + .ofNat (4 * n)) matrix count
      | (false, m) => return (false, m)

@[simp] theorem multiplyVectors?_eq (n : Nat) (m : GuestMemory) (dest source matrix : Word)
    (count : Nat) :
    multiplyVectors? n m dest source matrix count =
      some (multiplyVectors n m dest source matrix count) := by
  induction count generalizing m dest source with
  | zero => rfl
  | succ count ih =>
    rw [multiplyVectors?, multiplyVectors, rowTimesMatrix?_eq, Operand.run_guarded]
    cases wordsInRam source n && wordsInRam matrix (n * n) with
    | false => rfl
    | true =>
      simp only [if_true, writeFixed?_eq, Option.bind_eq_bind, Option.bind_some]
      cases m.writeFixed dest (m.rowTimesMatrix n source matrix) with
      | mk finished m =>
        cases finished with
        | false => rfl
        | true => exact ih _ _ _

def multiplyMatrices? (n : Nat) (m : GuestMemory) (dest left right : Word) :
    Checked (Bool × GuestMemory) := do
  let rows := (List.range n).mapM fun row =>
    m.rowTimesMatrix? n (left + .ofNat (4 * n * row)) right
  match ← rows.run with
  | none => return (false, m)
  | some rows => m.writeFixed? dest rows.flatten

/-- All rows of a product can be computed if both factors are in RAM. -/
theorem all_rows (n : Nat) (left right : Word) :
    ((List.range n).all fun row =>
      wordsInRam (left + .ofNat (4 * n * row)) n && wordsInRam right (n * n)) =
      (wordsInRam left (n * n) && wordsInRam right (n * n)) := by
  have rowInRam (row : Nat) :
      wordsInRam (left + .ofNat (4 * n * row)) n = true ↔
        ∀ column < n, wordInRam (left.past (row * n + column)) = true := by
    rw [rowAddress, wordsInRam_iff]
    simp only [Word.past_past]
  have whole : wordsInRam left (n * n) = true ↔ ∀ row < n, ∀ column < n,
      wordInRam (left.past (row * n + column)) = true :=
    wordsInRam_iff.trans (forall_lt_square n _)
  rw [Bool.eq_iff_iff]
  simp only [List.all_eq_true, List.mem_range, Bool.and_eq_true, rowInRam, whole]
  constructor
  · intro rows
    refine ⟨fun row hr => (rows row hr).1, ?_⟩
    cases n with
    | zero => rfl
    | succ n => exact (rows 0 (Nat.succ_pos n)).2
  · intro ⟨factor, other⟩ row hr
    exact ⟨factor row hr, other⟩

@[simp] theorem multiplyMatrices?_eq (n : Nat) (m : GuestMemory) (dest left right : Word) :
    multiplyMatrices? n m dest left right = some (multiplyMatrices n m dest left right) := by
  have rows := Operand.mapM_guarded (l := List.range n) fun row _ =>
    m.rowTimesMatrix?_eq n (left + .ofNat (4 * n * row)) right
  rw [multiplyMatrices?, multiplyMatrices, rows, Operand.run_guarded, all_rows]
  cases wordsInRam left (n * n) && wordsInRam right (n * n) with
  | false => rfl
  | true => exact m.writeFixed?_eq dest _

def dotProduct? (m : GuestMemory) (left right : Word) : Checked Word := do
  let a ← (m.vector? 3 left).run
  let b ← (m.vector? 3 right).run
  match a, b with
  | some a, some b => return ((List.zipWith (· * ·) a b).foldl (· + ·) 0 >>> 16).toUInt64.toUInt32
  | _, _ => return 0

@[simp] theorem dotProduct?_eq (m : GuestMemory) (left right : Word) :
    m.dotProduct? left right = some (m.dotProduct left right) := by
  rw [dotProduct?, dotProduct, vector?_eq, vector?_eq, Operand.run_guarded, Operand.run_guarded]
  cases wordsInRam left 3 with
  | false => cases wordsInRam right 3 <;> rfl
  | true =>
    cases wordsInRam right 3 with
    | false => rfl
    | true =>
      let term (i : Nat) := m.fixedAt (left + .ofNat (4 * i)) * m.fixedAt (right + .ofNat (4 * i))
      change some ((0 + term 0 + term 1 + term 2) >>> 16).toUInt64.toUInt32 = _
      rw [Int64.zero_add]
      rfl

def crossProduct? (m : GuestMemory) (dest left right : Word) : Checked (Bool × GuestMemory) := do
  let factors : Operand (List Int64 × List Int64) := do
    return (← m.vector? 3 left, ← m.vector? 3 right)
  match ← factors.run with
  | some ([a0, a1, a2], [b0, b1, b2]) =>
    m.writeFixed? dest [(a1 * b2 - a2 * b1) >>> 16, (a2 * b0 - a0 * b2) >>> 16,
      (a0 * b1 - a1 * b0) >>> 16]
  | _ => return (false, m)

@[simp] theorem crossProduct?_eq (m : GuestMemory) (dest left right : Word) :
    m.crossProduct? dest left right = some (m.crossProduct dest left right) := by
  rw [crossProduct?, crossProduct, vector?_eq, vector?_eq]
  cases wordsInRam left 3 with
  | false => rfl
  | true =>
    cases wordsInRam right 3 with
    | false => rfl
    | true => exact m.writeFixed?_eq dest _

end GuestMemory

def MathCall.run? (call : MathCall) (m : GuestMemory) (a : Arguments) :
    Checked (Option Word × GuestMemory) := do
  match call with
  | vector3 => return (none, (← m.multiplyVectors? 3 a.r0 a.r1 a.r2 1).2)
  | matrix3 => return (none, (← m.multiplyMatrices? 3 a.r0 a.r1 a.r2).2)
  | vectors3 => return (none, (← m.multiplyVectors? 3 a.r0 a.r1 a.r2 a.r3.toNat).2)
  | vector4 => return (none, (← m.multiplyVectors? 4 a.r0 a.r1 a.r2 1).2)
  | matrix4 => return (none, (← m.multiplyMatrices? 4 a.r0 a.r1 a.r2).2)
  | vectors4 => return (none, (← m.multiplyVectors? 4 a.r0 a.r1 a.r2 a.r3.toNat).2)
  | dot3 => return (some (← m.dotProduct? a.r0 a.r1), m)
  | cross3 => return (none, (← m.crossProduct? a.r0 a.r1 a.r2).2)

@[simp] theorem MathCall.run?_eq (call : MathCall) (m : GuestMemory) (a : Arguments) :
    call.run? m a = some (call.run m a) := by
  cases call <;> simp [run?, run]

end ArmConsole
