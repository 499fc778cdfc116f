import ArmConsole.Service.MathCall

/-!
Where math calls overflow. The products and sums of `MathCall.run` wrap in 64 bits; where arithmetic
is checked, the program stops at the first of them that does not fit. The definitions here say for
which calls it does. They take every step of a call in its turn, so that a call which is refused an
operand has ended before anything behind that operand overflows.
-/

namespace ArmConsole

/-- Why a computation has no result: an operand is no aligned word of RAM, which ends the call, or
a number does not fit, which ends the program. -/
inductive Fault where
  | operand | overflow
  deriving DecidableEq, Inhabited

namespace Fault

/-- A number in 64 bits. -/
def fit (x : Int) : Except Fault Int64 :=
  if -0x8000000000000000 ≤ x ∧ x < 0x8000000000000000 then .ok (.ofInt x) else .error overflow

/-- Adds up `count` products. The second factor is looked up when its turn comes. -/
def sumProducts (x : Nat → Int64) (y : Nat → Except Fault Int64) : Nat → Except Fault Int64
  | 0 => .ok 0
  | count + 1 => do
    let sum ← sumProducts x y count
    let factor ← y count
    let product ← fit ((x count).toInt * factor.toInt)
    fit (sum.toInt + product.toInt)

/-- The difference of two products. -/
def difference (x y z w : Int64) : Except Fault Int64 := do
  let first ← fit (x.toInt * y.toInt)
  let second ← fit (z.toInt * w.toInt)
  fit (first.toInt - second.toInt)

def isOverflow {α : Type} : Except Fault α → Bool
  | .error overflow => true
  | .error operand | .ok _ => false

end Fault

namespace GuestMemory

open Fault (sumProducts difference isOverflow)

def operand (m : GuestMemory) (address : Word) : Except Fault Int64 :=
  if (wordAddress? address).isSome then .ok (m.fixedAt address) else .error .operand

/-- A row vector times a square matrix. The vector is read first, the matrix column by column. -/
def exactRow (m : GuestMemory) (n : Nat) (vector matrix : Word) : Except Fault (List Int64) :=
  if wordsInRam vector n then
    (List.range n).mapM fun column => do
      let sum ← sumProducts (fun row => m.fixedAt (vector + .ofNat (4 * row)))
        (fun row => m.operand (matrix + .ofNat (4 * (row * n + column)))) n
      return sum >>> 16
  else .error .operand

/-- Whether a batch overflows. A product is written before the next one is taken, which may read
it. -/
def vectorsOverflow (n : Nat) (m : GuestMemory) (dest source matrix : Word) : Nat → Bool
  | 0 => false
  | count + 1 =>
    match m.exactRow n source matrix with
    | .error .overflow => true
    | .error .operand => false
    | .ok row =>
      match m.writeFixed dest row with
      | (true, m) =>
        vectorsOverflow n m (dest + .ofNat (4 * n)) (source + .ofNat (4 * n)) matrix count
      | (false, _) => false

def matricesOverflow (m : GuestMemory) (n : Nat) (left right : Word) : Bool :=
  isOverflow <| (List.range n).mapM fun row => m.exactRow n (left + .ofNat (4 * n * row)) right

def dotOverflows (m : GuestMemory) (left right : Word) : Bool :=
  wordsInRam left 3 && wordsInRam right 3 &&
    isOverflow (sumProducts (fun i => m.fixedAt (left + .ofNat (4 * i)))
      (fun i => m.operand (right + .ofNat (4 * i))) 3)

def crossOverflows (m : GuestMemory) (left right : Word) : Bool :=
  let a (i : Word) : Int64 := m.fixedAt (left + 4 * i)
  let b (i : Word) : Int64 := m.fixedAt (right + 4 * i)
  wordsInRam left 3 && wordsInRam right 3 && isOverflow do
    let x ← difference (a 1) (b 2) (a 2) (b 1)
    let y ← difference (a 2) (b 0) (a 0) (b 2)
    let z ← difference (a 0) (b 1) (a 1) (b 0)
    return [x, y, z]

end GuestMemory

/-- Whether a call stops the program where arithmetic is checked. -/
def MathCall.overflows (call : MathCall) (m : GuestMemory) (a : Arguments) : Bool :=
  match call with
  | vector3 => m.vectorsOverflow 3 a.r0 a.r1 a.r2 1
  | matrix3 => m.matricesOverflow 3 a.r1 a.r2
  | vectors3 => m.vectorsOverflow 3 a.r0 a.r1 a.r2 a.r3.toNat
  | vector4 => m.vectorsOverflow 4 a.r0 a.r1 a.r2 1
  | matrix4 => m.matricesOverflow 4 a.r1 a.r2
  | vectors4 => m.vectorsOverflow 4 a.r0 a.r1 a.r2 a.r3.toNat
  | dot3 => m.dotOverflows a.r0 a.r1
  | cross3 => m.crossOverflows a.r1 a.r2

end ArmConsole
