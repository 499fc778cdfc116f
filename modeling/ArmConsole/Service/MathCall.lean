import ArmConsole.Memory.GuestMemory

/-!
Math calls: vector and matrix products that the operating system offers and the machine can
compute natively. Numbers are signed with 16 fractional bits, vectors are rows, and matrices are
stored row by row. Sums are taken modulo 2^64, as a release build takes them, and lose their low 16
bits at the end; a build that checks arithmetic stops at a sum that does not fit, and
`MathCall.overflows` says when. A call whose operands are not aligned words of RAM ends where it
finds that out.
-/

namespace ArmConsole

namespace GuestMemory

/-- The address of an aligned word that lies in RAM as a whole. -/
def wordAddress? (address : Word) : Option RamAddress :=
  if h : address.toNat % 4 = 0 ∧ address.toNat + 4 ≤ ramSize then
    some ⟨address.toNat, by omega⟩
  else none

/-- Whether `count` words from `address` up are aligned and in RAM. -/
def wordsInRam (address : Word) (count : Nat) : Bool :=
  (List.range count).all fun i => (wordAddress? (address + .ofNat (4 * i))).isSome

/-- The number at `address`, 0 if there is no aligned word of RAM. -/
def fixedAt (m : GuestMemory) (address : Word) : Int64 :=
  match wordAddress? address with
  | some a => (m.readWord a).toInt32.toInt64
  | none => 0

/-- Writes the low halves of numbers to words from `address` up. Stops at the first address that
is no aligned word of RAM, and says whether it came to the end. -/
def writeFixed (m : GuestMemory) (address : Word) : List Int64 → Bool × GuestMemory
  | [] => (true, m)
  | v :: vs =>
    match wordAddress? address with
    | some a => (m.writeWord a v.toUInt64.toUInt32).writeFixed (address + 4) vs
    | none => (false, m)

/-- A row vector times a column of a square matrix of size `n`. The sum wraps. -/
def rowTimesColumn (m : GuestMemory) (n : Nat) (vector matrix : Word) (column : Nat) : Int64 :=
  let term (row : Nat) : Int64 :=
    m.fixedAt (vector + .ofNat (4 * row)) * m.fixedAt (matrix + .ofNat (4 * (row * n + column)))
  (List.range n).foldl (fun sum row => sum + term row) 0 >>> 16

def rowTimesMatrix (m : GuestMemory) (n : Nat) (vector matrix : Word) : List Int64 :=
  (List.range n).map (m.rowTimesColumn n vector matrix)

/-- Multiplies vectors by a matrix, one after the other, and writes each product before the next
vector is read. -/
def multiplyVectors (n : Nat) (m : GuestMemory) (dest source matrix : Word) :
    Nat → Bool × GuestMemory
  | 0 => (true, m)
  | count + 1 =>
    if wordsInRam source n && wordsInRam matrix (n * n) then
      match m.writeFixed dest (m.rowTimesMatrix n source matrix) with
      | (true, m) =>
        multiplyVectors n m (dest + .ofNat (4 * n)) (source + .ofNat (4 * n)) matrix count
      | (false, m) => (false, m)
    else (false, m)

/-- Multiplies two square matrices. The whole product is computed before any of it is written,
so that it may take the place of a factor. -/
def multiplyMatrices (n : Nat) (m : GuestMemory) (dest left right : Word) : Bool × GuestMemory :=
  if wordsInRam left (n * n) && wordsInRam right (n * n) then
    m.writeFixed dest <| (List.range n).flatMap fun row =>
      m.rowTimesMatrix n (left + .ofNat (4 * n * row)) right
  else (false, m)

/-- The scalar product of two vectors of three, 0 if they are not in RAM. The sum wraps. -/
def dotProduct (m : GuestMemory) (left right : Word) : Word :=
  if wordsInRam left 3 && wordsInRam right 3 then
    let term (i : Word) : Int64 := m.fixedAt (left + 4 * i) * m.fixedAt (right + 4 * i)
    ((term 0 + term 1 + term 2) >>> 16).toUInt64.toUInt32
  else 0

def crossProduct (m : GuestMemory) (dest left right : Word) : Bool × GuestMemory :=
  if wordsInRam left 3 && wordsInRam right 3 then
    let a (i : Word) : Int64 := m.fixedAt (left + 4 * i)
    let b (i : Word) : Int64 := m.fixedAt (right + 4 * i)
    m.writeFixed dest
      [(a 1 * b 2 - a 2 * b 1) >>> 16, (a 2 * b 0 - a 0 * b 2) >>> 16,
        (a 0 * b 1 - a 1 * b 0) >>> 16]
  else (false, m)

end GuestMemory

inductive MathCall where
  | vector3 | matrix3 | vectors3 | vector4 | matrix4 | vectors4 | dot3 | cross3
  deriving DecidableEq, Inhabited

namespace MathCall

def all : List MathCall :=
  [vector3, matrix3, vectors3, vector4, matrix4, vectors4, dot3, cross3]

/-- The number under which the operating system knows a call. -/
def number : MathCall → Word
  | vector3 => 0x50000
  | matrix3 => 0x50001
  | vectors3 => 0x50002
  | vector4 => 0x50003
  | matrix4 => 0x50004
  | vectors4 => 0x50005
  | dot3 => 0x50006
  | cross3 => 0x50007

def ofNumber? (number : Word) : Option MathCall := all.find? fun call => call.number == number

structure Arguments where
  r0 : Word
  r1 : Word
  r2 : Word
  r3 : Word

/-- Carries out a call: what goes into R0, if anything, and the memory afterwards. A call that
finds an operand out of place yields nothing else. -/
def run (call : MathCall) (m : GuestMemory) (a : Arguments) : Option Word × GuestMemory :=
  match call with
  | vector3 => (none, (m.multiplyVectors 3 a.r0 a.r1 a.r2 1).2)
  | matrix3 => (none, (m.multiplyMatrices 3 a.r0 a.r1 a.r2).2)
  | vectors3 => (none, (m.multiplyVectors 3 a.r0 a.r1 a.r2 a.r3.toNat).2)
  | vector4 => (none, (m.multiplyVectors 4 a.r0 a.r1 a.r2 1).2)
  | matrix4 => (none, (m.multiplyMatrices 4 a.r0 a.r1 a.r2).2)
  | vectors4 => (none, (m.multiplyVectors 4 a.r0 a.r1 a.r2 a.r3.toNat).2)
  | dot3 => (some (m.dotProduct a.r0 a.r1), m)
  | cross3 => (none, (m.crossProduct a.r0 a.r1 a.r2).2)

end MathCall

/-- Which software interrupts are math calls: pairs of a number of 20 bits and a call, with the
numbers in ascending order. -/
structure CallTable where
  entries : List (Word × MathCall)
  deriving DecidableEq, Inhabited

namespace CallTable

def empty : CallTable := ⟨[]⟩

/-- The bits of a software interrupt's comment that count. -/
def key (comment : Word) : Word := comment &&& 0xFFFFF

def insert (number : Word) (call : MathCall) : List (Word × MathCall) → List (Word × MathCall)
  | [] => [(number, call)]
  | entry :: entries =>
    if number < entry.1 then (number, call) :: entry :: entries
    else if number = entry.1 then (number, call) :: entries
    else entry :: insert number call entries

/-- Puts a call under a number, in place of what was there. -/
def register (t : CallTable) (number : Word) (call : MathCall) : CallTable :=
  ⟨insert (key number) call t.entries⟩

def lookup? (t : CallTable) (comment : Word) : Option MathCall := t.entries.lookup (key comment)

def numbers (t : CallTable) : List Word := t.entries.map Prod.fst

/-- Every math call under its own number. -/
def standard : CallTable := MathCall.all.foldl (fun t call => t.register call.number call) empty

end CallTable

end ArmConsole
