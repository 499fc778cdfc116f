import ArmConsole.Proofs.Service.Accumulator
import ArmConsole.Proofs.Service.VectorBatch
import Mathlib.Data.List.TakeWhile

/-!
Math calls that are refused. The arguments of a call say which words it has to read and to write,
and in which order; the first of them that is no aligned word of RAM ends the call, and nothing
takes back what was written before. Main statement: the words written by then are all that a refused
call changes, and each of them does change in some memory. So a call with operands out of place
leaves memory as it is, but one with results out of place, or a batch, need not.
-/

namespace ArmConsole

/-- A word that a math call has to read or to write. -/
inductive MathAccess where
  | read (address : Word)
  | write (address : Word)
  deriving DecidableEq

namespace MathAccess

def address : MathAccess → Word
  | read address | write address => address

def inRam (access : MathAccess) : Bool := GuestMemory.wordInRam access.address

def written? : MathAccess → Option Word
  | read _ => none
  | write address => some address

def reads (address : Word) (count : Nat) : List MathAccess :=
  (GuestMemory.words address count).map read

def writes (address : Word) (count : Nat) : List MathAccess :=
  (GuestMemory.words address count).map write

/-- Two rows are read, and a result as long as the first of them is written. -/
def product (dest left right : Word) (count count' : Nat) : List MathAccess :=
  reads left count ++ reads right count' ++ writes dest count

/-- The words that are written before an access is out of place. -/
def written (l : List MathAccess) : List Word := (l.takeWhile inRam).filterMap written?

theorem all_row {access : Word → MathAccess}
    (same : ∀ w, (access w).inRam = GuestMemory.wordInRam w) (address : Word) (count : Nat) :
    ((GuestMemory.words address count).map access).all inRam =
      GuestMemory.wordsInRam address count := by
  rw [List.all_map, GuestMemory.wordsInRam_eq_all]
  exact congrArg (GuestMemory.words address count).all (funext same)

theorem written_reads (address : Word) (count : Nat) : written (reads address count) = [] := by
  rw [written, reads, List.takeWhile_map, List.filterMap_map, List.filterMap_eq_nil_iff]
  exact fun _ _ => rfl

theorem written_writes (address : Word) (count : Nat) :
    written (writes address count) =
      (GuestMemory.words address count).takeWhile GuestMemory.wordInRam := by
  rw [written, writes, List.takeWhile_map, List.filterMap_map]
  exact List.filterMap_some

theorem written_append (l l' : List MathAccess) :
    written (l ++ l') = if l.all inRam then written l ++ written l' else written l := by
  induction l with
  | nil => rfl
  | cons access l ih =>
    unfold written at *
    rw [List.cons_append, List.takeWhile_cons, List.takeWhile_cons, List.all_cons]
    cases access.inRam with
    | false => rfl
    | true =>
      rw [if_pos rfl, if_pos rfl, List.filterMap_cons, List.filterMap_cons, ih, Bool.true_and]
      cases access.written? with
      | none => rfl
      | some _ => cases l.all inRam <;> rfl

theorem written_operands (left right : Word) (count count' : Nat) :
    written (reads left count ++ reads right count') = [] := by
  rw [written_append, written_reads, written_reads]
  split <;> rfl

theorem wordInRam_of_written {l : List MathAccess} {w : Word} (among : w ∈ written l) :
    GuestMemory.wordInRam w = true := by
  obtain ⟨access, before, writes⟩ := List.mem_filterMap.1 among
  have inRam := List.mem_takeWhile_imp before
  cases access with
  | read => contradiction
  | write =>
    cases writes
    exact inRam

/-- A product of which an operand is out of place writes nothing. -/
theorem written_product_eq_nil {dest left right address : Word} {count count' : Nat}
    (needed : read address ∈ product dest left right count count')
    (outside : GuestMemory.wordInRam address = false) :
    written (product dest left right count count') = [] := by
  have refused : (reads left count ++ reads right count').all inRam = false := by
    rw [List.all_eq_false]
    refine ⟨read address, ?_, Bool.eq_false_iff.1 outside⟩
    simpa [product, writes] using needed
  rw [product, written_append, refused, written_operands]
  rfl

end MathAccess

namespace GuestMemory

open MathAccess (written reads writes product)

/-! ### Small numbers -/

/-- A memory of numbers so small that sums of their products lose all bits but the sign. -/
def Faint (m : GuestMemory) : Prop := ∀ address, |m.signedAt address| ≤ 1

def Slight (v : Word) : Prop := v.toSigned = 0 ∨ v.toSigned = -1

theorem slight_of_abs_le {s : ℤ} (small : |s| ≤ 4) :
    Slight (Int64.ofInt s >>> 16).toUInt64.toUInt32 := by
  rw [FixedPoint.low_shiftRight_ofInt]
  obtain ⟨low, high⟩ := abs_le.1 small
  obtain kept | kept : s / 2 ^ 16 = 0 ∨ s / 2 ^ 16 = -1 := by omega
  · rw [kept]
    exact .inl (by decide)
  · rw [kept]
    exact .inr (by decide)

namespace Faint

variable {m n : GuestMemory}

theorem product (faint : Faint m) (first second : Word) :
    |m.signedAt first * m.signedAt second| ≤ 1 := by
  rw [abs_mul]
  exact mul_le_one₀ (faint first) (abs_nonneg _) (faint second)

theorem slight_rowTimesMatrix (faint : Faint m) {n : Nat} (small : n ≤ 4) (vector matrix : Word) :
    ∀ v ∈ m.rowTimesMatrix n vector matrix, Slight v.toUInt64.toUInt32 := by
  intro v among
  obtain ⟨column, -, rfl⟩ := List.mem_map.1 among
  have bound : |m.columnSum n vector matrix column n| ≤ n :=
    calc |m.columnSum n vector matrix column n|
      _ ≤ ∑ row ∈ Finset.range n,
          |m.signedAt (vector.past row) * m.signedAt (matrix.past (row * n + column))| :=
        Finset.abs_sum_le_sum_abs _ _
      _ ≤ ∑ _row ∈ Finset.range n, 1 := Finset.sum_le_sum fun row _ => faint.product _ _
      _ = n := by simp
  change Slight (m.columnAccumulator n vector matrix column n >>> 16).toUInt64.toUInt32
  rw [columnAccumulator_eq]
  exact slight_of_abs_le (bound.trans (by exact_mod_cast small))

theorem slight_productRows (faint : Faint m) {n : Nat} (small : n ≤ 4) (left right : Word) :
    ∀ v ∈ m.productRows n left right, Slight v.toUInt64.toUInt32 := by
  intro v among
  obtain ⟨row, -, among⟩ := List.mem_flatMap.1 among
  exact faint.slight_rowTimesMatrix small _ _ v among

theorem slight_crossAccumulator (faint : Faint m) (left right : Word) (i k : Nat) :
    Slight (m.crossAccumulator left right i k >>> 16).toUInt64.toUInt32 := by
  rw [crossAccumulator_eq]
  refine slight_of_abs_le ((abs_sub _ _).trans ?_)
  have first := faint.product (left.past i) (right.past k)
  have second := faint.product (left.past k) (right.past i)
  omega

theorem slight_crossComponents (faint : Faint m) (left right : Word) :
    ∀ v ∈ m.crossComponents left right, Slight v.toUInt64.toUInt32 := by
  intro v among
  simp only [crossComponents, List.mem_cons, List.not_mem_nil, or_false] at among
  obtain rfl | rfl | rfl := among <;> exact faint.slight_crossAccumulator _ _ _ _

theorem putWord (faint : Faint m) (address : Word) {v : Word} (slight : Slight v) :
    Faint (m.putWord address v) := by
  intro w
  unfold signedAt
  obtain new | old := m.wordAt_putWord_or address v w
  · rw [new]
    obtain kept | kept := slight <;> rw [kept] <;> decide
  · rw [old]
    exact faint w

theorem puts (faint : Faint m) {ws : List Word} (puts : Puts Slight m ws n) : Faint n := by
  induction puts with
  | done => exact faint
  | put slight _ ih => exact ih (faint.putWord _ slight)

end Faint

/-! ### Accesses carried out -/

/-- A computation carries accesses out: it comes to its end if all of them are in place, and what it
writes are the words before the first that is not. The values are slight in a faint memory. -/
structure CarriesOut (m : GuestMemory) (accesses : List MathAccess)
    (outcome : Bool × GuestMemory) : Prop where
  finished : outcome.1 = accesses.all MathAccess.inRam
  puts : Puts (fun v => Faint m → Slight v) m (written accesses) outcome.2

namespace CarriesOut

variable {m : GuestMemory} {l l' : List MathAccess} {first second : Bool × GuestMemory}

theorem faint (carries : CarriesOut m l first) (faint : Faint m) : Faint first.2 :=
  faint.puts (carries.puts.mono fun _ slight => slight faint)

theorem append (carries : CarriesOut m l first)
    (next : first.1 = true → CarriesOut first.2 l' second) :
    CarriesOut m (l ++ l') (if first.1 then second else first) := by
  have finished := carries.finished
  cases ended : first.1 with
  | false =>
    rw [ended] at finished
    refine ⟨?_, ?_⟩
    · rw [List.all_append, ← finished]
      exact ended
    · rw [MathAccess.written_append, ← finished]
      exact carries.puts
  | true =>
    rw [ended] at finished
    have later := next ended
    refine ⟨?_, ?_⟩
    · rw [List.all_append, ← finished, Bool.true_and]
      exact later.finished
    · rw [MathAccess.written_append, ← finished]
      exact carries.puts.append (later.puts.mono fun v slight faint => slight (carries.faint faint))

end CarriesOut

theorem carriesOut_reads (m : GuestMemory) (address : Word) (count : Nat) :
    CarriesOut m (reads address count) (wordsInRam address count, m) := by
  refine ⟨(MathAccess.all_row (fun _ => rfl) address count).symm, ?_⟩
  rw [MathAccess.written_reads]
  exact .done m

theorem carriesOut_writes {m : GuestMemory} (dest : Word) {vs : List Int64}
    (slight : Faint m → ∀ v ∈ vs, Slight v.toUInt64.toUInt32) :
    CarriesOut m (writes dest vs.length) (m.writeFixed dest vs) := by
  refine ⟨?_, ?_⟩
  · rw [writeFixed_finished, ← wordsInRam_eq_all]
    exact (MathAccess.all_row (fun _ => rfl) dest vs.length).symm
  · rw [MathAccess.written_writes]
    exact m.puts_writeFixed dest fun v among faint => slight faint v among

theorem carriesOut_operands (m : GuestMemory) (left right : Word) (count count' : Nat) :
    CarriesOut m (reads left count ++ reads right count')
      (wordsInRam left count && wordsInRam right count', m) := by
  have both := (m.carriesOut_reads left count).append fun _ => m.carriesOut_reads right count'
  cases inRam : wordsInRam left count with
  | false => rwa [inRam] at both
  | true => rwa [inRam] at both

theorem carriesOut_product {m : GuestMemory} (dest left right : Word) (count' : Nat)
    {vs : List Int64} (slight : Faint m → ∀ v ∈ vs, Slight v.toUInt64.toUInt32) :
    CarriesOut m (product dest left right vs.length count')
      (if wordsInRam left vs.length && wordsInRam right count' then m.writeFixed dest vs
        else (false, m)) := by
  have both := (m.carriesOut_operands left right vs.length count').append fun _ =>
    carriesOut_writes dest slight
  cases inRam : wordsInRam left vs.length && wordsInRam right count' with
  | false => rwa [inRam] at both
  | true => rwa [inRam] at both

theorem carriesOut_multiplyVector (m : GuestMemory) {n : Nat} (small : n ≤ 4)
    (dest source matrix : Word) :
    CarriesOut m (product dest source matrix n (n * n))
      (m.multiplyVector n dest source matrix) := by
  have carries := carriesOut_product dest source matrix (n * n) (m := m) fun faint =>
    faint.slight_rowTimesMatrix small source matrix
  rwa [length_rowTimesMatrix] at carries

theorem carriesOut_multiplyMatrices (m : GuestMemory) {n : Nat} (small : n ≤ 4)
    (dest left right : Word) :
    CarriesOut m (product dest left right (n * n) (n * n))
      (m.multiplyMatrices n dest left right) := by
  have carries := carriesOut_product dest left right (n * n) (m := m) fun faint =>
    faint.slight_productRows small left right
  rwa [length_productRows, ← multiplyMatrices_eq] at carries

theorem carriesOut_crossProduct (m : GuestMemory) (dest left right : Word) :
    CarriesOut m (product dest left right 3 3) (m.crossProduct dest left right) :=
  carriesOut_product dest left right 3 fun faint => faint.slight_crossComponents left right

/-- The accesses of a batch of vectors. -/
def batchAccesses (n : Nat) (dest source matrix : Word) : Nat → List MathAccess
  | 0 => []
  | count + 1 => product dest source matrix n (n * n) ++
      batchAccesses n (dest.past n) (source.past n) matrix count

theorem carriesOut_multiplyVectors (m : GuestMemory) {n : Nat} (small : n ≤ 4)
    (dest source matrix : Word) (count : Nat) :
    CarriesOut m (batchAccesses n dest source matrix count)
      (m.multiplyVectors n dest source matrix count) := by
  induction count generalizing m dest source with
  | zero => exact ⟨rfl, .done m⟩
  | succ count ih =>
    rw [multiplyVectors_succ]
    exact (m.carriesOut_multiplyVector small dest source matrix).append fun _ => ih _ _ _

end GuestMemory

namespace MathCall

open GuestMemory (Confined Covered Faint Slight CarriesOut)
open MathAccess (product reads)

/-- All words that a call has to read and to write. -/
def accesses (call : MathCall) (a : Arguments) : List MathAccess :=
  match call with
  | vector3 => GuestMemory.batchAccesses 3 a.r0 a.r1 a.r2 1
  | matrix3 => product a.r0 a.r1 a.r2 9 9
  | vectors3 => GuestMemory.batchAccesses 3 a.r0 a.r1 a.r2 a.r3.toNat
  | vector4 => GuestMemory.batchAccesses 4 a.r0 a.r1 a.r2 1
  | matrix4 => product a.r0 a.r1 a.r2 16 16
  | vectors4 => GuestMemory.batchAccesses 4 a.r0 a.r1 a.r2 a.r3.toNat
  | dot3 => reads a.r0 3 ++ reads a.r1 3
  | cross3 => product a.r0 a.r1 a.r2 3 3

/-- Whether a call comes to its end, which is reported if it does not, and the memory it leaves. -/
def outcome (call : MathCall) (m : GuestMemory) (a : Arguments) : Bool × GuestMemory :=
  match call with
  | vector3 => m.multiplyVectors 3 a.r0 a.r1 a.r2 1
  | matrix3 => m.multiplyMatrices 3 a.r0 a.r1 a.r2
  | vectors3 => m.multiplyVectors 3 a.r0 a.r1 a.r2 a.r3.toNat
  | vector4 => m.multiplyVectors 4 a.r0 a.r1 a.r2 1
  | matrix4 => m.multiplyMatrices 4 a.r0 a.r1 a.r2
  | vectors4 => m.multiplyVectors 4 a.r0 a.r1 a.r2 a.r3.toNat
  | dot3 => (GuestMemory.wordsInRam a.r0 3 && GuestMemory.wordsInRam a.r1 3, m)
  | cross3 => m.crossProduct a.r0 a.r1 a.r2

theorem memory_run (call : MathCall) (m : GuestMemory) (a : Arguments) :
    (call.run m a).2 = (call.outcome m a).2 := by
  cases call <;> rfl

theorem carriesOut_outcome (call : MathCall) (m : GuestMemory) (a : Arguments) :
    CarriesOut m (call.accesses a) (call.outcome m a) := by
  have three : 3 ≤ 4 := by decide
  cases call with
  | vector3 | vectors3 => exact m.carriesOut_multiplyVectors three _ _ _ _
  | vector4 | vectors4 => exact m.carriesOut_multiplyVectors le_rfl _ _ _ _
  | matrix3 => exact m.carriesOut_multiplyMatrices three _ _ _
  | matrix4 => exact m.carriesOut_multiplyMatrices le_rfl _ _ _
  | dot3 => exact m.carriesOut_operands _ _ 3 3
  | cross3 => exact m.carriesOut_crossProduct _ _ _

/-- The words that a call writes until it ends or is refused. -/
def written (call : MathCall) (a : Arguments) : List Word := MathAccess.written (call.accesses a)

theorem confined_run (call : MathCall) (m : GuestMemory) (a : Arguments) :
    Confined (Covered (call.written a)) m (call.run m a).2 := by
  rw [memory_run]
  exact (call.carriesOut_outcome m a).puts.confined

/-- A faint memory loses the 1 at a word that is written. -/
theorem exists_changed {call : MathCall} {a : Arguments} {w : Word} (among : w ∈ call.written a) :
    ∃ m : GuestMemory, (call.run m a).2.wordAt w ≠ m.wordAt w := by
  have inRam := MathAccess.wordInRam_of_written among
  let m := GuestMemory.empty.putWord w 1
  have faint : Faint m := by
    intro address
    unfold GuestMemory.signedAt
    obtain one | zero := GuestMemory.empty.wordAt_putWord_or w 1 address
    · rw [one]
      decide
    · rw [zero, GuestMemory.wordAt_empty]
      decide
  have carries := call.carriesOut_outcome m a
  have slight : Slight ((call.run m a).2.wordAt w) := by
    rw [memory_run]
    exact (carries.puts.mono fun _ slight => slight faint).wordAt
      (fun _ among => MathAccess.wordInRam_of_written among) (.inl among)
  refine ⟨m, fun same => ?_⟩
  rw [same, GuestMemory.wordAt_putWord _ inRam] at slight
  obtain kept | kept := slight <;> exact absurd kept (by decide)

/-- A call other than a batch reads all of its operands before it writes. -/
theorem written_eq_nil {call : MathCall} (single : call.batchOrder? = none) {a : Arguments}
    {address : Word} (needed : .read address ∈ call.accesses a)
    (outside : GuestMemory.wordInRam address = false) : call.written a = [] := by
  cases call with
  | vectors3 | vectors4 => contradiction
  | vector3 | vector4 =>
    unfold written
    simp only [accesses, GuestMemory.batchAccesses, List.append_nil] at needed ⊢
    exact MathAccess.written_product_eq_nil needed outside
  | matrix3 | matrix4 | cross3 => exact MathAccess.written_product_eq_nil needed outside
  | dot3 => exact MathAccess.written_operands ..

/-- A call is reported if one of its words is out of place. It has then changed the words written
before, each of them in some memory, and nothing else. So it leaves every memory as it is only if
there are none, as for an operand out of place unless the call is a batch. -/
theorem writes_until_refused (call : MathCall) (a : Arguments) :
    (∀ m, (call.run m a).2 = (call.outcome m a).2 ∧
      ((call.outcome m a).1 = false ↔ ∃ access ∈ call.accesses a, access.inRam = false)) ∧
    (∀ m, Confined (Covered (call.written a)) m (call.run m a).2) ∧
    (∀ w ∈ call.written a, ∃ m, (call.run m a).2.wordAt w ≠ m.wordAt w) ∧
    ((∀ m, (call.run m a).2 = m) ↔ call.written a = []) ∧
    (call.batchOrder? = none →
      ∀ address, .read address ∈ call.accesses a → GuestMemory.wordInRam address = false →
        ∀ m, (call.run m a).2 = m) := by
  have nothing (none : call.written a = []) (m : GuestMemory) : (call.run m a).2 = m := by
    refine (call.confined_run m a).eq_of_empty fun b ⟨w, among, _⟩ => ?_
    rw [none] at among
    contradiction
  refine ⟨fun m => ⟨call.memory_run m a, ?_⟩, fun m => call.confined_run m a,
    fun w => exists_changed, ⟨fun same => ?_, nothing⟩,
    fun single address needed outside => nothing (written_eq_nil single needed outside)⟩
  · rw [(call.carriesOut_outcome m a).finished, List.all_eq_false]
    simp only [Bool.not_eq_true]
  · refine List.eq_nil_iff_forall_not_mem.2 fun w among => ?_
    obtain ⟨m, changed⟩ := exists_changed among
    rw [same] at changed
    contradiction

/-- A vector that goes beyond RAM is not multiplied; a cross product that does is reported. -/
theorem writes_until_refused_beyond :
    (vector3.run GuestMemory.empty ⟨0, 0x2FFFFC, 0x100, 0⟩).2 = GuestMemory.empty ∧
    (cross3.outcome GuestMemory.empty ⟨0x2FFFFC, 0x100, 0x10C, 0⟩).1 = false := by
  obtain ⟨-, -, -, -, ignored⟩ := writes_until_refused vector3 ⟨0, 0x2FFFFC, 0x100, 0⟩
  obtain ⟨reported, -⟩ := writes_until_refused cross3 ⟨0x2FFFFC, 0x100, 0x10C, 0⟩
  exact ⟨ignored rfl 0x300000 (by decide) (by decide) _,
    (reported _).2.2 ⟨.write 0x300000, by decide, by decide⟩⟩

/-- Not every refused call is ignored: a cross product is put in the last word of RAM and does not
get any further. -/
theorem refused_not_ignored : ¬∀ (call : MathCall) (m : GuestMemory) (a : Arguments),
    (∃ access ∈ call.accesses a, access.inRam = false) →
      ∀ w, (call.run m a).2.wordAt w = m.wordAt w := by
  intro ignored
  let axes : List Int64 := [0, 0x10000, 0, 0, 0, 0x10000]
  let a : Arguments := ⟨0x2FFFFC, 0x100, 0x10C, 0⟩
  let m := (Machine.calling axes a).space.memory
  have operands : GuestMemory.wordsInRam 0x100 axes.length = true := by decide
  have last : GuestMemory.wordInRam 0x2FFFFC = true := by decide
  have beyond : ¬GuestMemory.wordInRam (Word.past 0x2FFFFC 1) = true := by decide
  have component {k : Nat} (inside : k < 6) : m.signedAt (Word.past 0x100 k) =
      Word.toSigned (axes.getD k 0).toUInt64.toUInt32 :=
    Machine.signedAt_calling a operands inside
  have before : m.wordAt 0x2FFFFC = 0 := by
    have confined := GuestMemory.empty.confined_writeFixed_row operands
    refine (confined.wordAt fun b here there => ?_).trans (GuestMemory.wordAt_empty _)
    exact absurd (Nat.lt_of_le_of_lt here.1 there.2) (by decide)
  have put : (cross3.run m a).2 = m.putWord 0x2FFFFC
      (m.crossAccumulator 0x100 0x10C 1 2 >>> 16).toUInt64.toUInt32 := by
    have inRam : (GuestMemory.wordsInRam 0x100 3 && GuestMemory.wordsInRam 0x10C 3) = true := by
      decide
    rw [run, GuestMemory.crossProduct_eq, if_pos inRam, GuestMemory.crossComponents,
      GuestMemory.writeFixed_cons, if_pos last, GuestMemory.writeFixed_cons, if_neg beyond]
  have difference : m.crossDifference 0x100 0x10C 1 2 = 2 ^ 32 := by
    have y : Word.past 0x10C 1 = Word.past 0x100 4 := by decide
    have z : Word.past 0x10C 2 = Word.past 0x100 5 := by decide
    rw [GuestMemory.crossDifference, y, z, component (by decide), component (by decide),
      component (by decide), component (by decide)]
    decide
  have same := ignored .cross3 m a ⟨.write 0x300000, by decide, by decide⟩ 0x2FFFFC
  rw [before, put, GuestMemory.wordAt_putWord _ last, GuestMemory.crossAccumulator_eq, difference,
    FixedPoint.low_shiftRight_ofInt] at same
  exact absurd same (by decide)

end MathCall

end ArmConsole
