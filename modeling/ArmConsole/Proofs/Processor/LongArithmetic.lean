import ArmConsole.Proofs.Arithmetic.Limbs
import ArmConsole.Proofs.Processor.Flags

/-!
Arithmetic on numbers of several words. One instruction for each limb, the least significant first,
with the carry flag as the only link between them: the first one ignores the flag and the others take
it. Main statement: the results are the sum or difference, the last carry says that there was one, or
that nothing was borrowed, and the last overflow that the signed result has no room.
-/

namespace ArmConsole

/-- An instruction and the processor that it finds. -/
structure LimbStep where
  before : Processor
  instruction : DataProcessing

namespace LimbStep

def after (s : LimbStep) : Processor := s.before.dataProcessing s.instruction

def first (s : LimbStep) : Word :=
  s.before.operand s.instruction.rn (Processor.lookAheadWith s.instruction.operand)

def second (s : LimbStep) : Word := (s.before.secondOperand s.instruction.operand).value

/-- What the destination holds afterwards. -/
def result (s : LimbStep) : Word := s.after.live.get s.instruction.rd

/-- The step performs an operation and sets the flags. -/
structure Performs (s : LimbStep) (operation : AluOperation) : Prop where
  operation : s.instruction.operation = operation
  setFlags : s.instruction.setFlags = true
  rd : s.instruction.rd ≠ .pc

/-- The steps all perform an operation, and the carry flag goes from each to the next. What else
happens in between does not matter. -/
def Continue (operation : AluOperation) : Bool → List LimbStep → Prop
  | _, [] => True
  | carry, s :: steps =>
    s.Performs operation ∧ s.before.status.carry = carry ∧
      Continue operation s.after.status.carry steps

end LimbStep

inductive LongOperation where
  | add | subtract | reverseSubtract
  deriving DecidableEq

namespace LongOperation

/-- The instruction for the least significant limb: ADD, SUB or RSB. -/
def first : LongOperation → AluOperation
  | add => .add
  | subtract => .sub
  | reverseSubtract => .rsb

/-- The instruction for all further limbs: ADC, SBC or RSC. -/
def further : LongOperation → AluOperation
  | add => .adc
  | subtract => .sbc
  | reverseSubtract => .rsc

/-- The steps of a long operation, one for each limb. -/
def PerformedBy (op : LongOperation) : List LimbStep → Prop
  | [] => False
  | s :: steps =>
    s.Performs op.first ∧ LimbStep.Continue op.further s.after.status.carry steps

/-- The result without a bound on its size. -/
def exact (x y : Int) : LongOperation → Int
  | add => x + y
  | subtract => x - y
  | reverseSubtract => y - x

/-- When the last carry is set. -/
def carries (x y span : Nat) : LongOperation → Prop
  | add => span ≤ x + y
  | subtract => y ≤ x
  | reverseSubtract => x ≤ y

/-! ### Additions of limbs -/

/-- What is added for a pair of limbs. -/
def addends (x y : Word) : LongOperation → Word × Word
  | add => (x, y)
  | subtract => (x, ~~~y)
  | reverseSubtract => (y, ~~~x)

/-- The carry into the first addition. -/
def carryIn : LongOperation → Bool
  | add => false
  | subtract | reverseSubtract => true

theorem compute_first (op : LongOperation) (x : Word) (y : Shifted) (carry : Bool) :
    op.first.compute x y carry =
      .addWithCarry (op.addends x y.value).1 (op.addends x y.value).2 op.carryIn := by
  cases op <;> rfl

theorem compute_further (op : LongOperation) (x : Word) (y : Shifted) (carry : Bool) :
    op.further.compute x y carry =
      .addWithCarry (op.addends x y.value).1 (op.addends x y.value).2 carry := by
  cases op <;> rfl

end LongOperation

namespace LimbStep

variable {s : LimbStep} {steps : List LimbStep}

/-- What the instruction computes. -/
def aluResult (s : LimbStep) : AluResult := s.before.aluResult s.instruction

/-- The result is in the destination and its flags are in the status word. -/
structure Kept (s : LimbStep) : Prop where
  value : s.result = s.aluResult.value
  carry : s.after.status.carry = s.aluResult.carry
  overflow : s.after.status.overflow = s.aluResult.overflow

theorem Performs.kept {operation : AluOperation} (performs : s.Performs operation)
    (arithmetic : operation.isLogical = false) (writes : operation.writesResult = true) :
    s.Kept := by
  obtain ⟨rfl, setFlags, rd⟩ := performs
  have whole := s.before.dataProcessing_of_arithmetic ⟨arithmetic, setFlags, rd⟩
  rw [if_pos writes] at whole
  refine ⟨?_, ?_, ?_⟩
  · rw [result, after, whole]
    exact Vector.getElem_set_self _
  · rw [after, whole]
    exact StatusWord.carry_withFlags _ _
  · rw [after, whole]
    exact StatusWord.overflow_withFlags _ _

end LimbStep

namespace LongOperation

variable {op : LongOperation} {s : LimbStep} {steps : List LimbStep}

/-- What is added limb by limb. -/
def pairs (op : LongOperation) (steps : List LimbStep) : List (Word × Word) :=
  steps.map fun s => op.addends s.first s.second

theorem kept_of_first (performs : s.Performs op.first) : s.Kept :=
  performs.kept (by cases op <;> rfl) (by cases op <;> rfl)

theorem kept_of_further (performs : s.Performs op.further) : s.Kept :=
  performs.kept (by cases op <;> rfl) (by cases op <;> rfl)

/-- The carry flag makes one addition of the further limbs. -/
theorem aluResult_of_continue {carry : Bool} (continues : LimbStep.Continue op.further carry steps) :
    steps.map LimbStep.aluResult = Limbs.add carry (op.pairs steps) ∧ ∀ s ∈ steps, s.Kept := by
  -- The flag that a step leaves is the carry of its result, which the next addition starts with.
  induction steps generalizing carry with
  | nil => exact ⟨rfl, fun _ none => absurd none List.not_mem_nil⟩
  | cons s steps ih =>
    obtain ⟨performs, flag, rest⟩ := continues
    have kept := kept_of_further performs
    have step : s.aluResult = .addWithCarry (op.addends s.first s.second).1
        (op.addends s.first s.second).2 carry := by
      rw [LimbStep.aluResult, Processor.aluResult, performs.operation, compute_further, flag]
      rfl
    rw [kept.carry] at rest
    obtain ⟨results, all⟩ := ih rest
    refine ⟨?_, List.forall_mem_cons.2 ⟨kept, all⟩⟩
    rw [List.map_cons, results, step]
    rfl

theorem aluResult_of_performed (performed : op.PerformedBy steps) :
    steps ≠ [] ∧ steps.map LimbStep.aluResult = Limbs.add op.carryIn (op.pairs steps) ∧
      ∀ s ∈ steps, s.Kept := by
  cases steps with
  | nil => contradiction
  | cons s steps =>
    obtain ⟨performs, rest⟩ := performed
    have kept := kept_of_first performs
    have step : s.aluResult = .addWithCarry (op.addends s.first s.second).1
        (op.addends s.first s.second).2 op.carryIn := by
      rw [LimbStep.aluResult, Processor.aluResult, performs.operation, compute_first]
      rfl
    rw [kept.carry] at rest
    obtain ⟨results, all⟩ := aluResult_of_continue rest
    refine ⟨List.cons_ne_nil _ _, ?_, List.forall_mem_cons.2 ⟨kept, all⟩⟩
    rw [List.map_cons, results, step]
    rfl

/-! ### Sums and differences -/

theorem fst_pairs (op : LongOperation) (steps : List LimbStep) :
    (op.pairs steps).map Prod.fst =
      match op with
      | add | subtract => steps.map LimbStep.first
      | reverseSubtract => steps.map LimbStep.second := by
  cases op <;> exact List.map_map

theorem snd_pairs (op : LongOperation) (steps : List LimbStep) :
    (op.pairs steps).map Prod.snd =
      match op with
      | add => steps.map LimbStep.second
      | subtract => (steps.map LimbStep.second).map (~~~·)
      | reverseSubtract => (steps.map LimbStep.first).map (~~~·) := by
  cases op <;> simp only [pairs, List.map_map] <;> rfl

/-- With the carry, a complement is a whole span above the negative. -/
theorem value_pairs (op : LongOperation) (steps : List LimbStep) :
    ((Limbs.value ((op.pairs steps).map Prod.fst) + Limbs.value ((op.pairs steps).map Prod.snd) +
        op.carryIn.toNat : Nat) : Int) =
      op.exact (Limbs.value (steps.map LimbStep.first)) (Limbs.value (steps.map LimbStep.second)) +
        op.carryIn.toNat * (2 ^ (32 * steps.length) : Nat) := by
  rw [fst_pairs, snd_pairs]
  cases op with
  | add => simp only [exact, carryIn, Bool.toNat_false]; omega
  | subtract =>
    have sum := Limbs.value_complement (steps.map LimbStep.second)
    rw [List.length_map] at sum
    simp only [exact, carryIn, Bool.toNat_true]
    omega
  | reverseSubtract =>
    have sum := Limbs.value_complement (steps.map LimbStep.first)
    rw [List.length_map] at sum
    simp only [exact, carryIn, Bool.toNat_true]
    omega

theorem signed_pairs (op : LongOperation) (nonempty : steps ≠ []) :
    Limbs.signed ((op.pairs steps).map Prod.fst) + Limbs.signed ((op.pairs steps).map Prod.snd) +
        op.carryIn.toNat =
      op.exact (Limbs.signed (steps.map LimbStep.first))
        (Limbs.signed (steps.map LimbStep.second)) := by
  have firsts : steps.map LimbStep.first ≠ [] := mt List.map_eq_nil_iff.1 nonempty
  have seconds : steps.map LimbStep.second ≠ [] := mt List.map_eq_nil_iff.1 nonempty
  rw [fst_pairs, snd_pairs]
  cases op with
  | add => exact Int.add_zero _
  | subtract =>
    dsimp only
    rw [Limbs.signed_complement seconds, exact, carryIn, Bool.toNat_true]
    omega
  | reverseSubtract =>
    dsimp only
    rw [Limbs.signed_complement firsts, exact, carryIn, Bool.toNat_true]
    omega

/-- A result that is a digit to a base, with a carry, is the exact result to that base, and the carry
says on which side the exact one is. -/
theorem exact_of_digit (op : LongOperation) {x y z span : Nat} {carry : Bool} (digit : z < span)
    (total : ((z + span * carry.toNat : Nat) : Int) = op.exact x y + op.carryIn.toNat * span) :
    (z : Int) = op.exact x y % span ∧ (carry ↔ op.carries x y span) := by
  constructor
  · have same : op.exact x y = z + span * (carry.toNat - op.carryIn.toNat : Int) := by
      rw [Int.mul_sub, Int.mul_comm span op.carryIn.toNat]
      omega
    rw [same, Int.add_mul_emod_self_left]
    exact (Int.emod_eq_of_lt (Int.natCast_nonneg z) (by omega)).symm
  · cases op <;> cases carry <;>
      simp only [exact, carries, carryIn, Bool.toNat_true, Bool.toNat_false, Bool.false_eq_true,
        true_iff, false_iff] at total ⊢ <;>
      omega

/-! ### Loading the limbs -/

/-- An instruction on R0 and R1, which are given a limb each, with its result in R2. -/
def loaded (p : Processor) (operation : AluOperation) (limbs : Word × Word) : LimbStep where
  before := (p.withRegister .r0 limbs.1).withRegister .r1 limbs.2
  instruction := ⟨operation, true, .r0, .r2, .register .r1 .lsl (.field 0)⟩

/-- The instruction on each pair of limbs. -/
def feedFurther (operation : AluOperation) : Processor → List (Word × Word) → List LimbStep
  | _, [] => []
  | p, limbs :: rest =>
    let s := loaded p operation limbs
    s :: feedFurther operation s.after rest

/-- A long operation on pairs of limbs, from any state. -/
def feed (op : LongOperation) (p : Processor) : List (Word × Word) → List LimbStep
  | [] => []
  | limbs :: rest =>
    let s := loaded p op.first limbs
    s :: feedFurther op.further s.after rest

theorem performs_loaded (p : Processor) (operation : AluOperation) (limbs : Word × Word) :
    (loaded p operation limbs).Performs operation :=
  ⟨rfl, rfl, (by decide : RegisterNumber.r2 ≠ .pc)⟩

theorem operands_loaded (p : Processor) (operation : AluOperation) (limbs : Word × Word) :
    (loaded p operation limbs).first = limbs.1 ∧ (loaded p operation limbs).second = limbs.2 := by
  constructor
  · have below : ((p.withRegister .r0 limbs.1).withRegister .r1 limbs.2).live[0] = limbs.1 :=
      (Vector.getElem_set_ne (RegisterNumber.bound .r1) (RegisterNumber.bound .r0)
        (by decide)).trans (Vector.getElem_set_self (RegisterNumber.bound .r0))
    exact below
  · exact Vector.getElem_set_self _

theorem continue_feedFurther (operation : AluOperation) (p : Processor)
    (limbs : List (Word × Word)) :
    LimbStep.Continue operation p.status.carry (feedFurther operation p limbs) := by
  induction limbs generalizing p with
  | nil => trivial
  | cons pair limbs ih => exact ⟨performs_loaded p operation pair, rfl, ih _⟩

theorem operands_feedFurther (operation : AluOperation) (p : Processor)
    (limbs : List (Word × Word)) :
    (feedFurther operation p limbs).map LimbStep.first = limbs.map Prod.fst ∧
      (feedFurther operation p limbs).map LimbStep.second = limbs.map Prod.snd := by
  induction limbs generalizing p with
  | nil => exact ⟨rfl, rfl⟩
  | cons pair limbs ih =>
    obtain ⟨first, second⟩ := operands_loaded p operation pair
    obtain ⟨firsts, seconds⟩ := ih (loaded p operation pair).after
    exact ⟨congrArg₂ List.cons first firsts, congrArg₂ List.cons second seconds⟩

theorem feed_spec (op : LongOperation) (p : Processor) {limbs : List (Word × Word)}
    (nonempty : limbs ≠ []) :
    op.PerformedBy (op.feed p limbs) ∧
      (op.feed p limbs).map LimbStep.first = limbs.map Prod.fst ∧
      (op.feed p limbs).map LimbStep.second = limbs.map Prod.snd := by
  cases limbs with
  | nil => contradiction
  | cons pair limbs =>
    let s := loaded p op.first pair
    obtain ⟨first, second⟩ := operands_loaded p op.first pair
    obtain ⟨firsts, seconds⟩ := operands_feedFurther op.further s.after limbs
    refine ⟨⟨performs_loaded p op.first pair, continue_feedFurther op.further s.after limbs⟩, ?_, ?_⟩
    · exact congrArg₂ List.cons first firsts
    · exact congrArg₂ List.cons second seconds

/-- A long operation computes the limbs of the sum or difference, for numbers of any size. The last
carry is set if the sum has no room, or if nothing was borrowed, and the last overflow if the signed
result has no room. Any limbs can be loaded, from any state. -/
theorem performed_exact (op : LongOperation) :
    (∀ (p : Processor) (limbs : List (Word × Word)), limbs ≠ [] →
      op.PerformedBy (op.feed p limbs) ∧
        (op.feed p limbs).map LimbStep.first = limbs.map Prod.fst ∧
        (op.feed p limbs).map LimbStep.second = limbs.map Prod.snd) ∧
    ∀ steps, op.PerformedBy steps →
      let firsts := steps.map LimbStep.first
      let seconds := steps.map LimbStep.second
      let span := 2 ^ (32 * steps.length)
      (Limbs.value (steps.map LimbStep.result) : Int) =
          op.exact (Limbs.value firsts) (Limbs.value seconds) % (span : Nat) ∧
        ∃ last, steps.getLast? = some last ∧
          (last.after.status.carry ↔ op.carries (Limbs.value firsts) (Limbs.value seconds) span) ∧
          (last.after.status.overflow ↔ ¬FitsSigned (32 * steps.length)
            (op.exact (Limbs.signed firsts) (Limbs.signed seconds))) := by
  refine ⟨fun p limbs nonempty => op.feed_spec p nonempty, ?_⟩
  intro steps performed
  obtain ⟨nonempty, results, kept⟩ := aluResult_of_performed performed
  have pairsLength : (op.pairs steps).length = steps.length := List.length_map _
  have morePairs : op.pairs steps ≠ [] := mt List.map_eq_nil_iff.1 nonempty
  obtain ⟨top, sum⟩ := Limbs.exists_added op.carryIn morePairs
  have total := sum.value
  have sign := sum.overflow
  have exactSum := op.value_pairs steps
  have values : (Limbs.add op.carryIn (op.pairs steps)).map AluResult.value =
      steps.map LimbStep.result := by
    rw [← results, List.map_map]
    exact List.map_congr_left fun s member => ((kept s member).value).symm
  obtain ⟨last, atEnd, rfl⟩ : ∃ last, steps.getLast? = some last ∧ last.aluResult = top := by
    have final := sum.getLast
    rw [← results, List.getLast?_map, Option.map_eq_some_iff] at final
    exact final
  have keptLast := kept last (List.mem_of_getLast? atEnd)
  rw [values, pairsLength] at total
  rw [pairsLength, op.signed_pairs nonempty] at sign
  have digit := Limbs.value_lt (steps.map LimbStep.result)
  rw [List.length_map] at digit
  rw [← total] at exactSum
  obtain ⟨value, carry⟩ := op.exact_of_digit digit exactSum
  refine ⟨value, last, atEnd, ?_, ?_⟩
  · rw [keptLast.carry]
    exact carry
  · rw [keptLast.overflow, sign, decide_eq_true_iff]

/-- The limbs of 2^32 and of 1. -/
def borrowing : List (Word × Word) := [(0, 1), (1, 0)]

/-- The lower limb borrows from the upper one. -/
theorem performed_exact_borrowing :
    borrowing ≠ [] ∧ subtract.PerformedBy (subtract.feed .initial borrowing) ∧
      (Limbs.value ((subtract.feed .initial borrowing).map LimbStep.result) : Int) = 2 ^ 32 - 1 ∧
      ∃ last, (subtract.feed .initial borrowing).getLast? = some last ∧
        last.after.status.carry ∧ ¬last.after.status.overflow := by
  have some : borrowing ≠ [] := by decide
  obtain ⟨feeds, computes⟩ := performed_exact subtract
  obtain ⟨performed, firsts, seconds⟩ := feeds .initial borrowing some
  obtain ⟨value, last, atEnd, carry, overflow⟩ := computes _ performed
  have minuend : Limbs.value (borrowing.map Prod.fst) = 2 ^ 32 := rfl
  have subtrahend : Limbs.value (borrowing.map Prod.snd) = 1 := rfl
  have minuendSigned : Limbs.signed (borrowing.map Prod.fst) = 2 ^ 32 := rfl
  have subtrahendSigned : Limbs.signed (borrowing.map Prod.snd) = 1 := rfl
  have length : (subtract.feed .initial borrowing).length = 2 := rfl
  rw [firsts, seconds, minuend, subtrahend, length] at value carry
  rw [firsts, seconds, minuendSigned, subtrahendSigned, length] at overflow
  refine ⟨some, performed, value, last, atEnd, carry.2 (by decide : 1 ≤ 2 ^ 32), ?_⟩
  rw [overflow]
  decide

end LongOperation

end ArmConsole
