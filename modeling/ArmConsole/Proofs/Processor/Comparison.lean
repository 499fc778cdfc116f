import ArmConsole.Proofs.Arithmetic.Alu
import ArmConsole.Proofs.Processor.Flags

/-!
What the condition codes say after a comparison. A comparison subtracts, or adds, and keeps the flags
only. Main statement: the conditions then pass as the operands compare, as unsigned and as signed
numbers, for all operands, and nothing else is changed.
-/

namespace ArmConsole

/-- The conditions pass as two words compare. -/
structure Compares (a b : Word) (s : StatusWord) : Prop where
  eq : Condition.eq.passes s.flags ↔ a = b
  ne : Condition.ne.passes s.flags ↔ a ≠ b
  cs : Condition.cs.passes s.flags ↔ b.toNat ≤ a.toNat
  cc : Condition.cc.passes s.flags ↔ a.toNat < b.toNat
  hi : Condition.hi.passes s.flags ↔ b.toNat < a.toNat
  ls : Condition.ls.passes s.flags ↔ a.toNat ≤ b.toNat
  ge : Condition.ge.passes s.flags ↔ b.toSigned ≤ a.toSigned
  lt : Condition.lt.passes s.flags ↔ a.toSigned < b.toSigned
  gt : Condition.gt.passes s.flags ↔ b.toSigned < a.toSigned
  le : Condition.le.passes s.flags ↔ a.toSigned ≤ b.toSigned
  mi : Condition.mi.passes s.flags ↔ (a - b).bit 31 = true
  pl : Condition.pl.passes s.flags ↔ (a - b).bit 31 = false
  vs : Condition.vs.passes s.flags ↔ ¬FitsSigned 32 (a.toSigned - b.toSigned)
  vc : Condition.vc.passes s.flags ↔ FitsSigned 32 (a.toSigned - b.toSigned)

/-- The conditions pass as the exact sum of two words is. -/
structure Sums (a b : Word) (s : StatusWord) : Prop where
  eq : Condition.eq.passes s.flags ↔ (a.toNat + b.toNat) % 2 ^ 32 = 0
  ne : Condition.ne.passes s.flags ↔ (a.toNat + b.toNat) % 2 ^ 32 ≠ 0
  cs : Condition.cs.passes s.flags ↔ 2 ^ 32 ≤ a.toNat + b.toNat
  cc : Condition.cc.passes s.flags ↔ a.toNat + b.toNat < 2 ^ 32
  ge : Condition.ge.passes s.flags ↔ 0 ≤ a.toSigned + b.toSigned
  lt : Condition.lt.passes s.flags ↔ a.toSigned + b.toSigned < 0
  gt : Condition.gt.passes s.flags ↔
    0 ≤ a.toSigned + b.toSigned ∧ (a.toNat + b.toNat) % 2 ^ 32 ≠ 0
  le : Condition.le.passes s.flags ↔
    a.toSigned + b.toSigned < 0 ∨ (a.toNat + b.toNat) % 2 ^ 32 = 0
  mi : Condition.mi.passes s.flags ↔ (a + b).bit 31 = true
  pl : Condition.pl.passes s.flags ↔ (a + b).bit 31 = false
  vs : Condition.vs.passes s.flags ↔ ¬FitsSigned 32 (a.toSigned + b.toSigned)
  vc : Condition.vc.passes s.flags ↔ FitsSigned 32 (a.toSigned + b.toSigned)

namespace Condition

/-- The conditions come in pairs, of which one passes. -/
def opposite : Condition → Condition
  | eq => ne | ne => eq | cs => cc | cc => cs
  | mi => pl | pl => mi | vs => vc | vc => vs
  | hi => ls | ls => hi | ge => lt | lt => ge
  | gt => le | le => gt | al => nv | nv => al

theorem holds_opposite (c : Condition) (negative zero carry overflow : Bool) :
    c.opposite.holds negative zero carry overflow = !c.holds negative zero carry overflow := by
  revert negative zero carry overflow
  cases c <;> decide

theorem passes_opposite {c d : Condition} {s : StatusWord} {meaning : Prop}
    (passes : c.passes s.flags ↔ meaning) (pair : c.opposite = d) :
    d.passes s.flags ↔ ¬meaning := by
  rw [← passes, ← pair, passes_flags, passes_flags, holds_opposite, Bool.not_eq_true',
    Bool.not_eq_true]

end Condition

/-! ### Additions -/

/-- One condition of each pair, after an addition with this value, unsigned sum and signed sum. -/
structure Reports (value : Word) (wide : Nat) (sum : Int) (s : StatusWord) : Prop where
  eq : Condition.eq.passes s.flags ↔ wide % 2 ^ 32 = 0
  cs : Condition.cs.passes s.flags ↔ 2 ^ 32 ≤ wide
  hi : Condition.hi.passes s.flags ↔ 2 ^ 32 ≤ wide ∧ wide % 2 ^ 32 ≠ 0
  ge : Condition.ge.passes s.flags ↔ 0 ≤ sum
  gt : Condition.gt.passes s.flags ↔ 0 ≤ sum ∧ wide % 2 ^ 32 ≠ 0
  mi : Condition.mi.passes s.flags ↔ value.bit 31 = true
  vs : Condition.vs.passes s.flags ↔ ¬FitsSigned 32 sum

theorem reports_withFlags (s : StatusWord) (a b : Word) (carryIn : Bool) :
    Reports (AluResult.addWithCarry a b carryIn).value (a.toNat + b.toNat + carryIn.toNat)
      (AluResult.signedSum a b carryIn) (s.withFlags (.addWithCarry a b carryIn)) := by
  let r := AluResult.addWithCarry a b carryIn
  have zero : r.zero ↔ (a.toNat + b.toNat + carryIn.toNat) % 2 ^ 32 = 0 :=
    AluResult.zero_iff a b carryIn
  have carry : r.carry ↔ 2 ^ 32 ≤ a.toNat + b.toNat + carryIn.toNat := by
    rw [AluResult.carry_eq, decide_eq_true_iff]
  have overflow : r.overflow ↔ ¬FitsSigned 32 (AluResult.signedSum a b carryIn) := by
    rw [AluResult.overflow_eq_decide, decide_eq_true_iff]
  have negative : r.negative = r.value.bit 31 := (Word.bit_last _).symm
  have sign : (r.negative == r.overflow) ↔ 0 ≤ AluResult.signedSum a b carryIn := by
    have agree : (r.negative == r.overflow) = !(r.negative != r.overflow) := (Bool.not_not _).symm
    rw [agree, AluResult.negative_bne_overflow, Bool.not_eq_true', decide_eq_false_iff_not,
      Int.not_lt]
  have passes (c : Condition) :
      c.passes (s.withFlags r).flags = c.holds r.negative r.zero r.carry r.overflow := by
    rw [Condition.passes_flags, StatusWord.negative_withFlags, StatusWord.zero_withFlags,
      StatusWord.carry_withFlags, StatusWord.overflow_withFlags]
  constructor
  case eq => rw [passes, ← zero]; rfl
  case cs => rw [passes, ← carry]; rfl
  case hi =>
    rw [passes, ← carry, ne_eq, ← zero, Condition.holds, Bool.and_eq_true, Bool.not_eq_true',
      Bool.not_eq_true]
  case ge => rw [passes, ← sign]; rfl
  case gt =>
    rw [passes, ← sign, ne_eq, ← zero, Condition.holds, Bool.and_eq_true, Bool.not_eq_true',
      Bool.not_eq_true, and_comm]
  case mi => rw [passes, ← negative]; rfl
  case vs => rw [passes, ← overflow]; rfl

theorem Reports.sums {a b : Word} {s : StatusWord}
    (reports : Reports (a + b) (a.toNat + b.toNat) (a.toSigned + b.toSigned) s) : Sums a b s where
  eq := reports.eq
  ne := Condition.passes_opposite reports.eq rfl
  cs := reports.cs
  cc := (Condition.passes_opposite reports.cs rfl).trans Nat.not_le
  ge := reports.ge
  lt := (Condition.passes_opposite reports.ge rfl).trans Int.not_le
  gt := reports.gt
  le := (Condition.passes_opposite reports.gt rfl).trans (by omega)
  mi := reports.mi
  pl := (Condition.passes_opposite reports.mi rfl).trans (iff_of_eq (Bool.not_eq_true _))
  vs := reports.vs
  vc := (Condition.passes_opposite reports.vs rfl).trans not_not

/-- A difference is the sum with the complement and a carry. -/
theorem Reports.compares {a b : Word} {s : StatusWord}
    (reports : Reports (a - b) (a.toNat + (~~~b).toNat + 1) (a.toSigned - b.toSigned) s) :
    Compares a b s := by
  have first := a.toNat_lt
  have second := b.toNat_lt
  have complement := b.toNat_complement
  have unsigned : (a.toNat + (~~~b).toNat + 1) % 2 ^ 32 = 0 ↔ a.toNat = b.toNat := by omega
  have signed : (a.toNat + (~~~b).toNat + 1) % 2 ^ 32 = 0 ↔ a.toSigned = b.toSigned := by
    rw [unsigned, Word.toSigned_eq, Word.toSigned_eq]
    split <;> split <;> omega
  have equal : Condition.eq.passes s.flags ↔ a = b := by
    rw [reports.eq, unsigned, UInt32.toNat_inj]
  have higher : Condition.hi.passes s.flags ↔ b.toNat < a.toNat := by
    rw [reports.hi, ne_eq, unsigned]
    omega
  have greater : Condition.gt.passes s.flags ↔ b.toSigned < a.toSigned := by
    rw [reports.gt, ne_eq, signed]
    omega
  constructor
  case eq => exact equal
  case ne => exact Condition.passes_opposite equal rfl
  case cs => exact reports.cs.trans (by omega)
  case cc => exact (Condition.passes_opposite reports.cs rfl).trans (by omega)
  case hi => exact higher
  case ls => exact (Condition.passes_opposite higher rfl).trans Nat.not_lt
  case ge => exact reports.ge.trans Int.sub_nonneg
  case lt => exact (Condition.passes_opposite reports.ge rfl).trans (by omega)
  case gt => exact greater
  case le => exact (Condition.passes_opposite greater rfl).trans Int.not_lt
  case mi => exact reports.mi
  case pl => exact (Condition.passes_opposite reports.mi rfl).trans (iff_of_eq (Bool.not_eq_true _))
  case vs => exact reports.vs
  case vc => exact (Condition.passes_opposite reports.vs rfl).trans not_not

theorem sums_addWithCarry (s : StatusWord) (a b : Word) :
    Sums a b (s.withFlags (.addWithCarry a b false)) := by
  have value : (AluResult.addWithCarry a b false).value = a + b := by
    rw [← UInt32.toNat_inj, AluResult.toNat_value, UInt32.toNat_add]
    rfl
  have sum : AluResult.signedSum a b false = a.toSigned + b.toSigned := Int.add_zero _
  have reports := reports_withFlags s a b false
  rw [value, sum] at reports
  exact reports.sums

theorem compares_addWithCarry (s : StatusWord) (a b : Word) :
    Compares a b (s.withFlags (.addWithCarry a (~~~b) true)) := by
  have first := a.toNat_lt
  have second := b.toNat_lt
  have complement := b.toNat_complement
  have value : (AluResult.addWithCarry a (~~~b) true).value = a - b := by
    rw [← UInt32.toNat_inj, AluResult.toNat_value, UInt32.toNat_sub, Bool.toNat_true]
    omega
  have sum : AluResult.signedSum a (~~~b) true = a.toSigned - b.toSigned := by
    rw [AluResult.signedSum, Word.toSigned_complement, Bool.toNat_true]
    omega
  have reports := reports_withFlags s a (~~~b) true
  rw [value, sum] at reports
  exact reports.compares

/-! ### Comparisons -/

namespace Processor

/-- After CMP the conditions pass as the operands compare, and after CMN as their exact sum is. Of
the rest, the cycles change and nothing else, below the flags of the status word as well. -/
theorem conditions_of_comparison (p : Processor) (i : DataProcessing) (setFlags : i.setFlags = true)
    (rd : i.rd ≠ .pc) :
    let a := p.operand i.rn (lookAheadWith i.operand)
    let b := (p.secondOperand i.operand).value
    let q := p.dataProcessing i
    (i.operation = .cmp → Compares a b q.status) ∧
      (i.operation = .cmn → Sums a b q.status) ∧
      (i.operation = .cmp ∨ i.operation = .cmn →
        q = { p with status := q.status, cycles := q.cycles } ∧
          q.status.systemBits = p.status.systemBits ∧
          q.cycles = p.cycles + secondOperandCost i.operand) := by
  refine ⟨?cmp, ?cmn, ?rest⟩
  case cmp =>
    intro operation
    have arithmetic : i.operation.isLogical = false := by rw [operation]; rfl
    rw [p.dataProcessing_of_arithmetic ⟨arithmetic, setFlags, rd⟩, aluResult, operation]
    exact compares_addWithCarry p.status _ _
  case cmn =>
    intro operation
    have arithmetic : i.operation.isLogical = false := by rw [operation]; rfl
    rw [p.dataProcessing_of_arithmetic ⟨arithmetic, setFlags, rd⟩, aluResult, operation]
    exact sums_addWithCarry p.status _ _
  case rest =>
    intro operation
    have kind : i.operation.isLogical = false ∧ i.operation.writesResult = false := by
      obtain operation | operation := operation
      · rw [operation]; exact ⟨rfl, rfl⟩
      · rw [operation]; exact ⟨rfl, rfl⟩
    obtain ⟨arithmetic, keeps⟩ := kind
    rw [p.dataProcessing_of_arithmetic ⟨arithmetic, setFlags, rd⟩, keeps]
    exact ⟨rfl, StatusWord.systemBits_withFlags _ _, rfl⟩

/-- R0 holds the least signed number, which is above 1 as an unsigned one. -/
def lowest : Processor := initial.withRegister .r0 0x80000000

/-- CMP R0, #1 -/
def compareLowest : DataProcessing := ⟨.cmp, true, .r0, .r0, .immediate 1 0⟩

/-- CMN R0, R0 -/
def doubleLowest : DataProcessing := ⟨.cmn, true, .r0, .r0, .register .r0 .lsl (.field 0)⟩

theorem conditions_of_comparison_lowest :
    (compareLowest.setFlags = true ∧ compareLowest.rd ≠ .pc ∧ compareLowest.operation = .cmp ∧
      Compares 0x80000000 1 (lowest.dataProcessing compareLowest).status) ∧
    (doubleLowest.setFlags = true ∧ doubleLowest.rd ≠ .pc ∧ doubleLowest.operation = .cmn ∧
      Sums 0x80000000 0x80000000 (lowest.dataProcessing doubleLowest).status) := by
  obtain ⟨compares, -, -⟩ := conditions_of_comparison lowest compareLowest rfl (by decide)
  obtain ⟨-, sums, -⟩ := conditions_of_comparison lowest doubleLowest rfl (by decide)
  exact ⟨⟨rfl, by decide, rfl, compares rfl⟩, ⟨rfl, by decide, rfl, sums rfl⟩⟩

end Processor

end ArmConsole
