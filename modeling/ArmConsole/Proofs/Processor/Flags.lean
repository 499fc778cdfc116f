import ArmConsole.Processor.Execute
import ArmConsole.Proofs.Instruction.Fields
import ArmConsole.Proofs.Processor.Status

/-!
Flags between two instructions. An arithmetic instruction with the S bit leaves the flags of its
result in the status word, and a condition code reads them back through its row of the table. Main
statements: `passes_flags` says what each row asks of the flags, and `dataProcessing_of_arithmetic`
says all that an arithmetic instruction does.
-/

namespace ArmConsole

namespace StatusWord

variable (s : StatusWord) (r : AluResult)

@[simp] theorem negative_withFlags : (s.withFlags r).negative = r.negative := by
  simp (disch := decide) only [withFlags, withNegative, withZero, withCarry, withOverflow, negative,
    Word.bit_withBit]
  rfl

@[simp] theorem zero_withFlags : (s.withFlags r).zero = r.zero := by
  simp (disch := decide) only [withFlags, withNegative, withZero, withCarry, withOverflow, zero,
    Word.bit_withBit]
  rfl

@[simp] theorem carry_withFlags : (s.withFlags r).carry = r.carry := by
  simp (disch := decide) only [withFlags, withNegative, withZero, withCarry, withOverflow, carry,
    Word.bit_withBit]
  rfl

@[simp] theorem overflow_withFlags : (s.withFlags r).overflow = r.overflow := by
  simp (disch := decide) only [withFlags, withNegative, withZero, withCarry, withOverflow, overflow,
    Word.bit_withBit]
  rfl

/-- Four flags as a nibble, N first. -/
def nibble (n z c v : Bool) : Word := .ofNat (8 * n.toNat + 4 * z.toNat + 2 * c.toNat + v.toNat)

theorem flags_eq_nibble : s.flags = nibble s.negative s.zero s.carry s.overflow := by
  have bound := s.word.toNat_lt
  have n : s.negative.toNat = s.word.toNat / 2 ^ 31 % 2 := s.word.toNat_bit (by decide)
  have z : s.zero.toNat = s.word.toNat / 2 ^ 30 % 2 := s.word.toNat_bit (by decide)
  have c : s.carry.toNat = s.word.toNat / 2 ^ 29 % 2 := s.word.toNat_bit (by decide)
  have v : s.overflow.toNat = s.word.toNat / 2 ^ 28 % 2 := s.word.toNat_bit (by decide)
  have shifted : s.flags.toNat = s.word.toNat / 2 ^ 28 := by
    rw [flags, UInt32.toNat_shiftRight, Nat.shiftRight_eq_div_pow]
    rfl
  rw [← UInt32.toNat_inj, shifted, nibble, n, z, c, v, UInt32.toNat_ofNat']
  omega

end StatusWord

namespace Condition

/-- What a condition asks of the flags. -/
def holds (n z c v : Bool) : Condition → Bool
  | eq => z
  | ne => !z
  | cs => c
  | cc => !c
  | mi => n
  | pl => !n
  | vs => v
  | vc => !v
  | hi => c && !z
  | ls => !c || z
  | ge => n == v
  | lt => n != v
  | gt => !z && n == v
  | le => z || n != v
  | al => true
  | nv => false

theorem passes_nibble (condition : Condition) (n z c v : Bool) :
    condition.passes (StatusWord.nibble n z c v) = condition.holds n z c v := by
  revert n z c v
  cases condition <;> decide

/-- The rows of the table are the conditions on the flags. -/
theorem passes_flags (condition : Condition) (s : StatusWord) :
    condition.passes s.flags = condition.holds s.negative s.zero s.carry s.overflow := by
  rw [s.flags_eq_nibble, passes_nibble]

end Condition

namespace Processor

/-- The result of a data processing instruction. -/
def aluResult (p : Processor) (i : DataProcessing) : AluResult :=
  i.operation.compute (p.operand i.rn (lookAheadWith i.operand)) (p.secondOperand i.operand)
    p.status.carry

/-- An arithmetic instruction that sets flags. -/
structure SetsFlags (i : DataProcessing) : Prop where
  arithmetic : i.operation.isLogical = false
  setFlags : i.setFlags = true
  /-- With R15 as destination the S bit would restore the status word. -/
  rd : i.rd ≠ .pc

theorem dataProcessing_of_arithmetic (p : Processor) {i : DataProcessing} (sets : SetsFlags i) :
    p.dataProcessing i =
      { p with
        live := if i.operation.writesResult then
          p.live.set i.rd (p.aluResult i).value i.rd.bound else p.live
        status := p.status.withFlags (p.aluResult i)
        cycles := p.cycles + secondOperandCost i.operand } := by
  obtain ⟨arithmetic, setFlags, rd⟩ := sets
  unfold dataProcessing
  dsimp only
  rw [if_pos setFlags]
  unfold updateStatus
  rw [if_neg rd, arithmetic]
  cases i.operation.writesResult with
  | false => rfl
  | true =>
    unfold setRegister
    rw [if_neg rd]
    rfl

end Processor

end ArmConsole
