import ArmConsole.Processor.Execute

/-!
What operations of the processor cost. A bound on what lies between two states adds up along a
chain of operations. The dearest are the multiplications, whose cost depends on the multiplier, and
what a write of the program counter adds to any other operation.
-/

namespace ArmConsole

namespace Processor

/-- From `p` to `q` at most `most` cycles were spent. -/
def Spent (p : Processor) (most : Nat) (q : Processor) : Prop :=
  ∃ n ≤ most, q.cycles = p.cycles + .ofNat n

namespace Spent

variable {p q r : Processor} {most : Nat}

theorem of_eq (same : q.cycles = p.cycles) : p.Spent 0 q :=
  ⟨0, Nat.le_refl 0, same.trans p.cycles.add_zero.symm⟩

theorem mono (spent : p.Spent most q) {more : Nat} (le : most ≤ more) : p.Spent more q := by
  obtain ⟨n, bound, cost⟩ := spent
  exact ⟨n, Nat.le_trans bound le, cost⟩

theorem trans (first : p.Spent most q) {further : Nat} (second : q.Spent further r) :
    p.Spent (most + further) r := by
  obtain ⟨n, bound, cost⟩ := first
  obtain ⟨k, bound', cost'⟩ := second
  refine ⟨n + k, Nat.add_le_add bound bound', ?_⟩
  rw [cost', cost, UInt32.ofNat_add, UInt32.add_assoc]

/-- What may be left out costs at most what it costs. -/
theorem ite (spent : p.Spent most q) (c : Prop) [Decidable c] :
    p.Spent most (if c then q else p) := by
  split
  · exact spent
  · exact (of_eq rfl).mono (Nat.zero_le most)

end Spent

theorem spent_spend (p : Processor) (n : Nat) : p.Spent n (p.spend (.ofNat n)) :=
  ⟨n, Nat.le_refl n, rfl⟩

/-! ### Registers and status -/

theorem spent_setRegister (p : Processor) (r : RegisterNumber) (v : Word) :
    p.Spent (if r = .pc then 5 else 0) (p.setRegister r v) := by
  unfold setRegister
  split
  · exact spent_spend (p.withRegister r v) 5
  · exact .of_eq rfl

theorem spent_setRegister_five (p : Processor) (r : RegisterNumber) (v : Word) :
    p.Spent 5 (p.setRegister r v) := by
  apply (p.spent_setRegister r v).mono
  split <;> decide

theorem spent_load (p : Processor) (user : Bool) (r : RegisterNumber) (v : Word) :
    p.Spent (if r = .pc then 5 else 0) (p.load user r v) := by
  cases user with
  | false => exact p.spent_setRegister r v
  | true => exact (Spent.of_eq rfl).mono (Nat.zero_le _)

theorem spent_setStatus (p : Processor) (value : Word) : p.Spent 0 (p.setStatus value) := by
  unfold setStatus
  split <;> exact .of_eq rfl

theorem spent_restoreStatus (p : Processor) : p.Spent 0 p.restoreStatus := by
  unfold restoreStatus
  split
  · exact p.spent_setStatus _
  · exact .of_eq rfl

theorem spent_sampleFiq (p : Processor) (needed : Bool) : p.Spent 0 (p.sampleFiq needed) := by
  unfold sampleFiq
  split
  · exact .of_eq rfl
  · split
    · exact .of_eq rfl
    · exact .of_eq rfl

/-! ### Instructions -/

theorem spent_updateStatus (p : Processor) (i : DataProcessing) (r : AluResult) :
    p.Spent 0 (p.updateStatus i r) := by
  unfold updateStatus
  split
  · exact p.spent_restoreStatus
  · split <;> exact .of_eq rfl

theorem spent_dataProcessing (p : Processor) (i : DataProcessing) :
    p.Spent 6 (p.dataProcessing i) := by
  have shifted : p.Spent 1 (p.spend (secondOperandCost i.operand)) := by
    unfold secondOperandCost
    split
    · exact p.spent_spend 1
    · exact (p.spent_spend 0).mono (by decide)
  unfold dataProcessing
  dsimp only
  have written (result : Word) :=
    (spent_setRegister_five (p.spend (secondOperandCost i.operand)) i.rd result).ite
      (i.operation.writesResult = true)
  exact (shifted.trans (written _)).trans ((spent_updateStatus _ i _).ite _)

theorem spent_writeStatus (p : Processor) (i : StatusWrite) : p.Spent 0 (p.writeStatus i) := by
  unfold writeStatus
  dsimp only
  split
  · split
    · exact p.spent_setStatus _
    · exact .of_eq rfl
  · split <;> exact .of_eq rfl

theorem spent_multiplyCost (p : Processor) (multiplier : Word) :
    p.Spent 16 (p.spend (multiplyCost multiplier)) := by
  rw [multiplyCost, internal, UInt32.one_mul]
  exact (p.spent_spend _).mono (Nat.min_le_right _ _)

theorem spent_multiply (p : Processor) (i : Multiply) : p.Spent 21 (p.multiply i) := by
  unfold multiply
  dsimp only
  have written := (p.spent_setRegister_five i.rd (p.product i)).trans
    (spent_multiplyCost _ (p.operand i.rs lookAhead))
  split
  · exact written.trans (.of_eq rfl)
  · exact written

theorem spent_branch (p : Processor) (link : Bool) (offset : Word) :
    p.Spent 5 (p.branch link offset) := ⟨5, Nat.le_refl 5, rfl⟩

theorem spent_trapUndefined (p : Processor) : p.Spent 6 p.trapUndefined :=
  ⟨6, Nat.le_refl 6, rfl⟩

theorem spent_trapSoftwareInterrupt (p : Processor) : p.Spent 5 p.trapSoftwareInterrupt :=
  ⟨5, Nat.le_refl 5, rfl⟩

end Processor

end ArmConsole
