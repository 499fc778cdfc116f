import ArmConsole.Proofs.Machine.BlockTransfer

/-!
Registers that are stored and loaded again. For every form of a store of a block that writes its
base back there is one form of a load that finds the same words and moves the base back. Main
statement: behind both, whatever the listed registers were used for in between, all registers are
what they were before.
-/

namespace ArmConsole

def Direction.opposite : Direction → Direction
  | up => .down
  | down => .up

def Indexing.opposite : Indexing → Indexing
  | pre => .post
  | post => .pre

namespace BlockTransfer

/-- A load for a store, and the other way round, of the same list by the same base. -/
def inverse (i : BlockTransfer) : BlockTransfer :=
  { i with
    load := !i.load
    direction := i.direction.opposite
    indexing := i.indexing.opposite }

section

variable (i : BlockTransfer)

@[simp] theorem direction_inverse : i.inverse.direction = i.direction.opposite := rfl

@[simp] theorem indexing_inverse : i.inverse.indexing = i.indexing.opposite := rfl

@[simp] theorem registers_inverse : i.inverse.registers = i.registers := rfl

theorem bank_congr {p q : Processor} (same : q.mode = p.mode) : i.bank q = i.bank p := by
  rw [bank, bank, same]

theorem writtenBack_pc (plain : i.base ≠ .pc) (p : Processor) : i.writtenBack p .pc = p.pc := by
  have apart : PhysicalRegister.pc ≠ p.mode.sees i.base := (p.mode.sees_ne_pc plain).symm
  rw [← p.registers_pc, writtenBack]
  split
  · exact Function.update_of_ne apart _ _
  · rfl

variable {i} in
/-- What is not listed is apart from the listed registers of all modes. -/
theorem sees_apart {r : RegisterNumber} (unlisted : r ∉ i.registers) (a b : Mode) :
    ∀ s ∈ i.registers, a.sees r ≠ b.sees s := by
  intro s among same
  exact unlisted (Mode.eq_of_sees same ▸ among)

theorem moved_inverse (base : Word) : i.inverse.moved (i.moved base) = base := by
  simp only [moved, direction_inverse, registers_inverse]
  cases i.direction with
  | up => exact UInt32.add_sub_cancel _ _
  | down => exact UInt32.sub_add_cancel _ _

/-- From where the base has been moved to, the inverse goes through the same words. -/
theorem place_inverse (base : Word) (j : Nat) :
    i.inverse.place (i.moved base) j = i.place base j := by
  simp only [place, moved, direction_inverse, indexing_inverse, registers_inverse]
  cases i.direction with
  | up => cases i.indexing <;> simp only [Direction.opposite, Indexing.opposite,
      UInt32.add_sub_cancel]
  | down => cases i.indexing <;> rfl

end

variable {δ : Type}

/-- From `m` to `n`, the listed registers may have changed, and R15 and the flags, but no other
register, no saved status word and nothing in memory. -/
structure Spoiled (i : BlockTransfer) (m n : Machine δ) : Prop where
  memory : n.space.memory = m.space.memory
  mode : n.processor.mode = m.processor.mode
  saved : n.processor.bank.saved = m.processor.bank.saved
  others (q : PhysicalRegister) :
    q ≠ .pc → (∀ r ∈ i.registers, q ≠ (i.bank m.processor).sees r) →
      n.processor.registers q = m.processor.registers q

section Spoiled

variable [ExpansionDevice δ] {m s n : Machine δ} {i : BlockTransfer} (stored : i.Stored m s)
  (spoiled : i.Spoiled s n)

include stored spoiled

theorem Spoiled.mode_eq : n.processor.mode = m.processor.mode :=
  spoiled.mode.trans stored.only.mode

theorem Spoiled.bank_eq : i.inverse.bank n.processor = i.bank m.processor :=
  i.bank_congr (spoiled.mode_eq stored)

/-- What is not listed is as the store has left it. -/
theorem Spoiled.unlisted {q : PhysicalRegister} (other : q ≠ .pc)
    (outside : ∀ r ∈ i.registers, q ≠ (i.bank m.processor).sees r) :
    n.processor.registers q = i.writtenBack m.processor q := by
  rw [← stored.registers]
  apply spoiled.others q other
  rwa [i.bank_congr stored.only.mode]

/-- The words of the block still hold the listed registers. -/
theorem Spoiled.word (inRam : i.InRam m.processor) (pcUnlisted : .pc ∉ i.registers) {j : Nat}
    (among : j < i.registers.length) :
    (n.space.readWord (i.place (m.processor.held i.base) j)).1 =
      m.processor.registers ((i.bank m.processor).sees i.registers[j]) := by
  have here := inRam j among
  have other : i.registers[j] ≠ .pc := fun pc => pcUnlisted (pc ▸ List.getElem_mem among)
  have word := stored.word j among
  rw [Processor.reading, if_neg other] at word
  rw [← word, n.space.readWord_of_lt here, s.space.readWord_of_lt here, spoiled.memory]

section Base

variable (writeBack : i.writeBack = true) (plain : i.base ≠ .pc) (unlisted : i.base ∉ i.registers)

include writeBack plain unlisted

/-- The base register still holds where the block ends. -/
theorem Spoiled.held_base : n.processor.held i.base = i.moved (m.processor.held i.base) := by
  rw [Processor.held, spoiled.mode_eq stored, spoiled.unlisted stored (Mode.sees_ne_pc _ plain)
    (sees_apart unlisted _ _), writtenBack, if_pos writeBack, Function.update_self]

theorem Spoiled.place_eq (j : Nat) :
    i.inverse.place (n.processor.held i.base) j = i.place (m.processor.held i.base) j := by
  rw [spoiled.held_base stored writeBack plain unlisted, i.place_inverse]

/-- To write the base back once more undoes that it was written back before. -/
theorem Spoiled.writtenBack_inverse {q : PhysicalRegister} (other : q ≠ .pc)
    (outside : ∀ r ∈ i.registers, q ≠ (i.bank m.processor).sees r) :
    i.inverse.writtenBack n.processor q = m.processor.registers q := by
  let base := m.processor.mode.sees i.base
  have back : i.inverse.writtenBack n.processor =
      Function.update n.processor.registers base (m.processor.held i.base) := by
    rw [← i.moved_inverse (m.processor.held i.base),
      ← spoiled.held_base stored writeBack plain unlisted]
    change _ = Function.update _ (m.processor.mode.sees i.base) _
    rw [← spoiled.mode_eq stored]
    exact if_pos writeBack
  rw [back]
  by_cases isBase : q = base
  · rw [isBase, Function.update_self]
    rfl
  · rw [Function.update_of_ne isBase, spoiled.unlisted stored other outside, writtenBack,
      if_pos writeBack, Function.update_of_ne isBase]

end Base

end Spoiled

end BlockTransfer

namespace Machine

variable {δ : Type} [ExpansionDevice δ]

/-- Registers that are stored, used for something else and loaded by the inverse are what they were
before, and so is the base. R15 and the flags are left as they have become. -/
theorem execute_inverse {m n : Machine δ} {i : BlockTransfer} (store : i.load = false)
    (writeBack : i.writeBack = true) (plain : i.base ≠ .pc) (baseUnlisted : i.base ∉ i.registers)
    (pcUnlisted : .pc ∉ i.registers) (inRam : i.InRam m.processor)
    (spoiled : i.Spoiled (m.execute (.blockTransfer i)) n) :
    let o := n.execute (.blockTransfer i.inverse)
    (∀ q, q ≠ .pc → o.processor.registers q = m.processor.registers q) ∧
    (m.execute (.blockTransfer i)).processor.pc = m.processor.pc ∧
    o.processor.pc = n.processor.pc ∧
    o.processor.bank.saved = m.processor.bank.saved ∧ o.processor.mode = m.processor.mode ∧
    o.processor.status = n.processor.status ∧ o.space = n.space := by
  intro o
  have stored := stored_blockTransfer plain m inRam store
  have place := spoiled.place_eq stored writeBack plain baseUnlisted
  have loads : i.inverse.load = true := congrArg (!·) store
  have loaded : i.inverse.Loaded n o := by
    refine loaded_blockTransfer (i := i.inverse) plain n (fun j among => ?_) loads
    exact (congrArg UInt32.toNat (place j)).trans_lt (inRam j among)
  have listed := loaded.listed
  have others := loaded.others
  rw [spoiled.bank_eq stored] at listed others
  have state := loaded.status
  rw [if_neg fun both => pcUnlisted both.2] at state
  refine ⟨?_, ?_, ?_, loaded.kept.saved.trans (spoiled.saved.trans stored.only.saved),
    (congrArg Prod.fst state).trans (spoiled.mode_eq stored), congrArg Prod.snd state, ?_⟩
  · intro q other
    by_cases among : ∃ r ∈ i.registers, q = (i.bank m.processor).sees r
    · obtain ⟨r, among, rfl⟩ := among
      obtain ⟨j, bound, rfl⟩ := List.getElem_of_mem among
      refine (listed j bound).trans ?_
      rw [← spoiled.word stored inRam pcUnlisted bound, ← place]
      rfl
    · have outside : ∀ r ∈ i.registers, q ≠ (i.bank m.processor).sees r :=
        fun r listed same => among ⟨r, listed, same⟩
      rw [others q outside]
      exact spoiled.writtenBack_inverse stored writeBack plain baseUnlisted other outside
  · rw [← Processor.registers_pc, stored.registers, i.writtenBack_pc plain]
  · have outside := BlockTransfer.sees_apart pcUnlisted .user (i.bank m.processor)
    rw [Mode.sees_pc] at outside
    rw [← Processor.registers_pc, others _ outside, i.inverse.writtenBack_pc plain]
  · rw [loaded.machine]

/-- `STMDB R0!, {R1, R14}^`. -/
def saving : BlockTransfer := ⟨false, .pre, .down, true, true, .r0, 0x4002⟩

/-- `LDMIA R0!, {R1, R14}^` brings User's R14 back that has been cleared. -/
theorem execute_inverse_stacking :
    let n := (stacking.execute (.blockTransfer saving)).mapProcessor fun p => p.load true .link 0
    let o := n.execute (.blockTransfer saving.inverse)
    o.processor.registers (.high .user 1) = 7 ∧ o.processor.registers (.low 0) = 0x8000 := by
  intro n o
  let s := stacking.execute (.blockTransfer saving)
  have only : s.processor.OnlyRegisters n.processor := s.processor.onlyRegisters_load true .link 0
  have spoiled : saving.Spoiled s n := by
    refine ⟨rfl, only.mode, only.saved, ?_⟩
    intro q other outside
    have user : saving.bank s.processor = .user := if_pos (by decide)
    have apart := outside .link (by decide)
    rw [user] at apart
    exact (congrFun (s.processor.registers_load true .link 0) q).trans
      (Function.update_of_ne apart _ _)
  obtain ⟨registers, -⟩ := execute_inverse (m := stacking) (i := saving) rfl rfl (by decide)
    (by decide) (by decide) (by decide) spoiled
  exact ⟨(registers _ (by decide)).trans (by decide), (registers _ (by decide)).trans (by decide)⟩

end Machine

end ArmConsole
