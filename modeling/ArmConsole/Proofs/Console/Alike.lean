import ArmConsole.Console
import ArmConsole.Proofs.System.Alike

/-!
Consoles that differ in their shadow pages, and in whether the last instruction stalled the bus.
The next instruction forgets the one and no guest sees the other. Main statement: such consoles stay
alike for any number of lines.
-/

namespace ArmConsole

variable {δ : Type}

namespace Machine

/-- The machine when it has forgotten that a write stalled the bus. -/
def settled (m : Machine δ) : Machine δ := m.mapProcessor fun p => { p with stalled := false }

/-- Equal but for the shadow pages and a stall. -/
structure Alike (m n : Machine δ) : Prop where
  processor : m.settled.processor = n.settled.processor
  memory : m.space.memory.Alike n.space.memory
  io : m.space.io = n.space.io
  calls : m.calls = n.calls
  redirects : m.redirects = n.redirects

variable {m n : Machine δ}

theorem alike_iff : m.Alike n ↔ Related AddressSpace.Alike m.settled n.settled := by
  constructor
  · intro alike
    change Related _ ⟨m.settled.processor, m.space, m.calls, m.redirects⟩
      ⟨n.settled.processor, n.space, n.calls, n.redirects⟩
    rw [alike.processor, alike.calls, alike.redirects]
    exact .intro _ _ _ ⟨alike.memory, alike.io⟩
  · intro related
    exact ⟨related.processor, related.space.memory, related.space.io, related.calls,
      related.redirects⟩

/-- An instruction starts by forgetting a stall. -/
theorem Alike.step [ExpansionDevice δ] (alike : m.Alike n) : m.step.Alike n.step := by
  have related := (alike_iff.1 alike).step AddressSpace.alike_simulation
  change Related AddressSpace.Alike m.step n.step at related
  exact alike_iff.2 (related.mapProcessor _)

end Machine

namespace Console

/-- Equal but for the shadow pages and a stall. -/
structure Alike (a b : Console δ) : Prop where
  configuration : a.configuration = b.configuration
  machine : a.machine.Alike b.machine
  line : a.line = b.line
  field : a.field = b.field
  carry : a.carry = b.carry
  cycles : a.cycles = b.cycles

namespace Alike

variable [ExpansionDevice δ] {a b : Console δ}

theorem step (alike : a.Alike b) : a.step.Alike b.step := by
  have machine := alike.machine.step
  have spent := congrArg Processor.cycles machine.processor
  refine ⟨alike.configuration, machine, alike.line, alike.field, alike.carry, ?_⟩
  change a.cycles + a.machine.step.settled.processor.cycles.toUInt64 = _
  rw [alike.cycles, spent]
  rfl

theorem runCycles (alike : a.Alike b) (budget : Word) (fuel : Nat) (spent : Word) :
    Agree Alike (a.runCycles budget fuel spent) (b.runCycles budget fuel spent) := by
  induction fuel generalizing a b spent with
  | zero => exact ⟨rfl, alike⟩
  | succ fuel ih =>
    have stepped := alike.step
    have cost := congrArg Processor.cycles stepped.machine.processor
    change a.step.machine.processor.cycles = b.step.machine.processor.cycles at cost
    unfold Console.runCycles
    split
    · dsimp only
      rw [cost]
      exact ih stepped _
    · exact ⟨rfl, alike⟩

theorem tickLine (alike : a.Alike b) : a.tickLine.Alike b.tickLine := by
  obtain ⟨configuration, machine, line, field, carry, cycles⟩ := alike
  refine ⟨configuration, ⟨machine.processor, machine.memory, ?_, machine.calls, machine.redirects⟩,
    line, field, carry, cycles⟩
  exact congrArg Peripherals.tickLine machine.io

omit [ExpansionDevice δ] in
theorem nextLine (alike : a.Alike b) : a.nextLine.Alike b.nextLine := by
  obtain ⟨configuration, ⟨p, ⟨m, io⟩, calls, redirects⟩, line, field, carry, cycles⟩ := a
  obtain ⟨_, ⟨q, ⟨n, _⟩, _, _⟩, _, _, _, _⟩ := b
  obtain ⟨rfl, ⟨processor, memory, rfl, rfl, rfl⟩, rfl, rfl, rfl, rfl⟩ := alike
  exact ⟨rfl, ⟨processor, memory, rfl, rfl, rfl⟩, rfl, rfl, rfl, rfl⟩

theorem runLine (alike : a.Alike b) : a.runLine.Alike b.runLine := by
  unfold Console.runLine
  dsimp only
  rw [alike.configuration, alike.carry]
  obtain ⟨spent, rest⟩ := alike.runCycles b.configuration.cyclesPerLine
    (b.configuration.cyclesPerLine.toNat - b.carry.toNat) b.carry
  rw [spent]
  obtain ⟨configuration, machine, line, field, -, cycles⟩ := rest
  apply nextLine
  apply tickLine
  exact ⟨configuration, machine, line, field, rfl, cycles⟩

theorem runLines (alike : a.Alike b) (count : Nat) :
    (a.runLines count).Alike (b.runLines count) := by
  induction count generalizing a b with
  | zero => exact alike
  | succ count ih => exact ih alike.runLine

end Alike

end Console

end ArmConsole
