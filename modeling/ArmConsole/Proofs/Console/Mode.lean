import ArmConsole.Proofs.Console.Run
import ArmConsole.Proofs.Machine.Step
import ArmConsole.Proofs.Snapshot.Reader
import Mathlib.Logic.ExistsUnique

/-!
The mode is kept twice, in the status word and beside it. Main statement: in every state that a
console can reach, whatever its guest does and whatever snapshots it is given, the low five bits of
the status word select a mode, and it is the one whose registers are visible.
-/

namespace ArmConsole

/-- A blob whose status word does not select the mode is refused. -/
theorem ProcessorSnapshot.ensures_read :
    read.Ensures fun s => s.status.mode? = some s.mode := by
  unfold read
  refine .bind' fun live => ?_
  refine .bind' fun user => ?_
  refine .bind' fun fiq => ?_
  refine .bind' fun irq => ?_
  refine .bind' fun supervisor => ?_
  refine .bind' fun abort => ?_
  refine .bind' fun undefined => ?_
  refine .bind' fun word => ?_
  have readMode : (readMode ⟨word⟩).Ensures fun mode => StatusWord.mode? ⟨word⟩ = some mode := by
    unfold readMode
    split
    next mode found => exact SnapshotReader.ensures_pure found
    next => exact SnapshotReader.ensures_corrupt _
  refine readMode.bind fun mode found => ?_
  refine .bind' fun saved => ?_
  refine .bind' fun fiqLine => ?_
  refine .bind' fun memoryAbort => ?_
  refine .bind' fun images => ?_
  exact SnapshotReader.ensures_pure found

theorem ProcessorSnapshot.coherent_restore {blob : ByteArray} {s : ProcessorSnapshot}
    (accepted : decode blob = .ok s) (p : Processor) (memory : GuestMemory) :
    (s.restore p memory).1.Coherent :=
  StatusWord.mode?_eq_some_iff.1 (ensures_read.decode accepted)

namespace Processor

theorem coherent_initial : initial.Coherent := rfl

theorem coherent_reset (p : Processor) : p.reset.Coherent := coherent_initial

end Processor

namespace Machine

variable {δ : Type} [ExpansionDevice δ]

theorem coherent_step {m : Machine δ} (coherent : m.processor.Coherent) :
    m.step.processor.Coherent := by
  obtain ⟨p, outcome, same⟩ := m.step_outcome
  rw [same]
  exact (outcome.coherent coherent).sampleFiq _

end Machine

namespace Console

variable {δ : Type} [ExpansionDevice δ]

/-- The mode invariant. -/
def Coherent (c : Console δ) : Prop := c.machine.processor.Coherent

theorem coherent_step (c : Console δ) (coherent : c.Coherent) : c.step.Coherent :=
  Machine.coherent_step coherent

/-- The end of a line leaves the processor alone. -/
theorem coherent_runLine {c : Console δ} (coherent : c.Coherent) : c.runLine.Coherent :=
  runCycles_invariant coherent_step coherent _ _ _

/-- A refused snapshot leaves the processor alone, and an accepted one brings its own. -/
theorem coherent_loaded {c : Console δ} (coherent : c.Coherent) (s : ConsoleSnapshot) :
    (c.loaded s).Coherent := by
  obtain ⟨expansion, same⟩ | ⟨processor, controller, expansion, accepted, -, same⟩ :=
    c.loaded_cases s
  · rw [same]
    exact coherent
  · rw [same]
    exact ProcessorSnapshot.coherent_restore accepted c.machine.processor c.machine.space.memory

omit [ExpansionDevice δ] in
theorem processor_loadRomOrStay (c : Console δ) (bank : Nat) (image : ByteArray) :
    (c.loadRomOrStay bank image).machine.processor = c.machine.processor := by
  unfold loadRomOrStay loadRom
  cases c.machine.space.memory.loadRom bank image <;> rfl

omit [ExpansionDevice δ] in
theorem processor_selectRomOrStay (c : Console δ) (bank : Nat) :
    (c.selectRomOrStay bank).machine.processor = c.machine.processor := by
  unfold selectRomOrStay
  cases c.machine.space.memory.selectRom bank <;> rfl

theorem coherent_handle (c : Console δ) (event : ConsoleEvent δ) (coherent : c.Coherent) :
    (c.handle event).Coherent := by
  cases event with
  | step => exact c.coherent_step coherent
  | runLine => exact coherent_runLine coherent
  | reset => exact c.machine.processor.coherent_reset
  | load s => exact coherent_loaded coherent s
  | loadRom bank image =>
    rw [Coherent, handle, processor_loadRomOrStay]
    exact coherent
  | selectRom bank =>
    rw [Coherent, handle, processor_selectRomOrStay]
    exact coherent
  | _ => exact coherent

/-- The status word selects exactly one mode, the one of the visible registers, in every state
that can be reached. -/
theorem run_selects_mode (configuration : Configuration) (events : List (ConsoleEvent δ)) :
    let p := ((new configuration).run events).machine.processor
    (∃! mode : Mode, p.status.modeBits = mode.bits) ∧ p.status.modeBits = p.mode.bits := by
  intro p
  have coherent : p.Coherent :=
    run_invariant coherent_handle (c := new configuration) Processor.coherent_initial events
  refine ⟨⟨p.mode, coherent, ?_⟩, coherent⟩
  intro mode selected
  exact Mode.bits_inj.1 (selected.symm.trans coherent)

end Console

end ArmConsole
