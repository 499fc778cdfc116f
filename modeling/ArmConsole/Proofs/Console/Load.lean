import ArmConsole.Expansion.Scripted
import ArmConsole.Proofs.Console.Run
import ArmConsole.Proofs.Controller.Snapshot
import ArmConsole.Proofs.Expansion.Snapshot
import ArmConsole.Proofs.Machine.Snapshot
import Mathlib.Data.Fintype.Basic
import Mathlib.Tactic.FinCases

/-!
Loading a snapshot. All blobs are decoded before any is applied, and of the three only the devices
on the expansion bus may still refuse theirs. Main statement: a console that fails to load a
snapshot is as it was, unless a device refused; then the bus has gone as far as that device.
-/

namespace ArmConsole

namespace Console

variable {δ : Type} [ExpansionDevice δ] {c : Console δ} {s : ConsoleSnapshot}
  {processor : ProcessorSnapshot} {controller : SystemController} {saved : ExpansionBus.Saved}

/-- With three good blobs the devices have the last word. -/
theorem load_of_decoded (processorRead : ProcessorSnapshot.decode s.processor = .ok processor)
    (controllerRead : SystemController.decode s.controller = .ok controller)
    (expansionRead : c.machine.space.io.expansion.decode s.expansion = .ok saved) :
    load s c = match ExpansionBus.apply saved c.machine.space.io.expansion with
      | .ok () bus => .ok () (c.restored processor controller bus)
      | .error e bus => .error e (c.mapIo fun io => { io with expansion := bus }) := by
  obtain ⟨configuration, ⟨p, ⟨memory, io⟩, calls, redirects⟩, line, field, carry, cycles⟩ := c
  unfold load
  dsimp only at expansionRead ⊢
  rw [processorRead, controllerRead, expansionRead]
  simp only [bind, Except.bind, pure, Except.pure]
  cases ExpansionBus.apply saved io.expansion <;> rfl

/-- A bad blob is noticed before anything happens. -/
theorem load_refused_or_decoded (c : Console δ) (s : ConsoleSnapshot) :
    (∃ e, load s c = .error e c) ∨
      ∃ processor controller saved, ProcessorSnapshot.decode s.processor = .ok processor ∧
        SystemController.decode s.controller = .ok controller ∧
        c.machine.space.io.expansion.decode s.expansion = .ok saved := by
  unfold load
  cases ProcessorSnapshot.decode s.processor with
  | error e => exact .inl ⟨e, rfl⟩
  | ok processor =>
    cases SystemController.decode s.controller with
    | error e => exact .inl ⟨e, rfl⟩
    | ok controller =>
      cases c.machine.space.io.expansion.decode s.expansion with
      | error e => exact .inl ⟨e, rfl⟩
      | ok saved => exact .inr ⟨processor, controller, saved, rfl, rfl, rfl⟩

open ExpansionBus (Refuses)

/-- A console that fails to load a snapshot is as it was, unless all blobs are good and a device
refuses its bytes. Then the first that refuses and the devices before it have been given theirs, and
the bus has taken over the selection. -/
theorem load_error {e : SnapshotError} {after : Console δ} (failed : load s c = .error e after) :
    let bus := c.machine.space.io.expansion
    after = c ∨
      ∃ processor controller saved, ProcessorSnapshot.decode s.processor = .ok processor ∧
        SystemController.decode s.controller = .ok controller ∧
        bus.decode s.expansion = .ok saved ∧
        ∃ j : Fin 15, (∀ i < j, ∀ e, ¬Refuses (bus.slot i) (saved.entry i) e) ∧
          Refuses (bus.slot j) (saved.entry j) e ∧
          after = c.mapIo fun io => { io with expansion := bus.progress saved (j + 1) } := by
  intro bus
  obtain ⟨e', refused⟩ | ⟨processor, controller, saved, processorRead, controllerRead,
    expansionRead⟩ := load_refused_or_decoded c s
  · rw [refused] at failed
    injection failed with _ same
    exact .inl same.symm
  · have all := ExpansionBus.length_of_decode expansionRead
    rw [load_of_decoded processorRead controllerRead expansionRead] at failed
    obtain ⟨-, applied⟩ | ⟨j, e', before, refuses, applied⟩ := ExpansionBus.apply_cases bus all
    · rw [applied] at failed
      contradiction
    · rw [applied] at failed
      injection failed with reason state
      subst reason
      exact .inr ⟨processor, controller, saved, processorRead, controllerRead, expansionRead, j,
        before, refuses, state.symm⟩

/-! ### A device that refuses -/

section Refusal

/-- A device that takes everything back. -/
def willing : ScriptedDevice where
  stream := []
  pollByte := 0
  statusByte := 0
  extra := 0
  refuses := false
  plain := false
  log := #[]

/-- A console with a device that takes everything back, and behind it one that does not. -/
def halfWilling : Console ScriptedDevice :=
  ((new .standard).attach willing).attach { willing with refuses := true }

/-- The first device has been written to, and another slot is selected. -/
def movedOn : Console ScriptedDevice :=
  halfWilling.mapIo fun io => { io with expansion := (io.expansion.write 0x590 0x44).write 0x580 5 }

theorem decode_movedOn : movedOn.machine.space.io.expansion.decode halfWilling.save.expansion =
    .ok halfWilling.machine.space.io.expansion.saved := by
  apply ExpansionBus.decode_save
  rw [ExpansionBus.fits_iff]
  intro i
  fin_cases i
  · exact .occupied rfl (by decide)
  · exact .occupied rfl (by decide)
  all_goals exact .vacant

/-- The second device refuses, and the first slot is selected again. -/
theorem load_movedOn : ∃ e after, load halfWilling.save movedOn = .error e after ∧
    after.machine.space.io.expansion.select = 0 := by
  have processorRead : ProcessorSnapshot.decode halfWilling.save.processor = .ok _ :=
    Machine.decode_saveProcessor rfl
  have controllerRead : SystemController.decode halfWilling.save.controller = .ok _ :=
    SystemController.decode_save _
  have refuses : Refuses (movedOn.machine.space.io.expansion.slot 1)
      (halfWilling.machine.space.io.expansion.saved.entry 1)
      (.corrupt "XBUS" "device refused") := by
    have slot : movedOn.machine.space.io.expansion.slot 1 =
        some { willing with refuses := true, log := #["init"] } := rfl
    have entry : halfWilling.machine.space.io.expansion.saved.entry 1 = some ⟨#[0, 0]⟩ := rfl
    rw [slot, entry]
    exact .intro rfl
  rw [load_of_decoded processorRead controllerRead decode_movedOn]
  obtain ⟨willing, -⟩ | ⟨j, e, -, -, applied⟩ := ExpansionBus.apply_cases
    movedOn.machine.space.io.expansion halfWilling.machine.space.io.expansion.length_saved
  · exact absurd refuses (willing 1 _)
  · rw [applied]
    exact ⟨e, _, rfl, rfl⟩

/-- The failure is one of a device, and the bus has been given what it could take. -/
theorem load_error_movedOn : ∃ e after, load halfWilling.save movedOn = .error e after ∧
    ∃ saved, ∃ j : Fin 15, after = movedOn.mapIo fun io =>
      { io with expansion := movedOn.machine.space.io.expansion.progress saved (j + 1) } := by
  obtain ⟨e, after, failed, select⟩ := load_movedOn
  refine ⟨e, after, failed, ?_⟩
  obtain same | ⟨_, _, saved, _, _, _, j, _, _, same⟩ := load_error failed
  · rw [same] at select
    contradiction
  · exact ⟨saved, j, same⟩

/-- What failed to load may have changed the bus. -/
theorem load_error_changes : ¬∀ (c : Console ScriptedDevice) (s : ConsoleSnapshot) e after,
    load s c = .error e after → after = c := by
  intro unchanged
  obtain ⟨e, after, failed, select⟩ := load_movedOn
  rw [unchanged movedOn halfWilling.save e after failed] at select
  contradiction

end Refusal

end Console

end ArmConsole
