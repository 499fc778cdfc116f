import ArmConsole.Proofs.Console.Beam
import ArmConsole.Proofs.Console.Resume

/-!
The range of the beam. A line always ends on a line of the video standard, but a snapshot puts the
beam where its controller says, and cuts the field alone to what there is. Main statement: in every
state that can be reached the field is 0 or 1, and the line is one of the video standard, unless the
last thing that moved the beam was a snapshot with another line.
-/

namespace ArmConsole

variable {δ : Type}

/-- Leaves the beam where it is, unless a snapshot says otherwise. -/
def ConsoleEvent.KeepsBeam : ConsoleEvent δ → Prop
  | .runLine | .reset => False
  | _ => True

namespace Console

variable [ExpansionDevice δ] {c d : Console δ} {configuration : Configuration}

/-! ### Events -/

/-- The load of a snapshot was accepted and has put the beam on a line that the video standard does
not have, and the beam has not moved since. -/
def Displaced (configuration : Configuration) (events : List (ConsoleEvent δ)) (line : Word) :
    Prop :=
  ∃ before s behind controller after, events = before ++ .load s :: behind ∧
    (∀ event ∈ behind, event.KeepsBeam) ∧
    load s ((new configuration).run before) = .ok () after ∧ after.line = line ∧
    SystemController.decode s.controller = .ok controller ∧
    line = controller.line ∧ configuration.video.linesPerField ≤ line

theorem Displaced.concat {events : List (ConsoleEvent δ)} {line : Word}
    (displaced : Displaced configuration events line) {event : ConsoleEvent δ}
    (keeps : event.KeepsBeam) : Displaced configuration (events ++ [event]) line := by
  obtain ⟨before, s, behind, controller, after, rfl, keep, done⟩ := displaced
  refine ⟨before, s, behind ++ [event], controller, after, ?_, ?_, done⟩
  · rw [List.append_assoc, List.cons_append]
  · intro event member
    obtain member | member := List.mem_append.1 member
    · exact keep event member
    · rwa [List.mem_singleton.1 member]

/-- What is known of the beam after any events, and where a line out of range comes from. -/
structure Ranged (configuration : Configuration) (events : List (ConsoleEvent δ)) (c : Console δ) :
    Prop where
  configured : c.configuration = configuration
  field : c.field.toNat < 2
  line : c.line < configuration.video.linesPerField ∨ Displaced configuration events c.line

namespace Ranged

variable {events : List (ConsoleEvent δ)} {event : ConsoleEvent δ}

theorem of_eq (ranged : Ranged configuration events c)
    (same : d.configuration = c.configuration ∧ d.line = c.line ∧ d.field = c.field)
    (keeps : event.KeepsBeam) : Ranged configuration (events ++ [event]) d := by
  obtain ⟨configured, line, field⟩ := same
  refine ⟨configured.trans ranged.configured, ?_, ?_⟩
  · rw [field]
    exact ranged.field
  · rw [line]
    exact ranged.line.imp_right fun displaced => displaced.concat keeps

theorem runLine (ranged : Ranged configuration events c) (more : List (ConsoleEvent δ)) :
    Ranged configuration more c.runLine := by
  obtain ⟨d, ⟨configured, line, field⟩, ran⟩ := c.runLine_eq_nextLine
  have configured := configured.trans ranged.configured
  have few := ranged.field
  have within := d.line_nextLine_lt_linesPerField
  rw [configured] at within
  rw [← field] at few
  rw [ran]
  exact ⟨configured, field_nextLine_lt few, .inl within⟩

/-- The field is cut to one bit, and the line is taken as it is. -/
theorem loaded (ranged : Ranged configuration events ((new configuration).run events))
    (s : ConsoleSnapshot) :
    Ranged configuration (events ++ [.load s]) (((new configuration).run events).loaded s) := by
  rw [Console.loaded]
  obtain ⟨e, expansion, refused⟩ | ⟨processor, controller, expansion, -, accepted, done⟩ :=
    ((new configuration).run events).load_cases s
  · rw [refused]
    exact ranged.of_eq ⟨rfl, rfl, rfl⟩ trivial
  · rw [done]
    refine ⟨ranged.configured, Word.toNat_and_lt (by decide), ?_⟩
    by_cases within : controller.line < configuration.video.linesPerField
    · exact .inl within
    · exact .inr ⟨events, s, [], controller, _, rfl, List.forall_mem_nil _, done, rfl, accepted,
        rfl, UInt32.not_lt.1 within⟩

theorem handle (ranged : Ranged configuration events ((new configuration).run events))
    (event : ConsoleEvent δ) :
    Ranged configuration (events ++ [event]) (((new configuration).run events).handle event) := by
  cases event with
  | runLine => exact ranged.runLine _
  | load s => exact ranged.loaded s
  | step => exact ranged.of_eq ⟨rfl, rfl, rfl⟩ trivial
  | reset =>
    exact ⟨ranged.configured, Nat.zero_lt_two, .inl configuration.video.linesPerField_pos⟩
  | _ =>
    refine ranged.of_eq (Console.beam_handle _ ?_) ?_ <;> trivial

end Ranged

theorem ranged_run (configuration : Configuration) (events : List (ConsoleEvent δ)) :
    Ranged configuration events ((new configuration).run events) := by
  -- From the end: what moved the beam last is what counts.
  induction events using List.reverseRecOn with
  | nil => exact ⟨rfl, Nat.zero_lt_two, .inl configuration.video.linesPerField_pos⟩
  | append_singleton events event ih =>
    rw [run, List.foldl_concat]
    exact ih.handle event

/-- In every state that can be reached the field is 0 or 1, and the line is one of the video
standard, unless the last thing that moved the beam was a snapshot with another line. The next line
brings it back. -/
theorem run_beam_range (configuration : Configuration) (events : List (ConsoleEvent δ)) :
    let c := (new configuration).run events
    let perField := configuration.video.linesPerField
    c.field.toNat < 2 ∧ (c.line < perField ∨ Displaced configuration events c.line) ∧
      c.runLine.line < perField ∧ c.runField = c.run (.replicate perField.toNat .runLine) := by
  intro c perField
  have ranged : Ranged configuration events c := ranged_run configuration events
  have whole := c.runField_eq_run
  obtain ⟨d, ⟨configured, -⟩, ran⟩ := c.runLine_eq_nextLine
  have within := d.line_nextLine_lt_linesPerField
  rw [configured, ranged.configured, ← ran] at within
  rw [ranged.configured] at whole
  exact ⟨ranged.field, ranged.line, within, whole⟩

/-! ### A snapshot of the other video standard -/

/-- The beam of a console without devices goes where that of another one was. -/
theorem line_loaded_save (boundary : d.AtBoundary)
    (saved : d.machine.space.io.expansion.Vacant)
    (vacant : c.machine.space.io.expansion.Vacant) : (c.loaded d.save).line = d.line := by
  have processorRead : ProcessorSnapshot.decode d.save.processor =
      .ok (.of d.machine.processor d.machine.space.memory) :=
    Machine.decode_saveProcessor boundary.coherent
  have controllerRead : SystemController.decode d.save.controller =
      .ok d.machine.space.io.controller.resync := SystemController.decode_save _
  rw [SystemController.resync_eq_self boundary.synced] at controllerRead
  rw [loaded, load_of_decoded processorRead controllerRead (vacant.decode_save saved),
    vacant.apply (ExpansionBus.length_saved _)]
  exact boundary.line.symm

def wide : Configuration := { Configuration.standard with video := .pal }

/-- Late in a field of 312 lines. -/
def late : Console ScriptedDevice := (new wide).run (List.replicate 300 .runLine)

theorem line_late : late.line.toNat = 300 := by
  have onBeam := (Started.new (δ := ScriptedDevice) wide).onBeam.run (keepsController_replicate 300)
  rw [countP_isLine_replicate] at onBeam
  exact onBeam.line

/-- A console of 263 lines takes the snapshot and is on line 300. -/
theorem line_loaded_late :
    ((new .standard : Console ScriptedDevice).loaded late.save).line.toNat = 300 := by
  have lines : ∀ event ∈ List.replicate 300 (.runLine : ConsoleEvent ScriptedDevice),
      event.KeepsLine ∧ event.KeepsVacant := by
    intro event member
    rw [List.eq_of_mem_replicate member]
    exact ⟨trivial, trivial⟩
  have boundary : late.AtBoundary := (atBoundary_new wide).run fun event member =>
    (lines event member).1
  have start (configuration : Configuration) :
      (new configuration : Console ScriptedDevice).machine.space.io.expansion.Vacant :=
    ExpansionBus.vacant_empty
  have vacant : late.machine.space.io.expansion.Vacant := by
    unfold late
    exact vacant_run (start wide) fun event member => (lines event member).2
  rw [line_loaded_save boundary vacant (start .standard), line_late]

theorem run_beam_displaced : ¬∀ (configuration : Configuration)
    (events : List (ConsoleEvent ScriptedDevice)),
    let c := (new configuration).run events
    c.line < configuration.video.linesPerField ∧ (c.field = 0 ∨ c.field = 1) := by
  intro ranged
  obtain ⟨s, moved⟩ : ∃ s, ((new .standard : Console ScriptedDevice).loaded s).line.toNat = 300 :=
    ⟨_, line_loaded_late⟩
  obtain ⟨within, -⟩ := ranged .standard [.load s]
  change ((new .standard : Console ScriptedDevice).loaded s).line < 263 at within
  rw [UInt32.lt_iff_toNat_lt, moved] at within
  contradiction

end Console

end ArmConsole
