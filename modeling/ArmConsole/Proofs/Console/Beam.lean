import ArmConsole.Proofs.Console.Budget
import ArmConsole.Proofs.Console.Interrupts
import Mathlib.Order.Interval.Finset.Nat

/-!
The beam. Lines count through a field and fields alternate, whatever the guest does to the register
in which the position is published. Main statement: from a start on, the position is the number of
lines that were run, it is published at the end of each, and in a field's worth of lines each line
of the video standard is reached once.
-/

namespace ArmConsole

theorem VideoStandard.linesPerField_cases (v : VideoStandard) :
    v.linesPerField.toNat = 263 ∨ v.linesPerField.toNat = 312 := by
  cases v with
  | ntsc => exact .inl rfl
  | pal => exact .inr rfl

theorem VideoStandard.linesPerField_pos (v : VideoStandard) : 0 < v.linesPerField := by
  cases v <;> decide

variable {δ : Type}

namespace Console

variable {c d : Console δ} {configuration : Configuration} {lines : Nat}

/-! ### The end of a line -/

theorem toNat_line_add_one (within : c.line.toNat < c.configuration.video.linesPerField.toNat) :
    (c.line + 1).toNat = c.line.toNat + 1 := by
  have few := c.configuration.video.linesPerField_cases
  have one : (1 : Word).toNat = 1 := rfl
  rw [UInt32.toNat_add, one]
  exact Nat.mod_eq_of_lt (by omega)

theorem toNat_line_nextLine (within : c.line.toNat < c.configuration.video.linesPerField.toNat) :
    c.nextLine.line.toNat = (c.line.toNat + 1) % c.configuration.video.linesPerField.toNat := by
  have next := toNat_line_add_one within
  change (if c.configuration.video.linesPerField ≤ c.line + 1 then 0 else c.line + 1).toNat = _
  split
  next wraps =>
    rw [UInt32.le_iff_toNat_le, next] at wraps
    have last : c.line.toNat + 1 = c.configuration.video.linesPerField.toNat := by omega
    rw [last, Nat.mod_self]
    rfl
  next stays =>
    rw [UInt32.le_iff_toNat_le, next] at stays
    rw [next, Nat.mod_eq_of_lt (Nat.lt_of_not_le stays)]

theorem toNat_field_nextLine (within : c.line.toNat < c.configuration.video.linesPerField.toNat)
    (few : c.field.toNat < 2) :
    c.nextLine.field.toNat =
      (c.field.toNat + (c.line.toNat + 1) / c.configuration.video.linesPerField.toNat) % 2 := by
  have next := toNat_line_add_one within
  change (if c.configuration.video.linesPerField ≤ c.line + 1 then c.field ^^^ 1
    else c.field).toNat = _
  split
  next wraps =>
    rw [UInt32.le_iff_toNat_le, next] at wraps
    have last : c.line.toNat + 1 = c.configuration.video.linesPerField.toNat := by omega
    rw [last, Nat.div_self (by omega), UInt32.toNat_xor]
    obtain even | odd : c.field.toNat = 0 ∨ c.field.toNat = 1 := by omega
    · rw [even]; rfl
    · rw [odd]; rfl
  next stays =>
    rw [UInt32.le_iff_toNat_le, next] at stays
    rw [Nat.div_eq_of_lt (Nat.lt_of_not_le stays), Nat.add_zero, Nat.mod_eq_of_lt few]

/-- Whatever the line was: it is set to 0 where it is past the last one. -/
theorem line_nextLine_lt_linesPerField (c : Console δ) :
    c.nextLine.line < c.configuration.video.linesPerField := by
  change (if c.configuration.video.linesPerField ≤ c.line + 1 then 0 else c.line + 1) < _
  split
  · exact c.configuration.video.linesPerField_pos
  next stays => exact UInt32.not_le.1 stays

/-- What a console does within a line leaves the beam where it is. -/
theorem runLine_eq_nextLine [ExpansionDevice δ] (c : Console δ) :
    ∃ d : Console δ,
      (d.configuration = c.configuration ∧ d.line = c.line ∧ d.field = c.field) ∧
        c.runLine = d.nextLine := by
  let budget := c.configuration.cyclesPerLine
  have spent := runCycles_invariant
    (P := fun d => d.configuration = c.configuration ∧ d.line = c.line ∧ d.field = c.field)
    (fun _ same => same) ⟨rfl, rfl, rfl⟩ budget (budget.toNat - c.carry.toNat) c.carry
  unfold Console.runLine
  dsimp only
  generalize c.runCycles _ _ _ = ran at spent ⊢
  exact ⟨({ ran.2 with carry := ran.1 - budget } : Console δ).tickLine, spent, rfl⟩

/-! ### Counting -/

/-- After `lines` lines the beam is where they have taken it. -/
structure OnBeam (configuration : Configuration) (lines : Nat) (c : Console δ) : Prop where
  configured : c.configuration = configuration
  line : c.line.toNat = lines % configuration.video.linesPerField.toNat
  field : c.field.toNat = lines / configuration.video.linesPerField.toNat % 2

namespace OnBeam

theorem of_eq (onBeam : OnBeam configuration lines c)
    (same : d.configuration = c.configuration ∧ d.line = c.line ∧ d.field = c.field) :
    OnBeam configuration lines d := by
  obtain ⟨same, line, field⟩ := same
  exact ⟨same.trans onBeam.configured, by rw [line, onBeam.line], by rw [field, onBeam.field]⟩

theorem line_lt (onBeam : OnBeam configuration lines c) :
    c.line.toNat < c.configuration.video.linesPerField.toNat := by
  have some := configuration.video.linesPerField_cases
  rw [onBeam.configured, onBeam.line]
  exact Nat.mod_lt _ (by omega)

theorem field_lt (onBeam : OnBeam configuration lines c) : c.field.toNat < 2 := by
  rw [onBeam.field]
  exact Nat.mod_lt _ (by decide)

theorem nextLine (onBeam : OnBeam configuration lines c) :
    OnBeam configuration (lines + 1) c.nextLine := by
  have line := toNat_line_nextLine onBeam.line_lt
  have field := toNat_field_nextLine onBeam.line_lt onBeam.field_lt
  rw [onBeam.configured, onBeam.line] at line field
  rw [onBeam.field] at field
  refine ⟨onBeam.configured, by rw [line, Nat.mod_add_mod], ?_⟩
  rw [field]
  obtain few | many := configuration.video.linesPerField_cases
  · rw [few]
    omega
  · rw [many]
    omega

variable [ExpansionDevice δ]

theorem runLine (onBeam : OnBeam configuration lines c) :
    OnBeam configuration (lines + 1) c.runLine := by
  obtain ⟨d, same, ran⟩ := c.runLine_eq_nextLine
  rw [ran]
  exact (onBeam.of_eq same).nextLine

theorem handle (onBeam : OnBeam configuration lines c) {event : ConsoleEvent δ}
    (keeps : event.KeepsController) :
    OnBeam configuration (lines + event.isLine.toNat) (c.handle event) := by
  cases event with
  | runLine => exact onBeam.runLine
  | reset => exact keeps.elim
  | load s => exact keeps.elim
  | step => exact onBeam.of_eq ⟨rfl, rfl, rfl⟩
  | _ =>
    refine onBeam.of_eq (c.beam_handle ?_)
    trivial

theorem run (onBeam : OnBeam configuration lines c) {events : List (ConsoleEvent δ)}
    (keep : ∀ event ∈ events, event.KeepsController) :
    OnBeam configuration (lines + events.countP (·.isLine)) (c.run events) :=
  run_counted (fun _ _ _ keeps onBeam => onBeam.handle keeps) onBeam keep

end OnBeam

variable [ExpansionDevice δ]

theorem Started.onBeam (started : c.Started) : OnBeam c.configuration 0 c := by
  cases started with
  | new configuration =>
    exact ⟨rfl, (Nat.zero_mod _).symm, by rw [Nat.zero_div]; rfl⟩
  | reset c =>
    exact ⟨rfl, (Nat.zero_mod _).symm, by rw [Nat.zero_div]; rfl⟩

/-- A field is as many lines as the video standard has. -/
theorem runField_eq_run (c : Console δ) :
    c.runField =
      c.run (List.replicate c.configuration.video.linesPerField.toNat .runLine) := by
  unfold runField
  generalize c.configuration.video.linesPerField.toNat = lines
  induction lines generalizing c with
  | zero => rfl
  | succ lines ih => exact ih c.runLine

/-! ### The lines that are reached -/

/-- The lines that a run reaches, one for each line that it runs. -/
def newLines (c : Console δ) : List (ConsoleEvent δ) → List Word
  | [] => []
  | event :: events =>
    let after := c.handle event
    if event.isLine then after.line :: after.newLines events else after.newLines events

/-- They follow each other, and after the last line of a field comes the first. -/
theorem OnBeam.newLines (onBeam : OnBeam configuration lines c) {events : List (ConsoleEvent δ)}
    (keep : ∀ event ∈ events, event.KeepsController) :
    (c.newLines events).map UInt32.toNat =
      (List.range' (lines + 1) (events.countP (·.isLine))).map
        (· % configuration.video.linesPerField.toNat) := by
  induction events generalizing c lines with
  | nil => rfl
  | cons event events ih =>
    obtain ⟨first, rest⟩ := List.forall_mem_cons.1 keep
    have after := onBeam.handle first
    have behind := ih after rest
    unfold Console.newLines
    dsimp only
    cases counts : event.isLine with
    | true =>
      rw [counts] at after behind
      rw [if_pos rfl, List.map_cons, behind, after.line, List.countP_cons_of_pos counts,
        List.range'_succ, List.map_cons]
      rfl
    | false =>
      rw [counts] at behind
      rw [if_neg Bool.false_ne_true, behind, List.countP_cons_of_neg (Bool.eq_false_iff.1 counts)]
      rfl

/-- In a field's worth of lines each line of the standard is reached once and no other is. -/
theorem OnBeam.count_newLines (onBeam : OnBeam configuration lines c)
    {events : List (ConsoleEvent δ)} (keep : ∀ event ∈ events, event.KeepsController)
    (field : events.countP (·.isLine) = configuration.video.linesPerField.toNat) (line : Word) :
    (c.newLines events).count line =
      if line < configuration.video.linesPerField then 1 else 0 := by
  -- As many numbers in a row as the modulus leave each remainder once.
  have reached := onBeam.newLines keep
  rw [field] at reached
  have cycle : (↑((c.newLines events).map UInt32.toNat) : Multiset Nat) =
      Multiset.range configuration.video.linesPerField.toNat := by
    rw [reached, ← Nat.multiset_Ico_map_mod (lines + 1)]
    change _ = Multiset.map _ (List.range' (lines + 1) (_ - (lines + 1)) : Multiset Nat)
    rw [Nat.add_sub_cancel_left]
    rfl
  have count := Multiset.count_eq_of_nodup (a := line.toNat)
    (Multiset.nodup_range configuration.video.linesPerField.toNat)
  rw [← cycle, Multiset.coe_count, List.count_map_of_injective _ _ fun _ _ => UInt32.toNat_inj.1,
    cycle] at count
  simp only [Multiset.mem_range, ← UInt32.lt_iff_toNat_lt] at count
  exact count

/-! ### Publication -/

/-- The controller says where the beam is, and where a compare register does, its interrupt is
pending. -/
structure Published (c : Console δ) : Prop where
  register : c.machine.space.io.controller.register SystemController.lineCounter =
    (c.field <<< 11) ||| c.line
  line : c.machine.space.io.controller.line = c.line
  field : c.machine.space.io.controller.field = c.field
  first : c.machine.space.io.controller.register SystemController.firstCompare &&& 0x7FF = c.line →
    c.machine.space.io.controller.interrupts.primaryPending.bit 0 = true
  second : c.machine.space.io.controller.register SystemController.secondCompare &&& 0x7FF = c.line →
    c.machine.space.io.controller.interrupts.primaryPending.bit 1 = true

omit [ExpansionDevice δ] in
theorem Published.nextLine (few : c.field.toNat < 2) : c.nextLine.Published := by
  obtain ⟨register, line, field⟩ := published_nextLine few
  have short : c.nextLine.line &&& 0x7FF = c.nextLine.line := by
    rw [← UInt32.toNat_inj, Word.toNat_and_mask (k := 11) _ rfl,
      Nat.mod_eq_of_lt c.line_nextLine_lt]
  rw [SystemController.position, short] at register
  exact ⟨register, line, field, SystemController.isPending_updateLine_first,
    SystemController.isPending_updateLine_second⟩

theorem Published.runLine (few : c.field.toNat < 2) : c.runLine.Published := by
  obtain ⟨d, ⟨-, -, field⟩, ran⟩ := c.runLine_eq_nextLine
  rw [ran]
  rw [← field] at few
  exact .nextLine few

/-- Since the start the beam went as many lines as were run, whatever the guest did and its host
asked for meanwhile. Each line ends with its position published, and the lines of a field's worth of
them are those of the video standard, each once. -/
theorem run_beam (start : Console δ) (started : start.Started) (events : List (ConsoleEvent δ))
    (keep : ∀ event ∈ events, event.KeepsController) :
    let c := start.run events
    let lines := events.countP (·.isLine)
    let perField := start.configuration.video.linesPerField
    c.line.toNat = lines % perField.toNat ∧ c.field.toNat = lines / perField.toNat % 2 ∧
      c.runLine.Published ∧
      ∀ more : List (ConsoleEvent δ), (∀ event ∈ more, event.KeepsController) →
        more.countP (·.isLine) = perField.toNat →
        ∀ line : Word, (c.newLines more).count line = if line < perField then 1 else 0 := by
  intro c lines perField
  have onBeam : OnBeam start.configuration lines c := by
    have ran := started.onBeam.run keep
    rwa [Nat.zero_add] at ran
  exact ⟨onBeam.line, onBeam.field, .runLine onBeam.field_lt, fun more keepMore field line =>
    onBeam.count_newLines keepMore field line⟩

omit [ExpansionDevice δ] in
/-- Lines in a row. -/
theorem keepsController_replicate (lines : Nat) :
    ∀ event ∈ List.replicate lines (.runLine : ConsoleEvent δ), event.KeepsController := by
  intro event member
  rw [List.eq_of_mem_replicate member]
  trivial

omit [ExpansionDevice δ] in
theorem countP_isLine_replicate (lines : Nat) :
    (List.replicate lines (.runLine : ConsoleEvent δ)).countP (·.isLine) = lines :=
  List.countP_replicate.trans (if_pos rfl)

/-- A field and 37 lines, and the field behind them. -/
theorem run_beam_secondField :
    let c := (new .standard : Console ScriptedDevice).run (List.replicate 300 .runLine)
    c.line.toNat = 37 ∧ c.field.toNat = 1 ∧ c.runLine.Published ∧
      (c.newLines (List.replicate 263 .runLine)).count 262 = 1 ∧
      (c.newLines (List.replicate 263 .runLine)).count 263 = 0 := by
  obtain ⟨line, field, published, reached⟩ := run_beam (new .standard : Console ScriptedDevice)
    (.new _) (List.replicate 300 .runLine) (keepsController_replicate 300)
  have again := reached (List.replicate 263 .runLine) (keepsController_replicate 263)
    (countP_isLine_replicate 263)
  rw [countP_isLine_replicate] at line field
  exact ⟨line, field, published, again 262, again 263⟩

end Console

end ArmConsole
