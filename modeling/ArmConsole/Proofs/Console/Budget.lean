import ArmConsole.Expansion.Scripted
import ArmConsole.Proofs.Console.Run
import ArmConsole.Proofs.Machine.Cost

/-!
The cycle budget of lines. A line goes on while its budget is not spent and ends with the first
step that reaches it, so that it overdraws by less than one step; the next line pays that back.
Main statement: after any number of lines the cycles spent are those budgeted for them and at most
31 more, however small the budget is.
-/

namespace ArmConsole

variable {δ : Type}

/-- Far from the largest word, so that no sum of a line overflows. -/
theorem Configuration.cyclesPerLine_lt (c : Configuration) : c.cyclesPerLine.toNat < 2 ^ 19 := by
  have clock := c.clock.toNat_lt
  have quotient : c.cyclesPerLine.toNat =
      c.clock.toNat / (c.video.fieldsPerSecond * c.video.linesPerField).toNat := UInt32.toNat_div ..
  have lines : 2 ^ 13 ≤ (c.video.fieldsPerSecond * c.video.linesPerField).toNat := by
    cases c.video <;> decide
  rw [quotient]
  apply Nat.div_lt_of_lt_mul
  omega

namespace ConsoleEvent

/-- Runs the processor by whole lines at most, and does not restore a snapshot, which forgives what
was overdrawn. -/
def KeepsBudget : ConsoleEvent δ → Prop
  | .step | .load _ | .reset => False
  | _ => True

def isLine : ConsoleEvent δ → Bool
  | .runLine => true
  | _ => false

end ConsoleEvent

namespace Console

variable [ExpansionDevice δ] {c d : Console δ} {budget spent total : Word}

/-- What each event preserves as it counts its line holds after a run with all lines counted. -/
theorem run_counted {P : Nat → Console δ → Prop} {allowed : ConsoleEvent δ → Prop}
    (preserved : ∀ lines c event, allowed event → P lines c →
      P (lines + event.isLine.toNat) (c.handle event))
    {lines : Nat} (start : P lines c) {events : List (ConsoleEvent δ)}
    (keep : ∀ event ∈ events, allowed event) :
    P (lines + events.countP (·.isLine)) (c.run events) := by
  induction events generalizing c lines with
  | nil => exact start
  | cons event events ih =>
    obtain ⟨first, rest⟩ := List.forall_mem_cons.1 keep
    have ran := ih (preserved lines c event first start) rest
    have count : (event :: events).countP (·.isLine) =
        event.isLine.toNat + events.countP (·.isLine) := by
      rw [List.countP_cons]
      cases event.isLine <;> simp [Nat.add_comm]
    rw [count, ← Nat.add_assoc]
    exact ran

/-! ### Steps of a line -/

/-- A line as it is meant, without a bound on its steps: from `spent` cycles at `c` it steps while
the budget is not spent, and ends with `total` cycles at `d`. -/
inductive Spends (budget : Word) : Word → Console δ → Word → Console δ → Prop
  | done {spent : Word} {c : Console δ} : ¬spent < budget → Spends budget spent c spent c
  | turn {spent total : Word} {c d : Console δ} : spent < budget →
      Spends budget (spent + c.step.machine.processor.cycles) c.step total d →
      Spends budget spent c total d

/-- No overflow, as long as the budget leaves room for one step. -/
theorem toNat_spend (c : Console δ) (fits : budget.toNat < 2 ^ 19) (short : spent < budget) :
    (spent + c.step.machine.processor.cycles).toNat =
      spent.toNat + c.step.machine.processor.cycles.toNat := by
  obtain ⟨-, most⟩ := c.machine.cycles_step
  change c.step.machine.processor.cycles.toNat ≤ 32 at most
  rw [UInt32.lt_iff_toNat_lt] at short
  rw [UInt32.toNat_add]
  omega

/-- Every step brings the end of the line nearer. -/
theorem spends_runCycles (c : Console δ) (fits : budget.toNat < 2 ^ 19) (spent : Word) {fuel : Nat}
    (enough : budget.toNat - spent.toNat ≤ fuel) :
    Spends budget spent c (c.runCycles budget fuel spent).1 (c.runCycles budget fuel spent).2 := by
  induction fuel generalizing c spent with
  | zero =>
    apply Spends.done
    rw [UInt32.lt_iff_toNat_lt]
    omega
  | succ fuel ih =>
    unfold runCycles
    split
    next short =>
      obtain ⟨least, -⟩ := c.machine.cycles_step
      change 1 ≤ c.step.machine.processor.cycles.toNat at least
      have sum := c.toNat_spend fits short
      rw [UInt32.lt_iff_toNat_lt] at short
      apply Spends.turn
      · rwa [UInt32.lt_iff_toNat_lt]
      · exact ih c.step _ (by omega)
    next enough => exact .done enough

theorem runLine_spends (c : Console δ) :
    ∃ total d, Spends c.configuration.cyclesPerLine c.carry c total d ∧
      c.runLine = ({ d with carry := total - c.configuration.cyclesPerLine } :
        Console δ).tickLine.nextLine :=
  ⟨_, _, c.spends_runCycles c.configuration.cyclesPerLine_lt c.carry (Nat.le_refl _), rfl⟩

namespace Spends

theorem configuration (spends : Spends budget spent c total d) :
    d.configuration = c.configuration := by
  induction spends with
  | done => rfl
  | turn _ _ ih => exact ih

theorem le_total (spends : Spends budget spent c total d) : budget ≤ total := by
  induction spends with
  | done spent => exact UInt32.not_lt.1 spent
  | turn _ _ ih => exact ih

/-- The last step started within the budget. -/
theorem total_le (spends : Spends budget spent c total d) (fits : budget.toNat < 2 ^ 19) :
    total.toNat ≤ max spent.toNat (budget.toNat + 31) := by
  induction spends with
  | done => omega
  | @turn spent total c d short _ ih =>
    obtain ⟨-, most⟩ := c.machine.cycles_step
    change c.step.machine.processor.cycles.toNat ≤ 32 at most
    rw [c.toNat_spend fits short] at ih
    rw [UInt32.lt_iff_toNat_lt] at short
    omega

/-- The console counts what the line counts. -/
theorem counted (spends : Spends budget spent c total d) (fits : budget.toNat < 2 ^ 19) :
    ∃ n, total.toNat = spent.toNat + n ∧ d.cycles.toNat = (c.cycles.toNat + n) % 2 ^ 64 := by
  induction spends with
  | @done spent c => exact ⟨0, rfl, (Nat.mod_eq_of_lt c.cycles.toNat_lt).symm⟩
  | @turn spent total c d short _ ih =>
    obtain ⟨n, sum, cycles⟩ := ih
    have first : c.step.cycles.toNat =
        (c.cycles.toNat + c.step.machine.processor.cycles.toNat) % 2 ^ 64 := UInt64.toNat_add ..
    rw [c.toNat_spend fits short] at sum
    refine ⟨c.step.machine.processor.cycles.toNat + n, by omega, ?_⟩
    rw [cycles, first, Nat.mod_add_mod, Nat.add_assoc]

end Spends

/-! ### Lines -/

/-- New, or just reset. -/
inductive Started : Console δ → Prop
  | new (configuration : Configuration) : Started (new configuration)
  | reset (c : Console δ) : Started c.reset

/-- After `lines` lines of a configuration, the cycles are those budgeted and those overdrawn. -/
structure OnBudget (configuration : Configuration) (lines : Nat) (c : Console δ) : Prop where
  configured : c.configuration = configuration
  overdrawn : c.carry.toNat ≤ 31
  cycles : c.cycles.toNat = (lines * configuration.cyclesPerLine.toNat + c.carry.toNat) % 2 ^ 64

theorem Started.onBudget (started : c.Started) : OnBudget c.configuration 0 c := by
  cases started with
  | new configuration => exact ⟨rfl, Nat.zero_le 31, by rw [Nat.zero_mul]; rfl⟩
  | reset c => exact ⟨rfl, Nat.zero_le 31, by rw [Nat.zero_mul]; rfl⟩

namespace OnBudget

variable {configuration : Configuration} {lines : Nat}

theorem runLine (onBudget : OnBudget configuration lines c) :
    OnBudget configuration (lines + 1) c.runLine := by
  obtain ⟨rfl, ahead, cycles⟩ := onBudget
  obtain ⟨total, d, spends, line⟩ := c.runLine_spends
  have fits := c.configuration.cyclesPerLine_lt
  have reached := UInt32.le_iff_toNat_le.1 spends.le_total
  have bound := spends.total_le fits
  obtain ⟨n, sum, counted⟩ := spends.counted fits
  have carry : c.runLine.carry.toNat = total.toNat - c.configuration.cyclesPerLine.toNat := by
    rw [line]
    exact UInt32.toNat_sub_of_le _ _ spends.le_total
  have spent : c.runLine.cycles = d.cycles := by rw [line]; rfl
  refine ⟨by rw [line]; exact spends.configuration, by omega, ?_⟩
  rw [spent, counted, cycles, carry, Nat.mod_add_mod, Nat.succ_mul]
  congr 1
  omega

omit [ExpansionDevice δ] in
/-- What runs nothing and restores nothing leaves the account alone. -/
theorem of_eq (onBudget : OnBudget configuration lines c)
    (same : d.configuration = c.configuration) (carry : d.carry = c.carry)
    (cycles : d.cycles = c.cycles) : OnBudget configuration lines d where
  configured := same.trans onBudget.configured
  overdrawn := carry ▸ onBudget.overdrawn
  cycles := by rw [carry, cycles, onBudget.cycles]

theorem handle (onBudget : OnBudget configuration lines c) {event : ConsoleEvent δ}
    (keeps : event.KeepsBudget) :
    OnBudget configuration (lines + event.isLine.toNat) (c.handle event) := by
  cases event with
  | runLine => exact onBudget.runLine
  | step => exact keeps.elim
  | load s => exact keeps.elim
  | reset => exact keeps.elim
  | loadRom bank image =>
    obtain ⟨memory, same⟩ := c.loadRomOrStay_eq bank image
    rw [Console.handle, same]
    exact onBudget.of_eq rfl rfl rfl
  | selectRom bank =>
    obtain ⟨memory, same⟩ := c.selectRomOrStay_eq bank
    rw [Console.handle, same]
    exact onBudget.of_eq rfl rfl rfl
  | _ => exact onBudget.of_eq rfl rfl rfl

theorem run (onBudget : OnBudget configuration lines c) {events : List (ConsoleEvent δ)}
    (keep : ∀ event ∈ events, event.KeepsBudget) :
    OnBudget configuration (lines + events.countP (·.isLine)) (c.run events) :=
  run_counted (fun _ _ _ keeps onBudget => onBudget.handle keeps) onBudget keep

end OnBudget

/-- Every step costs from 1 to 32 cycles. So every line ends, and after any number of lines since
the start the cycles spent are those budgeted and at most 31 more. -/
theorem run_budget :
    (∀ m : Machine δ, 1 ≤ m.step.processor.cycles.toNat ∧ m.step.processor.cycles.toNat ≤ 32) ∧
    (∀ c : Console δ, ∃ total d, Spends c.configuration.cyclesPerLine c.carry c total d ∧
      c.runLine = ({ d with carry := total - c.configuration.cyclesPerLine } :
        Console δ).tickLine.nextLine) ∧
    ∀ start : Console δ, start.Started → ∀ events : List (ConsoleEvent δ),
      (∀ event ∈ events, event.KeepsBudget) →
      let c := start.run events
      let budgeted := events.countP (·.isLine) * start.configuration.cyclesPerLine.toNat
      c.carry.toNat ≤ 31 ∧ c.cycles.toNat = (budgeted + c.carry.toNat) % 2 ^ 64 := by
  refine ⟨Machine.cycles_step, runLine_spends, ?_⟩
  intro start started events keep
  obtain ⟨-, overdrawn, cycles⟩ := started.onBudget.run keep
  rw [Nat.zero_add] at cycles
  exact ⟨overdrawn, cycles⟩

/-- Two lines of one cycle each, which is less than any branch costs. -/
theorem run_budget_short :
    let c := (new ⟨.ntsc, 15780, false, false, false⟩ : Console ScriptedDevice).run
      [.runLine, .raise 1 0, .runLine]
    c.carry.toNat ≤ 31 ∧ c.cycles.toNat = (2 * 1 + c.carry.toNat) % 2 ^ 64 := by
  have spent := run_budget.2.2 (new ⟨.ntsc, 15780, false, false, false⟩ : Console ScriptedDevice)
    (.new _) [.runLine, .raise 1 0, .runLine]
    (List.forall_mem_cons.2 ⟨trivial, List.forall_mem_cons.2
      ⟨trivial, List.forall_mem_singleton.2 trivial⟩⟩)
  have budget : (new ⟨.ntsc, 15780, false, false, false⟩ :
      Console ScriptedDevice).configuration.cyclesPerLine.toNat = 1 := by decide
  have lines : List.countP ConsoleEvent.isLine
      [.runLine, .raise 1 0, (.runLine : ConsoleEvent ScriptedDevice)] = 2 := rfl
  dsimp only at spent ⊢
  rw [budget, lines] at spent
  exact spent

end Console

end ArmConsole
