import ArmConsole.Controller.Basic
import ArmConsole.Proofs.Controller.Timers

/-!
Cascades. The counters of a chain of timers are the digits of one number, the radix of each being
one more than its backup. Main statement: every tick takes one from the number, or takes it from
zero to the greatest one, whatever the other timers do, and an odd timer raises its source in the
ticks in which the digits up to its own are zero, which is once in as many ticks as they can count.
-/

namespace ArmConsole

namespace Timers

def digit (timers : Timers) (t : Fin 16) : ℕ := (timers.counter.get t).toNat

def radix (timers : Timers) (t : Fin 16) : ℕ := (timers.backup.get t).toNat + 1

/-- The number in the counters of the timers from `first` to `last`. -/
def value (timers : Timers) (first last : Fin 16) : ℕ :=
  MixedRadix.value timers.radix timers.digit first last

/-- How many ticks the timers from `first` to `last` take to come round. -/
def span (timers : Timers) (first last : Fin 16) : ℕ := MixedRadix.span timers.radix first last

example (timers : Timers) (first last : Fin 16) :
    timers.value first last =
      ∑ i ∈ Finset.Icc first last,
        (timers.counter.get i).toNat *
          ∏ j ∈ Finset.Ico first i, ((timers.backup.get j).toNat + 1) := rfl

/-- The timers from `first` to `last` are the same in both. -/
structure SameChain (first last : Fin 16) (a b : Timers) : Prop where
  counter : ∀ t, first ≤ t → t ≤ last → b.counter.get t = a.counter.get t
  backup : ∀ t, first ≤ t → t ≤ last → b.backup.get t = a.backup.get t
  flags : ∀ t, first ≤ t → t ≤ last → b.flags t = a.flags t

variable {timers other : Timers} {first last t : Fin 16}

theorem radix_pos (timers : Timers) (t : Fin 16) : 0 < timers.radix t := Nat.succ_pos _

theorem span_pos (timers : Timers) (first last : Fin 16) : 0 < timers.span first last :=
  MixedRadix.span_pos timers.radix_pos

theorem value_eq_zero_iff :
    timers.value first last = 0 ↔ ∀ t, first ≤ t → t ≤ last → timers.counter.get t = 0 := by
  rw [value, MixedRadix.value_eq_zero_iff timers.radix_pos]
  simp only [digit, ← UInt16.toNat_inj, UInt16.toNat_zero]

theorem SameChain.value (same : SameChain first last timers other) (below : t ≤ last) :
    other.value first t = timers.value first t := by
  apply MixedRadix.value_congr
  · intro i above most
    rw [radix, same.backup i above (most.trans below), radix]
  · intro i above most
    rw [digit, same.counter i above (most.trans below), digit]

theorem SameChain.span (same : SameChain first last timers other) (below : t ≤ last) :
    other.span first t = timers.span first t := by
  apply MixedRadix.span_congr
  intro i above most
  rw [radix, same.backup i above (most.trans below), radix]

/-! ### One tick -/

namespace Chain

theorem value_lt_span (chain : timers.Chain first last) :
    timers.value first last < timers.span first last := by
  apply MixedRadix.value_lt_span chain.ordered
  intro i above below
  have bounded := chain.bounded i above below
  rw [UInt16.le_iff_toNat_le] at bounded
  exact Nat.lt_succ_of_le bounded

theorem span_tick (chain : timers.Chain first last) :
    timers.tick.2.span first last = timers.span first last := by
  apply MixedRadix.span_congr
  intro i above below
  rw [radix, (chain.kept_tick above below).2, radix]

/-- The counters of a chain borrow from each other as digits do. -/
theorem digit_tick (chain : timers.Chain first last) (above : first ≤ t) (below : t ≤ last) :
    timers.tick.2.digit t = MixedRadix.countDown timers.radix timers.digit first t := by
  have zeros : timers.Zeros first t ↔ ∀ i, first ≤ i → i < t → timers.digit i = 0 := by
    simp only [Zeros, digit, ← UInt16.toNat_inj, UInt16.toNat_zero]
  have zero : timers.counter.get t = 0 ↔ timers.digit t = 0 := by
    rw [digit, ← UInt16.toNat_inj, UInt16.toNat_zero]
  rw [digit, chain.counter_tick above below, MixedRadix.countDown]
  simp only [zeros, zero]
  split
  · split
    next => rfl
    next left =>
      have one : (1 : HalfWord).toNat = 1 := rfl
      rw [UInt16.toNat_sub_of_le]
      · rfl
      · rw [UInt16.le_iff_toNat_le, one]
        exact Nat.pos_of_ne_zero left
  · rfl

/-- A tick takes one from the number, or takes it from zero to the greatest. -/
theorem value_tick (chain : timers.Chain first last) :
    timers.tick.2.value first last =
      if timers.value first last = 0 then timers.span first last - 1
      else timers.value first last - 1 := by
  rw [value, value, span, ← MixedRadix.value_countDown timers.radix_pos chain.ordered]
  apply MixedRadix.value_congr
  · intro i above below
    rw [radix, (chain.kept_tick above below).2, radix]
  · intro i above below
    exact chain.digit_tick above below

/-- The greatest number has all counters at their backups. -/
theorem counter_tick_of_zero (chain : timers.Chain first last)
    (zero : timers.value first last = 0) (above : first ≤ t) (below : t ≤ last) :
    timers.tick.2.counter.get t = timers.backup.get t := by
  have zeros := value_eq_zero_iff.1 zero
  have before : timers.Zeros first t := fun i least most => zeros i least (most.le.trans below)
  rw [chain.counter_tick above below, if_pos before, if_pos (zeros t above below)]

/-- An odd timer raises its source when the number up to it is zero. -/
theorem among_tick_iff (chain : timers.Chain first last) (above : first ≤ t) (below : t ≤ last)
    (odd : t.val % 2 = 1) :
    (source t).among timers.tick.1 ↔ timers.value first t = 0 := by
  rw [chain.among_tick above below odd, value_eq_zero_iff]
  constructor
  · rintro ⟨zeros, zero⟩ i least most
    obtain before | rfl := most.lt_or_eq
    · exact zeros i least before
    · exact zero
  · intro zeros
    exact ⟨fun i least most => zeros i least most.le, zeros t above le_rfl⟩

/-- Whether timers form a chain is up to their control bits, as long as counters are bounded. -/
theorem of_flags (chain : timers.Chain first last)
    (flags : ∀ t, first ≤ t → t ≤ last → other.flags t = timers.flags t)
    (bounded : ∀ t, first ≤ t → t ≤ last → other.counter.get t ≤ other.backup.get t) :
    other.Chain first last where
  ordered := chain.ordered
  counts t above below := by
    have counts := chain.counts t above below
    unfold Timers.counts at counts ⊢
    rwa [flags t above below]
  reloads t above below := by
    have reloads := chain.reloads t above below
    unfold Timers.reloads at reloads ⊢
    rwa [flags t above below]
  free := by
    have free := chain.free
    unfold Timers.cascades at free ⊢
    rwa [flags first le_rfl chain.ordered]
  cascades t above below := by
    have cascades := chain.cascades t above below
    unfold Timers.cascades at cascades ⊢
    rwa [flags t above.le below]
  bounded := bounded

theorem of_same (chain : timers.Chain first last) (same : SameChain first last timers other) :
    other.Chain first last := by
  apply chain.of_flags same.flags
  intro t above below
  rw [same.counter t above below, same.backup t above below]
  exact chain.bounded t above below

/-- A chain is one still after a tick. -/
theorem tick (chain : timers.Chain first last) : timers.tick.2.Chain first last := by
  apply chain.of_flags
  · intro t above below
    exact (chain.kept_tick above below).1
  · intro t above below
    have bounded := chain.bounded t above below
    have one : (1 : HalfWord).toNat = 1 := rfl
    rw [chain.counter_tick above below, (chain.kept_tick above below).2]
    simp only [UInt16.le_iff_toNat_le, ← UInt16.toNat_inj, UInt16.toNat_zero] at bounded ⊢
    split
    · split
      · exact le_rfl
      next left =>
        rw [UInt16.toNat_sub_of_le]
        · omega
        · rw [UInt16.le_iff_toNat_le]
          omega
    · exact bounded

end Chain

/-! ### Pairs -/

/-- Two timers as the halves of a word. -/
def pair (timers : Timers) (low high : Fin 16) : Word :=
  .ofHalves (timers.counter.get high) (timers.counter.get low)

theorem value_pair {low high : Fin 16} (next : high.val = low.val + 1)
    (full : timers.backup.get low = 0xFFFF) :
    timers.value low high = (timers.pair low high).toNat := by
  have later : low ≤ high := by
    rw [Fin.le_def]
    omega
  have all : timers.radix low = 2 ^ 16 := by
    rw [radix, full]
    rfl
  rw [value, MixedRadix.value_next later next, MixedRadix.value_self, MixedRadix.span_self, all,
    pair, Word.toNat_ofHalves, digit, digit, Nat.add_comm]

/-- Two timers of which the low one starts again from all ones count down as one word does. -/
theorem Chain.pair_tick {low high : Fin 16} (chain : timers.Chain low high)
    (next : high.val = low.val + 1) (full : timers.backup.get low = 0xFFFF) :
    timers.tick.2.pair low high =
      if timers.pair low high = 0 then .ofHalves (timers.backup.get high) 0xFFFF
      else timers.pair low high - 1 := by
  have number := value_pair next full
  have down := chain.value_tick
  rw [value_pair next ((chain.kept_tick le_rfl chain.ordered).2.trans full), number] at down
  rw [← UInt32.toNat_inj, down]
  by_cases zero : timers.pair low high = 0
  · have whole : timers.span low high = ((timers.backup.get high).toNat + 1) * 2 ^ 16 := by
      rw [span, MixedRadix.span_next chain.ordered next, MixedRadix.span_self, radix, radix, full]
      rfl
    have ones : (0xFFFF : HalfWord).toNat = 0xFFFF := rfl
    have none : (timers.pair low high).toNat = 0 := congrArg UInt32.toNat zero
    rw [if_pos zero, if_pos none, whole, Word.toNat_ofHalves, ones]
    omega
  · have left : (timers.pair low high).toNat ≠ 0 := fun none => zero (UInt32.toNat_inj.1 none)
    have one : (1 : Word).toNat = 1 := rfl
    rw [if_neg zero, if_neg left, UInt32.toNat_sub_of_le]
    · rw [one]
    · rw [UInt32.le_iff_toNat_le, one]
      exact Nat.pos_of_ne_zero left

end Timers

namespace SystemController

/-- Timer `t` raises its source at the next tick. -/
def Fires (c : SystemController) (t : Fin 16) : Prop := (Timers.source t).among c.timers.tick.1

instance (c : SystemController) (t : Fin 16) : Decidable (c.Fires t) :=
  inferInstanceAs (Decidable (_ = true))

theorem timers_tickTimers (c : SystemController) : c.tickTimers.timers = c.timers.tick.2 := by
  unfold tickTimers
  dsimp only
  split <;> rfl

/-- A source is pending after a tick if it was or a timer raises it. -/
theorem isPending_tickTimers (c : SystemController) (source : InterruptSource) :
    c.tickTimers.interrupts.isPending source =
      (c.interrupts.isPending source || source.among c.timers.tick.1) := by
  unfold tickTimers
  dsimp only
  split
  next quiet => rw [beq_iff_eq.1 quiet, source.among_zero, Bool.or_false]
  next => exact Interrupts.isPending_raise_primary _ _ source

/-- What the next tick does to a chain of timers. -/
structure CountsDown (first last : Fin 16) (c : SystemController) : Prop where
  chain : c.timers.Chain first last
  value : c.tickTimers.timers.value first last =
    if c.timers.value first last = 0 then c.timers.span first last - 1
    else c.timers.value first last - 1
  greatest : c.timers.value first last = 0 → ∀ t, first ≤ t → t ≤ last →
    c.tickTimers.timers.counter.get t = c.timers.backup.get t
  flags : ∀ t, first ≤ t → t ≤ last → c.tickTimers.timers.flags t = c.timers.flags t
  fires : ∀ t, first ≤ t → t ≤ last → t.val % 2 = 1 →
    (c.Fires t ↔ ∀ i, first ≤ i → i ≤ t → c.timers.counter.get i = 0)
  raises : ∀ t, first ≤ t → t ≤ last → t.val % 2 = 1 →
    (c.tickTimers.interrupts.isPending (Timers.source t) ↔
      c.interrupts.isPending (Timers.source t) ∨ c.Fires t)
  pair : last.val = first.val + 1 → c.timers.backup.get first = 0xFFFF →
    c.tickTimers.timers.pair first last =
      if c.timers.pair first last = 0 then .ofHalves (c.timers.backup.get last) 0xFFFF
      else c.timers.pair first last - 1

theorem countsDown {c : SystemController} {first last : Fin 16}
    (chain : c.timers.Chain first last) : CountsDown first last c where
  chain := chain
  value := by
    rw [timers_tickTimers]
    exact chain.value_tick
  greatest zero t above below := by
    rw [timers_tickTimers]
    exact chain.counter_tick_of_zero zero above below
  flags t above below := by
    rw [timers_tickTimers]
    exact (chain.kept_tick above below).1
  fires t above below odd := by
    rw [Fires, chain.among_tick_iff above below odd, Timers.value_eq_zero_iff]
  raises t above below odd := by
    rw [isPending_tickTimers, Bool.or_eq_true, Fires]
  pair next full := by
    rw [timers_tickTimers]
    exact chain.pair_tick next full

/-- Controllers from tick to tick. Between two ticks anything may happen that leaves the timers
from `first` to `last` alone. -/
def TicksAlone (first last : Fin 16) (history : ℕ → SystemController) : Prop :=
  ∀ n, Timers.SameChain first last (history n).tickTimers.timers (history (n + 1)).timers

variable {history : ℕ → SystemController} {first last t : Fin 16}

theorem TicksAlone.chain (alone : TicksAlone first last history)
    (formed : (history 0).timers.Chain first last) (n : ℕ) :
    (history n).timers.Chain first last := by
  induction n with
  | zero => exact formed
  | succ n ih =>
    apply Timers.Chain.of_same _ (alone n)
    rw [timers_tickTimers]
    exact ih.tick

/-- The number that counts the ticks of timer `t`, from tick to tick. -/
theorem TicksAlone.value_succ (alone : TicksAlone first last history)
    (formed : (history 0).timers.Chain first last) (above : first ≤ t) (below : t ≤ last) (n : ℕ) :
    (history n).timers.span first t = (history 0).timers.span first t ∧
      (history (n + 1)).timers.value first t =
        if (history n).timers.value first t = 0 then (history 0).timers.span first t - 1
        else (history n).timers.value first t - 1 := by
  have upTo (n : ℕ) : (history n).timers.Chain first t :=
    (alone.chain formed n).initial above below
  have span : (history n).timers.span first t = (history 0).timers.span first t := by
    induction n with
    | zero => rfl
    | succ n ih => rw [(alone n).span below, timers_tickTimers, (upTo n).span_tick, ih]
  refine ⟨span, ?_⟩
  rw [(alone n).value below, timers_tickTimers, (upTo n).value_tick, span]

/-- A chain of timers counts down as one number in mixed radix, from tick to tick. An odd timer
raises its source once in as many ticks as the timers up to it can count. -/
theorem chain_counts_down (formed : (history 0).timers.Chain first last)
    (alone : TicksAlone first last history) :
    (∀ n, CountsDown first last (history n)) ∧
      ∀ t, first ≤ t → t ≤ last → t.val % 2 = 1 →
        (∀ n, (history n).Fires t ↔
          n ≡ (history 0).timers.value first t [MOD (history 0).timers.span first t]) ∧
        ∀ m count : ℕ,
          ((Finset.Ico m (m + count * (history 0).timers.span first t)).filter
            fun n => (history n).Fires t).card = count := by
  refine ⟨fun n => countsDown (alone.chain formed n), ?_⟩
  intro t above below odd
  have fires (n : ℕ) : (history n).Fires t ↔
      n ≡ (history 0).timers.value first t [MOD (history 0).timers.span first t] := by
    rw [Fires, (alone.chain formed n).among_tick_iff above below odd]
    exact MixedRadix.zero_iff_modEq (v := fun n => (history n).timers.value first t)
      (formed.initial above below).value_lt_span
      (fun n => (alone.value_succ formed above below n).2) n
  refine ⟨fires, ?_⟩
  intro m count
  simp only [fires]
  exact MixedRadix.card_filter_modEq (Timers.span_pos _ first t) _ m count

/-- Timers 2 and 3 as a word that is 0x10001, timer 1 counting beside them. -/
def cascading : SystemController :=
  { zero with
    timers :=
      { counter := .ofFn fun t => if t.val = 2 ∨ t.val = 3 then 1 else 0
        backup := .ofFn fun t => if t.val = 2 ∨ t.val = 3 then 0xFFFF else 0
        control := 0x7310 } }

theorem chain_cascading : cascading.timers.Chain 2 3 where
  ordered := by decide
  counts := by decide
  reloads := by decide
  free := by decide
  cascades := by decide
  bounded := by decide

theorem ticksAlone_iterate (c : SystemController) (first last : Fin 16) :
    TicksAlone first last fun n => tickTimers^[n] c := by
  intro n
  dsimp only
  rw [Function.iterate_succ_apply']
  exact ⟨fun _ _ _ => rfl, fun _ _ _ => rfl, fun _ _ _ => rfl⟩

/-- The pair raises its source at tick 0x10001 for the first time, and then every 2^32 ticks. -/
theorem chain_counts_down_cascading :
    cascading.timers.Chain 2 3 ∧
      (∀ n, CountsDown 2 3 (tickTimers^[n] cascading)) ∧
      (∀ n, (tickTimers^[n] cascading).Fires 3 ↔ n ≡ 0x10001 [MOD 2 ^ 32]) ∧
      ((Finset.Ico 5 (5 + 3 * 2 ^ 32)).filter fun n =>
        (tickTimers^[n] cascading).Fires 3).card = 3 := by
  obtain ⟨down, fires⟩ := @chain_counts_down (fun n => tickTimers^[n] cascading) 2 3
    chain_cascading (ticksAlone_iterate cascading 2 3)
  obtain ⟨turns, count⟩ := fires 3 (by decide) le_rfl rfl
  have value : cascading.timers.value 2 3 = 0x10001 := by
    rw [Timers.value_pair rfl (by decide)]
    decide
  have span : cascading.timers.span 2 3 = 2 ^ 32 := by
    rw [Timers.span, MixedRadix.span_next (i := 2) (by decide) rfl, MixedRadix.span_self]
    decide
  change ∀ n, _ ↔ n ≡ cascading.timers.value 2 3 [MOD cascading.timers.span 2 3] at turns
  rw [value, span] at turns
  have thrice := count 5 3
  change ((Finset.Ico 5 (5 + 3 * cascading.timers.span 2 3)).filter _).card = 3 at thrice
  rw [span] at thrice
  exact ⟨chain_cascading, down, turns, thrice⟩

end SystemController

end ArmConsole
