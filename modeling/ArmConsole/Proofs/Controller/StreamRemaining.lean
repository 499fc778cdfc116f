import ArmConsole.Proofs.Controller.StreamBounds
import ArmConsole.Proofs.Controller.Streaming

/-!
What a channel says is left of its buffer. The register for the remaining bytes is derived from the
length and the cursor, while the buffer is given up through its address. Main statement: for buffers
of whole elements the register counts the elements that are still to be moved, two bytes each, at
every point of a stream but one: a channel that has stopped reads the length of its last buffer.
-/

namespace ArmConsole

namespace StreamChannel

/-- So many accesses move an element of the current buffer. The one behind them does not, because
the channel has no buffer or finds it used up. -/
structure Left (c : StreamChannel) (k : Nat) : Prop where
  moves : ∀ j < k, (c.accessed j).access.target ≠ none ∧ (c.accessed j).access.exhausted = false
  ends : (c.accessed k).access.target = none ∨ (c.accessed k).access.exhausted = true

variable {c : StreamChannel} {k l : Nat}

theorem Left.le (left : c.Left k) (other : c.Left l) : k ≤ l := by
  apply Nat.le_of_not_lt
  intro less
  obtain ⟨moved, goesOn⟩ := left.moves l less
  obtain nothing | used := other.ends
  · exact moved nothing
  · rw [goesOn] at used
    exact Bool.false_ne_true used

theorem Left.unique (left : c.Left k) (other : c.Left l) : k = l :=
  Nat.le_antisymm (left.le other) (other.le left)

theorem left_zero_of_disarmed (idle : c.armed = false) : c.Left 0 where
  moves j less := absurd less (Nat.not_lt_zero j)
  ends := by
    left
    change c.access.target = none
    rw [access_of_disarmed idle]

theorem accessed_of_disarmed (idle : c.armed = false) (k : Nat) : c.accessed k = c := by
  induction k with
  | zero => rfl
  | succ k ih => rw [accessed_succ, ih, access_of_disarmed idle]

theorem accessed_add (c : StreamChannel) (k l : Nat) :
    c.accessed (k + l) = (c.accessed k).accessed l := by
  rw [accessed, Nat.add_comm, Function.iterate_add_apply]
  rfl

theorem toNat_readRegister_remaining (c : StreamChannel) :
    (c.readRegister 0x4).toNat = c.startLength.toNat - c.index.toNat := by
  have length := c.startLength.toNat_lt
  have number : c.remaining.toNat = c.startLength.toNat - c.index.toNat := by
    rw [remaining]
    omega
  change (UInt32.ofNat c.remaining.toNat).toNat = _
  rw [number, UInt32.toNat_ofNat_of_lt']
  change _ < 2 ^ 32
  omega

end StreamChannel

namespace StreamBuffer.At

variable {b : StreamBuffer} {i : Nat} {c : StreamChannel}

theorem accessed (place : b.At i c) {j : Nat} (inside : i + j ≤ b.count) :
    b.At (i + j) (c.accessed j) := by
  induction j with
  | zero => exact place
  | succ j ih =>
    have before := ih (by omega)
    have left : i + j < b.count := inside
    rw [StreamChannel.accessed_succ,
      StreamChannel.access_of_left before.armed (before.left_iff.2 left)]
    exact before.move left false

/-- In a buffer with `i` elements moved, the others are left. -/
theorem left (place : b.At i c) (inside : i ≤ b.count) : c.Left (b.count - i) where
  moves j less := by
    have there := place.accessed (j := j) (by omega)
    rw [StreamChannel.access_of_left there.armed (there.left_iff.2 (by omega)),
      there.target_move]
    exact ⟨Option.some_ne_none _, rfl⟩
  ends := by
    have there := place.accessed (j := b.count - i) (by omega)
    exact .inr (StreamChannel.exhausted_of_used there.armed (there.used_up (by omega)))

theorem toNat_readRegister (place : b.At i c) (even : b.length.toNat % 2 = 0) :
    (c.readRegister 0x4).toNat = 2 * (b.count - i) := by
  rw [StreamChannel.toNat_readRegister_remaining, place.index, place.length]
  unfold count
  omega

end StreamBuffer.At

namespace StreamProgram

variable {p : StreamProgram} {n : Nat} {c : StreamChannel}

/-- All buffers consist of whole elements. -/
def Even (p : StreamProgram) : Prop :=
  p.current.length.toNat % 2 = 0 ∧ ∀ b, p.next = some b → b.length.toNat % 2 = 0

/-- Before access `n`, the channel has found its buffer used up and none to follow. -/
def Stopped (p : StreamProgram) (n : Nat) : Prop := p.next = none ∧ p.current.count < n

theorem Loaded.after_accessed (loaded : p.Loaded c) (n : Nat) : p.After n (c.accessed n) := by
  induction n with
  | zero => exact loaded.after
  | succ n ih =>
    rw [StreamChannel.accessed_succ]
    exact ih.steps.after

/-- As long as the channel has not stopped, it stands in one of its buffers. -/
theorem After.place (after : p.After n c) (even : p.Even) (running : ¬p.Stopped n) :
    ∃ (b : StreamBuffer) (i : Nat), b.At i c ∧ i ≤ b.count ∧ b.length.toNat % 2 = 0 := by
  by_cases first : n ≤ p.current.count
  · exact ⟨p.current, n, after.first first, first, even.1⟩
  · have later := Nat.lt_of_not_le first
    cases next : p.next with
    | none => exact absurd ⟨next, later⟩ running
    | some b =>
      have within := Nat.mod_lt (n - p.current.count - 1) b.count_pos
      exact ⟨b, _, after.repeated b next later, within, even.2 b next⟩

/-- A stopped channel has the cursor of a new buffer and the length of the old one. -/
theorem Loaded.accessed_of_stopped (loaded : p.Loaded c) (stopped : p.Stopped n) :
    c.accessed n = (c.accessed p.current.count).disarmed := by
  obtain ⟨last, later⟩ := stopped
  have after := loaded.after_accessed p.current.count
  have place := after.first (Nat.le_refl _)
  have free : (c.accessed p.current.count).nextAddress = 0 := by
    have follows := after.next
    rwa [Follows, last] at follows
  have stops : c.accessed (p.current.count + 1) = (c.accessed p.current.count).disarmed := by
    rw [StreamChannel.accessed_succ,
      StreamChannel.access_of_last place.armed (place.used_up (Nat.le_refl _)) free]
  have number : n = p.current.count + 1 + (n - (p.current.count + 1)) := by omega
  rw [number, StreamChannel.accessed_add, stops]
  exact StreamChannel.accessed_of_disarmed rfl _

theorem Loaded.readRegister_of_stopped (loaded : p.Loaded c) (stopped : p.Stopped n) :
    (c.accessed n).readRegister 0x4 = p.current.length := by
  have place := (loaded.after_accessed p.current.count).first (Nat.le_refl _)
  rw [loaded.accessed_of_stopped stopped, ← UInt32.toNat_inj,
    StreamChannel.toNat_readRegister_remaining]
  exact congrArg UInt32.toNat place.length

/-! ### Programming -/

/-- The writes that program a channel may change places. -/
theorem writeRegister_comm (p : StreamProgram) {v w : Word × Word} (first : v ∈ p.writes)
    (second : w ∈ p.writes) (c : StreamChannel) :
    (c.writeRegister v.1 v.2).writeRegister w.1 w.2 =
      (c.writeRegister w.1 w.2).writeRegister v.1 v.2 := by
  obtain ⟨current, next⟩ := p
  cases next with
  | none =>
    simp only [writes, List.mem_cons, List.not_mem_nil, or_false] at first second
    rcases first with rfl | rfl | rfl <;> rcases second with rfl | rfl | rfl <;>
      simp only [StreamChannel.writeRegister_address,
        StreamChannel.writeRegister_length _ current.length_ne_zero,
        StreamChannel.writeRegister_nextAddress]
  | some b =>
    simp only [writes, List.mem_cons, List.not_mem_nil, or_false] at first second
    rcases first with rfl | rfl | rfl | rfl <;> rcases second with rfl | rfl | rfl | rfl <;>
      simp only [StreamChannel.writeRegister_address,
        StreamChannel.writeRegister_length _ current.length_ne_zero,
        StreamChannel.writeRegister_nextAddress,
        StreamChannel.writeRegister_nextLength _ b.length_ne_zero]

/-- The registers of a channel may be written in any order. -/
theorem loaded_of_perm {writes : List (Word × Word)} (order : writes.Perm p.writes)
    (c : StreamChannel) : p.Loaded (writes.foldl (fun c w => c.writeRegister w.1 w.2) c) := by
  rw [order.foldl_eq' fun v first w second c =>
    p.writeRegister_comm (order.subset first) (order.subset second) c]
  exact p.loaded_writes c

/-- A poll sees the register rise only if a buffer was completed in between. -/
theorem Loaded.readRegister_antitone (loaded : p.Loaded c) (even : p.Even)
    (within : p.completes n = false) :
    (c.accessed (n + 1)).readRegister 0x4 ≤ (c.accessed n).readRegister 0x4 := by
  have after := loaded.after_accessed n
  have goesOn : (c.accessed n).access.exhausted = false := after.steps.exhausted.trans within
  by_cases stopped : p.Stopped n
  · have later : p.Stopped (n + 1) := ⟨stopped.1, Nat.lt_succ_of_lt stopped.2⟩
    rw [loaded.readRegister_of_stopped stopped, loaded.readRegister_of_stopped later]
    exact UInt32.le_refl _
  · obtain ⟨b, i, place, -, whole⟩ := after.place even stopped
    have inside : i < b.count := by
      apply Nat.lt_of_not_le
      intro last
      rw [StreamChannel.exhausted_of_used place.armed (place.used_up last)] at goesOn
      contradiction
    have next : b.At (i + 1) (c.accessed (n + 1)) := by
      rw [StreamChannel.accessed_succ,
        StreamChannel.access_of_left place.armed (place.left_iff.2 inside)]
      exact place.move inside false
    rw [UInt32.le_iff_toNat_le, next.toNat_readRegister whole, place.toNat_readRegister whole]
    omega

/-- After any number of accesses to a programmed channel, the register for the remaining bytes reads
twice the number of elements that are left of the current buffer, and it does not rise unless a
buffer was completed. When the channel has stopped nothing is left, but the register reads the
length of the last buffer. -/
theorem remaining_accessed (p : StreamProgram) (even : p.Even) :
    (∀ writes : List (Word × Word), writes.Perm p.writes →
      ∀ c : StreamChannel, p.Loaded (writes.foldl (fun c w => c.writeRegister w.1 w.2) c)) ∧
    ∀ c, p.Loaded c → ∀ n,
      let d := c.accessed n
      (∃! k, d.Left k) ∧
      (¬p.Stopped n → ∀ k, d.Left k → (d.readRegister 0x4).toNat = 2 * k) ∧
      (p.Stopped n → d.Left 0 ∧ d.readRegister 0x4 = p.current.length) ∧
      (p.completes n = false → (c.accessed (n + 1)).readRegister 0x4 ≤ d.readRegister 0x4) := by
  refine ⟨fun _ order c => loaded_of_perm order c, ?_⟩
  intro c loaded n
  have after := loaded.after_accessed n
  refine ⟨?exact, ?running, ?stopped, fun within => loaded.readRegister_antitone even within⟩
  case exact =>
    by_cases stopped : p.Stopped n
    · have none := StreamChannel.left_zero_of_disarmed (after.stopped stopped.1 stopped.2)
      exact ⟨0, none, fun k left => left.unique none⟩
    · obtain ⟨b, i, place, inside, -⟩ := after.place even stopped
      exact ⟨b.count - i, place.left inside, fun k left => left.unique (place.left inside)⟩
  case running =>
    intro running k left
    obtain ⟨b, i, place, inside, whole⟩ := after.place even running
    rw [place.toNat_readRegister whole, left.unique (place.left inside)]
  case stopped =>
    intro stopped
    exact ⟨StreamChannel.left_zero_of_disarmed (after.stopped stopped.1 stopped.2),
      loaded.readRegister_of_stopped stopped⟩

/-- Six bytes at 0x1000, then six bytes at 0x2000 over and over. -/
def chaining : StreamProgram where
  current := ⟨0x1000, 6, by decide, by decide, by decide⟩
  next := some ⟨0x2000, 6, by decide, by decide, by decide⟩

/-- The default channel after the writes of a program. -/
def channel (p : StreamProgram) : StreamChannel :=
  p.writes.foldl (fun c w => c.writeRegister w.1 w.2) .idle

/-- Two of five elements come from the next buffer, which has one left. -/
theorem remaining_accessed_chaining :
    chaining.Even ∧ chaining.Loaded chaining.channel ∧ (chaining.channel.accessed 5).Left 1 ∧
      (chaining.channel.accessed 5).readRegister 0x4 = 2 := by
  have even : chaining.Even := by
    refine ⟨by decide, ?_⟩
    intro b next
    obtain rfl := Option.some.inj next
    decide
  have running : ¬chaining.Stopped 5 := fun stopped => Option.some_ne_none _ stopped.1
  have reads : (chaining.channel.accessed 5).readRegister 0x4 = 2 := by decide
  obtain ⟨programs, accesses⟩ := remaining_accessed chaining even
  have loaded : chaining.Loaded chaining.channel := programs _ (.refl _) .idle
  obtain ⟨⟨k, left, -⟩, twice, -, -⟩ := accesses _ loaded 5
  have count : (2 : Word).toNat = 2 * k := reads ▸ twice running k left
  have one : k = 1 := (Nat.eq_of_mul_eq_mul_left Nat.two_pos count).symm
  exact ⟨even, loaded, one ▸ left, reads⟩

/-- Two bytes at 0x100 and nothing to follow. -/
def halting : StreamProgram where
  current := ⟨0x100, 2, by decide, by decide, by decide⟩
  next := none

/-- The register goes from 2 to 0 in the only access that moves an element, and back to 2 in the one
that finds nothing more to move. -/
theorem remaining_halting_rises :
    (halting.channel.accessed 1).readRegister 0x4 = 0 ∧
      (halting.channel.accessed 2).readRegister 0x4 = 2 ∧
      (halting.channel.accessed 2).Left 0 ∧
      ¬∀ p : StreamProgram, p.Even → ∀ c, p.Loaded c → ∀ n k, (c.accessed n).Left k →
        ((c.accessed n).readRegister 0x4).toNat = 2 * k := by
  have nothing : (halting.channel.accessed 2).Left 0 :=
    StreamChannel.left_zero_of_disarmed (by decide)
  refine ⟨by decide, by decide, nothing, ?_⟩
  intro truthful
  have even : halting.Even := ⟨by decide, fun _ some => absurd some.symm (Option.some_ne_none _)⟩
  have reads := truthful halting even _ (halting.loaded_writes .idle) 2 0 nothing
  revert reads
  decide

end StreamProgram

end ArmConsole
