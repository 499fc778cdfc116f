import ArmConsole.Proofs.Controller.StreamChannel
import Mathlib.Logic.Function.Iterate

/-!
Bounds of stream channels. A channel is reached from its default by writes to its registers, in any
order and at any time, and by accesses. Main statement: an access moves an element inside of the
length of its buffer, and moves the cursor on without wrapping around, and an armed buffer is used
up after finitely many accesses, with two exceptions. A next address that is written while the next
length is zero arms a buffer without elements, of which the first one is moved nevertheless, and the
greatest length is never used up.
-/

namespace ArmConsole

/-- What can happen to a channel. A read and a write move its cursor in the same way. -/
inductive StreamEvent where
  | writeRegister (offset value : Word)
  | access
  deriving DecidableEq

namespace StreamChannel

def apply (c : StreamChannel) : StreamEvent → StreamChannel
  | .writeRegister offset value => c.writeRegister offset value
  | .access => c.access.channel

/-- The channel after events. -/
def run (c : StreamChannel) (events : List StreamEvent) : StreamChannel := events.foldl apply c

/-- The channel after `k` accesses in a row. -/
def accessed (c : StreamChannel) (k : Nat) : StreamChannel := (fun c => c.access.channel)^[k] c

/-- The channel with the buffer that the next access goes to. -/
def cursor (c : StreamChannel) : StreamChannel := if c.index < c.startLength then c else c.promoted

/-- Accesses stay in the length of a buffer and come to its end. -/
structure Bounded (c : StreamChannel) : Prop where
  inside : c.access.target ≠ none → c.cursor.index < c.cursor.startLength
  advances : c.access.target ≠ none →
    c.access.channel.index.toNat = c.cursor.index.toNat + 2
  exhausts : c.armed → ∃ k, (c.accessed k).access.exhausted

/-- The current buffer is used up, and the next one is armed but has no elements. -/
def EmptyNext (c : StreamChannel) : Prop :=
  c.armed ∧ c.startLength ≤ c.index ∧ c.nextAddress ≠ 0 ∧ c.nextLength = 0

/-- The channel with its cursor elsewhere in the buffer. -/
def atIndex (c : StreamChannel) (index : Word) : StreamChannel := { c with index }

def greatestLength : Word := 0xFFFFFFFF

/-- The cursor, which is even, cannot reach the end of the current buffer. -/
def Endless (c : StreamChannel) : Prop := c.armed ∧ c.startLength = greatestLength

variable {c : StreamChannel}

/-! ### Accesses in a row -/

theorem accessed_succ (c : StreamChannel) (k : Nat) :
    c.accessed (k + 1) = (c.accessed k).access.channel :=
  Function.iterate_succ_apply' _ k c

theorem access_atIndex (armed : c.armed) {index : Word} (left : index < c.startLength) :
    (c.atIndex index).access = (c.atIndex index).move false :=
  access_of_left armed left

/-- As long as elements are left, accesses move the cursor and nothing else. -/
theorem accessed_of_left (armed : c.armed) {k : Nat}
    (left : ∀ j < k, c.index + .ofNat (2 * j) < c.startLength) :
    c.accessed k = c.atIndex (c.index + .ofNat (2 * k)) := by
  induction k with
  | zero =>
    have still : c.index + .ofNat (2 * 0) = c.index := UInt32.add_zero _
    rw [still]
    rfl
  | succ k ih =>
    have before := ih fun j less => left j (Nat.lt_succ_of_lt less)
    have moves := access_atIndex armed (left k (Nat.lt_succ_self k))
    have next : c.index + .ofNat (2 * k) + 2 = c.index + .ofNat (2 * (k + 1)) := by
      rw [UInt32.add_assoc, Nat.mul_succ, UInt32.ofNat_add]
      rfl
    rw [accessed_succ, before, moves, ← next]
    rfl

theorem exhausted_of_used (armed : c.armed) (used : c.startLength ≤ c.index) :
    c.access.exhausted := by
  by_cases last : c.nextAddress = 0
  · rw [access_of_last armed used last]
  · rw [access_of_next armed used last]
    rfl

/-- A buffer is used up in the access behind its last element. -/
theorem exhausted_accessed (armed : c.armed) (bounded : c.startLength ≠ greatestLength) :
    (c.accessed ((c.startLength.toNat + 1 - c.index.toNat) / 2)).access.exhausted := by
  have length := c.startLength.toNat_lt
  have index := c.index.toNat_lt
  have greatest : c.startLength.toNat ≠ 2 ^ 32 - 1 := fun same => bounded (UInt32.toNat_inj.1 same)
  have place (j : Nat) : (c.index + .ofNat (2 * j)).toNat = (c.index.toNat + 2 * j) % 2 ^ 32 := by
    rw [UInt32.toNat_add, UInt32.toNat_ofNat', Nat.add_mod_mod]
  rw [accessed_of_left armed]
  · refine exhausted_of_used (c := c.atIndex _) armed ?_
    change c.startLength ≤ c.index + .ofNat (2 * ((c.startLength.toNat + 1 - c.index.toNat) / 2))
    rw [UInt32.le_iff_toNat_le, place]
    omega
  · intro j less
    rw [UInt32.lt_iff_toNat_lt, place]
    omega

/-- An even cursor steps over the end of the greatest length. -/
theorem not_exhausted_accessed (endless : c.Endless) (even : c.index.toNat % 2 = 0) (k : Nat) :
    (c.accessed k).access.exhausted = false := by
  obtain ⟨armed, length⟩ := endless
  have left (j : Nat) : c.index + .ofNat (2 * j) < c.startLength := by
    have greatest : greatestLength.toNat = 2 ^ 32 - 1 := rfl
    rw [UInt32.lt_iff_toNat_lt, length, greatest, UInt32.toNat_add, UInt32.toNat_ofNat']
    omega
  rw [accessed_of_left armed fun j _ => left j]
  rw [access_atIndex armed (left k)]
  rfl

/-! ### Bounds of one channel -/

/-- An access that moves an element moves the one at the cursor. -/
theorem access_of_target (moved : c.access.target ≠ none) :
    c.armed ∧ (c.index < c.startLength ∨ c.nextAddress ≠ 0) ∧
      c.access = c.cursor.move c.access.exhausted := by
  by_cases armed : c.armed
  · refine ⟨armed, ?_⟩
    by_cases left : c.index < c.startLength
    · refine ⟨.inl left, ?_⟩
      rw [access_of_left armed left, cursor, if_pos left]
      rfl
    · have used := UInt32.not_lt.1 left
      by_cases last : c.nextAddress = 0
      · rw [access_of_last armed used last] at moved
        exact absurd rfl moved
      · refine ⟨.inr last, ?_⟩
        rw [access_of_next armed used last, cursor, if_neg left]
        rfl
  · rw [access_of_disarmed (Bool.eq_false_iff.2 armed)] at moved
    exact absurd rfl moved

theorem target_of_next (armed : c.armed) (used : c.startLength ≤ c.index)
    (next : c.nextAddress ≠ 0) : c.access.target ≠ none := by
  rw [access_of_next armed used next]
  exact Option.some_ne_none _

theorem Bounded.of_not (nonempty : ¬c.EmptyNext) (ends : ¬c.Endless) : c.Bounded where
  inside moved := by
    obtain ⟨armed, source, -⟩ := access_of_target moved
    unfold cursor
    split
    next left => exact left
    next empty =>
      have next := source.resolve_left empty
      have length : c.nextLength ≠ 0 := fun zero =>
        nonempty ⟨armed, UInt32.not_lt.1 empty, next, zero⟩
      exact UInt32.pos_iff_ne_zero.2 length
  advances moved := by
    obtain ⟨armed, -, place⟩ := access_of_target moved
    have two : (2 : Word).toNat = 2 := rfl
    rw [place]
    change (c.cursor.index + 2).toNat = _
    rw [UInt32.toNat_add, two]
    unfold cursor
    split
    next left =>
      have greatest : c.startLength.toNat ≠ 2 ^ 32 - 1 := fun same =>
        ends ⟨armed, UInt32.toNat_inj.1 same⟩
      have length := c.startLength.toNat_lt
      rw [UInt32.lt_iff_toNat_lt] at left
      omega
    next => rfl
  exhausts armed :=
    ⟨_, exhausted_accessed armed fun greatest => ends ⟨armed, greatest⟩⟩

theorem bounded_iff (even : c.index.toNat % 2 = 0) : c.Bounded ↔ ¬c.EmptyNext ∧ ¬c.Endless := by
  constructor
  · intro bounded
    constructor
    · rintro ⟨armed, used, next, empty⟩
      have inside := bounded.inside (target_of_next armed used next)
      rw [cursor, if_neg (UInt32.not_lt.2 used)] at inside
      change (0 : Word) < c.nextLength at inside
      rw [empty] at inside
      exact UInt32.lt_irrefl 0 inside
    · intro endless
      obtain ⟨k, exhausted⟩ := bounded.exhausts endless.1
      rw [not_exhausted_accessed endless even k] at exhausted
      exact Bool.false_ne_true exhausted
  · rintro ⟨nonempty, ends⟩
    exact .of_not nonempty ends

/-- The first element of a buffer without elements is moved at every access from then on, and each
time the buffer is completed. -/
theorem EmptyNext.access_accessed (empty : c.EmptyNext) (k : Nat) :
    (c.accessed k).access = c.promoted.move true := by
  have again : (c.accessed k).EmptyNext ∧ (c.accessed k).promoted = c.promoted := by
    induction k with
    | zero => exact ⟨empty, rfl⟩
    | succ k ih =>
      obtain ⟨⟨armed, used, next, length⟩, same⟩ := ih
      rw [accessed_succ, access_of_next armed used next, same]
      obtain ⟨-, -, next, length⟩ := empty
      refine ⟨⟨armed_iff.2 next, ?_, next, length⟩, rfl⟩
      change c.nextLength ≤ 2
      rw [length]
      decide
  obtain ⟨⟨armed, used, next, -⟩, same⟩ := again
  rw [access_of_next armed used next, same]

/-! ### Bounds of reachable channels -/

theorem even_apply (even : c.index.toNat % 2 = 0) (event : StreamEvent) :
    (c.apply event).index.toNat % 2 = 0 := by
  cases event with
  | writeRegister offset value =>
    change (c.writeRegister offset value).index.toNat % 2 = 0
    unfold writeRegister
    split
    · rfl
    · rfl
    · exact even
    · exact even
  | access =>
    change c.access.channel.index.toNat % 2 = 0
    have two : (2 : Word).toNat = 2 := rfl
    have step {index : Word} (even : index.toNat % 2 = 0) : (index + 2).toNat % 2 = 0 := by
      rw [UInt32.toNat_add, two]
      omega
    unfold access
    split_ifs
    · exact even
    · exact step even
    · rfl
    · exact step rfl

theorem even_run (even : c.index.toNat % 2 = 0) (events : List StreamEvent) :
    (c.run events).index.toNat % 2 = 0 := by
  induction events generalizing c with
  | nil => exact even
  | cons event events ih => exact ih (even_apply even event)

/-- A write that arms a next buffer finds its length in place, and no length is the greatest. -/
def Measures (c : StreamChannel) : StreamEvent → Prop
  | .writeRegister offset value =>
    (offset &&& 0xC = 0x8 → value ≠ 0 → c.nextLength ≠ 0) ∧
      (offset &&& 0xC ≠ 0x0 → offset &&& 0xC ≠ 0x8 → value ≠ greatestLength)
  | .access => True

/-- All of the events are such when they happen. -/
def Measured (c : StreamChannel) : List StreamEvent → Prop
  | [] => True
  | event :: events => c.Measures event ∧ (c.apply event).Measured events

/-- No buffer of the channel is an exception. -/
structure Sound (c : StreamChannel) : Prop where
  length : c.startLength ≠ greatestLength
  nextLength : c.nextLength ≠ greatestLength
  next : c.nextAddress ≠ 0 → c.nextLength ≠ 0

theorem Sound.bounded (sound : c.Sound) : c.Bounded := by
  apply Bounded.of_not
  · rintro ⟨-, -, next, empty⟩
    exact sound.next next empty
  · rintro ⟨-, length⟩
    exact sound.length length

theorem Sound.apply (sound : c.Sound) {event : StreamEvent} (measures : c.Measures event) :
    (c.apply event).Sound := by
  obtain ⟨length, nextLength, next⟩ := sound
  cases event with
  | writeRegister offset value =>
    obtain ⟨arms, lengths⟩ := measures
    change (c.writeRegister offset value).Sound
    unfold writeRegister
    split
    next => exact ⟨length, nextLength, next⟩
    next place => exact ⟨lengths (place ▸ by decide) (place ▸ by decide), nextLength, next⟩
    next place => exact ⟨length, nextLength, arms place⟩
    next address _ nextAddress =>
      refine ⟨length, lengths address nextAddress, ?_⟩
      intro armed zero
      dsimp only at armed zero
      rw [if_pos (beq_iff_eq.2 zero)] at armed
      exact armed rfl
  | access =>
    change c.access.channel.Sound
    unfold access
    split_ifs
    · exact ⟨length, nextLength, next⟩
    · exact ⟨length, nextLength, next⟩
    · exact ⟨length, nextLength, next⟩
    · exact ⟨nextLength, nextLength, next⟩

theorem Sound.run (sound : c.Sound) {events : List StreamEvent} (measured : c.Measured events) :
    (c.run events).Sound := by
  induction events generalizing c with
  | nil => exact sound
  | cons event events ih => exact ih (sound.apply measured.1) measured.2

theorem sound_idle : idle.Sound where
  length := by decide
  nextLength := by decide
  next := by decide

/-- Of the channels that can be reached, those are bounded that neither come to a buffer without
elements nor are in one of the greatest length. If the lengths are written first, all of them are
bounded. -/
theorem run_bounded (events : List StreamEvent) :
    ((idle.run events).Bounded ↔ ¬(idle.run events).EmptyNext ∧ ¬(idle.run events).Endless) ∧
      (idle.Measured events → (idle.run events).Bounded) := by
  constructor
  · exact bounded_iff (even_run rfl events)
  · intro measured
    exact (sound_idle.run measured).bounded

/-- A buffer at 0x100 of two bytes, and one at 0x200 of four. -/
def chained : List StreamEvent :=
  [.writeRegister 0x4 2, .writeRegister 0x0 0x100, .writeRegister 0xC 4, .writeRegister 0x8 0x200,
    .access, .access]

theorem run_bounded_chained : idle.Measured chained ∧ (idle.run chained).Bounded := by
  have measured : idle.Measured chained := by
    refine ⟨?_, ?_, ?_, ?_, trivial, trivial, trivial⟩
    all_goals exact ⟨by decide, by decide⟩
  exact ⟨measured, (run_bounded chained).2 measured⟩

/-- The same without a length for the next buffer. -/
def unmeasured : List StreamEvent :=
  [.writeRegister 0x0 0x100, .writeRegister 0x4 2, .writeRegister 0x8 0x200, .access]

/-- The access behind the current buffer moves an element of the next one, which has none. -/
theorem run_unmeasured_unbounded :
    (idle.run unmeasured).access.target = some 0x200 ∧
      (idle.run unmeasured).cursor.startLength = 0 ∧
      ¬∀ events, (idle.run events).Bounded := by
  have moved : (idle.run unmeasured).access.target = some 0x200 := by decide
  have empty : (idle.run unmeasured).cursor.startLength = 0 := by decide
  refine ⟨moved, empty, ?_⟩
  intro bounded
  have inside := (bounded unmeasured).inside (moved ▸ Option.some_ne_none _)
  rw [empty] at inside
  exact UInt32.not_lt_zero inside

end StreamChannel

end ArmConsole
