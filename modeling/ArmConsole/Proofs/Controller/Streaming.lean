import ArmConsole.Proofs.Controller.Channels
import ArmConsole.Proofs.Controller.Pending
import ArmConsole.Proofs.Controller.StreamChannel
import ArmConsole.Proofs.Memory.Frame
import Mathlib.Logic.Function.Iterate

/-!
Streams through a channel. The accesses to a channel that was programmed with a buffer go through
its elements, and then through those of the next buffer over and over, or stop if there is none.
Main statement: access by access, the element of RAM that is read or written, the interrupts that
are raised, and that nothing else changes, for channels of both directions.
-/

namespace ArmConsole

/-- What a channel is programmed to: a buffer and the one that is to follow, if any. -/
structure StreamProgram where
  current : StreamBuffer
  next : Option StreamBuffer

namespace StreamProgram

/-- The element of access `n`, if it moves one. The next buffer starts over for ever. -/
def target (p : StreamProgram) (n : Nat) : Option RamAddress :=
  if n < p.current.count then some (p.current.element n)
  else p.next.map fun b => b.element ((n - p.current.count) % b.count)

/-- Whether access `n` completes a buffer. The first access to every pass over the next buffer does,
and without a next buffer the first one that has nothing to move. -/
def completes (p : StreamProgram) (n : Nat) : Bool :=
  match p.next with
  | some b => p.current.count ≤ n && (n - p.current.count) % b.count == 0
  | none => n == p.current.count

/-- The registers of the next buffer are as they are programmed. -/
def Follows (p : StreamProgram) (c : StreamChannel) : Prop :=
  match p.next with
  | some b => c.nextAddress = b.address ∧ c.nextLength = b.length
  | none => c.nextAddress = 0

/-- The channel has been programmed and not been accessed yet. -/
structure Loaded (p : StreamProgram) (c : StreamChannel) : Prop where
  current : p.current.At 0 c
  next : p.Follows c

/-- The channel has been programmed and then accessed `n` times. -/
structure After (p : StreamProgram) (n : Nat) (c : StreamChannel) : Prop where
  /-- The current buffer is not known to be used up before the access behind its last element. -/
  first : n ≤ p.current.count → p.current.At n c
  repeated : ∀ b, p.next = some b → p.current.count < n →
    b.At ((n - p.current.count - 1) % b.count + 1) c
  stopped : p.next = none → p.current.count < n → c.armed = false
  next : p.Follows c

variable {p : StreamProgram} {b : StreamBuffer} {n : Nat} {c : StreamChannel}

theorem Loaded.after (loaded : p.Loaded c) : p.After 0 c where
  first _ := loaded.current
  repeated _ _ later := absurd later (Nat.not_lt_zero _)
  stopped _ later := absurd later (Nat.not_lt_zero _)
  next := loaded.next

/-- What an access does that is number `n` of a program's. -/
structure Steps (p : StreamProgram) (n : Nat) (access : StreamChannel.Access) : Prop where
  target : access.target = p.target n
  exhausted : access.exhausted = p.completes n
  after : p.After (n + 1) access.channel

theorem Follows.access (follows : p.Follows c) : p.Follows c.access.channel := by
  obtain ⟨address, length⟩ := c.next_access
  unfold Follows at follows ⊢
  rwa [address, length]

theorem steps_of_lt (after : p.After n c) (inside : n < p.current.count) : p.Steps n c.access := by
  have place := after.first (Nat.le_of_lt inside)
  have moves := StreamChannel.access_of_left place.armed (place.left_iff.2 inside)
  constructor
  case target =>
    rw [moves, place.target_move, target, if_pos inside]
  case exhausted =>
    have early : p.completes n = false := by
      unfold completes
      split
      · rw [decide_eq_false (Nat.not_le.2 inside), Bool.false_and]
      · exact beq_false_of_ne (Nat.ne_of_lt inside)
    rw [moves, early]
    rfl
  case after =>
    refine ⟨?_, ?_, ?_, after.next.access⟩
    · intro _
      rw [moves]
      exact place.move inside false
    · intro _ _ later
      omega
    · intro _ later
      omega

/-- Without a next buffer the channel stops behind the last element. -/
theorem steps_of_none (after : p.After n c) (last : p.next = none) (behind : p.current.count ≤ n) :
    p.Steps n c.access := by
  have none : p.target n = none := by
    rw [target, if_neg (Nat.not_lt.2 behind), last, Option.map_none]
  have completes : p.completes n = (n == p.current.count) := by rw [StreamProgram.completes, last]
  have free : c.nextAddress = 0 := by
    have follows := after.next
    rwa [Follows, last] at follows
  have stops (idle : c.access.channel.armed = false) : p.After (n + 1) c.access.channel := by
    refine ⟨?_, ?_, fun _ _ => idle, after.next.access⟩
    · intro _
      omega
    · intro b some
      rw [last] at some
      contradiction
  obtain here | later := Nat.eq_or_lt_of_le behind
  · have place := after.first (Nat.le_of_eq here.symm)
    have ends := StreamChannel.access_of_last place.armed (place.used_up behind) free
    refine ⟨?_, ?_, stops ?_⟩
    · rw [ends, none]
    · rw [ends, completes, here, beq_self_eq_true]
    · rw [ends]
      rfl
  · have idle := after.stopped last later
    have nothing := StreamChannel.access_of_disarmed idle
    refine ⟨?_, ?_, stops ?_⟩
    · rw [nothing, none]
    · rw [nothing, completes, beq_false_of_ne (Nat.ne_of_gt later)]
    · rw [nothing]
      exact idle

/-- Past the first buffer, the channel is between two passes over the next one or inside of one. -/
theorem After.pass (after : p.After n c) (some : p.next = some b) (behind : p.current.count ≤ n) :
    (n - p.current.count) % b.count = 0 ∧ c.armed ∧ c.startLength ≤ c.index ∨
      (n - p.current.count) % b.count ≠ 0 ∧ b.At ((n - p.current.count) % b.count) c := by
  obtain here | later := Nat.eq_or_lt_of_le behind
  · have place := after.first (Nat.le_of_eq here.symm)
    rw [here, Nat.sub_self, Nat.zero_mod]
    exact .inl ⟨rfl, place.armed, place.used_up (Nat.le_of_eq here)⟩
  · have place := after.repeated b some later
    have next : n - p.current.count = n - p.current.count - 1 + 1 := by omega
    have within := Nat.mod_lt (n - p.current.count - 1) b.count_pos
    rw [next, ← Nat.mod_add_mod]
    obtain last | inside : (n - p.current.count - 1) % b.count + 1 = b.count ∨
        (n - p.current.count - 1) % b.count + 1 < b.count := by omega
    · left
      rw [last, Nat.mod_self]
      exact ⟨rfl, place.armed, place.used_up (Nat.le_of_eq last.symm)⟩
    · right
      rw [Nat.mod_eq_of_lt inside]
      exact ⟨Nat.succ_ne_zero _, place⟩

/-- The next buffer is gone through from its first element to its last, over and over. -/
theorem steps_of_some (after : p.After n c) (some : p.next = some b)
    (behind : p.current.count ≤ n) : p.Steps n c.access := by
  have target : p.target n = b.element ((n - p.current.count) % b.count) := by
    rw [StreamProgram.target, if_neg (Nat.not_lt.2 behind), some, Option.map_some]
  have completes : p.completes n = ((n - p.current.count) % b.count == 0) := by
    rw [StreamProgram.completes, some]
    dsimp only
    rw [decide_eq_true behind, Bool.true_and]
  have goesOn (place : b.At ((n - p.current.count) % b.count + 1) c.access.channel) :
      p.After (n + 1) c.access.channel := by
    refine ⟨?_, ?_, ?_, after.next.access⟩
    · intro _
      omega
    · intro other same _
      obtain rfl := Option.some.inj (same.symm.trans some)
      have number : n + 1 - p.current.count - 1 = n - p.current.count := by omega
      rwa [number]
    · intro none
      rw [some] at none
      contradiction
  obtain ⟨start, armed, used⟩ | ⟨within, place⟩ := after.pass some behind
  · have follows := after.next
    rw [Follows, some] at follows
    obtain ⟨address, length⟩ := follows
    have next : c.nextAddress ≠ 0 := by
      rw [address]
      exact b.armed
    have first : b.At 0 c.promoted := .promoted address length
    have moves := StreamChannel.access_of_next armed used next
    rw [start] at target completes goesOn
    refine ⟨?_, ?_, goesOn ?_⟩
    · rw [moves, first.target_move, target]
    · rw [moves, completes]
      rfl
    · rw [moves]
      exact first.move b.count_pos true
  · have inside := Nat.mod_lt (n - p.current.count) b.count_pos
    have moves := StreamChannel.access_of_left place.armed (place.left_iff.2 inside)
    refine ⟨?_, ?_, goesOn ?_⟩
    · rw [moves, place.target_move, target]
    · rw [moves, completes, beq_false_of_ne within]
      rfl
    · rw [moves]
      exact place.move inside false

theorem After.steps (after : p.After n c) : p.Steps n c.access := by
  by_cases inside : n < p.current.count
  · exact steps_of_lt after inside
  · have behind := Nat.not_lt.1 inside
    cases next : p.next with
    | none => exact steps_of_none after next behind
    | some b => exact steps_of_some after next behind

/-- The registers of a channel to be written, in order. -/
def writes (p : StreamProgram) : List (Word × Word) :=
  (0x0, p.current.address) :: (0x4, p.current.length) ::
    match p.next with
    | some b => [(0x8, b.address), (0xC, b.length)]
    | none => [(0x8, 0)]

/-- Whatever a channel was doing, writing its registers programs it. -/
theorem loaded_writes (p : StreamProgram) (c : StreamChannel) :
    p.Loaded (p.writes.foldl (fun c w => c.writeRegister w.1 w.2) c) := by
  obtain ⟨current, next⟩ := p
  cases next with
  | none =>
    simp only [writes, List.foldl_cons, List.foldl_nil, StreamChannel.writeRegister_address,
      StreamChannel.writeRegister_length _ current.length_ne_zero,
      StreamChannel.writeRegister_nextAddress]
    exact ⟨⟨rfl, rfl, rfl⟩, rfl⟩
  | some b =>
    simp only [writes, List.foldl_cons, List.foldl_nil, StreamChannel.writeRegister_address,
      StreamChannel.writeRegister_length _ current.length_ne_zero,
      StreamChannel.writeRegister_nextAddress,
      StreamChannel.writeRegister_nextLength _ b.length_ne_zero]
    exact ⟨⟨rfl, rfl, rfl⟩, rfl, rfl⟩

end StreamProgram

namespace SystemController

/-- What access `n` of a program does to the interrupts. Its channel's own source becomes pending if
the access completes a buffer; nothing else happens. -/
structure Signals (p : StreamProgram) (n : Nat) (source : InterruptSource) (i j : Interrupts) :
    Prop where
  pending : ∀ other,
    j.isPending other = (i.isPending other || (p.completes n && decide (other = source)))
  primaryEnable : j.primaryEnable = i.primaryEnable
  secondaryEnable : j.secondaryEnable = i.secondaryEnable
  quiet : p.completes n = false → j = i

/-- Access `n` of a program is a read of its element through an input channel. -/
structure Reads (p : StreamProgram) (n : Nat) (channel : Fin 13) (memory : GuestMemory)
    (c : SystemController) (value : HalfWord) (d : SystemController) : Prop where
  element : ∀ a, p.target n = some a → ∀ b : RamAddress, b.val / 2 = a.val / 2 →
    GuestMemory.halfByte value b = memory.readByte b
  nothing : p.target n = none → value = 0
  interrupts : Signals p n (.primary ⟨16 + channel, by omega⟩) c.interrupts d.interrupts
  disarms : p.next = none → p.current.count ≤ n → (d.inputs.get channel).armed = false
  inputs : ∀ other, other ≠ channel → d.inputs.get other = c.inputs.get other
  outputs : d.outputs = c.outputs
  alone : Alone c d

/-- Access `n` of a program is a write of its element through an output channel. -/
structure Writes (p : StreamProgram) (n : Nat) (channel : Fin 4) (value : HalfWord)
    (memory : GuestMemory) (c d : SystemController) (written : GuestMemory) : Prop where
  element : ∀ a, p.target n = some a → ∀ b : RamAddress,
    written.readByte b =
      if b.val / 2 = a.val / 2 then GuestMemory.halfByte value b else memory.readByte b
  nothing : p.target n = none → written = memory
  framed : GuestMemory.Framed (fun _ => True) (fun _ => False) memory written
  interrupts : Signals p n (.primary ⟨12 + channel, by omega⟩) c.interrupts d.interrupts
  disarms : p.next = none → p.current.count ≤ n → (d.outputs.get channel).armed = false
  outputs : ∀ other, other ≠ channel → d.outputs.get other = c.outputs.get other
  inputs : d.inputs = c.inputs
  alone : Alone c d

variable {p : StreamProgram} {n : Nat} {c : SystemController}

theorem signals_ite (i : Interrupts) (source : Fin 31) {exhausted : Bool}
    (completes : exhausted = p.completes n) :
    Signals p n (.primary source) i
      (if exhausted then i.raise (1 <<< (InterruptSource.primary source).bit) 0 else i) := by
  subst completes
  cases event : p.completes n with
  | false =>
    refine ⟨?_, rfl, rfl, fun _ => rfl⟩
    intro other
    rw [event, Bool.false_and, Bool.or_false]
    rfl
  | true =>
    obtain ⟨primary, secondary⟩ :=
      i.enables_raise (1 <<< (InterruptSource.primary source).bit) 0
    refine ⟨?_, primary, secondary, ?_⟩
    · intro other
      rw [event, Bool.true_and, ← InterruptSource.among_one_shiftLeft]
      exact Interrupts.isPending_raise_primary i _ other
    · intro quiet
      rw [event] at quiet
      contradiction

theorem reads_of_after {channel : Fin 13} (after : p.After n (c.inputs.get channel))
    (memory : GuestMemory) :
    Reads p n channel memory c (c.readInput channel memory).1 (c.readInput channel memory).2 := by
  obtain ⟨target, completes, following⟩ := after.steps
  obtain ⟨value, interrupts, own, inputs, outputs, alone⟩ := c.inputAccess_readInput channel memory
  rw [target] at value
  constructor
  case element =>
    intro a here b same
    rw [here] at value
    rw [value]
    exact (memory.readByte_of_half same).symm
  case nothing =>
    intro none
    rw [value, none]
  case interrupts =>
    rw [interrupts]
    exact signals_ite c.interrupts _ completes
  case disarms =>
    intro last behind
    rw [own]
    exact following.stopped last (Nat.lt_succ_of_le behind)
  case inputs => exact inputs
  case outputs => exact outputs
  case alone => exact alone

theorem writes_of_after {channel : Fin 4} (after : p.After n (c.outputs.get channel))
    (value : HalfWord) (memory : GuestMemory) :
    Writes p n channel value memory c (c.writeOutput channel value memory).1
      (c.writeOutput channel value memory).2 := by
  obtain ⟨target, completes, following⟩ := after.steps
  obtain ⟨written, interrupts, own, outputs, inputs, alone⟩ :=
    c.outputAccess_writeOutput channel value memory
  rw [target] at written
  constructor
  case element =>
    intro a here b
    rw [here] at written
    rw [written]
    exact memory.readByte_writeHalfWord a b value
  case nothing =>
    intro none
    rw [written, none]
  case framed =>
    rw [written]
    cases p.target n with
    | none => exact .refl memory
    | some a => exact (memory.framed_writeHalfWord a value).mono (fun _ _ => trivial) fun _ => id
  case interrupts =>
    rw [interrupts]
    exact signals_ite c.interrupts _ completes
  case disarms =>
    intro last behind
    rw [own]
    exact following.stopped last (Nat.lt_succ_of_le behind)
  case outputs => exact outputs
  case inputs => exact inputs
  case alone => exact alone

/-! ### From access to access -/

/-- Controllers from read to read through an input channel. Memory may be anything at a read, and
between two reads anything may happen that leaves the channel alone. -/
def ReadsAlone (channel : Fin 13) (memory : Nat → GuestMemory) (history : Nat → SystemController) :
    Prop :=
  ∀ n, (history (n + 1)).inputs.get channel =
    ((history n).readInput channel (memory n)).2.inputs.get channel

/-- Controllers from write to write through an output channel. -/
def WritesAlone (channel : Fin 4) (value : Nat → HalfWord) (memory : Nat → GuestMemory)
    (history : Nat → SystemController) : Prop :=
  ∀ n, (history (n + 1)).outputs.get channel =
    ((history n).writeOutput channel (value n) (memory n)).1.outputs.get channel

/-- A programmed channel streams the elements of its buffer and then those of the next one, over
and over, one at an access. It raises its source when a buffer is completed and at no other time. -/
theorem channels_stream (p : StreamProgram) :
    (∀ (channel : Fin 13) (memory : Nat → GuestMemory) (history : Nat → SystemController),
      p.Loaded ((history 0).inputs.get channel) → ReadsAlone channel memory history →
        ∀ n,
          let (value, d) := (history n).readInput channel (memory n)
          Reads p n channel (memory n) (history n) value d) ∧
    ∀ (channel : Fin 4) (value : Nat → HalfWord) (memory : Nat → GuestMemory)
      (history : Nat → SystemController),
      p.Loaded ((history 0).outputs.get channel) → WritesAlone channel value memory history →
        ∀ n,
          let (d, written) := (history n).writeOutput channel (value n) (memory n)
          Writes p n channel (value n) (memory n) (history n) d written := by
  constructor
  · intro channel memory history loaded alone n
    have after : p.After n ((history n).inputs.get channel) := by
      induction n with
      | zero => exact loaded.after
      | succ n ih =>
        rw [alone n, ((history n).inputAccess_readInput channel (memory n)).own]
        exact ih.steps.after
    exact reads_of_after after (memory n)
  · intro channel value memory history loaded alone n
    have after : p.After n ((history n).outputs.get channel) := by
      induction n with
      | zero => exact loaded.after
      | succ n ih =>
        rw [alone n, ((history n).outputAccess_writeOutput channel (value n) (memory n)).own]
        exact ih.steps.after
    exact writes_of_after after (value n) (memory n)

/-- Three bytes at 0x1001, to be followed by four bytes at the end of RAM. -/
def looping : StreamProgram where
  current := ⟨0x1001, 3, by decide, by decide, by decide⟩
  next := some ⟨0x2FFFFE, 4, by decide, by decide, by decide⟩

example :
    (List.range 8).map (fun n => ((looping.target n).map Fin.val, looping.completes n)) =
      [(some 0x1001, false), (some 0x1003, false), (some 0x2FFFFE, true), (some 0, false),
        (some 0x2FFFFE, true), (some 0, false), (some 0x2FFFFE, true), (some 0, false)] := by
  decide

/-- The controller with an input channel programmed. -/
def programInput (c : SystemController) (channel : Fin 13) (p : StreamProgram) :
    SystemController :=
  p.writes.foldl (fun c w => c.writeInputRegister channel w.1 w.2) c

def programOutput (c : SystemController) (channel : Fin 4) (p : StreamProgram) :
    SystemController :=
  p.writes.foldl (fun c w => c.writeOutputRegister channel w.1 w.2) c

theorem loaded_programInput (c : SystemController) (channel : Fin 13) (p : StreamProgram) :
    p.Loaded ((c.programInput channel p).inputs.get channel) := by
  have channelWrites (writes : List (Word × Word)) :
      (writes.foldl (fun c w => c.writeInputRegister channel w.1 w.2) c).inputs.get channel =
        writes.foldl (fun c w => c.writeRegister w.1 w.2) (c.inputs.get channel) := by
    induction writes generalizing c with
    | nil => rfl
    | cons w writes ih =>
      rw [List.foldl_cons, ih, writeInputRegister, get_set]
      rfl
  rw [programInput, channelWrites]
  exact p.loaded_writes _

theorem loaded_programOutput (c : SystemController) (channel : Fin 4) (p : StreamProgram) :
    p.Loaded ((c.programOutput channel p).outputs.get channel) := by
  have channelWrites (writes : List (Word × Word)) :
      (writes.foldl (fun c w => c.writeOutputRegister channel w.1 w.2) c).outputs.get channel =
        writes.foldl (fun c w => c.writeRegister w.1 w.2) (c.outputs.get channel) := by
    induction writes generalizing c with
    | nil => rfl
    | cons w writes ih =>
      rw [List.foldl_cons, ih, writeOutputRegister, get_set]
      rfl
  rw [programOutput, channelWrites]
  exact p.loaded_writes _

theorem channels_stream_looping :
    (∀ n,
      let c := (fun c => (c.readInput 2 .empty).2)^[n] (zero.programInput 2 looping)
      let (value, d) := c.readInput 2 .empty
      Reads looping n 2 .empty c value d) ∧
    ∀ n,
      let c := (fun c => (c.writeOutput 1 0xBEEF .empty).1)^[n] (zero.programOutput 1 looping)
      let (d, written) := c.writeOutput 1 0xBEEF .empty
      Writes looping n 1 0xBEEF .empty c d written := by
  obtain ⟨reads, writes⟩ := channels_stream looping
  constructor
  · refine reads 2 (fun _ => .empty) _ (loaded_programInput zero 2 looping) ?_
    intro n
    exact congrArg (fun c : SystemController => c.inputs.get 2)
      (Function.iterate_succ_apply' _ n _)
  · refine writes 1 (fun _ => 0xBEEF) (fun _ => .empty) _ (loaded_programOutput zero 1 looping) ?_
    intro n
    exact congrArg (fun c : SystemController => c.outputs.get 1)
      (Function.iterate_succ_apply' _ n _)

end SystemController

end ArmConsole
