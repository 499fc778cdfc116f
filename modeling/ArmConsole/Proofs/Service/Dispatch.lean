import ArmConsole.Proofs.Latest
import ArmConsole.Proofs.Service.Refusal

/-!
Software interrupts and the table of math calls. The table answers a number with the call that was
registered for it last, and a number has 20 bits. Main statement: a software interrupt whose number
was never registered is the trap that it would be without a table, and any other changes nothing but
the words at its destination and, for a dot product, R0.
-/

namespace ArmConsole

namespace CallTable

/-! ### The table -/

theorem lookup_cons (number key : Word) (call : MathCall) (entries : List (Word × MathCall)) :
    ((number, call) :: entries).lookup key =
      if key = number then some call else entries.lookup key := by
  rw [List.lookup_cons]
  by_cases same : key = number
  · rw [beq_iff_eq.2 same, if_pos same]
  · rw [beq_eq_false_iff_ne.2 same, if_neg same]

theorem lookup_insert (number key : Word) (call : MathCall) (entries : List (Word × MathCall)) :
    (insert number call entries).lookup key =
      if key = number then some call else entries.lookup key := by
  induction entries with
  | nil => exact lookup_cons ..
  | cons entry entries ih =>
    obtain ⟨first, other⟩ := entry
    unfold insert
    split
    next => exact lookup_cons ..
    next =>
      split
      next same =>
        obtain rfl : number = first := same
        rw [lookup_cons, lookup_cons]
        split <;> rfl
      next apart =>
        rw [lookup_cons, lookup_cons, ih]
        by_cases own : key = first
        · rw [if_pos own, if_neg fun same => apart (same.symm.trans own), if_pos own]
        · rw [if_neg own, if_neg own]

theorem lookup?_register (t : CallTable) (number comment : Word) (call : MathCall) :
    (t.register number call).lookup? comment =
      if key comment = key number then some call else t.lookup? comment :=
  lookup_insert ..

/-- The table that a sequence of registrations leaves. -/
def ofRegistrations (registrations : List (Word × MathCall)) : CallTable :=
  registrations.foldl (fun t r => t.register r.1 r.2) empty

/-- The standard table is one of them. -/
theorem standard_eq :
    standard = ofRegistrations (MathCall.all.map fun call => (call.number, call)) := by
  rw [standard, ofRegistrations, List.foldl_map]

/-- The call that was registered last under the low 20 bits of a comment. -/
def registered? (registrations : List (Word × MathCall)) (comment : Word) : Option MathCall :=
  latest (fun r => key comment == key r.1) (fun r => some r.2) none registrations

theorem lookup?_ofRegistrations (registrations : List (Word × MathCall)) (comment : Word) :
    (ofRegistrations registrations).lookup? comment = registered? registrations comment := by
  have one (t : CallTable) (r : Word × MathCall) : (t.register r.1 r.2).lookup? comment =
      if key comment == key r.1 then some r.2 else t.lookup? comment := by
    rw [lookup?_register]
    simp only [beq_iff_eq]
  exact view_foldl (fun t : CallTable => t.lookup? comment) one empty registrations

theorem registered?_key (registrations : List (Word × MathCall)) (comment : Word) :
    registered? registrations (key comment) = registered? registrations comment := by
  have kept : key (key comment) = key comment := by
    unfold key
    rw [UInt32.and_assoc, UInt32.and_self]
  rw [registered?, registered?, kept]

end CallTable

namespace GuestMemory

open MathAccess (written reads writes product)

variable {dest source matrix w : Word} {n count : Nat}

/-! ### Words at the destination -/

/-- A word of a row that is in RAM as far as that word. -/
def Reached (dest : Word) (count : Nat) (w : Word) : Prop :=
  ∃ k < count, dest.past k = w ∧ wordsInRam dest (k + 1) = true

namespace Reached

theorem inWords (reached : Reached dest count w) {b : Nat} (inside : InWords w 1 b) :
    InWords dest count b := by
  obtain ⟨k, short, rfl, inRam⟩ := reached
  have number := toNat_past inRam (Nat.lt_succ_self k)
  unfold InWords at *
  omega

theorem mono {total : Nat} (reached : Reached dest count w) (more : count ≤ total) :
    Reached dest total w := by
  obtain ⟨k, short, place, inRam⟩ := reached
  exact ⟨k, Nat.lt_of_lt_of_le short more, place, inRam⟩

/-- The words of a part are words of the row, if what is before the part is in RAM too. -/
theorem of_past {i : Nat} (reached : Reached (dest.past i) count w)
    (before : wordsInRam dest i = true) : Reached dest (i + count) w := by
  obtain ⟨k, short, place, inRam⟩ := reached
  refine ⟨i + k, by omega, ?_, ?_⟩
  · rw [← place, Word.past_past]
  · rw [Nat.add_assoc]
    exact wordsInRam_add before inRam

end Reached

theorem reached_writes (among : w ∈ written (writes dest count)) : Reached dest count w := by
  rw [MathAccess.written_writes] at among
  induction count generalizing dest with
  | zero => contradiction
  | succ count ih =>
    rw [words_succ, List.takeWhile_cons] at among
    split at among
    next inRam =>
      have first : wordsInRam dest 1 = true := by
        rw [wordsInRam_eq_all, words_succ, List.all_cons, inRam]
        rfl
      obtain rfl | later := List.mem_cons.1 among
      · exact ⟨0, Nat.succ_pos _, w.past_zero, first⟩
      · rw [Nat.add_comm]
        exact (ih later).of_past first
    next => contradiction

theorem reached_product {left right : Word} {count' : Nat}
    (among : w ∈ written (product dest left right count count')) : Reached dest count w := by
  rw [product, MathAccess.written_append, MathAccess.written_operands] at among
  split at among
  · exact reached_writes among
  · contradiction

theorem reached_batch (among : w ∈ written (batchAccesses n dest source matrix count)) :
    Reached dest (count * n) w := by
  induction count generalizing dest source with
  | zero => contradiction
  | succ count ih =>
    rw [batchAccesses, MathAccess.written_append] at among
    rw [Nat.succ_mul, Nat.add_comm]
    split at among
    next inRam =>
      obtain own | later := List.mem_append.1 among
      · exact (reached_product own).mono (Nat.le_add_right _ _)
      · rw [product, List.all_append, Bool.and_eq_true] at inRam
        have before := inRam.2
        rw [writes, MathAccess.all_row fun _ => rfl] at before
        exact (ih later).of_past before
    next => exact (reached_product among).mono (Nat.le_add_right _ _)

end GuestMemory

namespace MathCall

open GuestMemory (Confined InWords Reached)

/-- How many words a call has for its result, from the address in R0 up. -/
def resultWords (call : MathCall) (a : Arguments) : Nat :=
  match call with
  | vector3 | cross3 => 3
  | vector4 => 4
  | matrix3 => 3 * 3
  | matrix4 => 4 * 4
  | vectors3 => a.r3.toNat * 3
  | vectors4 => a.r3.toNat * 4
  | dot3 => 0

theorem reached_written {call : MathCall} {a : Arguments} {w : Word} (among : w ∈ call.written a) :
    Reached a.r0 (call.resultWords a) w := by
  cases call with
  | vector3 => exact GuestMemory.reached_batch among
  | vector4 => exact GuestMemory.reached_batch among
  | vectors3 => exact GuestMemory.reached_batch among
  | vectors4 => exact GuestMemory.reached_batch among
  | matrix3 => exact GuestMemory.reached_product among
  | matrix4 => exact GuestMemory.reached_product among
  | cross3 => exact GuestMemory.reached_product among
  | dot3 =>
    rw [written, accesses, MathAccess.written_operands] at among
    contradiction

/-- A call changes its result and no other byte of RAM, whether it comes to its end or not. -/
theorem confined_result (call : MathCall) (m : GuestMemory) (a : Arguments) :
    Confined (InWords a.r0 (call.resultWords a)) m (call.run m a).2 :=
  (call.confined_run m a).mono fun _ ⟨_, among, inside⟩ => (reached_written among).inWords inside

/-- Only a dot product has a result for R0. -/
theorem result_eq_none {call : MathCall} (other : call ≠ dot3) (m : GuestMemory) (a : Arguments) :
    (call.run m a).1 = none := by
  cases call with
  | dot3 => contradiction
  | _ => rfl

end MathCall

namespace Machine

variable {δ : Type}

/-! ### Software interrupts -/

/-- What a math call may change: the words of its result, and R0 if it is a dot product. -/
structure Answered (call : MathCall) (before after : Machine δ) : Prop where
  registers : ∀ r : RegisterNumber, r ≠ .r0 ∨ call ≠ .dot3 →
    after.processor.live.get r = before.processor.live.get r
  processor : after.processor = { before.processor with live := after.processor.live }
  memory : GuestMemory.Confined
    (GuestMemory.InWords before.processor.arguments.r0
      (call.resultWords before.processor.arguments))
    before.space.memory after.space.memory
  io : after.space.io = before.space.io
  calls : after.calls = before.calls
  redirects : after.redirects = before.redirects

theorem answered_callNatively (m : Machine δ) (call : MathCall) :
    Answered call m (m.callNatively call) := by
  have memory := call.confined_result m.space.memory m.processor.arguments
  have result (other : call ≠ .dot3) :=
    call.result_eq_none other m.space.memory m.processor.arguments
  unfold callNatively
  dsimp only
  generalize call.run m.space.memory m.processor.arguments = outcome at *
  obtain ⟨value, after⟩ := outcome
  cases value with
  | none => exact ⟨fun _ _ => rfl, rfl, memory, rfl, rfl, rfl⟩
  | some value =>
    refine ⟨fun r kept => ?_, rfl, memory, rfl, rfl, rfl⟩
    have other : r ≠ .r0 := kept.resolve_right fun other => Option.some_ne_none _ (result other)
    exact Vector.getElem_set_ne RegisterNumber.r0.isLt r.isLt fun same => other (Fin.ext same.symm)

/-- Software interrupts under a table that was made by any registrations. Only the low 20 bits of
the comment count. If no call was registered for them, the interrupt is the trap that it would be
without a table, else the call that was registered last is carried out, which changes its result
only. -/
theorem softwareInterrupt_registered (m : Machine δ) (registrations : List (Word × MathCall))
    (comment : Word) :
    let calls := CallTable.ofRegistrations registrations
    let on : Machine δ := { m with calls := some calls }
    let off : Machine δ := { m with calls := none }
    on.softwareInterrupt (comment &&& 0xFFFFF) = on.softwareInterrupt comment ∧
    match CallTable.registered? registrations comment with
    | none => on.softwareInterrupt comment =
          { off.softwareInterrupt comment with calls := some calls } ∧
        off.softwareInterrupt comment = off.mapProcessor Processor.trapSoftwareInterrupt
    | some call => on.softwareInterrupt comment = on.callNatively call ∧
        Answered call on (on.softwareInterrupt comment) := by
  intro calls on off
  have answer (c : Word) : (on.calls.bind fun calls => calls.lookup? c) =
      CallTable.registered? registrations c := CallTable.lookup?_ofRegistrations registrations c
  refine ⟨?_, ?_⟩
  · change on.softwareInterrupt (CallTable.key comment) = _
    rw [softwareInterrupt, softwareInterrupt, answer, answer, CallTable.registered?_key]
  · cases found : CallTable.registered? registrations comment with
    | none =>
      refine ⟨?_, rfl⟩
      rw [softwareInterrupt, answer, found]
      rfl
    | some call =>
      have native : on.softwareInterrupt comment = on.callNatively call := by
        rw [softwareInterrupt, answer, found]
      rw [native]
      exact ⟨rfl, on.answered_callNatively call⟩

end Machine

end ArmConsole
