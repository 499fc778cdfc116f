import ArmConsole.Expansion.Scripted
import ArmConsole.Proofs.Expansion.Attachment
import Mathlib.Data.List.Induction

/-!
The selection of the expansion bus. A write of the select register keeps four bits of it, and a
snapshot is believed whatever it says. Main statement: `selection_range`, by which a blob that is
accepted is that of a bus with any selection at all, and the selection has four bits unless the last
thing that set it was a snapshot.
-/

namespace ArmConsole

/-- A device that is nothing but its snapshot. -/
structure KeptDevice where
  bytes : ByteArray

instance : ExpansionDevice KeptDevice where
  reset := id
  setCommand _ := id
  status d := (0, d)
  setData _ := id
  data d := (0, d)
  poll d := (0, d)
  setPoll _ := id
  saveSize d := d.bytes.size
  save d := d.bytes
  restore bytes := fun _ => .ok () ⟨bytes⟩

/-- What may happen to a bus. -/
inductive ExpansionEvent (δ : Type) where
  | read (offset : Word)
  | write (offset value : Word)
  | data
  | attention
  | attach (device : δ)
  | detach (slot : Nat)
  | reset
  | restore (blob : ByteArray)

namespace ExpansionBus

variable {δ : Type} [ExpansionDevice δ]

/-! ### What is accepted -/

/-- A bus of devices that were saved as these entries. -/
def Saved.bus (s : Saved) (all : s.slots.length = 15) : ExpansionBus KeptDevice where
  slots := ⟨(s.slots.map (Option.map KeptDevice.mk)).toArray, by simpa using all⟩
  select := s.select

theorem Saved.saved_bus (s : Saved) (all : s.slots.length = 15) : (s.bus all).saved = s := by
  have whole : ExpansionDevice.save ∘ KeptDevice.mk = id := rfl
  have slots : (s.bus all).slots.toList = s.slots.map (Option.map KeptDevice.mk) := rfl
  simp only [saved, slots, List.map_map, Option.map_comp_map, whole, Option.map_id, List.map_id]
  rfl

/-- A blob is accepted exactly if it is that of a bus with devices in the same slots. -/
theorem decode_iff_save {bus : ExpansionBus δ} {blob : ByteArray} {s : Saved} :
    bus.decode blob = .ok s ↔ ∃ kept : ExpansionBus KeptDevice,
      (∀ i, Fits (bus.slot i) ((kept.slot i).map ExpansionDevice.save)) ∧ kept.save = blob ∧
        kept.saved = s := by
  constructor
  · intro accepted
    obtain ⟨fits, whole⟩ := decode_eq_ok.1 accepted
    let kept := s.bus (length_of_decode accepted)
    have same : kept.saved = s := s.saved_bus _
    refine ⟨kept, fits_iff.1 (same ▸ fits), ?_, same⟩
    have bytes := kept.save_toList
    rw [same, ← whole] at bytes
    exact ByteArray.ext (Array.toList_inj.1 bytes)
  · rintro ⟨kept, fits, rfl, rfl⟩
    exact decode_save (fits_iff.2 fits)

/-! ### What sets the selection -/

def handle (bus : ExpansionBus δ) : ExpansionEvent δ → ExpansionBus δ
  | .read offset => (bus.read offset).2
  | .write offset value => bus.write offset value
  | .data => bus.data.2
  | .attention => bus.attentionNeeded.2
  | .attach device => (bus.attach device).elim bus Prod.snd
  | .detach slot => (bus.detach slot).elim bus Prod.snd
  | .reset => bus.reset
  | .restore blob =>
    match restore blob bus with
    | .ok _ bus => bus
    | .error _ bus => bus

def run (bus : ExpansionBus δ) (events : List (ExpansionEvent δ)) : ExpansionBus δ :=
  events.foldl handle bus

/-- What an event makes of the selection, if it sets it. -/
def selection? (bus : ExpansionBus δ) : ExpansionEvent δ → Option Word
  | .write offset value => if offset &&& 0xFF0 = 0x580 then some (value &&& 0xF) else none
  | .reset => some 0
  | .restore blob =>
    match bus.decode blob with
    | .ok s => some s.select
    | .error _ => none
  | _ => none

section Questions

omit [ExpansionDevice δ]

theorem select_askSlot {α : Type} [Inhabited α] (bus : ExpansionBus δ) (slot : Fin 15)
    (f : δ → α × δ) : (bus.askSlot slot f).2.select = bus.select := by
  unfold askSlot
  split <;> rfl

theorem select_ask (bus : ExpansionBus δ) (f : δ → Byte × δ) :
    (bus.ask f).2.select = bus.select := by
  unfold ask
  split
  · exact bus.select_askSlot _ f
  · rfl

theorem select_tell (bus : ExpansionBus δ) (f : δ → δ) : (bus.tell f).select = bus.select :=
  bus.select_ask _

end Questions

theorem select_read (bus : ExpansionBus δ) (offset : Word) :
    (bus.read offset).2.select = bus.select := by
  unfold read
  split <;> first | rfl | exact bus.select_ask _

theorem select_write (bus : ExpansionBus δ) (offset value : Word) :
    (bus.write offset value).select =
      if offset &&& 0xFF0 = 0x580 then value &&& 0xF else bus.select := by
  unfold write
  split
  next selects => rw [if_pos selects]
  next poll => rw [poll, select_tell, if_neg (by decide)]
  next command => rw [command, select_tell, if_neg (by decide)]
  next datum => rw [datum, select_tell, if_neg (by decide)]
  next other _ _ _ => rw [if_neg other]

theorem select_attentionNeeded (bus : ExpansionBus δ) :
    bus.attentionNeeded.2.select = bus.select := by
  refine List.foldlRecOn (motive := fun answer : Bool × ExpansionBus δ =>
    answer.2.select = bus.select) _ _ rfl ?_
  rintro ⟨found, asked⟩ same slot -
  cases found with
  | true => exact same
  | false => exact (asked.select_askSlot slot _).trans same

theorem select_attach (bus : ExpansionBus δ) (device : δ) :
    ((bus.attach device).elim bus Prod.snd).select = bus.select := by
  unfold attach
  cases (List.finRange 15).find? fun slot => (bus.slot slot).isNone <;> rfl

theorem select_detach (bus : ExpansionBus δ) (slot : Nat) :
    ((bus.detach slot).elim bus Prod.snd).select = bus.select := by
  unfold detach
  split
  next small => cases bus.slot ⟨slot, small⟩ <;> rfl
  next => rfl

theorem select_handle (bus : ExpansionBus δ) (event : ExpansionEvent δ) :
    (bus.handle event).select = (bus.selection? event).getD bus.select := by
  cases event with
  | read offset => exact bus.select_read offset
  | write offset value =>
    rw [handle, select_write, selection?]
    split <;> rfl
  | data => exact bus.select_ask _
  | attention => exact bus.select_attentionNeeded
  | attach device => exact bus.select_attach device
  | detach slot => exact bus.select_detach slot
  | reset => rfl
  | restore blob =>
    rw [handle, selection?]
    cases decoded : bus.decode blob with
    | error e => rw [restore_of_error decoded]; rfl
    | ok s =>
      rw [restore_of_decode decoded]
      obtain ⟨-, applied⟩ | ⟨j, e, -, -, applied⟩ := apply_cases bus (length_of_decode decoded)
      · rw [applied]; rfl
      · rw [applied]; rfl

/-! ### Runs -/

/-- None of the events sets the selection. -/
def KeepsSelection (bus : ExpansionBus δ) : List (ExpansionEvent δ) → Prop
  | [] => True
  | event :: events => bus.selection? event = none ∧ (bus.handle event).KeepsSelection events

theorem run_nil (bus : ExpansionBus δ) : bus.run [] = bus := rfl

theorem run_cons (bus : ExpansionBus δ) (event : ExpansionEvent δ)
    (events : List (ExpansionEvent δ)) :
    bus.run (event :: events) = (bus.handle event).run events := rfl

theorem run_append (bus : ExpansionBus δ) (before behind : List (ExpansionEvent δ)) :
    bus.run (before ++ behind) = (bus.run before).run behind := List.foldl_append

theorem KeepsSelection.select_run {bus : ExpansionBus δ} {events : List (ExpansionEvent δ)}
    (keeps : bus.KeepsSelection events) : (bus.run events).select = bus.select := by
  induction events generalizing bus with
  | nil => rfl
  | cons event events ih =>
    obtain ⟨none, keeps⟩ := keeps
    have here := bus.select_handle event
    rw [none] at here
    exact (ih keeps).trans here

theorem KeepsSelection.concat {bus : ExpansionBus δ} {events : List (ExpansionEvent δ)}
    (keeps : bus.KeepsSelection events) {event : ExpansionEvent δ}
    (none : (bus.run events).selection? event = none) :
    bus.KeepsSelection (events ++ [event]) := by
  induction events generalizing bus with
  | nil => exact ⟨none, trivial⟩
  | cons first events ih => exact ⟨keeps.1, ih keeps.2 none⟩

/-- The last event that set the selection was a snapshot with more than four bits of it. -/
def Misled (bus : ExpansionBus δ) (events : List (ExpansionEvent δ)) : Prop :=
  ∃ before blob behind s, events = before ++ .restore blob :: behind ∧
    (bus.run before).decode blob = .ok s ∧ 16 ≤ s.select ∧
    ((bus.run before).handle (.restore blob)).KeepsSelection behind

theorem Misled.le_select {bus : ExpansionBus δ} {events : List (ExpansionEvent δ)}
    (misled : bus.Misled events) : 16 ≤ (bus.run events).select := by
  obtain ⟨before, blob, behind, s, rfl, accepted, beyond, keeps⟩ := misled
  have restored := (bus.run before).select_handle (.restore blob)
  rw [selection?, accepted, Option.getD_some] at restored
  rwa [run_append, run_cons, keeps.select_run, restored]

theorem Misled.concat {bus : ExpansionBus δ} {events : List (ExpansionEvent δ)}
    (misled : bus.Misled events) {event : ExpansionEvent δ}
    (none : (bus.run events).selection? event = none) : bus.Misled (events ++ [event]) := by
  obtain ⟨before, blob, behind, s, rfl, accepted, beyond, keeps⟩ := misled
  rw [run_append] at none
  refine ⟨before, blob, behind ++ [event], s, ?_, accepted, beyond, keeps.concat none⟩
  rw [List.append_assoc, List.cons_append]

/-- An event leaves the selection, or sets four bits of it, or is a snapshot that sets more. -/
theorem select_handle_cases (bus : ExpansionBus δ) (event : ExpansionEvent δ) :
    bus.selection? event = none ∨ (bus.handle event).select < 16 ∨
      ∃ blob s, event = .restore blob ∧ bus.decode blob = .ok s ∧ 16 ≤ s.select := by
  rw [select_handle]
  cases event with
  | write offset value =>
    rw [selection?]
    split
    · exact .inr (.inl (Word.toNat_and_lt (by decide)))
    · exact .inl rfl
  | reset => exact .inr (.inl (by decide : (0 : Word) < 16))
  | restore blob =>
    rw [selection?]
    cases decoded : bus.decode blob with
    | error e => exact .inl rfl
    | ok s =>
      by_cases small : s.select < 16
      · exact .inr (.inl small)
      · exact .inr (.inr ⟨blob, s, rfl, decoded, UInt32.not_lt.1 small⟩)
  | _ => exact .inl rfl

theorem select_run_lt_iff {bus : ExpansionBus δ} (start : bus.select < 16)
    (events : List (ExpansionEvent δ)) : (bus.run events).select < 16 ↔ ¬bus.Misled events := by
  constructor
  · intro small misled
    exact absurd small (UInt32.not_lt.2 misled.le_select)
  · intro guided
    -- From the end: what set the selection last is what counts.
    induction events using List.reverseRecOn with
    | nil => exact start
    | append_singleton events event ih =>
      have last : bus.run (events ++ [event]) = (bus.run events).handle event :=
        List.foldl_concat ..
      rw [last]
      obtain none | small | ⟨blob, s, rfl, accepted, beyond⟩ :=
        (bus.run events).select_handle_cases event
      · rw [select_handle, none]
        exact ih fun misled => guided (misled.concat none)
      · exact small
      · exact absurd ⟨events, blob, [], s, rfl, accepted, beyond, trivial⟩ guided

/-- Guest writes, each with its offset and value. -/
def writes (pairs : List (Word × Word)) : List (ExpansionEvent δ) :=
  pairs.map fun (offset, value) => .write offset value

theorem select_run_writes_lt {bus : ExpansionBus δ} (start : bus.select < 16)
    (pairs : List (Word × Word)) : (bus.run (writes pairs)).select < 16 := by
  rw [select_run_lt_iff start]
  rintro ⟨before, blob, behind, s, split, -⟩
  have member : ExpansionEvent.restore blob ∈ (writes pairs : List (ExpansionEvent δ)) := by
    rw [split]
    exact List.mem_append_right _ List.mem_cons_self
  obtain ⟨pair, -, write⟩ := List.mem_map.1 member
  cases write

/-- A blob is accepted if it is that of a bus with devices in the same slots and any selection.
Writes of the guest reach the selections of four bits, and the selection stays among these unless
the last thing that set it was a snapshot with another. -/
theorem selection_range {bus : ExpansionBus δ} (start : bus.select < 16) :
    (∀ blob s, bus.decode blob = .ok s ↔ ∃ kept : ExpansionBus KeptDevice,
      (∀ i, Fits (bus.slot i) ((kept.slot i).map ExpansionDevice.save)) ∧ kept.save = blob ∧
        kept.saved = s) ∧
    (∀ select, (∃ pairs, (bus.run (writes pairs)).select = select) ↔ select < 16) ∧
    ∀ events, (bus.run events).select < 16 ↔ ¬bus.Misled events := by
  refine ⟨fun blob s => decode_iff_save, fun select => ⟨?_, fun small => ?_⟩,
    select_run_lt_iff start⟩
  · rintro ⟨pairs, rfl⟩
    exact select_run_writes_lt start pairs
  · refine ⟨[(0x580, select)], ?_⟩
    have low : select &&& 0xF = select := by
      rw [← UInt32.toNat_inj, Word.toNat_and_mask (k := 4) _ rfl]
      exact Nat.mod_eq_of_lt (UInt32.lt_iff_toNat_lt.1 small)
    exact low

/-! ### A selection of five bits -/

/-- The blob of an empty bus with selection 16. -/
def misleading : ByteArray :=
  ⟨#[88, 66, 85, 83, 1, 16, 0, 0, 0, 15, 0, 0, 0, 0, 0, 0, 0, 0, 0, 0, 0, 0, 0, 0, 0]⟩

theorem decode_misleading :
    (empty : ExpansionBus δ).decode misleading = .ok ⟨16, List.replicate 15 none⟩ := by
  have vacant (i : Fin 15) : Fits ((empty : ExpansionBus δ).slot i)
      (((empty : ExpansionBus δ).slot i).map ExpansionDevice.save) := by
    have slot : (empty : ExpansionBus δ).slot i = none := Vector.getElem_replicate i.isLt
    rw [slot]
    exact .vacant
  have slots : (empty : ExpansionBus δ).saved.slots = List.replicate 15 none := rfl
  have fits := fits_iff.2 vacant
  rw [slots] at fits
  exact decode_eq_ok.2 ⟨fits, rfl⟩

/-- It is accepted although no guest takes a bus there. -/
theorem decode_unreachable :
    ∃ s, (empty : ExpansionBus ScriptedDevice).decode misleading = .ok s ∧
      (¬∃ kept start : ExpansionBus KeptDevice, ∃ pairs,
        (∀ i, Fits ((empty : ExpansionBus ScriptedDevice).slot i)
          ((kept.slot i).map ExpansionDevice.save)) ∧ kept.save = misleading ∧
        start.select < 16 ∧ (start.run (writes pairs)).select = kept.select) ∧
      ((empty : ExpansionBus ScriptedDevice).run [.restore misleading]).select = 16 := by
  have accepted : (empty : ExpansionBus ScriptedDevice).decode misleading = _ := decode_misleading
  refine ⟨_, accepted, ?_, ?_⟩
  · rintro ⟨kept, start, pairs, fits, saved, small, reached⟩
    have same := decode_save (fits_iff.2 fits)
    rw [saved, accepted] at same
    have select : kept.select = 16 := congrArg Saved.select (Except.ok.inj same.symm)
    have within := select_run_writes_lt small pairs
    rw [reached, select] at within
    exact absurd within (by decide)
  · have restored := (empty : ExpansionBus ScriptedDevice).select_handle (.restore misleading)
    rw [selection?, accepted, Option.getD_some] at restored
    rw [run_cons, run_nil, restored]

/-- The next write of the guest brings the selection back. -/
theorem selection_range_misleading : (empty : ExpansionBus ScriptedDevice).select < 16 ∧
    ¬((empty : ExpansionBus ScriptedDevice).run [.restore misleading, .read 0x580]).select < 16 ∧
    ¬(empty : ExpansionBus ScriptedDevice).Misled [.restore misleading, .write 0x580 0x12] := by
  have start : (empty : ExpansionBus ScriptedDevice).select < 16 := by decide
  obtain ⟨-, -, range⟩ := selection_range start
  refine ⟨start, ?_, (range _).1 ?_⟩
  · rw [range, not_not]
    exact ⟨[], misleading, [.read 0x580], _, rfl, decode_misleading, by decide, rfl, trivial⟩
  · rw [run_cons, run_cons, run_nil, select_handle, selection?, if_pos (by decide)]
    decide

end ExpansionBus

end ArmConsole
