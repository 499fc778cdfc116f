import ArmConsole.Expansion.Scripted
import ArmConsole.Proofs.Expansion.Snapshot
import ArmConsole.Proofs.Snapshot.Delimited
import Mathlib.Tactic.SplitIfs

/-!
A bus and the blobs that were saved with devices in its slots or in others. A blob is taken entry by
entry, and the first entry that is none for its slot is what is reported. Main statement:
`restore_save`, by which a blob brings back what it was saved from, and with devices in other slots
is refused at the first of them.
-/

namespace ArmConsole

namespace SnapshotReader

open SnapshotCursor (consumes_append)

variable {α β : Type} {r : SnapshotReader α} {f : α → SnapshotReader β} {a : α}
  {c c' between : SnapshotCursor}

theorem bind_of_ok (read : r c = .ok a between) : (r >>= f) c = f a between := by
  change EStateM.bind r f c = _
  rw [EStateM.bind, read]

theorem sizedChunk_error {n : Nat} {data : ByteArray} (small : data.size < UInt32.size)
    (other : data.size ≠ n) (consumes : c.Consumes (Layout.chunk data) c') :
    ∃ after, sizedChunk n c = .error (.sizeMismatch c.subsystem n data.size) after := by
  obtain ⟨between, first, -⟩ := consumes_append.1 consumes
  have length : (UInt32.ofNat data.size).toNat = data.size := UInt32.toNat_ofNat_of_lt' small
  have read : word c = .ok (.ofNat data.size) between := word_eq_ok.2 first
  have subsystem : between.subsystem = c.subsystem := by rw [first.moved]
  refine ⟨between, ?_⟩
  rw [sizedChunk, bind_of_ok read, length, ← subsystem]
  exact congrFun (if_neg other) between

end SnapshotReader

namespace ExpansionBus

open SnapshotReader
open SnapshotCursor (consumes_append)

variable {δ : Type} [ExpansionDevice δ]

/-! ### Entries that do not fit -/

/-- What is reported of an entry that is none for slot `number`. -/
def misfit? (number : Nat) : Option δ → Option ByteArray → Option SnapshotError
  | none, none => none
  | some device, some bytes =>
    if bytes.size = ExpansionDevice.saveSize device then none
    else some (.sizeMismatch header.subsystem (ExpansionDevice.saveSize device) bytes.size)
  | _, _ => some (.corrupt header.subsystem s!"slot {number} attachment differs")

/-- What is reported of the first entry that does not fit, from slot `number` on. -/
def firstMisfit? (number : Nat) : List (Option δ) → List (Option ByteArray) → Option SnapshotError
  | slot :: slots, entry :: entries =>
    (misfit? number slot entry).or (firstMisfit? (number + 1) slots entries)
  | _, _ => none

/-- A chunk can tell the length of the entry. -/
def Tellable (entry : Option ByteArray) : Prop :=
  ∀ bytes, entry = some bytes → bytes.size < UInt32.size

variable {c c' : SnapshotCursor} {slot : Option δ} {entry : Option ByteArray} {number : Nat}

theorem Fits.misfit?_eq_none (fits : Fits slot entry) : misfit? number slot entry = none := by
  cases fits with
  | vacant => rfl
  | occupied size small => exact if_pos size

theorem Fits.isSome_eq (fits : Fits slot entry) : slot.isSome = entry.isSome := by
  cases fits <;> rfl

theorem Fits.saveSize_lt {device : δ} (fits : Fits (some device) entry) :
    ExpansionDevice.saveSize device < UInt32.size := by
  cases fits with
  | occupied size small => rwa [← size]

theorem misfit?_eq_none_iff (tellable : Tellable entry) :
    misfit? number slot entry = none ↔ Fits slot entry := by
  refine ⟨fun none => ?_, Fits.misfit?_eq_none⟩
  cases slot with
  | none =>
    cases entry with
    | none => exact .vacant
    | some bytes => cases none
  | some device =>
    cases entry with
    | none => cases none
    | some bytes =>
      by_cases size : bytes.size = ExpansionDevice.saveSize device
      · exact .occupied size (tellable bytes rfl)
      · rw [misfit?, if_neg size] at none
        cases none

/-- A device without an entry and an entry without a device are reported by the slot. -/
theorem misfit?_of_differs (differs : slot.isSome ≠ entry.isSome) :
    misfit? number slot entry =
      some (.corrupt header.subsystem s!"slot {number} attachment differs") := by
  cases slot <;> cases entry <;> first | rfl | exact absurd rfl differs

theorem readSlot_error {e : SnapshotError} (tellable : Tellable entry)
    (subsystem : c.subsystem = header.subsystem) (misfit : misfit? number slot entry = some e)
    (consumes : c.Consumes (entryLayout entry) c') :
    ∃ after, readSlot number slot c = .error e after := by
  unfold readSlot
  cases entry with
  | none =>
    have absent : bool c = .ok false c' := bool_eq_ok.2 consumes
    rw [bind_of_ok absent]
    cases slot with
    | none => cases misfit
    | some device =>
      cases misfit
      rw [consumes.moved, ← subsystem]
      exact ⟨_, rfl⟩
  | some bytes =>
    obtain ⟨between, first, chunk⟩ := consumes_append.1 consumes
    have present : bool c = .ok true between := bool_eq_ok.2 first
    have same : between.subsystem = header.subsystem := by rw [first.moved, ← subsystem]
    rw [bind_of_ok present]
    cases slot with
    | none =>
      cases misfit
      rw [← same]
      exact ⟨_, rfl⟩
    | some device =>
      unfold misfit? at misfit
      dsimp only at misfit
      split at misfit
      next => cases misfit
      next other =>
        cases misfit
        obtain ⟨after, failed⟩ := sizedChunk_error (tellable bytes rfl) other chunk
        rw [same] at failed
        exact ⟨after, bind_eq_error failed⟩

/-- Reading gets as far as the first entry that does not fit. -/
theorem readSlots_error {slots : List (Option δ)} {entries : List (Option ByteArray)}
    {e : SnapshotError} (tellable : ∀ entry ∈ entries, Tellable entry)
    (subsystem : c.subsystem = header.subsystem)
    (misfit : firstMisfit? number slots entries = some e)
    (consumes : c.Consumes (entries.flatMap entryLayout) c') :
    ∃ after, readSlots number slots c = .error e after := by
  -- What fits is read, so that the reader gets to the entry that does not.
  induction slots generalizing number entries c with
  | nil => cases misfit
  | cons slot slots ih =>
    cases entries with
    | nil => cases misfit
    | cons entry entries =>
      obtain ⟨between, first, behind⟩ := consumes_append.1 consumes
      have here := tellable entry List.mem_cons_self
      have same : between.subsystem = header.subsystem := by rw [first.moved, ← subsystem]
      cases found : misfit? number slot entry with
      | some e' =>
        rw [firstMisfit?, found] at misfit
        cases misfit
        obtain ⟨after, failed⟩ := readSlot_error here subsystem found first
        exact ⟨after, bind_eq_error failed⟩
      | none =>
        rw [firstMisfit?, found] at misfit
        have read : readSlot number slot c = .ok entry between :=
          readSlot_eq_ok.2 ⟨(misfit?_eq_none_iff here).1 found, first⟩
        obtain ⟨after, failed⟩ :=
          ih (fun entry member => tellable entry (List.mem_cons_of_mem _ member)) same misfit behind
        refine ⟨after, ?_⟩
        rw [readSlots, bind_of_ok read]
        exact bind_eq_error failed

theorem firstMisfit?_eq_none_iff {slots : List (Option δ)} {entries : List (Option ByteArray)}
    (tellable : ∀ entry ∈ entries, Tellable entry) (each : slots.length = entries.length) :
    firstMisfit? number slots entries = none ↔ List.Forall₂ Fits slots entries := by
  induction slots generalizing number entries with
  | nil =>
    obtain rfl : entries = [] := List.eq_nil_of_length_eq_zero each.symm
    exact iff_of_true rfl .nil
  | cons slot slots ih =>
    cases entries with
    | nil => cases each
    | cons entry entries =>
      have here := tellable entry List.mem_cons_self
      have behind (entry) (member : entry ∈ entries) :=
        tellable entry (List.mem_cons_of_mem _ member)
      rw [firstMisfit?, Option.or_eq_none_iff, misfit?_eq_none_iff here,
        ih behind (Nat.succ.inj each), List.forall₂_cons]

theorem firstMisfit?_append {front : List (Option δ)} {front' : List (Option ByteArray)}
    (fits : List.Forall₂ Fits front front') (slots : List (Option δ))
    (entries : List (Option ByteArray)) :
    firstMisfit? number (front ++ slots) (front' ++ entries) =
      firstMisfit? (number + front.length) slots entries := by
  induction fits generalizing number with
  | nil => rfl
  | @cons slot entry front front' fits _ ih =>
    rw [List.cons_append, List.cons_append, firstMisfit?, fits.misfit?_eq_none, Option.none_or, ih,
      List.length_cons, Nat.add_right_comm, Nat.add_assoc]

/-! ### Blobs -/

/-- The data of every device is shorter than 2^32 bytes. The length of a chunk has four bytes, so
that longer data cannot be told from what it leaves modulo 2^32. -/
def Storable (bus : ExpansionBus δ) : Prop :=
  ∀ i device, bus.slot i = some device → (ExpansionDevice.save device).size < UInt32.size

variable {bus other : ExpansionBus δ}

theorem Storable.tellable (storable : other.Storable) :
    ∀ entry ∈ other.saved.slots, Tellable entry := by
  intro entry member bytes found
  obtain ⟨slot, inSlots, rfl⟩ := List.mem_map.1 member
  obtain ⟨device, rfl, rfl⟩ := Option.map_eq_some_iff.1 found
  obtain ⟨i, inside, here⟩ := Vector.mem_iff_getElem.1 (Vector.mem_toList_iff.1 inSlots)
  exact storable ⟨i, inside⟩ device here

theorem decode_save_error {e : SnapshotError} (storable : other.Storable)
    (misfit : firstMisfit? 0 bus.slots.toList other.saved.slots = some e) :
    bus.decode other.save = .error e := by
  let start : SnapshotCursor := ⟨header.subsystem, other.save, 0⟩
  have content : start.rest = Layout.header header ++ other.saved.layout := by
    rw [rest_start, other.save_toList]
  have whole : Layout.header header ++ other.saved.layout <+: start.rest :=
    content ▸ List.prefix_rfl
  obtain ⟨opened, opening, fields⟩ := consumes_append.1 (SnapshotCursor.consumes_of_prefix whole)
  obtain ⟨selected, select, more⟩ := consumes_append.1 fields
  obtain ⟨counted, count, slots⟩ := consumes_append.1 more
  have subsystem : counted.subsystem = header.subsystem := by
    rw [count.moved, select.moved, opening.moved]
  obtain ⟨after, failed⟩ := readSlots_error storable.tellable subsystem misfit slots
  have read : bus.readSaved opened = .error e after := by
    rw [readSaved, bind_of_ok (word_eq_ok.2 select), bind_of_ok (byte_eq_ok.2 count)]
    exact bind_eq_error failed
  rw [decode, SnapshotReader.decode_eq, bind_of_ok (header_eq_ok (u := ()).2 opening), read]

/-- What a bus makes of a blob goes by the first entry that does not fit. -/
theorem decode_save_eq (storable : other.Storable) :
    bus.decode other.save =
      match firstMisfit? 0 bus.slots.toList other.saved.slots with
      | none => .ok other.saved
      | some e => .error e := by
  cases misfit : firstMisfit? 0 bus.slots.toList other.saved.slots with
  | none =>
    have lengths : bus.slots.toList.length = other.saved.slots.length := by
      rw [length_saved, Vector.length_toList]
    exact decode_save ((firstMisfit?_eq_none_iff storable.tellable lengths).1 misfit)
  | some e => exact decode_save_error storable misfit

theorem getElem_slots_saved (bus : ExpansionBus δ) (i : Fin 15)
    (inside : i.val < bus.saved.slots.length) :
    bus.saved.slots[i.val] = (bus.slot i).map ExpansionDevice.save := by
  simp only [saved, List.getElem_map, Vector.getElem_toList]
  rfl

theorem entry_saved (bus : ExpansionBus δ) (i : Fin 15) :
    bus.saved.entry i = (bus.slot i).map ExpansionDevice.save := by
  have inside : i.val < bus.saved.slots.length := bus.length_saved.symm ▸ i.isLt
  rw [Saved.entry, List.getElem?_eq_getElem inside, Option.join_some, getElem_slots_saved]

section Differs

variable {i : Fin 15} (differs : (bus.slot i).isSome ≠ (other.slot i).isSome)
  (before : ∀ j < i, Fits (bus.slot j) ((other.slot j).map ExpansionDevice.save))

include before in
theorem fits_take :
    List.Forall₂ Fits (bus.slots.toList.take i) (other.saved.slots.take i) := by
  have length : (bus.slots.toList.take i).length = i.val := by
    rw [List.length_take, Vector.length_toList, Nat.min_eq_left (Nat.le_of_lt i.isLt)]
  have length' : (other.saved.slots.take i).length = i.val := by
    rw [List.length_take, length_saved, Nat.min_eq_left (Nat.le_of_lt i.isLt)]
  rw [List.forall₂_iff_get]
  refine ⟨length.trans length'.symm, ?_⟩
  intro j early early'
  have sooner : j < i.val := length ▸ early
  have here := before ⟨j, Nat.lt_trans sooner i.isLt⟩ sooner
  simp only [List.get_eq_getElem, List.getElem_take, saved, List.getElem_map, Vector.getElem_toList]
  exact here

include differs before in
theorem firstMisfit?_of_differs :
    firstMisfit? 0 bus.slots.toList other.saved.slots =
      some (.corrupt header.subsystem s!"slot {i.val} attachment differs") := by
  have inside : i.val < bus.slots.toList.length := by
    rw [Vector.length_toList]
    exact i.isLt
  have inside' : i.val < other.saved.slots.length := by
    rw [length_saved]
    exact i.isLt
  have slot : bus.slots.toList[i.val] = bus.slot i := Vector.getElem_toList _
  have number : 0 + (bus.slots.toList.take i).length = i.val := by
    rw [List.length_take_of_le (Nat.le_of_lt inside), Nat.zero_add]
  have here : (bus.slot i).isSome ≠ ((other.slot i).map ExpansionDevice.save).isSome := by
    rwa [Option.isSome_map]
  rw [← List.take_append_drop i bus.slots.toList, ← List.take_append_drop i other.saved.slots,
    firstMisfit?_append (fits_take before), List.drop_eq_getElem_cons inside,
    List.drop_eq_getElem_cons inside', firstMisfit?, number, slot, getElem_slots_saved,
    misfit?_of_differs here, Option.some_or]

include differs in
theorem decode_of_differs (storable : other.Storable) : ∃ e, bus.decode other.save = .error e := by
  rw [decode_save_eq storable]
  cases misfit : firstMisfit? 0 bus.slots.toList other.saved.slots with
  | some e => exact ⟨e, rfl⟩
  | none =>
    have lengths : bus.slots.toList.length = other.saved.slots.length := by
      rw [length_saved, Vector.length_toList]
    have fits := fits_iff.1 ((firstMisfit?_eq_none_iff storable.tellable lengths).1 misfit) i
    exact absurd (fits.isSome_eq.trans Option.isSome_map) differs

end Differs

/-! ### Restoring -/

theorem restore_of_decode {bus : ExpansionBus δ} {blob : ByteArray} {s : Saved}
    (accepted : bus.decode blob = .ok s) : restore blob bus = apply s bus := by
  unfold restore
  dsimp only [bind, EStateM.bind, get, getThe, MonadStateOf.get, EStateM.get]
  rw [accepted]

theorem restore_of_error {bus : ExpansionBus δ} {blob : ByteArray} {e : SnapshotError}
    (refused : bus.decode blob = .error e) : restore blob bus = .error e bus := by
  unfold restore
  dsimp only [bind, EStateM.bind, get, getThe, MonadStateOf.get, EStateM.get]
  rw [refused]
  rfl

/-- A device that was saved as `device` and is now `now` takes back what was saved. `part` is what
the data of a device is about. -/
structure Returns {σ : Type} (part : δ → σ) (device now : δ) : Prop where
  size : (ExpansionDevice.save device).size = ExpansionDevice.saveSize device
  sameSize : ExpansionDevice.saveSize now = ExpansionDevice.saveSize device
  restored : ∃ left, ExpansionDevice.restore (ExpansionDevice.save device) now = .ok () left ∧
    part left = part device

/-- The same slots hold devices, and those take back what was saved. -/
inductive SlotReturns {σ : Type} (part : δ → σ) : Option δ → Option δ → Prop
  | vacant : SlotReturns part none none
  | occupied {device now : δ} : Returns part device now → SlotReturns part (some device) (some now)

namespace SlotReturns

variable {σ : Type} {part : δ → σ} {slot now : Option δ} (returns : SlotReturns part slot now)

include returns

theorem fits (tellable : Tellable (slot.map ExpansionDevice.save)) :
    Fits now (slot.map ExpansionDevice.save) := by
  cases returns with
  | vacant => exact .vacant
  | occupied returns => exact .occupied (returns.size.trans returns.sameSize.symm) (tellable _ rfl)

theorem not_refuses (e : SnapshotError) : ¬Refuses now (slot.map ExpansionDevice.save) e := by
  cases returns with
  | vacant => nofun
  | occupied returns =>
    obtain ⟨left, taken, -⟩ := returns.restored
    rintro ⟨refused⟩
    cases taken.symm.trans refused

theorem map_tried : (tried now (slot.map ExpansionDevice.save)).map part = slot.map part := by
  cases returns with
  | vacant => rfl
  | occupied returns =>
    obtain ⟨left, taken, same⟩ := returns.restored
    simp only [tried, Option.map_some, taken, same]

end SlotReturns

/-- The bus has the selection of another, and in every slot what the other's snapshot is about. -/
structure Restored {σ : Type} (part : δ → σ) (other bus : ExpansionBus δ) : Prop where
  select : bus.select = other.select
  slot (i : Fin 15) : (bus.slot i).map part = (other.slot i).map part

section Returning

variable {σ : Type} {part : δ → σ} {bus later : ExpansionBus δ}
  (returns : ∀ i, SlotReturns part (bus.slot i) (later.slot i))

include returns

theorem restored_restore_save (storable : bus.Storable) :
    ∃ restored, restore bus.save later = .ok () restored ∧ Restored part bus restored := by
  have fits (i : Fin 15) : Fits (later.slot i) ((bus.slot i).map ExpansionDevice.save) := by
    refine (returns i).fits fun bytes found => ?_
    obtain ⟨device, here, rfl⟩ := Option.map_eq_some_iff.1 found
    exact storable i device here
  rw [restore_of_decode (decode_save (fits_iff.2 fits))]
  obtain ⟨-, applied⟩ | ⟨j, e, -, refused, -⟩ := apply_cases later bus.length_saved
  · refine ⟨_, applied, rfl, fun i => ?_⟩
    rw [slot_progress, if_pos i.isLt, entry_saved]
    exact (returns i).map_tried
  · rw [entry_saved] at refused
    exact absurd refused ((returns j).not_refuses e)

/-- A blob with a chunk that does not tell its length is not taken back. -/
theorem storable_of_restore {restored : ExpansionBus δ}
    (accepted : restore bus.save later = .ok () restored) : bus.Storable := by
  cases decoded : later.decode bus.save with
  | error e =>
    rw [restore_of_error decoded] at accepted
    cases accepted
  | ok s =>
    have fits := (List.forall₂_iff_get.1 (decode_eq_ok.1 decoded).1).2
    intro i device here
    have returned := returns i
    rw [here] at returned
    cases occupied : later.slot i with
    | none =>
      rw [occupied] at returned
      cases returned
    | some now =>
      have inside : i.val < later.slots.toList.length := by
        rw [Vector.length_toList]
        exact i.isLt
      have inside' : i.val < s.slots.length := (length_of_decode decoded).symm ▸ i.isLt
      have fit := fits i inside inside'
      have slot : later.slots.toList.get ⟨i, inside⟩ = some now :=
        (Vector.getElem_toList _).trans occupied
      rw [slot] at fit
      rw [occupied] at returned
      cases returned with
      | occupied returned =>
        rw [returned.size, ← returned.sameSize]
        exact fit.saveSize_lt

end Returning

/-- A blob brings back what it was saved from exactly if the data of every device is shorter than
2^32 bytes, the most that the length of a chunk can tell. Such a blob is refused by a bus with
devices in other slots, and nothing changes there; if all is well up to the first slot that differs,
that slot is reported. -/
theorem restore_save (bus : ExpansionBus δ) :
    (∀ {σ : Type} {part : δ → σ} {later : ExpansionBus δ},
      (∀ i, SlotReturns part (bus.slot i) (later.slot i)) →
        (bus.Storable ↔
          ∃ restored, restore bus.save later = .ok () restored ∧ Restored part bus restored)) ∧
    (bus.Storable → ∀ {other : ExpansionBus δ} {i : Fin 15},
      (other.slot i).isSome ≠ (bus.slot i).isSome →
        (∃ e, other.decode bus.save = .error e ∧ restore bus.save other = .error e other) ∧
        ((∀ j < i, Fits (other.slot j) ((bus.slot j).map ExpansionDevice.save)) →
          other.decode bus.save =
            .error (.corrupt "XBUS" s!"slot {i.val} attachment differs"))) := by
  constructor
  · intro σ part later returns
    refine ⟨restored_restore_save returns, ?_⟩
    rintro ⟨restored, accepted, -⟩
    exact storable_of_restore returns accepted
  · intro storable other i differs
    obtain ⟨e, refused⟩ := decode_of_differs differs storable
    refine ⟨⟨e, refused, restore_of_error refused⟩, fun before => ?_⟩
    exact decode_save_error storable (firstMisfit?_of_differs differs before)

/-! ### A bus of two devices -/

/-- A device whose snapshots say its poll and status bytes and three more. -/
def reporting (poll status : Byte) : ScriptedDevice :=
  { (default : ScriptedDevice) with pollByte := poll, statusByte := status, extra := 3 }

/-- Devices in slots 2 and 7. -/
def sparse (poll status : Byte) : ExpansionBus ScriptedDevice where
  slots := .ofFn fun i =>
    if i.val = 2 then some (reporting poll status)
    else if i.val = 7 then some (reporting status poll)
    else none
  select := 7

theorem slot_sparse (poll status : Byte) (i : Fin 15) : (sparse poll status).slot i =
    if i.val = 2 then some (reporting poll status)
    else if i.val = 7 then some (reporting status poll)
    else none :=
  Vector.getElem_ofFn i.isLt

theorem returns_reporting (poll status poll' status' : Byte) :
    Returns (fun d : ScriptedDevice => (d.pollByte, d.statusByte)) (reporting poll status)
      (reporting poll' status') :=
  ⟨rfl, rfl, (reporting poll' status').accept (reporting poll status).saved, rfl, rfl⟩

theorem restore_save_sparse :
    (∃ restored, restore (sparse 1 2).save (sparse 3 4) = .ok () restored ∧
      Restored (fun d : ScriptedDevice => (d.pollByte, d.statusByte)) (sparse 1 2) restored) ∧
    (empty : ExpansionBus ScriptedDevice).decode (sparse 1 2).save =
      .error (.corrupt "XBUS" "slot 2 attachment differs") := by
  have storable : (sparse 1 2).Storable := by
    intro i device found
    rw [slot_sparse] at found
    split_ifs at found <;> cases found <;> decide
  have returns (i : Fin 15) : SlotReturns (fun d : ScriptedDevice => (d.pollByte, d.statusByte))
      ((sparse 1 2).slot i) ((sparse 3 4).slot i) := by
    rw [slot_sparse, slot_sparse]
    split_ifs
    · exact .occupied (returns_reporting ..)
    · exact .occupied (returns_reporting ..)
    · exact .vacant
  obtain ⟨back, elsewhere⟩ := restore_save (sparse 1 2)
  refine ⟨(back returns).1 storable, (elsewhere storable (i := 2) (by decide)).2 ?_⟩
  intro j before
  have vacant : (sparse 1 2).slot j = none := by
    rw [slot_sparse, if_neg (by omega), if_neg (by omega)]
  have slot : (empty : ExpansionBus ScriptedDevice).slot j = none :=
    Vector.getElem_replicate j.isLt
  rw [vacant, slot]
  exact .vacant

end ExpansionBus

end ArmConsole
