import ArmConsole.Expansion.Bus
import ArmConsole.Proofs.Snapshot.Fields
import Mathlib.Data.List.Forall2

/-!
Snapshots of the expansion bus. A blob is accepted exactly if it has bytes of the right number for
every device and none for any other slot. Main statement: what is applied gets as far as the first
device that refuses, and nothing is taken back.
-/

namespace ArmConsole

namespace ExpansionBus

open SnapshotReader
open SnapshotCursor (consumes_append consumes_nil)

variable {δ : Type} [ExpansionDevice δ]

/-! ### What is accepted -/

/-- A slot may be given this entry. -/
inductive Fits : Option δ → Option ByteArray → Prop
  | vacant : Fits none none
  | occupied {device : δ} {bytes : ByteArray} : bytes.size = ExpansionDevice.saveSize device →
      bytes.size < UInt32.size → Fits (some device) (some bytes)

def entryLayout : Option ByteArray → List Byte
  | some bytes => [true.toUInt8] ++ Layout.chunk bytes
  | none => [false.toUInt8]

/-- The bytes behind the header. -/
def Saved.layout (s : Saved) : List Byte :=
  s.select.littleEndian ++ ([15] ++ s.slots.flatMap entryLayout)

/-- What a bus says about itself. -/
def saved (bus : ExpansionBus δ) : Saved where
  select := bus.select
  slots := bus.slots.toList.map (Option.map ExpansionDevice.save)

theorem length_saved (bus : ExpansionBus δ) : bus.saved.slots.length = 15 := by
  rw [saved, List.length_map, Vector.length_toList]

theorem save_toList (bus : ExpansionBus δ) :
    bus.save.data.toList = Layout.header header ++ bus.saved.layout := by
  have slot (w : SnapshotWriter) (slot : Option δ) : (writeSlot w slot).written =
      w.written ++ entryLayout (slot.map ExpansionDevice.save) := by
    cases slot with
    | none => exact w.written_bool false
    | some device =>
      simp only [writeSlot, SnapshotWriter.written_chunk, SnapshotWriter.written_bool, entryLayout,
        Option.map_some, List.append_assoc]
  have slots : (bus.slots.toList.map (Option.map ExpansionDevice.save)).flatMap entryLayout =
      bus.slots.toList.flatMap fun slot => entryLayout (slot.map ExpansionDevice.save) :=
    List.flatMap_map ..
  change SnapshotWriter.written _ = _
  simp only [SnapshotWriter.written_foldl slot, SnapshotWriter.written_byte,
    SnapshotWriter.written_word, SnapshotWriter.written_start, Saved.layout, saved, slots,
    List.append_assoc]

variable {c c' : SnapshotCursor}

theorem readSlot_eq_ok {slot : Option δ} {number : Nat} {entry : Option ByteArray} :
    readSlot number slot c = .ok entry c' ↔
      Fits slot entry ∧ c.Consumes (entryLayout entry) c' := by
  simp only [readSlot, bind_eq_ok, bool_eq_ok]
  constructor
  · rintro ⟨present, between, presentRead, rest⟩
    cases present with
    | false =>
      cases slot with
      | none =>
        obtain ⟨rfl, rfl⟩ := pure_eq_ok.1 rest
        exact ⟨.vacant, presentRead⟩
      | some device => exact absurd rest corrupt_ne_ok
    | true =>
      cases slot with
      | none => exact absurd rest corrupt_ne_ok
      | some device =>
        simp only [bind_eq_ok, pure_eq_ok, sizedChunk_eq_ok] at rest
        obtain ⟨block, _, ⟨small, chunk⟩, rfl, rfl⟩ := rest
        have size := block.size_bytes
        exact ⟨.occupied size (Nat.lt_of_le_of_lt (Nat.le_of_eq size) small),
          consumes_append.2 ⟨between, presentRead, chunk⟩⟩
  · rintro ⟨fits, consumes⟩
    cases fits with
    | vacant => exact ⟨false, c', consumes, rfl⟩
    | @occupied device bytes size small =>
      obtain ⟨between, presentRead, chunk⟩ := consumes_append.1 consumes
      let block : Block (ExpansionDevice.saveSize device) := ⟨bytes, size⟩
      have blockRead : sizedChunk _ between = .ok block c' :=
        sizedChunk_eq_ok.2 ⟨size ▸ small, chunk⟩
      refine ⟨true, between, presentRead, ?_⟩
      simp only [bind_eq_ok, pure_eq_ok]
      exact ⟨block, c', blockRead, rfl, rfl⟩

theorem readSlots_eq_ok {slots : List (Option δ)} {number : Nat}
    {entries : List (Option ByteArray)} :
    readSlots number slots c = .ok entries c' ↔
      List.Forall₂ Fits slots entries ∧ c.Consumes (entries.flatMap entryLayout) c' := by
  induction slots generalizing number entries c c' with
  | nil =>
    simp only [readSlots, pure_eq_ok]
    constructor
    · rintro ⟨rfl, rfl⟩
      exact ⟨.nil, consumes_nil.2 rfl⟩
    · rintro ⟨⟨⟩, consumes⟩
      exact ⟨rfl, (consumes_nil.1 consumes).symm⟩
  | cons slot slots ih =>
    simp only [readSlots, bind_eq_ok, readSlot_eq_ok, ih, pure_eq_ok]
    constructor
    · rintro ⟨entry, between, ⟨here, entryRead⟩, behind, _, ⟨fits, consumes⟩, rfl, rfl⟩
      exact ⟨.cons here fits, consumes_append.2 ⟨between, entryRead, consumes⟩⟩
    · rintro ⟨fits, consumes⟩
      cases fits with
      | cons here behind =>
        obtain ⟨between, entryRead, rest⟩ := consumes_append.1 consumes
        exact ⟨_, between, ⟨here, entryRead⟩, _, c', ⟨behind, rest⟩, rfl, rfl⟩

theorem readSaved_eq_ok {bus : ExpansionBus δ} {s : Saved} :
    bus.readSaved c = .ok s c' ↔
      List.Forall₂ Fits bus.slots.toList s.slots ∧ c.Consumes s.layout c' := by
  simp only [readSaved, Saved.layout, bind_eq_ok, word_eq_ok, byte_eq_ok, consumes_append]
  constructor
  · rintro ⟨select, c₁, selectRead, count, c₂, countRead, rest⟩
    by_cases same : count = 15
    · subst same
      rw [if_neg (not_not_intro rfl)] at rest
      simp only [bind_eq_ok, readSlots_eq_ok, pure_eq_ok] at rest
      obtain ⟨slots, c₃, ⟨fits, slotsRead⟩, rfl, rfl⟩ := rest
      exact ⟨fits, c₁, selectRead, c₂, countRead, slotsRead⟩
    · rw [if_pos same] at rest
      exact absurd rest corrupt_ne_ok
  · rintro ⟨fits, c₁, selectRead, c₂, countRead, slotsRead⟩
    refine ⟨_, c₁, selectRead, 15, c₂, countRead, ?_⟩
    rw [if_neg (not_not_intro rfl)]
    simp only [bind_eq_ok, readSlots_eq_ok, pure_eq_ok]
    exact ⟨_, c', ⟨fits, slotsRead⟩, rfl, rfl⟩

theorem decode_eq_ok {bus : ExpansionBus δ} {blob : ByteArray} {s : Saved} :
    bus.decode blob = .ok s ↔
      List.Forall₂ Fits bus.slots.toList s.slots ∧
        blob.data.toList = Layout.header header ++ s.layout := by
  have accepts {c : SnapshotCursor} {s : Saved} {c' : SnapshotCursor} :
      bus.readSaved c = .ok s c' ↔
        ∃ bytes, (List.Forall₂ Fits bus.slots.toList s.slots ∧ bytes = s.layout) ∧
          c.Consumes bytes c' := by
    rw [readSaved_eq_ok]
    constructor
    · rintro ⟨fits, consumes⟩
      exact ⟨_, ⟨fits, rfl⟩, consumes⟩
    · rintro ⟨_, ⟨fits, rfl⟩, consumes⟩
      exact ⟨fits, consumes⟩
  rw [decode, SnapshotReader.decode_eq_ok accepts]
  constructor
  · rintro ⟨_, ⟨fits, rfl⟩, whole⟩
    exact ⟨fits, whole⟩
  · rintro ⟨fits, whole⟩
    exact ⟨_, ⟨fits, rfl⟩, whole⟩

/-- A bus whose devices ask for what those of another one were saved as takes its blob. -/
theorem decode_save {ε : Type} [ExpansionDevice ε] {bus : ExpansionBus δ} {other : ExpansionBus ε}
    (fits : List.Forall₂ Fits bus.slots.toList other.saved.slots) :
    bus.decode other.save = .ok other.saved :=
  decode_eq_ok.2 ⟨fits, other.save_toList⟩

theorem length_of_decode {bus : ExpansionBus δ} {blob : ByteArray} {s : Saved}
    (accepted : bus.decode blob = .ok s) : s.slots.length = 15 := by
  have fits := (decode_eq_ok.1 accepted).1
  rw [← fits.length_eq, Vector.length_toList]

/-- Slot by slot. -/
theorem fits_iff {ε : Type} [ExpansionDevice ε] {bus : ExpansionBus δ} {other : ExpansionBus ε} :
    List.Forall₂ Fits bus.slots.toList other.saved.slots ↔
      ∀ i : Fin 15, Fits (bus.slot i) ((other.slot i).map ExpansionDevice.save) := by
  rw [saved, List.forall₂_map_right_iff, List.forall₂_iff_get]
  constructor
  · rintro ⟨-, each⟩ i
    have inside : i.val < bus.slots.toList.length := by
      rw [Vector.length_toList]
      exact i.isLt
    have inside' : i.val < other.slots.toList.length := by
      rw [Vector.length_toList]
      exact i.isLt
    have here := each i inside inside'
    simp only [List.get_eq_getElem, Vector.getElem_toList] at here
    exact here
  · intro each
    refine ⟨by rw [Vector.length_toList, Vector.length_toList], ?_⟩
    intro i inside inside'
    have small : i < 15 := by rwa [Vector.length_toList] at inside
    simp only [List.get_eq_getElem, Vector.getElem_toList]
    exact each ⟨i, small⟩

/-! ### What is applied -/

/-- The bytes for the device in slot `i`. -/
def Saved.entry (s : Saved) (i : Nat) : Option ByteArray := s.slots[i]?.join

/-- What is in a slot when its device has been given the entry, whether it refused or not. -/
def tried : Option δ → Option ByteArray → Option δ
  | some device, some bytes =>
    match ExpansionDevice.restore bytes device with
    | .ok _ left => some left
    | .error _ left => some left
  | slot, _ => slot

inductive Refuses : Option δ → Option ByteArray → SnapshotError → Prop
  | intro {device left : δ} {bytes : ByteArray} {e : SnapshotError} :
      ExpansionDevice.restore bytes device = .error e left → Refuses (some device) (some bytes) e

/-- The bus when the first `k` slots have been given their entries. -/
def progress (bus : ExpansionBus δ) (s : Saved) (k : Nat) : ExpansionBus δ where
  slots := .ofFn fun i => if i < k then tried (bus.slot i) (s.entry i) else bus.slot i
  select := s.select

variable {bus : ExpansionBus δ} {s : Saved}

theorem progress_zero : bus.progress s 0 = { bus with select := s.select } := by
  simp only [progress, mk.injEq, and_true]
  apply Vector.ext
  intro i h
  rw [Vector.getElem_ofFn, if_neg (Nat.not_lt_zero i)]
  rfl

theorem slot_progress (k : Nat) (i : Fin 15) :
    (bus.progress s k).slot i = if i < k then tried (bus.slot i) (s.entry i) else bus.slot i :=
  Vector.getElem_ofFn i.isLt

theorem progress_succ (k : Fin 15) :
    (bus.progress s k).withSlot k (tried (bus.slot k) (s.entry k)) = bus.progress s (k + 1) := by
  simp only [progress, withSlot, mk.injEq, and_true]
  apply Vector.ext
  intro i h
  rw [Vector.getElem_set, Vector.getElem_ofFn, Vector.getElem_ofFn]
  by_cases here : k.val = i
  · subst here
    rw [if_pos rfl, if_pos (Nat.lt_succ_self _)]
  · rw [if_neg here]
    by_cases before : i < k.val
    · rw [if_pos before, if_pos (Nat.lt_succ_of_lt before)]
    · have behind : ¬i < k.val + 1 := by omega
      rw [if_neg before, if_neg behind]

omit [ExpansionDevice δ] in
theorem withSlot_slot (bus : ExpansionBus δ) (i : Fin 15) : bus.withSlot i (bus.slot i) = bus :=
  congrArg (mk · bus.select) (Vector.set_getElem_self i.isLt)

/-- A slot is given its entry, and its device refuses or not. -/
theorem restoreSlot_cases (bus : ExpansionBus δ) (slot : Fin 15) (entry : Option ByteArray) :
    ((∀ e, ¬Refuses (bus.slot slot) entry e) ∧
      restoreSlot slot entry bus = .ok () (bus.withSlot slot (tried (bus.slot slot) entry))) ∨
    ∃ e, Refuses (bus.slot slot) entry e ∧
      restoreSlot slot entry bus = .error e (bus.withSlot slot (tried (bus.slot slot) entry)) := by
  have same := bus.withSlot_slot slot
  unfold restoreSlot
  cases found : bus.slot slot with
  | none =>
    rw [found] at same
    refine .inl ⟨nofun, ?_⟩
    simp only [tried, same]
  | some device =>
    rw [found] at same
    cases entry with
    | none =>
      refine .inl ⟨nofun, ?_⟩
      simp only [tried, same]
    | some bytes =>
      cases restored : ExpansionDevice.restore bytes device with
      | ok u left =>
        refine .inl ⟨?_, ?_⟩
        · rintro e ⟨refused⟩
          cases restored.symm.trans refused
        · simp only [tried, restored]
      | error e left =>
        refine .inr ⟨e, ⟨restored⟩, ?_⟩
        simp only [tried, restored]

/-- Going on from slot `slot`. -/
theorem restoreSlot_progress (bus : ExpansionBus δ) (s : Saved) (slot : Fin 15) :
    ((∀ e, ¬Refuses (bus.slot slot) (s.entry slot) e) ∧
      restoreSlot slot (s.entry slot) (bus.progress s slot) = .ok () (bus.progress s (slot + 1))) ∨
    ∃ e, Refuses (bus.slot slot) (s.entry slot) e ∧
      restoreSlot slot (s.entry slot) (bus.progress s slot) =
        .error e (bus.progress s (slot + 1)) := by
  have untouched : (bus.progress s slot).slot slot = bus.slot slot := by
    rw [slot_progress, if_neg (Nat.lt_irrefl _)]
  have cases := restoreSlot_cases (bus.progress s slot) slot (s.entry slot)
  rwa [untouched, progress_succ] at cases

/-- The loop over the slots, from slot `k` on. -/
def applyFrom (s : Saved) (k : Nat) : EStateM SnapshotError (ExpansionBus δ) Unit :=
  (((List.finRange 15).drop k).zip (s.slots.drop k)).forM fun (slot, entry) =>
    restoreSlot slot entry

theorem applyFrom_end (s : Saved) :
    applyFrom s 15 = (pure () : EStateM SnapshotError (ExpansionBus δ) Unit) := by
  rw [applyFrom, List.drop_eq_nil_of_le (Nat.le_of_eq List.length_finRange)]
  rfl

theorem applyFrom_eq_bind (all : s.slots.length = 15) (slot : Fin 15) :
    (applyFrom s slot : EStateM SnapshotError (ExpansionBus δ) Unit) =
      restoreSlot slot (s.entry slot) >>= fun _ => applyFrom s (slot + 1) := by
  have slots : (List.finRange 15).drop slot = slot :: (List.finRange 15).drop (slot + 1) := by
    have inside : slot.val < (List.finRange 15).length := by
      rw [List.length_finRange]
      exact slot.isLt
    rw [List.drop_eq_getElem_cons inside, List.getElem_finRange]
    rfl
  have entries : s.slots.drop slot = s.entry slot :: s.slots.drop (slot + 1) := by
    have inside : slot.val < s.slots.length := all.symm ▸ slot.isLt
    rw [List.drop_eq_getElem_cons inside, Saved.entry, List.getElem?_eq_getElem inside]
    rfl
  rw [applyFrom, slots, entries]
  rfl

/-- The loop gets to the end, or as far as the first device that refuses. -/
theorem applyFrom_cases (bus : ExpansionBus δ) (all : s.slots.length = 15) {count k : Nat}
    (h : k + count = 15) :
    ((∀ i : Fin 15, k ≤ i → ∀ e, ¬Refuses (bus.slot i) (s.entry i) e) ∧
      applyFrom s k (bus.progress s k) = .ok () (bus.progress s 15)) ∨
    ∃ (j : Fin 15) (e : SnapshotError),
      (∀ i < j, k ≤ i.val → ∀ e, ¬Refuses (bus.slot i) (s.entry i) e) ∧
      Refuses (bus.slot j) (s.entry j) e ∧
      applyFrom s k (bus.progress s k) = .error e (bus.progress s (j + 1)) := by
  induction count generalizing k with
  | zero =>
    obtain rfl : k = 15 := h
    refine .inl ⟨fun i behind => absurd i.isLt (Nat.not_lt.2 behind), ?_⟩
    rw [applyFrom_end]
    rfl
  | succ count ih =>
    obtain ⟨slot, rfl⟩ : ∃ slot : Fin 15, k = slot := ⟨⟨k, by omega⟩, rfl⟩
    rw [applyFrom_eq_bind all slot]
    change ((_ ∧ EStateM.bind _ _ _ = _) ∨ ∃ j e, _ ∧ _ ∧ EStateM.bind _ _ _ = _)
    unfold EStateM.bind
    have split {i : Fin 15} (behind : slot.val ≤ i) : i = slot ∨ slot.val + 1 ≤ i := by omega
    obtain ⟨accepted, next⟩ | ⟨e, refused, left⟩ := restoreSlot_progress bus s slot
    · rw [next]
      obtain ⟨others, done⟩ | ⟨j, e, others, refused, left⟩ := ih (k := slot + 1) (by omega)
      · refine .inl ⟨?_, done⟩
        intro i behind
        obtain rfl | further := split behind
        · exact accepted
        · exact others i further
      · refine .inr ⟨j, e, ?_, refused, left⟩
        intro i before behind
        obtain rfl | further := split behind
        · exact accepted
        · exact others i before further
    · rw [left]
      exact .inr ⟨slot, e, fun i before behind => absurd before (Fin.not_lt.2 behind), refused, rfl⟩

/-- A bus takes over all of a snapshot, or all of it up to the first device that refuses. -/
theorem apply_cases (bus : ExpansionBus δ) (all : s.slots.length = 15) :
    ((∀ (i : Fin 15) (e : SnapshotError), ¬Refuses (bus.slot i) (s.entry i) e) ∧
      apply s bus = .ok () (bus.progress s 15)) ∨
    ∃ (j : Fin 15) (e : SnapshotError),
      (∀ i < j, ∀ e, ¬Refuses (bus.slot i) (s.entry i) e) ∧
      Refuses (bus.slot j) (s.entry j) e ∧
      apply s bus = .error e (bus.progress s (j + 1)) := by
  have start : apply s bus = applyFrom s 0 (bus.progress s 0) := by
    rw [progress_zero]
    rfl
  rw [start]
  obtain ⟨accepted, done⟩ | ⟨j, e, accepted, refused, left⟩ :=
    applyFrom_cases bus all (Nat.zero_add 15)
  · exact .inl ⟨fun i => accepted i (Nat.zero_le _), done⟩
  · exact .inr ⟨j, e, fun i before => accepted i before (Nat.zero_le _), refused, left⟩

end ExpansionBus

end ArmConsole
