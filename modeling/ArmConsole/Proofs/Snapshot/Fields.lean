import ArmConsole.Controller.Snapshot
import ArmConsole.Proofs.Memory.Block
import ArmConsole.Proofs.Snapshot.Reader
import ArmConsole.Proofs.Snapshot.Writer

/-!
What readers accept. A reader of a field yields a value exactly where the layout of that value
comes next, and moves behind it. Main statement: if this holds of the fields of a blob, a blob is
decoded exactly if it is the header and the layout of what it is decoded to, and nothing more.
-/

namespace ArmConsole

namespace SnapshotCursor

/-- What has not been read. -/
def rest (c : SnapshotCursor) : List Byte := c.data.data.toList.drop c.position

/-- Between `c` and `c'` lie exactly these bytes. -/
structure Consumes (c : SnapshotCursor) (bytes : List Byte) (c' : SnapshotCursor) : Prop where
  found : c.rest = bytes ++ c'.rest
  moved : c' = { c with position := c.position + bytes.length }

variable {c c' : SnapshotCursor} {first second : List Byte}

theorem length_rest (c : SnapshotCursor) : c.rest.length = c.remaining := List.length_drop

theorem consumes_nil : c.Consumes [] c' ↔ c' = c := by
  constructor
  · intro consumes
    exact consumes.moved
  · rintro rfl
    exact ⟨rfl, rfl⟩

theorem consumes_of_prefix (next : first <+: c.rest) :
    c.Consumes first { c with position := c.position + first.length } := by
  obtain ⟨behind, split⟩ := next
  have dropped : c.rest.drop first.length = behind := by rw [← split, List.drop_left]
  refine ⟨?_, rfl⟩
  rw [← split, ← dropped]
  simp [rest]

theorem consumes_append :
    c.Consumes (first ++ second) c' ↔
      ∃ between, c.Consumes first between ∧ between.Consumes second c' := by
  constructor
  · intro both
    have next : first <+: c.rest := ⟨second ++ c'.rest, by rw [both.found, List.append_assoc]⟩
    have front := consumes_of_prefix next
    refine ⟨_, front, ?_, ?_⟩
    · apply List.append_cancel_left
      rw [← front.found, both.found, List.append_assoc]
    · rw [both.moved, List.length_append, Nat.add_assoc]
  · rintro ⟨between, front, back⟩
    refine ⟨by rw [front.found, back.found, List.append_assoc], ?_⟩
    rw [back.moved, front.moved, List.length_append, Nat.add_assoc]

theorem take?_eq_some_iff {n : Nat} {b : Block n} : c.take? n = some b ↔ b.toList <+: c.rest := by
  have bytes : (c.data.extract c.position (c.position + n)).data.toList = c.rest.take n := by
    simp [rest]
  unfold take?
  split
  next enough =>
    rw [Option.some.injEq, ← Block.toList_inj, List.prefix_iff_eq_take, b.length_toList, ← bytes]
    exact eq_comm
  next short =>
    constructor
    · nofun
    · intro next
      have long := next.length_le
      rw [b.length_toList, length_rest] at long
      contradiction

end SnapshotCursor

namespace SnapshotReader

open SnapshotCursor (consumes_append consumes_nil)

variable {α : Type} {c c' : SnapshotCursor}

theorem pure_eq_ok {a b : α} : (pure a : SnapshotReader α) c = .ok b c' ↔ a = b ∧ c = c' := by
  constructor
  · rintro ⟨⟩
    exact ⟨rfl, rfl⟩
  · rintro ⟨rfl, rfl⟩
    rfl

theorem corrupt_ne_ok {reason : String} {a : α} : corrupt reason c ≠ .ok a c' := nofun

/-! ### Bytes and numbers -/

theorem take_eq_ok {n : Nat} {b : Block n} : take n c = .ok b c' ↔ c.Consumes b.toList c' := by
  unfold take
  split
  next block found =>
    have taken := SnapshotCursor.consumes_of_prefix (SnapshotCursor.take?_eq_some_iff.1 found)
    rw [block.length_toList] at taken
    constructor
    · rintro ⟨⟩
      exact taken
    · intro consumes
      have moved := consumes.moved
      rw [b.length_toList] at moved
      subst moved
      have same : block.toList = b.toList :=
        List.append_cancel_right (taken.found.symm.trans consumes.found)
      rw [Block.toList_inj.1 same]
  next missing =>
    constructor
    · nofun
    · intro consumes
      have found := SnapshotCursor.take?_eq_some_iff.2 ⟨_, consumes.found.symm⟩
      rw [missing] at found
      contradiction

theorem byte_eq_ok {v : Byte} : byte c = .ok v c' ↔ c.Consumes [v] c' := by
  have single (b : Block 1) : b.toList = [b[0]] := b.toList_eq_ofFn
  simp only [byte, bind_eq_ok, take_eq_ok, pure_eq_ok]
  constructor
  · rintro ⟨b, between, consumes, rfl, rfl⟩
    rwa [← single]
  · intro consumes
    exact ⟨.ofList [v] rfl, c', consumes, rfl, rfl⟩

theorem bool_eq_ok {v : Bool} : bool c = .ok v c' ↔ c.Consumes [v.toUInt8] c' := by
  simp only [bool, bind_eq_ok, byte_eq_ok]
  constructor
  · rintro ⟨b, between, consumes, read⟩
    split at read
    next zero =>
      obtain ⟨rfl, rfl⟩ := pure_eq_ok.1 read
      rwa [zero] at consumes
    next =>
      split at read
      next one =>
        obtain ⟨rfl, rfl⟩ := pure_eq_ok.1 read
        rwa [one] at consumes
      next => exact absurd read corrupt_ne_ok
  · intro consumes
    refine ⟨_, c', consumes, ?_⟩
    cases v <;> rfl

theorem halfWord_eq_ok {v : HalfWord} : halfWord c = .ok v c' ↔ c.Consumes v.littleEndian c' := by
  have pair (b : Block 2) : b.toList = [b[0], b[1]] := b.toList_eq_ofFn
  simp only [halfWord, bind_eq_ok, take_eq_ok, pure_eq_ok]
  constructor
  · rintro ⟨b, between, consumes, rfl, rfl⟩
    rwa [HalfWord.littleEndian_or_shiftLeft, ← pair]
  · intro consumes
    exact ⟨.ofList v.littleEndian rfl, c', consumes, v.or_shiftLeft_bytes, rfl⟩

theorem word_eq_ok {v : Word} : word c = .ok v c' ↔ c.Consumes v.littleEndian c' := by
  have four (b : Block 4) : b.toList = [b[0], b[1], b[2], b[3]] := b.toList_eq_ofFn
  simp only [word, bind_eq_ok, take_eq_ok, pure_eq_ok]
  constructor
  · rintro ⟨b, between, consumes, rfl, rfl⟩
    rwa [Word.littleEndian_ofBytes, ← four]
  · intro consumes
    exact ⟨.ofList v.littleEndian rfl, c', consumes, v.ofBytes_bytes, rfl⟩

/-! ### Repetition -/

section Repetition

variable {read : SnapshotReader α} {layout : α → List Byte}

theorem repeatFrom_eq_ok (each : ∀ {c a c'}, read c = .ok a c' ↔ c.Consumes (layout a) c')
    {m n count : Nat} {seen : Vector α m} {h : m + count = n} {as : Vector α n} :
    repeatFrom read seen count h c = .ok as c' ↔
      ∃ more, as.toList = seen.toList ++ more ∧ c.Consumes (more.flatMap layout) c' := by
  induction count generalizing m c with
  | zero =>
    obtain rfl : m = n := h
    simp only [repeatFrom, pure_eq_ok]
    constructor
    · rintro ⟨rfl, rfl⟩
      exact ⟨[], by simp, consumes_nil.2 rfl⟩
    · rintro ⟨more, same, consumes⟩
      have length := congrArg List.length same
      simp only [List.length_append, Vector.length_toList] at length
      obtain rfl : more = [] := List.eq_nil_of_length_eq_zero (by omega)
      refine ⟨?_, (consumes_nil.1 consumes).symm⟩
      rw [← Vector.toList_inj, same]
      simp
  | succ count ih =>
    simp only [repeatFrom, bind_eq_ok, each, ih, Vector.toList_push]
    constructor
    · rintro ⟨a, between, first, more, same, consumes⟩
      refine ⟨a :: more, by rw [same, List.append_assoc, List.singleton_append], ?_⟩
      rw [List.flatMap_cons]
      exact consumes_append.2 ⟨between, first, consumes⟩
    · rintro ⟨more, same, consumes⟩
      cases more with
      | nil =>
        have length := congrArg List.length same
        simp only [List.append_nil, Vector.length_toList] at length
        omega
      | cons a more =>
        rw [List.flatMap_cons] at consumes
        obtain ⟨between, first, behind⟩ := consumes_append.1 consumes
        refine ⟨a, between, first, more, ?_, behind⟩
        rw [same, List.append_assoc, List.singleton_append]

theorem repeated_eq_ok (each : ∀ {c a c'}, read c = .ok a c' ↔ c.Consumes (layout a) c') {n : Nat}
    {as : Vector α n} :
    repeated n read c = .ok as c' ↔ c.Consumes (as.toList.flatMap layout) c' := by
  rw [repeated, repeatFrom_eq_ok each]
  constructor
  · rintro ⟨more, same, consumes⟩
    rwa [same]
  · intro consumes
    exact ⟨_, rfl, consumes⟩

end Repetition

theorem words_eq_ok {n : Nat} {vs : Vector Word n} :
    words n c = .ok vs c' ↔ c.Consumes (Layout.words vs) c' := repeated_eq_ok word_eq_ok

/-! ### Chunks -/

/-- The length of a chunk fits a word. -/
theorem chunk_eq_ok {data : ByteArray} :
    chunk c = .ok data c' ↔ data.size < UInt32.size ∧ c.Consumes (Layout.chunk data) c' := by
  rw [Layout.chunk, consumes_append]
  simp only [chunk, bind_eq_ok, word_eq_ok, take_eq_ok, pure_eq_ok]
  constructor
  · rintro ⟨length, between, first, block, _, behind, rfl, rfl⟩
    rw [block.size_bytes, UInt32.ofNat_toNat]
    exact ⟨length.toNat_lt, between, first, behind⟩
  · rintro ⟨small, between, first, behind⟩
    have same : data.size = (UInt32.ofNat data.size).toNat :=
      (UInt32.toNat_ofNat_of_lt' small).symm
    exact ⟨_, between, first, ⟨data, same⟩, c', behind, rfl, rfl⟩

/-- A chunk of a fixed size is accepted with that size in front only, which must fit a word. -/
theorem sizedChunk_eq_ok {n : Nat} {b : Block n} :
    sizedChunk n c = .ok b c' ↔ n < UInt32.size ∧ c.Consumes (Layout.chunk b.bytes) c' := by
  have layout : Layout.chunk b.bytes = Word.littleEndian (.ofNat n) ++ b.toList := by
    rw [Layout.chunk, b.size_bytes]
    rfl
  rw [layout, consumes_append]
  simp only [sizedChunk, bind_eq_ok, word_eq_ok]
  constructor
  · rintro ⟨found, between, first, read⟩
    by_cases same : found.toNat = n
    · have taken : take n between = .ok b c' := (congrFun (if_pos same) between).symm.trans read
      refine ⟨same ▸ found.toNat_lt, between, ?_, take_eq_ok.1 taken⟩
      rwa [← same, UInt32.ofNat_toNat]
    · have failed := (congrFun (if_neg same) between).symm.trans read
      contradiction
  · rintro ⟨small, between, first, behind⟩
    have same : (UInt32.ofNat n).toNat = n := UInt32.toNat_ofNat_of_lt' small
    refine ⟨_, between, first, ?_⟩
    exact (congrFun (if_pos same) between).trans (take_eq_ok.2 behind)

theorem sizedChunk_eq_ok_of_lt {n : Nat} (small : n < UInt32.size) {b : Block n} :
    sizedChunk n c = .ok b c' ↔ c.Consumes (Layout.chunk b.bytes) c' := by
  rw [sizedChunk_eq_ok, and_iff_right small]

/-! ### Blobs -/

theorem header_eq_ok {h : SnapshotHeader} {u : Unit} :
    header h c = .ok u c' ↔ c.Consumes (Layout.header h) c' := by
  have four (b : Block 4) : b.toList = #v[b[0], b[1], b[2], b[3]].toList := b.toList_eq_ofFn
  rw [Layout.header, consumes_append]
  unfold header
  simp only [bind_eq_ok, take_eq_ok]
  constructor
  · rintro ⟨b, between, magic, read⟩
    by_cases same : #v[b[0], b[1], b[2], b[3]] = h.magic
    · rw [if_neg (not_not_intro same)] at read
      obtain ⟨version, behind, next, read⟩ := bind_eq_ok.1 read
      refine ⟨between, by rwa [← same, ← four], ?_⟩
      by_cases expected : version = h.version
      · rw [if_neg (not_not_intro expected)] at read
        obtain ⟨-, rfl⟩ := pure_eq_ok.1 read
        rw [← expected]
        exact byte_eq_ok.1 next
      · rw [if_pos expected] at read
        contradiction
    · rw [if_pos same] at read
      contradiction
  · rintro ⟨between, magic, version⟩
    let b : Block 4 := .ofList h.magic.toList Vector.length_toList
    have same : #v[b[0], b[1], b[2], b[3]] = h.magic := Vector.toList_inj.1 (four b).symm
    refine ⟨b, between, magic, ?_⟩
    rw [if_neg (not_not_intro same)]
    refine bind_eq_ok.2 ⟨h.version, c', byte_eq_ok.2 version, ?_⟩
    rw [if_neg (not_not_intro rfl)]
    rfl

theorem finish_eq_ok {u : Unit} : finish c = .ok u c' ↔ c.rest = [] ∧ c' = c := by
  rw [← List.length_eq_zero_iff, SnapshotCursor.length_rest]
  unfold finish
  split
  next nothing =>
    constructor
    · rintro ⟨⟩
      exact ⟨nothing, rfl⟩
    · rintro ⟨-, rfl⟩
      rfl
  next left =>
    constructor
    · nofun
    · rintro ⟨nothing, -⟩
      contradiction

/-- A blob is decoded to a value exactly if it is the header and a layout of the value. -/
theorem decode_eq_ok {h : SnapshotHeader} {fields : SnapshotReader α}
    {layouts : α → List Byte → Prop}
    (accepts : ∀ {c a c'}, fields c = .ok a c' ↔ ∃ bytes, layouts a bytes ∧ c.Consumes bytes c')
    {blob : ByteArray} {a : α} :
    decode h fields blob = .ok a ↔
      ∃ bytes, layouts a bytes ∧ blob.data.toList = Layout.header h ++ bytes := by
  let start : SnapshotCursor := ⟨h.subsystem, blob, 0⟩
  have all : decode h fields blob = .ok a ↔
      ∃ last, (do header h; let value ← fields; finish; return value) start = .ok a last := by
    unfold decode
    dsimp only
    split
    next value last read =>
      rw [read]
      constructor
      · rintro ⟨⟩
        exact ⟨last, rfl⟩
      · rintro ⟨last', ⟨⟩⟩
        rfl
    next e last failed =>
      rw [failed]
      constructor <;> nofun
  have whole : start.rest = blob.data.toList := rfl
  rw [all, ← whole]
  simp only [bind_eq_ok, header_eq_ok, accepts, finish_eq_ok, pure_eq_ok]
  constructor
  · rintro ⟨last, -, opened, opening, value, behind, ⟨bytes, layout, consumes⟩, -, between,
      ⟨nothing, rfl⟩, rfl, rfl⟩
    have found := (consumes_append.2 ⟨opened, opening, consumes⟩).found
    rw [nothing, List.append_nil] at found
    exact ⟨bytes, layout, found⟩
  · rintro ⟨bytes, layout, same⟩
    have next : Layout.header h ++ bytes <+: start.rest := ⟨[], by rw [List.append_nil, same]⟩
    have consumes := SnapshotCursor.consumes_of_prefix next
    have nothing := List.append_right_eq_self.1 (consumes.found.symm.trans same)
    obtain ⟨opened, opening, behind⟩ := consumes_append.1 consumes
    exact ⟨_, (), opened, opening, a, _, ⟨bytes, layout, behind⟩, (), _, ⟨nothing, rfl⟩, rfl, rfl⟩

end SnapshotReader

end ArmConsole
