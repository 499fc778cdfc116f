import ArmConsole.Proofs.Snapshot.Delimited

/-!
Sequences of fields, written one after the other and read back by their types. Main statement: a
blob of any fields is decoded to them, whatever its header.
-/

namespace ArmConsole

/-- A value as a writer takes it and a reader yields it. -/
inductive SnapshotField where
  | byte (v : Byte)
  | halfWord (v : HalfWord)
  | word (v : Word)
  | bool (v : Bool)
  | words {n : Nat} (vs : Vector Word n)
  | chunk (data : ByteArray)

namespace SnapshotField

inductive Kind where
  | byte
  | halfWord
  | word
  | bool
  | words (n : Nat)
  | chunk

def kind : SnapshotField → Kind
  | byte _ => .byte
  | halfWord _ => .halfWord
  | word _ => .word
  | bool _ => .bool
  | @words n _ => .words n
  | chunk _ => .chunk

def write (w : SnapshotWriter) : SnapshotField → SnapshotWriter
  | byte v => w.byte v
  | halfWord v => w.halfWord v
  | word v => w.word v
  | bool v => w.bool v
  | words vs => w.words vs
  | chunk data => w.chunk data

def Kind.read : Kind → SnapshotReader SnapshotField
  | byte => return .byte (← SnapshotReader.byte)
  | halfWord => return .halfWord (← SnapshotReader.halfWord)
  | word => return .word (← SnapshotReader.word)
  | bool => return .bool (← SnapshotReader.bool)
  | words n => return .words (← SnapshotReader.words n)
  | chunk => return .chunk (← SnapshotReader.chunk)

def readAll : List Kind → SnapshotReader (List SnapshotField)
  | [] => return []
  | k :: ks => do
    let field ← k.read
    return field :: (← readAll ks)

/-- The blob of some fields. -/
def save (h : SnapshotHeader) (fields : List SnapshotField) : ByteArray :=
  (fields.foldl write (.start h)).bytes

/-- A chunk is shorter than its length can say. -/
def Fits : SnapshotField → Prop
  | chunk data => data.size < 2 ^ 32
  | _ => True

def layout : SnapshotField → List Byte
  | byte v => [v]
  | halfWord v => v.littleEndian
  | word v => v.littleEndian
  | bool v => [v.toUInt8]
  | words vs => Layout.words vs
  | chunk data => Layout.chunk data

theorem written_write (w : SnapshotWriter) (field : SnapshotField) :
    (write w field).written = w.written ++ field.layout := by
  cases field with
  | byte v => exact w.written_byte v
  | halfWord v => exact w.written_halfWord v
  | word v => exact w.written_word v
  | bool v => exact w.written_bool v
  | words vs => exact w.written_words vs
  | chunk data => exact w.written_chunk data

theorem save_toList (h : SnapshotHeader) (fields : List SnapshotField) :
    (save h fields).data.toList = Layout.header h ++ fields.flatMap layout := by
  change SnapshotWriter.written _ = _
  rw [SnapshotWriter.written_foldlList written_write, SnapshotWriter.written_start]

open SnapshotReader

/-! ### Reading back -/

theorem delimited_read (k : Kind) : k.read.Delimited := by
  cases k with
  | byte => exact delimited_byte.bind fun _ => delimited_pure _
  | halfWord => exact delimited_halfWord.bind fun _ => delimited_pure _
  | word => exact delimited_word.bind fun _ => delimited_pure _
  | bool => exact delimited_bool.bind fun _ => delimited_pure _
  | words n => exact (delimited_words n).bind fun _ => delimited_pure _
  | chunk => exact delimited_chunk.bind fun _ => delimited_pure _

theorem delimited_readAll (ks : List Kind) : (readAll ks).Delimited := by
  induction ks with
  | nil => exact delimited_pure _
  | cons k ks ih => exact (delimited_read k).bind fun _ => ih.bind fun _ => delimited_pure _

variable {c c' : SnapshotCursor}

theorem map_eq_ok {α : Type} {r : SnapshotReader α} {f : α → SnapshotField}
    (injective : Function.Injective f) {a : α} :
    (r >>= fun a => pure (f a)) c = .ok (f a) c' ↔ r c = .ok a c' := by
  simp only [bind_eq_ok, pure_eq_ok]
  constructor
  · rintro ⟨a', between, read, same, rfl⟩
    rwa [← injective same]
  · intro read
    exact ⟨a, c', read, rfl, rfl⟩

theorem read_eq_ok {field : SnapshotField} (fits : field.Fits) :
    field.kind.read c = .ok field c' ↔ c.Consumes field.layout c' := by
  cases field with
  | byte v => exact (map_eq_ok fun _ _ => byte.inj).trans byte_eq_ok
  | halfWord v => exact (map_eq_ok fun _ _ => halfWord.inj).trans halfWord_eq_ok
  | word v => exact (map_eq_ok fun _ _ => word.inj).trans word_eq_ok
  | bool v => exact (map_eq_ok fun _ _ => bool.inj).trans bool_eq_ok
  | words vs =>
    refine (map_eq_ok ?_).trans words_eq_ok
    rintro _ _ ⟨⟩
    rfl
  | chunk data =>
    rw [kind, Kind.read, map_eq_ok fun _ _ => chunk.inj, chunk_eq_ok]
    exact and_iff_right fits

theorem recognizes_readAll {fields : List SnapshotField} (fit : ∀ field ∈ fields, field.Fits) :
    (readAll (fields.map kind)).Recognizes (fields.flatMap layout) fields := by
  induction fields with
  | nil => exact recognizes_pure []
  | cons field fields ih =>
    obtain ⟨fits, others⟩ := List.forall_mem_cons.1 fit
    have first := (delimited_read field.kind).recognizes (read_eq_ok fits)
    have rest := (ih others).bind (f := fun rest => pure (field :: rest)) (recognizes_pure _)
    rw [List.append_nil] at rest
    exact first.bind (f := fun field => readAll (fields.map kind) >>= fun rest =>
      pure (field :: rest)) rest

theorem decode_save (h : SnapshotHeader) {fields : List SnapshotField}
    (fit : ∀ field ∈ fields, field.Fits) :
    decode h (readAll (fields.map kind)) (save h fields) = .ok fields := by
  have header := (delimited_header h).recognizes (a := ()) header_eq_ok
  have all := header.bind (f := fun _ => readAll (fields.map kind)) (recognizes_readAll fit)
  rw [← save_toList] at all
  exact all.decode_eq_ok

end SnapshotField

end ArmConsole
