import ArmConsole.Proofs.Word
import ArmConsole.Snapshot.Writer

/-!
The layout of blobs. A layout is the list of bytes that stands for a value, and every operation
of a writer puts the layout of its value behind what has been written.
-/

namespace ArmConsole

namespace Layout

def words {n : Nat} (vs : Vector Word n) : List Byte := vs.toList.flatMap Word.littleEndian

/-- A length and as many bytes. -/
def chunk (data : ByteArray) : List Byte :=
  Word.littleEndian (.ofNat data.size) ++ data.data.toList

/-- What opens a blob. -/
def header (h : SnapshotHeader) : List Byte := h.magic.toList ++ [h.version]

theorem length_words {n : Nat} (vs : Vector Word n) : (words vs).length = 4 * n := by
  simp [words, List.length_flatMap, Word.littleEndian, List.map_const', Nat.mul_comm]

end Layout

namespace SnapshotWriter

def written (w : SnapshotWriter) : List Byte := w.bytes.data.toList

@[simp] theorem written_byte (w : SnapshotWriter) (v : Byte) :
    (w.byte v).written = w.written ++ [v] := Array.toList_push

@[simp] theorem written_bool (w : SnapshotWriter) (v : Bool) :
    (w.bool v).written = w.written ++ [v.toUInt8] := w.written_byte _

@[simp] theorem written_halfWord (w : SnapshotWriter) (v : HalfWord) :
    (w.halfWord v).written = w.written ++ v.littleEndian := by
  simp [halfWord, HalfWord.littleEndian, HalfWord.byte0, HalfWord.byte1]

@[simp] theorem written_word (w : SnapshotWriter) (v : Word) :
    (w.word v).written = w.written ++ v.littleEndian := by
  simp [word, Word.littleEndian, Word.byte0, Word.byte1, Word.byte2, Word.byte3]

@[simp] theorem written_append (w : SnapshotWriter) (data : ByteArray) :
    (w.append data).written = w.written ++ data.data.toList := by
  simp [append, written]

@[simp] theorem written_chunk (w : SnapshotWriter) (data : ByteArray) :
    (w.chunk data).written = w.written ++ Layout.chunk data := by
  simp [chunk, Layout.chunk]

section Sequence

variable {α : Type} {write : SnapshotWriter → α → SnapshotWriter} {layout : α → List Byte}
  (step : ∀ w a, (write w a).written = w.written ++ layout a)

include step

/-- Values written one after the other lie one behind the other. -/
theorem written_foldlList (w : SnapshotWriter) (as : List α) :
    (as.foldl write w).written = w.written ++ as.flatMap layout := by
  induction as generalizing w with
  | nil => simp
  | cons a as ih => rw [List.foldl_cons, ih, step, List.flatMap_cons, List.append_assoc]

theorem written_foldl {n : Nat} (w : SnapshotWriter) (as : Vector α n) :
    (as.foldl write w).written = w.written ++ as.toList.flatMap layout := by
  rw [← Vector.foldl_toList]
  exact written_foldlList step w as.toList

end Sequence

@[simp] theorem written_words {n : Nat} (w : SnapshotWriter) (vs : Vector Word n) :
    (w.words vs).written = w.written ++ Layout.words vs := written_foldl written_word w vs

@[simp] theorem written_start (h : SnapshotHeader) : (start h).written = Layout.header h := by
  have magic := written_foldl written_byte ⟨.empty⟩ h.magic
  rw [start, written_byte, magic, List.flatMap_singleton']
  rfl

end SnapshotWriter

end ArmConsole
