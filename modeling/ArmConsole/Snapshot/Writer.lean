import ArmConsole.Memory.Block
import ArmConsole.Snapshot.Error

/-!
Writing blobs. A blob is a magic, a version and fields in a fixed order. Numbers are
little-endian, whatever the byte order of the machine, and a chunk carries its length in front.
-/

namespace ArmConsole

/-- What opens the blob of a subsystem. -/
structure SnapshotHeader where
  subsystem : String
  magic : Magic
  version : Byte

structure SnapshotWriter where
  bytes : ByteArray

namespace SnapshotWriter

def byte (w : SnapshotWriter) (v : Byte) : SnapshotWriter := ⟨w.bytes.push v⟩

def bool (w : SnapshotWriter) (v : Bool) : SnapshotWriter := w.byte v.toUInt8

def halfWord (w : SnapshotWriter) (v : HalfWord) : SnapshotWriter :=
  (w.byte v.toUInt8).byte (v >>> 8).toUInt8

def word (w : SnapshotWriter) (v : Word) : SnapshotWriter :=
  (((w.byte v.toUInt8).byte (v >>> 8).toUInt8).byte (v >>> 16).toUInt8).byte (v >>> 24).toUInt8

def words {n : Nat} (w : SnapshotWriter) (vs : Vector Word n) : SnapshotWriter := vs.foldl word w

def append (w : SnapshotWriter) (data : ByteArray) : SnapshotWriter := ⟨w.bytes ++ data⟩

/-- A length, as a word, and as many bytes. -/
def chunk (w : SnapshotWriter) (data : ByteArray) : SnapshotWriter :=
  (w.word (.ofNat data.size)).append data

/-- A blob with nothing but its header. -/
def start (h : SnapshotHeader) : SnapshotWriter :=
  (h.magic.foldl byte ⟨.empty⟩).byte h.version

end SnapshotWriter

end ArmConsole
