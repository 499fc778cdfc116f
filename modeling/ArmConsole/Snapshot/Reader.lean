import ArmConsole.Snapshot.Writer

/-!
Reading blobs. A reader yields the next field and moves on, or fails. A failure is also a state
of the reader: it stands where the failing field left it, and reading may go on from there.
-/

namespace ArmConsole

/-- A blob and how much of it has been read. -/
structure SnapshotCursor where
  subsystem : String
  data : ByteArray
  position : Nat

/-- Reads one or more fields. -/
abbrev SnapshotReader := EStateM SnapshotError SnapshotCursor

namespace SnapshotCursor

def remaining (c : SnapshotCursor) : Nat := c.data.size - c.position

/-- The next `n` bytes, if there are so many. -/
def take? (c : SnapshotCursor) (n : Nat) : Option (Block n) :=
  if h : n ≤ c.remaining then
    some
      { bytes := c.data.extract c.position (c.position + n)
        size_bytes := by
          unfold remaining at h
          rw [ByteArray.size_extract]
          omega }
  else none

end SnapshotCursor

namespace SnapshotReader

/-- The next `n` bytes. Nothing is consumed if there are fewer. -/
def take (n : Nat) : SnapshotReader (Block n) := fun c =>
  match c.take? n with
  | some block => .ok block { c with position := c.position + n }
  | none => .error (.truncated c.subsystem (n - c.remaining)) c

/-- Refuses the blob. -/
def corrupt {α : Type} (reason : String) : SnapshotReader α := fun c =>
  .error (.corrupt c.subsystem reason) c

def byte : SnapshotReader Byte := do
  let b ← take 1
  return b[0]

/-- A byte that is 0 or 1. -/
def bool : SnapshotReader Bool := do
  let b ← byte
  if b = 0 then return false
  else if b = 1 then return true
  else corrupt s!"boolean byte {b}"

def halfWord : SnapshotReader HalfWord := do
  let b ← take 2
  let low := getElem b 0 Nat.zero_lt_two
  let high := getElem b 1 Nat.one_lt_two
  return low.toUInt16 ||| (high.toUInt16 <<< 8)

def word : SnapshotReader Word := do
  let b ← take 4
  return .ofBytes b[3] b[2] b[1] b[0]

/-- Reads `count` values behind those in `seen`. -/
def repeatFrom {α : Type} {m n : Nat} (read : SnapshotReader α) (seen : Vector α m) (count : Nat)
    (h : m + count = n) : SnapshotReader (Vector α n) :=
  match count with
  | 0 => return seen.cast h
  | count + 1 => do
    let value ← read
    repeatFrom read (seen.push value) count (by omega)

def repeated {α : Type} (n : Nat) (read : SnapshotReader α) : SnapshotReader (Vector α n) :=
  repeatFrom read #v[] n (by omega)

def words (n : Nat) : SnapshotReader (Vector Word n) := repeated n word

/-- A chunk of whatever length it says. -/
def chunk : SnapshotReader ByteArray := do
  let length ← word
  let block ← take length.toNat
  return block.bytes

/-- A chunk that must have `n` bytes. -/
def sizedChunk (n : Nat) : SnapshotReader (Block n) := do
  let found ← word
  if found.toNat = n then take n
  else fun c => .error (.sizeMismatch c.subsystem n found.toNat) c

def finish : SnapshotReader Unit := fun c =>
  if c.remaining = 0 then .ok () c else .error (.oversized c.subsystem c.remaining) c

def header (h : SnapshotHeader) : SnapshotReader Unit := do
  let magic ← take 4
  let found : Magic := #v[magic[0], magic[1], magic[2], magic[3]]
  if found ≠ h.magic then throw (.badMagic h.magic found)
  let version ← byte
  if version ≠ h.version then throw (.unsupportedVersion h.subsystem h.version version)

/-- Reads a whole blob: header, fields and nothing else. -/
def decode {α : Type} (h : SnapshotHeader) (fields : SnapshotReader α) (blob : ByteArray) :
    Except SnapshotError α :=
  let all : SnapshotReader α := do
    header h
    let value ← fields
    finish
    return value
  match all ⟨h.subsystem, blob, 0⟩ with
  | .ok value _ => .ok value
  | .error e _ => .error e

end SnapshotReader

end ArmConsole
