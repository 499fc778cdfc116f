import ArmConsole.Word

/-!
Why a snapshot is refused. A snapshot is one blob for each subsystem; an error names the
subsystem that it comes from.
-/

namespace ArmConsole

/-- The four bytes that open a blob. -/
abbrev Magic := Vector Byte 4

inductive SnapshotError where
  | badMagic (expected found : Magic)
  | unsupportedVersion (subsystem : String) (expected found : Byte)
  /-- The blob ends `needed` bytes too early. -/
  | truncated (subsystem : String) (needed : Nat)
  /-- `extra` bytes are left over. -/
  | oversized (subsystem : String) (extra : Nat)
  | sizeMismatch (subsystem : String) (expected found : Nat)
  | corrupt (subsystem : String) (reason : String)
  deriving DecidableEq, Inhabited

namespace SnapshotError

def magicText (m : Magic) : String :=
  "[" ++ ", ".intercalate (m.toList.map toString) ++ "]"

def message : SnapshotError → String
  | badMagic expected found =>
    s!"bad magic: expected {magicText expected}, found {magicText found}"
  | unsupportedVersion subsystem expected found =>
    s!"unsupported {subsystem} state version {found} (expected {expected})"
  | truncated subsystem needed => s!"{subsystem} state truncated: needed {needed} more bytes"
  | oversized subsystem extra => s!"{subsystem} state has {extra} trailing bytes"
  | sizeMismatch subsystem expected found =>
    s!"{subsystem} state is {found} bytes, expected {expected}"
  | corrupt subsystem reason => s!"corrupt {subsystem} state: {reason}"

end SnapshotError

end ArmConsole
