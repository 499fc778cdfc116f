import ArmConsole.Snapshot.Error

/-!
What a device on the expansion bus can be asked. Every answer may change the device. A device
says how many bytes its snapshot takes and takes as many back; it may refuse them.
-/

namespace ArmConsole

class ExpansionDevice (δ : Type) where
  /-- The device has been plugged in. -/
  init : δ → δ := id
  reset : δ → δ
  setCommand : Byte → δ → δ
  status : δ → Byte × δ
  setData : Byte → δ → δ
  /-- The next byte of the device's stream. -/
  data : δ → Byte × δ
  poll : δ → Byte × δ
  setPoll : Byte → δ → δ
  saveSize : δ → Nat := fun _ => 0
  save : δ → ByteArray := fun _ => .empty
  /-- Takes back `saveSize` bytes. A device that refuses may have changed. -/
  restore : ByteArray → EStateM SnapshotError δ Unit := fun _ => pure ()
  /-- The device has been unplugged. -/
  destroy : δ → δ := id

end ArmConsole
