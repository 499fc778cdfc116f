import ArmConsole.Expansion.Device

/-!
A device that follows a script, to put behind a bus that is being looked at. It plays a byte
stream, remembers what it is given, and notes everything but questions. A plain one takes no
part in snapshots and does not note that it is plugged in or out.
-/

namespace ArmConsole

structure ScriptedDevice where
  stream : List Byte
  pollByte : Byte
  statusByte : Byte
  /-- How many bytes of the stream go into a snapshot. -/
  extra : Nat
  /-- Whether snapshots are refused. -/
  refuses : Bool
  plain : Bool
  log : Array String
  deriving DecidableEq, Inhabited

namespace ScriptedDevice

def note (d : ScriptedDevice) (text : String) : ScriptedDevice := { d with log := d.log.push text }

/-- Adds a note unless the device is plain. -/
def noteUnlessPlain (d : ScriptedDevice) (text : String) : ScriptedDevice :=
  if d.plain then d else d.note text

def nextData (d : ScriptedDevice) : Byte × ScriptedDevice :=
  match d.stream with
  | [] => (0, d)
  | b :: rest => (b, { d with stream := rest })

/-- Poll, status and the first bytes of the stream, with zeros for those that are missing. -/
def saved (d : ScriptedDevice) : ByteArray :=
  let kept := d.stream.take d.extra
  let missing := List.replicate (d.extra - kept.length) 0
  ⟨(d.pollByte :: d.statusByte :: (kept ++ missing)).toArray⟩

def accept (bytes : ByteArray) (d : ScriptedDevice) : ScriptedDevice :=
  let d := d.note s!"restore {bytes.size}"
  { d with pollByte := bytes.data.getD 0 0, statusByte := bytes.data.getD 1 0 }

instance : ExpansionDevice ScriptedDevice where
  init d := d.noteUnlessPlain "init"
  reset d := { d.note "reset" with pollByte := 0 }
  setCommand b d := d.note s!"command {b}"
  status d := (d.statusByte, d)
  setData b d := { d.note s!"data {b}" with stream := d.stream ++ [b] }
  data := nextData
  poll d := (d.pollByte, d)
  setPoll b d := { d.note s!"poll {b}" with pollByte := b }
  saveSize d := if d.plain then 0 else 2 + d.extra
  save d := if d.plain then .empty else d.saved
  restore bytes := fun d =>
    if d.plain then .ok () d
    else if d.refuses then .error (.corrupt "XBUS" "device refused") d
    else .ok () (d.accept bytes)
  destroy d := d.noteUnlessPlain "destroy"

end ScriptedDevice

end ArmConsole
