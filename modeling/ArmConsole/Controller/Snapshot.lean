import ArmConsole.Controller.Basic
import ArmConsole.Snapshot.Reader

/-!
Snapshots of the system controller. The aggregate interrupt bit is not taken from a blob but
made anew.
-/

namespace ArmConsole

namespace StreamChannel

def write (w : SnapshotWriter) (c : StreamChannel) : SnapshotWriter :=
  w.words #v[c.startAddress, c.startLength, c.index, c.nextAddress, c.nextLength]

def read : SnapshotReader StreamChannel := do
  let v ← SnapshotReader.words 5
  return ⟨v[0], v[1], v[2], v[3], v[4]⟩

end StreamChannel

namespace Timers

/-- Each counter is followed by its backup. -/
def write (w : SnapshotWriter) (timers : Timers) : SnapshotWriter :=
  let w := (timers.counter.zip timers.backup).foldl (fun w p => (w.halfWord p.1).halfWord p.2) w
  (w.word (timers.controlWord false)).word (timers.controlWord true)

def read : SnapshotReader Timers := do
  let pairs ← SnapshotReader.repeated 16 do
    let counter ← SnapshotReader.halfWord
    let backup ← SnapshotReader.halfWord
    return (counter, backup)
  let low ← SnapshotReader.word
  let high ← SnapshotReader.word
  return (Timers.mk (pairs.map Prod.fst) (pairs.map Prod.snd) 0).setControl false low
    |>.setControl true high

end Timers

namespace Interrupts

def write (w : SnapshotWriter) (i : Interrupts) : SnapshotWriter :=
  w.words #v[i.primaryPending, i.primaryEnable, i.secondaryPending, i.secondaryEnable]

def read : SnapshotReader Interrupts := do
  return ⟨← SnapshotReader.word, ← SnapshotReader.word, ← SnapshotReader.word,
    ← SnapshotReader.word⟩

end Interrupts

namespace SystemController

def header : SnapshotHeader where
  subsystem := "CLIO"
  magic := #v['C'.toUInt8, 'L'.toUInt8, 'I'.toUInt8, 'O'.toUInt8]
  version := 1

def save (c : SystemController) : ByteArray :=
  let w := ((SnapshotWriter.start header).word 65536).words c.registers
  let w := c.timers.write (c.interrupts.write w)
  let w := c.inputs.foldl StreamChannel.write w
  let w := c.outputs.foldl StreamChannel.write w
  (w.words c.lastWritten).bytes

def read : SnapshotReader SystemController := do
  let count ← SnapshotReader.word
  if count ≠ 65536 then throw (.sizeMismatch header.subsystem 65536 count.toNat)
  let registers ← SnapshotReader.words 65536
  let interrupts ← Interrupts.read
  let timers ← Timers.read
  let inputs ← SnapshotReader.repeated 13 StreamChannel.read
  let outputs ← SnapshotReader.repeated 4 StreamChannel.read
  let lastWritten ← SnapshotReader.words 4
  return { registers, interrupts := interrupts.sync, timers, inputs, outputs, lastWritten }

def decode (blob : ByteArray) : Except SnapshotError SystemController :=
  SnapshotReader.decode header read blob

end SystemController

end ArmConsole
