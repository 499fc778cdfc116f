import ArmConsole.Expansion.Device
import ArmConsole.Snapshot.Reader

/-!
The expansion bus. Fifteen slots hold devices; the select register says which one the poll,
status, command and data registers reach. A selected slot without a device reads as 0. The
select register has four bits, so one of its values selects no slot at all.
-/

namespace ArmConsole

structure ExpansionBus (δ : Type) where
  slots : Vector (Option δ) 15
  select : Word

namespace ExpansionBus

variable {δ : Type}

def empty : ExpansionBus δ := ⟨.replicate 15 none, 0⟩

instance : Inhabited (ExpansionBus δ) := ⟨empty⟩

def selected? (bus : ExpansionBus δ) : Option (Fin 15) :=
  if h : bus.select.toNat < 15 then some ⟨bus.select.toNat, h⟩ else none

@[inline] def slot (bus : ExpansionBus δ) (i : Fin 15) : Option δ := bus.slots[i]

/-- Another device, or none, in a slot. -/
@[inline] def withSlot (bus : ExpansionBus δ) (i : Fin 15) (device : Option δ) : ExpansionBus δ :=
  { bus with slots := bus.slots.set i device }

/-- Asks the device in a slot; the answer of an empty slot is `default`. -/
def askSlot {α : Type} [Inhabited α] (bus : ExpansionBus δ) (slot : Fin 15) (f : δ → α × δ) :
    α × ExpansionBus δ :=
  match bus.slot slot with
  | some device =>
    let (answer, device) := f device
    (answer, bus.withSlot slot (some device))
  | none => (default, bus)

def ask (bus : ExpansionBus δ) (f : δ → Byte × δ) : Byte × ExpansionBus δ :=
  match bus.selected? with
  | some slot => bus.askSlot slot f
  | none => (0, bus)

def tell (bus : ExpansionBus δ) (f : δ → δ) : ExpansionBus δ :=
  (bus.ask fun device => (0, f device)).2

variable [ExpansionDevice δ]

/-- Plugs a device into the first free slot. -/
def attach (bus : ExpansionBus δ) (device : δ) : Option (Fin 15 × ExpansionBus δ) :=
  ((List.finRange 15).find? fun slot => (bus.slot slot).isNone).map fun slot =>
    (slot, bus.withSlot slot (some (ExpansionDevice.init device)))

def detach (bus : ExpansionBus δ) (slot : Nat) : Option (δ × ExpansionBus δ) :=
  if h : slot < 15 then
    (bus.slot ⟨slot, h⟩).map fun device =>
      (ExpansionDevice.destroy device, bus.withSlot ⟨slot, h⟩ none)
  else none

/-- Selects slot 0 and resets every device. -/
def reset (bus : ExpansionBus δ) : ExpansionBus δ where
  slots := bus.slots.map (Option.map ExpansionDevice.reset)
  select := 0

def data (bus : ExpansionBus δ) : Byte × ExpansionBus δ := bus.ask ExpansionDevice.data

def read (bus : ExpansionBus δ) (offset : Word) : Word × ExpansionBus δ :=
  let answer (f : δ → Byte × δ) : Word × ExpansionBus δ :=
    let (b, bus) := bus.ask f
    (b.toUInt32, bus)
  match offset &&& 0xFF0 with
  | 0x580 => (bus.select, bus)
  | 0x590 => answer ExpansionDevice.poll
  | 0x5A0 => answer ExpansionDevice.status
  | 0x5B0 => answer ExpansionDevice.data
  | _ => (0, bus)

def write (bus : ExpansionBus δ) (offset value : Word) : ExpansionBus δ :=
  match offset &&& 0xFF0 with
  | 0x580 => { bus with select := value &&& 0xF }
  | 0x590 => bus.tell (ExpansionDevice.setPoll value.toUInt8)
  | 0x5A0 => bus.tell (ExpansionDevice.setCommand value.toUInt8)
  | 0x5B0 => bus.tell (ExpansionDevice.setData value.toUInt8)
  | _ => bus

/-- A device asks for attention if one of its ready bits 3 to 0 is set together with the enable
bit four places above it. -/
def requestsAttention (poll : Byte) : Bool := (poll >>> 4) &&& poll &&& 0xF != 0

/-- Polls the devices in turn until one asks for attention. -/
def attentionNeeded (bus : ExpansionBus δ) : Bool × ExpansionBus δ :=
  (List.finRange 15).foldl
    (fun (found, bus) slot =>
      if found then (found, bus)
      else
        let (poll, bus) := bus.askSlot slot ExpansionDevice.poll
        (requestsAttention poll, bus))
    (false, bus)

/-! ### Snapshots -/

def header : SnapshotHeader where
  subsystem := "XBUS"
  magic := #v['X'.toUInt8, 'B'.toUInt8, 'U'.toUInt8, 'S'.toUInt8]
  version := 1

/-- A slot is written as whether it holds a device, and the device's bytes. -/
def writeSlot (w : SnapshotWriter) (slot : Option δ) : SnapshotWriter :=
  match slot with
  | some device => (w.bool true).chunk (ExpansionDevice.save device)
  | none => w.bool false

def save (bus : ExpansionBus δ) : ByteArray :=
  let w := ((SnapshotWriter.start header).word bus.select).byte 15
  (bus.slots.foldl writeSlot w).bytes

/-- What a blob says about a bus: the selection and the bytes for each device. -/
structure Saved where
  select : Word
  /-- One entry for each slot. -/
  slots : List (Option ByteArray)

/-- Reads the entry of slot `number`, which must hold a device if the blob says so. -/
def readSlot (number : Nat) (slot : Option δ) : SnapshotReader (Option ByteArray) := do
  let present ← SnapshotReader.bool
  match present, slot with
  | true, some device => do
    let block ← SnapshotReader.sizedChunk (ExpansionDevice.saveSize device)
    return some block.bytes
  | false, none => return none
  | _, _ => SnapshotReader.corrupt s!"slot {number} attachment differs"

/-- Reads the entries of slots from slot `number` on. -/
def readSlots (number : Nat) : List (Option δ) → SnapshotReader (List (Option ByteArray))
  | [] => return []
  | slot :: slots => do
    let entry ← readSlot number slot
    return entry :: (← readSlots (number + 1) slots)

def readSaved (bus : ExpansionBus δ) : SnapshotReader Saved := do
  let select ← SnapshotReader.word
  let count ← SnapshotReader.byte
  if count ≠ 15 then SnapshotReader.corrupt s!"{count} slots"
  else
    let slots ← readSlots 0 bus.slots.toList
    return { select, slots }

def decode (bus : ExpansionBus δ) (blob : ByteArray) : Except SnapshotError Saved :=
  SnapshotReader.decode header bus.readSaved blob

/-- Gives the device of a slot its bytes back. -/
def restoreSlot (slot : Fin 15) (entry : Option ByteArray) :
    EStateM SnapshotError (ExpansionBus δ) Unit := fun bus =>
  match bus.slot slot, entry with
  | some device, some bytes =>
    match ExpansionDevice.restore bytes device with
    | .ok _ device => .ok () (bus.withSlot slot (some device))
    | .error e device => .error e (bus.withSlot slot (some device))
  | _, _ => .ok () bus

/-- Takes over a selection and gives every device its bytes back, in order, until one refuses. -/
def apply (saved : Saved) : EStateM SnapshotError (ExpansionBus δ) Unit := do
  modify fun bus => { bus with select := saved.select }
  ((List.finRange 15).zip saved.slots).forM fun (slot, entry) => restoreSlot slot entry

/-- Restores a bus from a blob. A blob that does not fit changes nothing. -/
def restore (blob : ByteArray) : EStateM SnapshotError (ExpansionBus δ) Unit := do
  match decode (← get) blob with
  | .ok saved => apply saved
  | .error e => throw e

end ExpansionBus

end ArmConsole
