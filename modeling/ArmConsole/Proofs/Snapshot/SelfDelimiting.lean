import ArmConsole.Proofs.Expansion.Attachment
import ArmConsole.Proofs.Machine.Snapshot
import ArmConsole.Proofs.Snapshot.FieldSequence

/-!
The blobs of all subsystems. Their readers are made of fields, a few of which are checked, and a
check goes by what has been read. Main statement: every blob says where it ends, be it one of any
sequence of fields, of the processor, of the system controller or of the expansion bus.
-/

namespace ArmConsole

open SnapshotReader

namespace ProcessorSnapshot

theorem delimited_readMode (status : StatusWord) : (readMode status).Delimited := by
  unfold readMode
  split
  · exact delimited_pure _
  · exact delimited_error

theorem delimited_readRomBank : readRomBank.Delimited := by
  refine delimited_byte.bind fun bank => ?_
  split
  · exact delimited_pure _
  · exact delimited_error

theorem delimited_readImages : readImages.Delimited := by
  refine delimited_readRomBank.bind fun romBank => ?_
  refine delimited_bool.bind fun highResolution => ?_
  refine (delimited_sizedChunk _).bind fun ram => ?_
  refine ((delimited_sizedChunk _).repeated 2).bind fun roms => ?_
  refine (delimited_sizedChunk _).bind fun nvram => ?_
  exact delimited_pure _

theorem delimited_read : read.Delimited := by
  refine (delimited_words 16).bind fun live => ?_
  refine (delimited_words 7).bind fun user => ?_
  refine (delimited_words 7).bind fun fiq => ?_
  refine (delimited_words 2).bind fun irq => ?_
  refine (delimited_words 2).bind fun supervisor => ?_
  refine (delimited_words 2).bind fun abort => ?_
  refine (delimited_words 2).bind fun undefined => ?_
  refine delimited_word.bind fun status => ?_
  refine (delimited_readMode _).bind fun mode => ?_
  refine (delimited_words 5).bind fun saved => ?_
  refine delimited_bool.bind fun fiqLine => ?_
  refine delimited_bool.bind fun memoryAbort => ?_
  refine delimited_readImages.bind fun images => ?_
  exact delimited_pure _

end ProcessorSnapshot

namespace SystemController

theorem delimited_readTimers : Timers.read.Delimited := by
  have pair : Delimited (do
      let counter ← halfWord
      let backup ← halfWord
      return (counter, backup)) :=
    delimited_halfWord.bind fun _ => delimited_halfWord.bind fun _ => delimited_pure _
  refine (pair.repeated 16).bind fun pairs => ?_
  refine delimited_word.bind fun low => ?_
  refine delimited_word.bind fun high => ?_
  exact delimited_pure _

theorem delimited_readInterrupts : Interrupts.read.Delimited := by
  refine delimited_word.bind fun primaryPending => ?_
  refine delimited_word.bind fun primaryEnable => ?_
  refine delimited_word.bind fun secondaryPending => ?_
  refine delimited_word.bind fun secondaryEnable => ?_
  exact delimited_pure _

theorem delimited_readChannel : StreamChannel.read.Delimited :=
  (delimited_words 5).bind fun _ => delimited_pure _

theorem delimited_read : read.Delimited := by
  refine delimited_word.bind fun count => ?_
  refine Delimited.ite (delimited_throw_bind _ _) ?_
  refine (delimited_words 65536).bind fun registers => ?_
  refine delimited_readInterrupts.bind fun interrupts => ?_
  refine delimited_readTimers.bind fun timers => ?_
  refine (delimited_readChannel.repeated 13).bind fun inputs => ?_
  refine (delimited_readChannel.repeated 4).bind fun outputs => ?_
  refine (delimited_words 4).bind fun lastWritten => ?_
  exact delimited_pure _

end SystemController

variable {δ : Type} [ExpansionDevice δ]

namespace ExpansionBus

theorem delimited_readSlot (number : Nat) (slot : Option δ) : (readSlot number slot).Delimited := by
  refine delimited_bool.bind fun present => ?_
  cases present <;> cases slot
  · exact delimited_pure _
  · exact delimited_error
  · exact delimited_error
  · exact (delimited_sizedChunk _).bind fun _ => delimited_pure _

theorem delimited_readSlots (number : Nat) (slots : List (Option δ)) :
    (readSlots number slots).Delimited := by
  induction slots generalizing number with
  | nil => exact delimited_pure _
  | cons slot slots ih =>
    refine (delimited_readSlot number slot).bind fun entry => ?_
    refine (ih (number + 1)).bind fun entries => ?_
    exact delimited_pure _

theorem delimited_readSaved (bus : ExpansionBus δ) : bus.readSaved.Delimited := by
  refine delimited_word.bind fun select => ?_
  refine delimited_byte.bind fun count => ?_
  refine Delimited.ite delimited_error ?_
  refine (delimited_readSlots 0 _).bind fun slots => ?_
  exact delimited_pure _

end ExpansionBus

/-- Any fields are read back as they were written, behind any header. What is accepted as fields of
some types, as a processor, as a controller or for the devices of a bus, is truncated when it is cut
anywhere and has bytes left over when it is continued. -/
theorem blobs_self_delimiting :
    (∀ (h : SnapshotHeader) (fields : List SnapshotField), (∀ field ∈ fields, field.Fits) →
      decode h (SnapshotField.readAll (fields.map SnapshotField.kind))
        (SnapshotField.save h fields) = .ok fields) ∧
    (∀ (h : SnapshotHeader) (kinds : List SnapshotField.Kind),
      SelfDelimiting h.subsystem (decode h (SnapshotField.readAll kinds))) ∧
    SelfDelimiting "ARM60" ProcessorSnapshot.decode ∧
    SelfDelimiting "CLIO" SystemController.decode ∧
    ∀ bus : ExpansionBus δ, SelfDelimiting "XBUS" bus.decode := by
  refine ⟨fun h fields fit => SnapshotField.decode_save h fit, fun h kinds => ?_, ?_, ?_, ?_⟩
  · exact (SnapshotField.delimited_readAll kinds).selfDelimiting h
  · exact ProcessorSnapshot.delimited_read.selfDelimiting ProcessorSnapshot.header
  · exact SystemController.delimited_read.selfDelimiting SystemController.header
  · exact fun bus => bus.delimited_readSaved.selfDelimiting ExpansionBus.header

/-- The blob of a bus with devices in slots 2 and 7, up to the second byte of the first device. -/
def sparseFront : ByteArray := ⟨#[88, 66, 85, 83, 1, 7, 0, 0, 0, 15, 0, 0, 1, 5, 0, 0, 0, 1, 2]⟩

/-- What follows in that blob: three bytes more of the first device, and the other slots. -/
def sparseTail : ByteArray :=
  ⟨#[0, 0, 0, 0, 0, 0, 0, 1, 5, 0, 0, 0, 2, 1, 0, 0, 0, 0, 0, 0, 0, 0, 0, 0]⟩

/-- A few fields are read back; the blob of a bus with two devices is truncated when it is cut
within the chunk of the first, and too long with one byte more. -/
theorem blobs_self_delimiting_sparse :
    let header : SnapshotHeader := ⟨"test", #v[84, 69, 83, 84], 3⟩
    let fields : List SnapshotField :=
      [.word 0xDEADBEEF, .bool true, .halfWord 0x1234, .words #v[1, 2], .chunk ⟨#[1, 2, 3]⟩]
    let bus := ExpansionBus.sparse 1 2
    (∀ field ∈ fields, field.Fits) ∧
      decode header (SnapshotField.readAll (fields.map SnapshotField.kind))
        (SnapshotField.save header fields) = .ok fields ∧
      bus.decode bus.save = .ok bus.saved ∧ bus.save = sparseFront ++ sparseTail ∧
      (∃ needed, 0 < needed ∧ needed ≤ sparseTail.size ∧
        bus.decode sparseFront = .error (.truncated "XBUS" needed)) ∧
      bus.decode (bus.save ++ ⟨#[7]⟩) = .error (.oversized "XBUS" 1) := by
  intro header fields bus
  have fit : ∀ field ∈ fields, field.Fits := by
    simp only [fields, List.forall_mem_cons]
    exact ⟨trivial, trivial, trivial, trivial, (by decide : 3 < 2 ^ 32), nofun⟩
  obtain ⟨fieldsRead, -, -, -, whole⟩ := blobs_self_delimiting (δ := ScriptedDevice)
  have accepted : bus.decode bus.save = .ok bus.saved := by
    refine ExpansionBus.decode_save (ExpansionBus.fits_iff.2 fun i => ?_)
    rw [ExpansionBus.slot_sparse]
    split_ifs
    · exact .occupied rfl (by decide)
    · exact .occupied rfl (by decide)
    · exact .vacant
  obtain ⟨front, longer⟩ := whole bus accepted
  have split : bus.save = sparseFront ++ sparseTail := by decide
  exact ⟨fit, fieldsRead header fields fit, accepted, split, front _ _ split (by decide),
    longer ⟨#[7]⟩ (by decide)⟩

end ArmConsole
