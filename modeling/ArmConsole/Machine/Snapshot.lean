import ArmConsole.Machine.Basic
import ArmConsole.Snapshot.Reader

/-!
Snapshots of the processor and its memory. The shadow pages are not part of a blob but made
anew, and a status word whose bits select no mode is refused.
-/

namespace ArmConsole

/-- What a blob holds: a processor between two instructions and the contents of memory. -/
structure ProcessorSnapshot where
  live : Registers
  bank : RegisterBank
  status : StatusWord
  mode : Mode
  fiqLine : Bool
  memoryAbort : Bool
  images : GuestMemory.Images

namespace ProcessorSnapshot

def header : SnapshotHeader where
  subsystem := "ARM60"
  magic := #v['A'.toUInt8, '6'.toUInt8, '0'.toUInt8, 'C'.toUInt8]
  version := 1

def of (p : Processor) (memory : GuestMemory) : ProcessorSnapshot where
  live := p.live
  bank := p.bank
  status := p.status
  mode := p.mode
  fiqLine := p.fiqLine
  memoryAbort := p.memoryAbort
  images := memory.images

def restore (s : ProcessorSnapshot) (p : Processor) (memory : GuestMemory) :
    Processor × GuestMemory :=
  ({ p with
      live := s.live
      bank := s.bank
      status := s.status
      mode := s.mode
      fiqLine := s.fiqLine
      memoryAbort := s.memoryAbort
      stalled := false },
    memory.ofImages s.images)

def writeBank (w : SnapshotWriter) (bank : RegisterBank) : SnapshotWriter :=
  let w := (w.words bank.user).words bank.fiq
  (((w.words bank.irq).words bank.supervisor).words bank.abort).words bank.undefined

def writeImages (w : SnapshotWriter) (images : GuestMemory.Images) : SnapshotWriter :=
  let w := w.byte (.ofNat images.romBank)
  let w := w.bool images.highResolution
  let w := w.chunk images.ram.bytes
  let w := images.roms.foldl (fun w rom => w.chunk rom.bytes) w
  w.chunk images.nvram.bytes

def save (s : ProcessorSnapshot) : ByteArray :=
  let w := (SnapshotWriter.start header).words s.live
  let w := writeBank w s.bank
  let w := w.word s.status.word
  let w := w.words (s.bank.saved.map StatusWord.word)
  let w := (w.bool s.fiqLine).bool s.memoryAbort
  (writeImages w s.images).bytes

/-- Eight hexadecimal digits in lower case. -/
def hexDigits (w : Word) : String :=
  .ofList ([28, 24, 20, 16, 12, 8, 4, 0].map fun low => Nat.digitChar (w.field low 4).toNat)

def readMode (status : StatusWord) : SnapshotReader Mode :=
  match status.mode? with
  | some mode => return mode
  | none => SnapshotReader.corrupt s!"CPSR 0x{hexDigits status.word} has no valid mode"

def readRomBank : SnapshotReader (Fin 2) := do
  let bank ← SnapshotReader.byte
  if h : bank.toNat < 2 then return ⟨bank.toNat, h⟩
  else SnapshotReader.corrupt s!"ROM bank {bank}"

def readImages : SnapshotReader GuestMemory.Images := do
  let romBank ← readRomBank
  let highResolution ← SnapshotReader.bool
  let ram ← SnapshotReader.sizedChunk GuestMemory.ramSize
  let roms ← SnapshotReader.repeated 2 (SnapshotReader.sizedChunk GuestMemory.romSize)
  let nvram ← SnapshotReader.sizedChunk GuestMemory.nvramSize
  return { ram, roms, nvram, romBank, highResolution }

def read : SnapshotReader ProcessorSnapshot := do
  let live ← SnapshotReader.words 16
  let user ← SnapshotReader.words 7
  let fiq ← SnapshotReader.words 7
  let irq ← SnapshotReader.words 2
  let supervisor ← SnapshotReader.words 2
  let abort ← SnapshotReader.words 2
  let undefined ← SnapshotReader.words 2
  let status : StatusWord := ⟨← SnapshotReader.word⟩
  let mode ← readMode status
  let saved ← SnapshotReader.words 5
  let fiqLine ← SnapshotReader.bool
  let memoryAbort ← SnapshotReader.bool
  let images ← readImages
  let bank : RegisterBank :=
    { user, fiq, irq, supervisor, abort, undefined, saved := saved.map StatusWord.mk }
  return { live, bank, status, mode, fiqLine, memoryAbort, images }

def decode (blob : ByteArray) : Except SnapshotError ProcessorSnapshot :=
  SnapshotReader.decode header read blob

end ProcessorSnapshot

namespace Machine

variable {δ : Type}

def saveProcessor (m : Machine δ) : ByteArray :=
  (ProcessorSnapshot.of m.processor m.space.memory).save

def restoreProcessor (m : Machine δ) (s : ProcessorSnapshot) : Machine δ :=
  let ⟨processor, ⟨memory, io⟩, calls, redirects⟩ := m
  let (processor, memory) := s.restore processor memory
  ⟨processor, ⟨memory, io⟩, calls, redirects⟩

end Machine

end ArmConsole
