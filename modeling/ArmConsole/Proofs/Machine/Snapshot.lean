import ArmConsole.Machine.Snapshot
import ArmConsole.Proofs.Memory.Shadows
import ArmConsole.Proofs.Processor.Change
import ArmConsole.Proofs.Snapshot.Fields

/-!
Snapshots of the processor and its memory. Main statements: a blob is accepted exactly if it is
the one that its contents are written as and its status word selects the mode, and a machine given
the contents of another takes over everything but the peripherals and the services.
-/

namespace ArmConsole

namespace ProcessorSnapshot

open SnapshotReader
open SnapshotCursor (consumes_append)

/-! ### Layout -/

def bankLayout (bank : RegisterBank) : List Byte :=
  Layout.words bank.user ++ (Layout.words bank.fiq ++ (Layout.words bank.irq ++
    (Layout.words bank.supervisor ++ (Layout.words bank.abort ++ Layout.words bank.undefined))))

def imagesLayout (images : GuestMemory.Images) : List Byte :=
  [.ofNat images.romBank] ++ ([images.highResolution.toUInt8] ++ (Layout.chunk images.ram.bytes ++
    (images.roms.toList.flatMap (fun rom => Layout.chunk rom.bytes) ++
      Layout.chunk images.nvram.bytes)))

/-- The bytes behind the header. -/
def layout (s : ProcessorSnapshot) : List Byte :=
  Layout.words s.live ++ (bankLayout s.bank ++ (s.status.word.littleEndian ++
    (Layout.words (s.bank.saved.map StatusWord.word) ++ ([s.fiqLine.toUInt8] ++
      ([s.memoryAbort.toUInt8] ++ imagesLayout s.images)))))

theorem save_toList (s : ProcessorSnapshot) :
    s.save.data.toList = Layout.header header ++ s.layout := by
  have roms (w : SnapshotWriter) := w.written_foldl
    (fun w (rom : Block GuestMemory.romSize) => w.written_chunk rom.bytes) s.images.roms
  change (writeImages _ s.images).written = _
  simp only [writeImages, writeBank, SnapshotWriter.written_chunk, SnapshotWriter.written_bool,
    SnapshotWriter.written_byte, SnapshotWriter.written_words, SnapshotWriter.written_word,
    SnapshotWriter.written_start, roms, layout, bankLayout, imagesLayout, List.append_assoc]

variable {c c' : SnapshotCursor}

theorem readMode_eq_ok {status : StatusWord} {mode : Mode} :
    readMode status c = .ok mode c' ↔ status.mode? = some mode ∧ c = c' := by
  unfold readMode
  cases status.mode? with
  | some found => rw [pure_eq_ok, Option.some.injEq]
  | none => constructor <;> nofun

theorem readRomBank_eq_ok {bank : Fin 2} :
    readRomBank c = .ok bank c' ↔ c.Consumes [.ofNat bank] c' := by
  simp only [readRomBank, bind_eq_ok, byte_eq_ok]
  constructor
  · rintro ⟨b, between, consumes, read⟩
    split at read
    next small =>
      obtain ⟨rfl, rfl⟩ := pure_eq_ok.1 read
      rwa [UInt8.ofNat_toNat]
    next => exact absurd read corrupt_ne_ok
  · intro consumes
    refine ⟨_, c', consumes, ?_⟩
    obtain rfl | rfl : bank = 0 ∨ bank = 1 := by omega
    · rfl
    · rfl

theorem readImages_eq_ok {images : GuestMemory.Images} :
    readImages c = .ok images c' ↔ c.Consumes (imagesLayout images) c' := by
  have ram {c c'} {b : Block GuestMemory.ramSize} :
      sizedChunk GuestMemory.ramSize c = .ok b c' ↔ c.Consumes (Layout.chunk b.bytes) c' :=
    sizedChunk_eq_ok_of_lt (by decide)
  have roms {c c'} {bs : Vector (Block GuestMemory.romSize) 2} :
      repeated 2 (sizedChunk GuestMemory.romSize) c = .ok bs c' ↔
        c.Consumes (bs.toList.flatMap fun b => Layout.chunk b.bytes) c' :=
    repeated_eq_ok (sizedChunk_eq_ok_of_lt (by decide))
  have nvram {c c'} {b : Block GuestMemory.nvramSize} :
      sizedChunk GuestMemory.nvramSize c = .ok b c' ↔ c.Consumes (Layout.chunk b.bytes) c' :=
    sizedChunk_eq_ok_of_lt (by decide)
  simp only [readImages, imagesLayout, bind_eq_ok, readRomBank_eq_ok, bool_eq_ok, ram, roms, nvram,
    consumes_append, pure_eq_ok]
  constructor
  · rintro ⟨romBank, c₁, bankRead, highResolution, c₂, resolutionRead, ram, c₃, ramRead, roms, c₄,
      romsRead, nvram, c₅, nvramRead, rfl, rfl⟩
    exact ⟨c₁, bankRead, c₂, resolutionRead, c₃, ramRead, c₄, romsRead, nvramRead⟩
  · rintro ⟨c₁, bankRead, c₂, resolutionRead, c₃, ramRead, c₄, romsRead, nvramRead⟩
    exact ⟨_, c₁, bankRead, _, c₂, resolutionRead, _, c₃, ramRead, _, c₄, romsRead, _, c',
      nvramRead, rfl, rfl⟩

theorem read_eq_ok {s : ProcessorSnapshot} :
    read c = .ok s c' ↔ s.status.mode? = some s.mode ∧ c.Consumes s.layout c' := by
  simp only [read, layout, bankLayout, bind_eq_ok, words_eq_ok, word_eq_ok, bool_eq_ok,
    readMode_eq_ok, readImages_eq_ok, consumes_append, pure_eq_ok, List.append_assoc]
  constructor
  · rintro ⟨live, c₁, liveRead, user, c₂, userRead, fiq, c₃, fiqRead, irq, c₄, irqRead, supervisor,
      c₅, supervisorRead, abort, c₆, abortRead, undefined, c₇, undefinedRead, word, c₈, wordRead,
      mode, _, ⟨selected, rfl⟩, saved, c₉, savedRead, fiqLine, c₁₀, fiqLineRead, memoryAbort, c₁₁,
      memoryAbortRead, images, c₁₂, imagesRead, rfl, rfl⟩
    have words : (saved.map StatusWord.mk).map StatusWord.word = saved :=
      Vector.map_map.trans (Vector.map_id saved)
    rw [← words] at savedRead
    exact ⟨selected, c₁, liveRead, c₂, userRead, c₃, fiqRead, c₄, irqRead, c₅, supervisorRead, c₆,
      abortRead, c₇, undefinedRead, _, wordRead, c₉, savedRead, c₁₀, fiqLineRead, c₁₁,
      memoryAbortRead, imagesRead⟩
  · rintro ⟨selected, c₁, liveRead, c₂, userRead, c₃, fiqRead, c₄, irqRead, c₅, supervisorRead, c₆,
      abortRead, c₇, undefinedRead, c₈, wordRead, c₉, savedRead, c₁₀, fiqLineRead, c₁₁,
      memoryAbortRead, imagesRead⟩
    have statuses : (s.bank.saved.map StatusWord.word).map StatusWord.mk = s.bank.saved :=
      Vector.map_map.trans (Vector.map_id s.bank.saved)
    refine ⟨_, c₁, liveRead, _, c₂, userRead, _, c₃, fiqRead, _, c₄, irqRead, _, c₅, supervisorRead,
      _, c₆, abortRead, _, c₇, undefinedRead, _, c₈, wordRead, _, c₈, ⟨selected, rfl⟩, _, c₉,
      savedRead, _, c₁₀, fiqLineRead, _, c₁₁, memoryAbortRead, _, c', imagesRead, ?_, rfl⟩
    rw [statuses]

/-- There is one blob for every snapshot whose status word selects the mode, and no other blob. -/
theorem decode_eq_ok {blob : ByteArray} {s : ProcessorSnapshot} :
    decode blob = .ok s ↔ s.status.mode? = some s.mode ∧ blob = s.save := by
  have accepts {c : SnapshotCursor} {s : ProcessorSnapshot} {c' : SnapshotCursor} :
      read c = .ok s c' ↔
        ∃ bytes, (s.status.mode? = some s.mode ∧ bytes = s.layout) ∧ c.Consumes bytes c' := by
    rw [read_eq_ok]
    constructor
    · rintro ⟨selected, consumes⟩
      exact ⟨_, ⟨selected, rfl⟩, consumes⟩
    · rintro ⟨_, ⟨selected, rfl⟩, consumes⟩
      exact ⟨selected, consumes⟩
  have same : blob = s.save ↔ blob.data.toList = Layout.header header ++ s.layout := by
    rw [← save_toList, ByteArray.ext_iff, Array.toList_inj]
  rw [decode, SnapshotReader.decode_eq_ok accepts, same]
  constructor
  · rintro ⟨_, ⟨selected, rfl⟩, whole⟩
    exact ⟨selected, whole⟩
  · rintro ⟨selected, whole⟩
    exact ⟨_, ⟨selected, rfl⟩, whole⟩

end ProcessorSnapshot

namespace Machine

variable {δ : Type}

/-- What a snapshot of `s` gives to `t`. Only the cost of the last instruction, the peripherals and
the services remain, and a stall is over. -/
theorem restoreProcessor_of (s t : Machine δ) :
    t.restoreProcessor (.of s.processor s.space.memory) =
      { processor := { s.processor with cycles := t.processor.cycles, stalled := false }
        space := { memory := s.space.memory.rederiveShadows, io := t.space.io }
        calls := t.calls
        redirects := t.redirects } := by
  simp only [restoreProcessor, ProcessorSnapshot.restore, ProcessorSnapshot.of,
    GuestMemory.ofImages_images]

/-- A machine is saved as the snapshot that it was given. -/
theorem saveProcessor_restoreProcessor (t : Machine δ) (s : ProcessorSnapshot) :
    (t.restoreProcessor s).saveProcessor = s.save := by
  have same : ProcessorSnapshot.of (t.restoreProcessor s).processor
      (t.restoreProcessor s).space.memory = s := by
    change (⟨_, _, _, _, _, _, (t.space.memory.ofImages s.images).images⟩ : ProcessorSnapshot) = s
    rw [GuestMemory.images_ofImages]
    rfl
  rw [saveProcessor, same]

theorem decode_saveProcessor {s : Machine δ} (coherent : s.processor.Coherent) :
    ProcessorSnapshot.decode s.saveProcessor = .ok (.of s.processor s.space.memory) :=
  ProcessorSnapshot.decode_eq_ok.2 ⟨StatusWord.mode?_eq_some_iff.2 coherent, rfl⟩

/-- `t` holds the registers and the memory of `s`, with shadow pages that are derived. -/
structure Resumes (s t : Machine δ) : Prop where
  live : t.processor.live = s.processor.live
  bank : t.processor.bank = s.processor.bank
  status : t.processor.status = s.processor.status
  mode : t.processor.mode = s.processor.mode
  fiqLine : t.processor.fiqLine = s.processor.fiqLine
  memoryAbort : t.processor.memoryAbort = s.processor.memoryAbort
  romBank : t.space.memory.romBank = s.space.memory.romBank
  highResolution : t.space.memory.highResolution = s.space.memory.highResolution
  ram : t.space.memory.ram = s.space.memory.ram
  roms : t.space.memory.roms = s.space.memory.roms
  nvram : t.space.memory.nvram = s.space.memory.nvram
  shadows : ∀ page < 3, t.space.memory.shadow? page = some
    (if s.space.memory.highResolution then s.space.memory.vram
      else Block.zeroBytes GuestMemory.vramSize)

theorem resumes_restoreProcessor (s t : Machine δ) :
    s.Resumes (t.restoreProcessor (.of s.processor s.space.memory)) := by
  have images := GuestMemory.images_ofImages t.space.memory s.space.memory.images
  rw [GuestMemory.ofImages_images] at images
  have ram := congrArg (fun images : GuestMemory.Images => images.ram.bytes) images
  rw [restoreProcessor_of]
  exact
    { live := rfl
      bank := rfl
      status := rfl
      mode := rfl
      fiqLine := rfl
      memoryAbort := rfl
      romBank := rfl
      highResolution := rfl
      ram := ram
      roms := rfl
      nvram := rfl
      shadows := fun _ has => s.space.memory.shadow?_rederiveShadows has }

/-- What a machine was saved as is accepted and makes any other machine resume it, and a machine
that accepts a blob is saved as that blob. -/
theorem processor_codec (s t : Machine δ) (coherent : s.processor.Coherent) (blob : ByteArray) :
    (∃ snapshot, ProcessorSnapshot.decode s.saveProcessor = .ok snapshot ∧
      s.Resumes (t.restoreProcessor snapshot) ∧
      (t.restoreProcessor snapshot).calls = t.calls ∧
      (t.restoreProcessor snapshot).redirects = t.redirects) ∧
    ∀ snapshot, ProcessorSnapshot.decode blob = .ok snapshot →
      (t.restoreProcessor snapshot).saveProcessor = blob := by
  refine ⟨⟨_, decode_saveProcessor coherent, resumes_restoreProcessor s t, rfl, rfl⟩, ?_⟩
  intro snapshot accepted
  obtain ⟨-, rfl⟩ := ProcessorSnapshot.decode_eq_ok.1 accepted
  exact saveProcessor_restoreProcessor t snapshot

/-- A machine in IRQ mode and in high resolution, with a byte of VRAM that the shadow pages lack. -/
def sender : Machine Unit where
  processor :=
    { Processor.initial.withRegister .r0 0x11111111 with
      mode := .irq
      status := .ofMode .irq
      fiqLine := true }
  space :=
    { memory := (GuestMemory.empty.setHighResolution true).withVram
        ((Block.zero GuestMemory.vramSize).set 0 0x5A (by decide))
      io := .initial }
  calls := none
  redirects := none

/-- A machine in Supervisor mode and in low resolution, with native calls. -/
def receiver : Machine Unit where
  processor := Processor.initial.withRegister .r0 0x22222222
  space := { memory := GuestMemory.empty, io := .initial }
  calls := some .standard
  redirects := none

/-- The receiver takes over the mode, the registers and VRAM, of which it makes its shadow pages. It
keeps its calls, and is saved as the sender was. -/
theorem processor_codec_sender :
    sender.processor.Coherent ∧
      ∃ snapshot, ProcessorSnapshot.decode sender.saveProcessor = .ok snapshot ∧
        let resumed := receiver.restoreProcessor snapshot
        sender.Resumes resumed ∧ resumed.saveProcessor = sender.saveProcessor ∧
        resumed.calls = some .standard ∧ resumed.processor.mode = .irq ∧
        resumed.processor.live.get RegisterNumber.r0 = 0x11111111 ∧
        ∀ page < 3, ∃ bytes, resumed.space.memory.shadow? page = some bytes ∧
          ∃ _ : 0 < bytes.size, bytes[0] = 0x5A := by
  have coherent : sender.processor.Coherent := rfl
  obtain ⟨⟨snapshot, accepted, resumes, calls, -⟩, back⟩ :=
    processor_codec sender receiver coherent sender.saveProcessor
  refine ⟨coherent, snapshot, accepted, resumes, back snapshot accepted, calls, resumes.mode, ?_,
    fun page has => ?_⟩
  · rw [resumes.live]
    decide
  · refine ⟨_, resumes.shadows page has, ?_⟩
    have vram : sender.space.memory.vram = _ := GuestMemory.vram_withVram _ _
    have high : sender.space.memory.highResolution = true := rfl
    rw [if_pos high, vram]
    exact ⟨Nat.lt_of_lt_of_eq (by decide) (Block.size_bytes _).symm,
      Block.getElem_set_self _ _ _⟩

end Machine

end ArmConsole
