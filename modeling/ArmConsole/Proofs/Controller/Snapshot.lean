import ArmConsole.Proofs.Controller.Interrupts
import ArmConsole.Proofs.Snapshot.Fields

/-!
Snapshots of the system controller. Main statements: the controller that a blob is decoded to is
the one that was saved, with its aggregate bit made anew, and saving it again gives the blob back
but for that bit.
-/

namespace ArmConsole

open SnapshotReader
open SnapshotCursor (consumes_append)

variable {c c' : SnapshotCursor}

/-! ### Channels and interrupts -/

namespace StreamChannel

def layout (s : StreamChannel) : List Byte :=
  [s.startAddress, s.startLength, s.index, s.nextAddress, s.nextLength].flatMap Word.littleEndian

theorem written_write (w : SnapshotWriter) (s : StreamChannel) :
    (write w s).written = w.written ++ s.layout := w.written_words _

theorem read_eq_ok {s : StreamChannel} : read c = .ok s c' ↔ c.Consumes s.layout c' := by
  have all (v : Vector Word 5) : layout ⟨v[0], v[1], v[2], v[3], v[4]⟩ = Layout.words v := by
    have elements : v.toList = [v[0], v[1], v[2], v[3], v[4]] := by
      apply List.ext_getElem (by simp)
      intro i h _
      rw [Vector.length_toList] at h
      obtain rfl | rfl | rfl | rfl | rfl : i = 0 ∨ i = 1 ∨ i = 2 ∨ i = 3 ∨ i = 4 := by omega
      all_goals rfl
    rw [Layout.words, elements, layout]
  simp only [read, bind_eq_ok, words_eq_ok, pure_eq_ok]
  constructor
  · rintro ⟨v, between, consumes, rfl, rfl⟩
    rwa [all]
  · intro consumes
    exact ⟨#v[s.startAddress, s.startLength, s.index, s.nextAddress, s.nextLength], c', consumes,
      rfl, rfl⟩

end StreamChannel

namespace Interrupts

def layout (i : Interrupts) : List Byte :=
  i.primaryPending.littleEndian ++ (i.primaryEnable.littleEndian ++
    (i.secondaryPending.littleEndian ++ i.secondaryEnable.littleEndian))

theorem written_write (w : SnapshotWriter) (i : Interrupts) :
    (i.write w).written = w.written ++ i.layout := by
  rw [write, SnapshotWriter.written_words]
  simp only [Layout.words, layout, Vector.toList_mk, List.flatMap_cons, List.flatMap_nil,
    List.append_nil]

theorem read_eq_ok {i : Interrupts} : read c = .ok i c' ↔ c.Consumes i.layout c' := by
  simp only [read, layout, bind_eq_ok, word_eq_ok, pure_eq_ok, consumes_append]
  constructor
  · rintro ⟨primaryPending, c₁, first, primaryEnable, c₂, second, secondaryPending, c₃, third,
      secondaryEnable, c₄, fourth, rfl, rfl⟩
    exact ⟨c₁, first, c₂, second, c₃, third, fourth⟩
  · rintro ⟨c₁, first, c₂, second, c₃, third, fourth⟩
    exact ⟨_, c₁, first, _, c₂, second, _, c₃, third, _, c', fourth, rfl, rfl⟩

end Interrupts

/-! ### Timers -/

namespace Timers

/-- All control bits from their halves. -/
def joined (low high : Word) : UInt64 := 0 ||| controlBits false low ||| controlBits true high

theorem toNat_joined (low high : Word) :
    (joined low high).toNat = high.toNat * 2 ^ 32 + low.toNat := by
  have small : low.toNat < 2 ^ 32 := low.toNat_lt
  have bound := high.toNat_lt
  have lower : (controlBits false low).toNat = low.toNat := by
    change (low.toUInt64 <<< 0).toNat = _
    rw [UInt64.shiftLeft_zero, UInt32.toNat_toUInt64]
  have upper : (controlBits true high).toNat = high.toNat <<< 32 := by
    have places : (32 : UInt64).toNat % 64 = 32 := rfl
    change (high.toUInt64 <<< 32).toNat = _
    rw [UInt64.toNat_shiftLeft, places, UInt32.toNat_toUInt64, Nat.shiftLeft_eq]
    omega
  rw [joined, UInt64.zero_or, UInt64.toNat_or, lower, upper, Nat.or_comm,
    ← Nat.shiftLeft_add_eq_or_of_lt small, Nat.shiftLeft_eq]

theorem toNat_controlWord_false (timers : Timers) :
    (timers.controlWord false).toNat = timers.control.toNat % 2 ^ 32 := by
  change (timers.control >>> 0).toUInt32.toNat = _
  rw [UInt64.shiftRight_zero, UInt64.toNat_toUInt32]

theorem toNat_controlWord_true (timers : Timers) :
    (timers.controlWord true).toNat = timers.control.toNat / 2 ^ 32 := by
  have bound := timers.control.toNat_lt
  have places : (32 : UInt64).toNat % 64 = 32 := rfl
  change (timers.control >>> 32).toUInt32.toNat = _
  rw [UInt64.toNat_toUInt32, UInt64.toNat_shiftRight, places, Nat.shiftRight_eq_div_pow]
  omega

theorem joined_controlWords (timers : Timers) :
    joined (timers.controlWord false) (timers.controlWord true) = timers.control := by
  rw [← UInt64.toNat_inj, toNat_joined, toNat_controlWord_false, toNat_controlWord_true]
  omega

theorem controlWord_joined (counter backup : Vector HalfWord 16) (low high : Word) :
    controlWord ⟨counter, backup, joined low high⟩ false = low ∧
      controlWord ⟨counter, backup, joined low high⟩ true = high := by
  have small := low.toNat_lt
  constructor
  · rw [← UInt32.toNat_inj, toNat_controlWord_false, toNat_joined]
    omega
  · rw [← UInt32.toNat_inj, toNat_controlWord_true, toNat_joined]
    omega

def pairLayout (p : HalfWord × HalfWord) : List Byte := p.1.littleEndian ++ p.2.littleEndian

def layout (timers : Timers) : List Byte :=
  (timers.counter.zip timers.backup).toList.flatMap pairLayout ++
    ((timers.controlWord false).littleEndian ++ (timers.controlWord true).littleEndian)

theorem written_write (w : SnapshotWriter) (timers : Timers) :
    (timers.write w).written = w.written ++ timers.layout := by
  have pair (w : SnapshotWriter) (p : HalfWord × HalfWord) :
      ((w.halfWord p.1).halfWord p.2).written = w.written ++ pairLayout p := by
    simp only [SnapshotWriter.written_halfWord, pairLayout, List.append_assoc]
  simp only [write, SnapshotWriter.written_word, SnapshotWriter.written_foldl pair, layout,
    List.append_assoc]

theorem read_eq_ok {timers : Timers} : read c = .ok timers c' ↔ c.Consumes timers.layout c' := by
  let readPair : SnapshotReader (HalfWord × HalfWord) := do
    let counter ← halfWord
    let backup ← halfWord
    return (counter, backup)
  have pair {c : SnapshotCursor} {p : HalfWord × HalfWord} {c' : SnapshotCursor} :
      readPair c = .ok p c' ↔ c.Consumes (pairLayout p) c' := by
    simp only [readPair, bind_eq_ok, halfWord_eq_ok, pure_eq_ok, pairLayout, consumes_append]
    constructor
    · rintro ⟨counter, between, first, backup, behind, second, rfl, rfl⟩
      exact ⟨between, first, second⟩
    · rintro ⟨between, first, second⟩
      exact ⟨_, between, first, _, c', second, rfl, rfl⟩
  have whole : read = (do
      let pairs ← repeated 16 readPair
      let low ← word
      let high ← word
      return ⟨pairs.map Prod.fst, pairs.map Prod.snd, joined low high⟩) := rfl
  rw [whole]
  simp only [bind_eq_ok, repeated_eq_ok pair, word_eq_ok, pure_eq_ok, layout, consumes_append]
  constructor
  · rintro ⟨pairs, c₁, pairsRead, low, c₂, lowRead, high, c₃, highRead, rfl, rfl⟩
    obtain ⟨lower, upper⟩ :=
      controlWord_joined (pairs.map Prod.fst) (pairs.map Prod.snd) low high
    have zipped : pairs = (pairs.map Prod.fst).zip (pairs.map Prod.snd) :=
      Vector.zip_of_prod rfl rfl
    rw [← zipped, lower, upper]
    exact ⟨c₁, pairsRead, c₂, lowRead, highRead⟩
  · rintro ⟨c₁, pairsRead, c₂, lowRead, highRead⟩
    refine ⟨_, c₁, pairsRead, _, c₂, lowRead, _, c', highRead, ?_, rfl⟩
    rw [joined_controlWords, Vector.map_fst_zip, Vector.map_snd_zip]

end Timers

/-! ### The controller -/

namespace SystemController

/-- Makes the aggregate bit anew. -/
def resync (c : SystemController) : SystemController :=
  { c with interrupts := c.interrupts.sync }

/-- The bytes behind the header. -/
def layout (c : SystemController) : List Byte :=
  Word.littleEndian 65536 ++ (Layout.words c.registers ++ (c.interrupts.layout ++
    (c.timers.layout ++ (c.inputs.toList.flatMap StreamChannel.layout ++
      (c.outputs.toList.flatMap StreamChannel.layout ++ Layout.words c.lastWritten)))))

theorem save_toList (c : SystemController) :
    c.save.data.toList = Layout.header header ++ c.layout := by
  change SnapshotWriter.written _ = _
  simp only [SnapshotWriter.written_words, SnapshotWriter.written_word,
    SnapshotWriter.written_start, SnapshotWriter.written_foldl StreamChannel.written_write,
    Timers.written_write, Interrupts.written_write, layout, List.append_assoc]

theorem read_eq_ok {s : SystemController} :
    read c = .ok s c' ↔ ∃ raw, s = resync raw ∧ c.Consumes raw.layout c' := by
  simp only [read, layout, consumes_append, bind_eq_ok, word_eq_ok]
  constructor
  · rintro ⟨count, c₁, countRead, rest⟩
    by_cases same : count = 65536
    · subst same
      rw [if_neg (not_not_intro rfl)] at rest
      simp only [bind_eq_ok, words_eq_ok, Interrupts.read_eq_ok, Timers.read_eq_ok,
        repeated_eq_ok StreamChannel.read_eq_ok, pure_eq_ok] at rest
      obtain ⟨registers, c₂, registersRead, interrupts, c₃, interruptsRead, timers, c₄, timersRead,
        inputs, c₅, inputsRead, outputs, c₆, outputsRead, lastWritten, c₇, lastRead, rfl, rfl⟩ :=
        rest
      exact ⟨⟨registers, interrupts, timers, inputs, outputs, lastWritten⟩, rfl, c₁, countRead, c₂,
        registersRead, c₃, interruptsRead, c₄, timersRead, c₅, inputsRead, c₆, outputsRead,
        lastRead⟩
    · rw [if_pos same] at rest
      contradiction
  · rintro ⟨raw, rfl, c₁, countRead, c₂, registersRead, c₃, interruptsRead, c₄, timersRead, c₅,
      inputsRead, c₆, outputsRead, lastRead⟩
    refine ⟨65536, c₁, countRead, ?_⟩
    rw [if_neg (not_not_intro rfl)]
    simp only [bind_eq_ok, words_eq_ok, Interrupts.read_eq_ok, Timers.read_eq_ok,
      repeated_eq_ok StreamChannel.read_eq_ok, pure_eq_ok]
    exact ⟨_, c₂, registersRead, _, c₃, interruptsRead, _, c₄, timersRead, _, c₅, inputsRead, _, c₆,
      outputsRead, _, c', lastRead, rfl, rfl⟩

/-- A blob is the save of some controller, and yields this controller with its aggregate bit made
anew. -/
theorem decode_eq_ok {blob : ByteArray} {s : SystemController} :
    decode blob = .ok s ↔ ∃ raw, s = resync raw ∧ blob = raw.save := by
  have accepts {c : SnapshotCursor} {s : SystemController} {c' : SnapshotCursor} :
      read c = .ok s c' ↔
        ∃ bytes, (∃ raw, s = resync raw ∧ bytes = raw.layout) ∧ c.Consumes bytes c' := by
    rw [read_eq_ok]
    constructor
    · rintro ⟨raw, same, consumes⟩
      exact ⟨_, ⟨raw, same, rfl⟩, consumes⟩
    · rintro ⟨_, ⟨raw, same, rfl⟩, consumes⟩
      exact ⟨raw, same, consumes⟩
  have same (raw : SystemController) :
      blob = raw.save ↔ blob.data.toList = Layout.header header ++ raw.layout := by
    rw [← save_toList, ByteArray.ext_iff, Array.toList_inj]
  rw [decode, SnapshotReader.decode_eq_ok accepts]
  simp only [same]
  constructor
  · rintro ⟨_, ⟨raw, resynced, rfl⟩, whole⟩
    exact ⟨raw, resynced, whole⟩
  · rintro ⟨raw, resynced, whole⟩
    exact ⟨_, ⟨raw, resynced, rfl⟩, whole⟩

theorem decode_save (c : SystemController) : decode c.save = .ok c.resync :=
  decode_eq_ok.2 ⟨c, rfl, rfl⟩

/-- The aggregate bit of a blob is not believed. -/
theorem synced_of_decode {blob : ByteArray} {s : SystemController}
    (accepted : decode blob = .ok s) : s.interrupts.Synced := by
  obtain ⟨raw, rfl, -⟩ := decode_eq_ok.1 accepted
  exact Interrupts.synced_sync _

theorem resync_eq_self {c : SystemController} (synced : c.interrupts.Synced) : c.resync = c := by
  rw [resync, Interrupts.synced_iff_sync_eq.1 synced]

/-- Where the highest byte of primary pending is: behind the header, the number of registers, the
registers and three bytes. -/
def aggregateOffset : Nat := 5 + (4 + (4 * 65536 + 3))

/-- Making the aggregate bit anew changes one bit of the blob. -/
theorem save_resync (c : SystemController) :
    c.resync.save.data.toList = c.save.data.toList.modify aggregateOffset fun b =>
      if c.interrupts.secondaryPending != 0 then b ||| 0x80 else b &&& 0x7F := by
  let before := Layout.header header ++ (Word.littleEndian 65536 ++ Layout.words c.registers)
  let behind := Layout.words #v[c.interrupts.primaryEnable, c.interrupts.secondaryPending,
    c.interrupts.secondaryEnable] ++ (c.timers.layout ++
      (c.inputs.toList.flatMap StreamChannel.layout ++
        (c.outputs.toList.flatMap StreamChannel.layout ++ Layout.words c.lastWritten)))
  have old : c.save.data.toList =
      before ++ (c.interrupts.primaryPending.littleEndian ++ behind) := by
    rw [save_toList]
    simp only [before, List.append_assoc]
    rfl
  have new : c.resync.save.data.toList = before ++
      ((c.interrupts.primaryPending.withBit 31 (c.interrupts.secondaryPending != 0)).littleEndian
        ++ behind) := by
    rw [save_toList, resync, Interrupts.sync_eq]
    simp only [before, List.append_assoc]
    rfl
  have offset : aggregateOffset = before.length + 3 := by
    simp only [before, List.length_append, Layout.length_words]
    rfl
  rw [old, new, Word.littleEndian_withBit_last, offset]
  generalize (fun b : Byte =>
    if c.interrupts.secondaryPending != 0 then b ||| 0x80 else b &&& 0x7F) = patch
  exact (List.modifyTailIdx_add (List.modifyHead patch) 3 before
    (c.interrupts.primaryPending.littleEndian ++ behind)).symm

/-- What a controller was saved as is accepted and yields the controller with its aggregate bit
made anew; saving what a blob yields gives the blob back but for that bit. -/
theorem controller_codec (c : SystemController) :
    (decode c.save = .ok { c with
      interrupts := { c.interrupts with
        primaryPending :=
          c.interrupts.primaryPending.withBit 31 (c.interrupts.secondaryPending != 0) } }) ∧
    (c.interrupts.Synced → decode c.save = .ok c) ∧
    ∀ blob, decode blob = .ok c →
      c.save.data.toList = blob.data.toList.modify aggregateOffset fun b =>
        if c.interrupts.secondaryPending != 0 then b ||| 0x80 else b &&& 0x7F := by
  have loaded := decode_save c
  refine ⟨?_, ?_, ?_⟩
  · rw [loaded, resync, Interrupts.sync_eq]
  · intro synced
    rw [loaded, resync_eq_self synced]
  · intro blob accepted
    obtain ⟨raw, rfl, rfl⟩ := decode_eq_ok.1 accepted
    have secondary : raw.resync.interrupts.secondaryPending = raw.interrupts.secondaryPending := by
      rw [resync, Interrupts.sync_eq]
    rw [secondary]
    exact save_resync raw

end SystemController

end ArmConsole
