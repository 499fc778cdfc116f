import ArmConsole.Proofs.Latest
import ArmConsole.Proofs.Memory.Frame
import Mathlib.Algebra.GroupWithZero.Nat

/-!
RAM as a flat array of bytes. An access of any width covers the bytes between two multiples of its
width, the highest byte first. Reads of all widths are composed of what the bytes hold, and a write
changes those that it covers. Main statement: behind any list of writes a byte holds what the last
of them that covers it put there.
-/

namespace ArmConsole

/-- How much of RAM an access covers. -/
inductive RamWidth where
  | byte | halfWord | word
  deriving DecidableEq

namespace RamWidth

/-- In bytes. -/
def size : RamWidth → Nat
  | byte => 1
  | halfWord => 2
  | word => 4

theorem size_pos (width : RamWidth) : 0 < width.size := by cases width <;> decide

instance (width : RamWidth) : NeZero width.size := ⟨Nat.ne_of_gt width.size_pos⟩

/-- No access crosses the end of RAM. -/
theorem aligned_le (width : RamWidth) (a : RamAddress) :
    a.val / width.size * width.size + width.size ≤ GuestMemory.ramSize := by
  have inRam : a.val < 0x300000 := a.isLt
  change _ ≤ 0x300000
  cases width <;> simp only [size] <;> omega

/-- Byte `k` of those that an access covers, counted from the lowest address. -/
def part (width : RamWidth) (a : RamAddress) (k : Fin width.size) : RamAddress :=
  ⟨a.val / width.size * width.size + k.val, by
    have inRam := width.aligned_le a
    omega⟩

theorem part_div (width : RamWidth) (a : RamAddress) (k : Fin width.size) :
    (width.part a k).val / width.size = a.val / width.size := by
  change (a.val / width.size * width.size + k.val) / width.size = _
  rw [Nat.mul_comm, Nat.mul_add_div width.size_pos, Nat.div_eq_of_lt k.isLt, Nat.add_zero]

theorem part_mod (width : RamWidth) (a : RamAddress) (k : Fin width.size) :
    (width.part a k).val % width.size = k.val := by
  change (a.val / width.size * width.size + k.val) % width.size = _
  rw [Nat.mul_add_mod_of_lt k.isLt]

/-- The number in the bytes that an access covers, the highest byte first. -/
def bigEndian (width : RamWidth) (contents : RamAddress → Byte) (a : RamAddress) : Nat :=
  (List.ofFn fun k => contents (width.part a k)).foldl (fun n b => n * 256 + b.toNat) 0

end RamWidth

/-- A write of the low bytes of `value`, as many as the width has. -/
structure RamWrite where
  width : RamWidth
  address : RamAddress
  value : Word

namespace RamWrite

/-- Whether a write covers a byte. -/
def covers (w : RamWrite) (b : RamAddress) : Bool :=
  b.val / w.width.size == w.address.val / w.width.size

/-- What a write puts into a byte that it covers. -/
def byteAt (w : RamWrite) (b : RamAddress) : Byte :=
  .ofNat (w.value.toNat / 256 ^ (w.width.size - 1 - b.val % w.width.size))

/-- The bytes behind a list of writes: each as the last one left it that covers it. -/
def latest (writes : List RamWrite) (contents : RamAddress → Byte) (b : RamAddress) : Byte :=
  (writes.reverse.find? fun w => w.covers b).elim (contents b) fun w => w.byteAt b

theorem covers_iff {w : RamWrite} {b : RamAddress} :
    w.covers b = true ↔ b.val / w.width.size = w.address.val / w.width.size := beq_iff_eq

theorem byteAt_part (w : RamWrite) (k : Fin w.width.size) :
    w.byteAt (w.width.part w.address k) =
      .ofNat (w.value.toNat / 256 ^ (w.width.size - 1 - k.val)) := by
  rw [byteAt, w.width.part_mod]

theorem mem_parts_iff {w : RamWrite} {b : RamAddress} :
    b ∈ (List.finRange w.width.size).map (w.width.part w.address) ↔ w.covers b = true := by
  rw [covers_iff]
  constructor
  · intro among
    obtain ⟨k, -, rfl⟩ := List.mem_map.1 among
    exact w.width.part_div w.address k
  · intro same
    have inside := Nat.mod_lt b.val w.width.size_pos
    refine List.mem_map.2 ⟨⟨_, inside⟩, List.mem_finRange _, Fin.ext ?_⟩
    change w.address.val / w.width.size * w.width.size + b.val % w.width.size = b.val
    rw [← same, Nat.mul_comm]
    exact Nat.div_add_mod _ _

end RamWrite

namespace GuestMemory

variable (m : GuestMemory)

/-- The number that a read of a width yields. -/
def read (width : RamWidth) (a : RamAddress) : Nat :=
  match width with
  | .byte => (m.readByte a).toNat
  | .halfWord => (m.readHalfWord a).toNat
  | .word => (m.readWord a).toNat

def write (w : RamWrite) : GuestMemory :=
  match w.width with
  | .byte => m.writeByte w.address w.value.toUInt8
  | .halfWord => m.writeHalfWord w.address w.value.toUInt16
  | .word => m.writeWord w.address w.value

/-! ### Reads -/

theorem readWord_eq (a : RamAddress) :
    m.readWord a =
      .ofBytes (m.readByte (RamWidth.word.part a 0)) (m.readByte (RamWidth.word.part a 1))
        (m.readByte (RamWidth.word.part a 2)) (m.readByte (RamWidth.word.part a 3)) :=
  rfl

/-- The views of all widths agree, for each is a view of the bytes. -/
theorem read_eq (width : RamWidth) (a : RamAddress) :
    m.read width a = width.bigEndian m.readByte a := by
  cases width with
  | byte =>
    have digits : RamWidth.byte.bigEndian m.readByte a =
        0 * 256 + (m.readByte (RamWidth.byte.part a 0)).toNat := rfl
    have same : RamWidth.byte.part a 0 = a := Fin.ext ((Nat.mul_one _).trans (Nat.div_one _))
    rw [digits, same, Nat.zero_mul, Nat.zero_add]
    rfl
  | halfWord =>
    have digits : RamWidth.halfWord.bigEndian m.readByte a =
        (0 * 256 + (m.readByte (RamWidth.halfWord.part a 0)).toNat) * 256 +
          (m.readByte (RamWidth.halfWord.part a 1)).toNat := rfl
    rw [digits, Nat.zero_mul, Nat.zero_add]
    exact HalfWord.toNat_ofBytes _ _
  | word =>
    have digits : RamWidth.word.bigEndian m.readByte a =
        (((0 * 256 + (m.readByte (RamWidth.word.part a 0)).toNat) * 256 +
          (m.readByte (RamWidth.word.part a 1)).toNat) * 256 +
          (m.readByte (RamWidth.word.part a 2)).toNat) * 256 +
          (m.readByte (RamWidth.word.part a 3)).toNat := rfl
    rw [digits, Nat.zero_mul, Nat.zero_add]
    exact Word.toNat_ofBytes _ _ _ _

/-! ### Writes -/

/-- The bytes of a write, put down one after the other. -/
def putBytes (w : RamWrite) (ks : List (Fin w.width.size)) : GuestMemory :=
  ks.foldl (fun m k => m.writeByte (w.width.part w.address k) (w.byteAt (w.width.part w.address k)))
    m

theorem write_eq (w : RamWrite) : m.write w = m.putBytes w (List.finRange w.width.size) := by
  have byte (b : Byte) (k : Fin w.width.size) {n : Nat} (last : w.width.size - 1 - k.val = n)
      (value : b.toNat = w.value.toNat / 2 ^ (8 * n) % 2 ^ 8) :
      w.byteAt (w.width.part w.address k) = b := by
    rw [RamWrite.byteAt_part, last, ← UInt8.toNat_inj, value, Nat.pow_mul, UInt8.toNat_ofNat']
  obtain ⟨width, a, v⟩ := w
  cases width with
  | byte =>
    have same : RamWidth.byte.part a 0 = a := Fin.ext ((Nat.mul_one _).trans (Nat.div_one _))
    have only := byte v.toUInt8 0 (n := 0) rfl (by simp)
    calc
      m.writeByte a v.toUInt8 = m.writeByte (RamWidth.byte.part a 0) v.toUInt8 := by rw [same]
      _ = m.putBytes ⟨.byte, a, v⟩ [0] := by rw [← only]; rfl
  | halfWord =>
    let half : HalfWord := v.toUInt16
    have number : half.toNat = v.toNat % 2 ^ 16 := UInt32.toNat_toUInt16 v
    have high : half.byte0.toNat = v.toNat / 2 ^ (8 * 1) % 2 ^ 8 := by
      rw [HalfWord.toNat_byte0, number]
      omega
    have low : half.byte1.toNat = v.toNat / 2 ^ (8 * 0) % 2 ^ 8 := by
      rw [HalfWord.toNat_byte1, number]
      omega
    have first := byte half.byte0 0 (n := 1) rfl high
    have second := byte half.byte1 1 (n := 0) rfl low
    calc
      m.writeHalfWord a half = (m.writeByte (RamWidth.halfWord.part a 0) half.byte0).writeByte
        (RamWidth.halfWord.part a 1) half.byte1 := rfl
      _ = m.putBytes ⟨.halfWord, a, v⟩ [0, 1] := by
        rw [← first, ← second]
        rfl
  | word =>
    have first := byte v.byte0 0 (n := 3) rfl v.toNat_byte0
    have second := byte v.byte1 1 (n := 2) rfl v.toNat_byte1
    have third := byte v.byte2 2 (n := 1) rfl v.toNat_byte2
    have fourth := byte v.byte3 3 (n := 0) rfl (by rw [v.toNat_byte3]; simp)
    calc
      m.writeWord a v = (((m.writeByte (RamWidth.word.part a 0) v.byte0).writeByte
        (RamWidth.word.part a 1) v.byte1).writeByte (RamWidth.word.part a 2) v.byte2).writeByte
          (RamWidth.word.part a 3) v.byte3 := rfl
      _ = m.putBytes ⟨.word, a, v⟩ [0, 1, 2, 3] := by
        rw [← first, ← second, ← third, ← fourth]
        rfl

/-- The bytes that a write covers are those that it puts down. -/
theorem readByte_write (w : RamWrite) (b : RamAddress) :
    (m.write w).readByte b = if w.covers b then w.byteAt b else m.readByte b := by
  have put (ks : List (Fin w.width.size)) (m : GuestMemory) :
      (m.putBytes w ks).readByte b =
        if b ∈ ks.map (w.width.part w.address) then w.byteAt b else m.readByte b := by
    induction ks generalizing m with
    | nil => rfl
    | cons k ks ih =>
      refine (ih _).trans ?_
      rw [readByte_writeByte]
      by_cases here : b = w.width.part w.address k
      · simp [here]
      · have apart : b.val ≠ (w.width.part w.address k).val := fun same => here (Fin.ext same)
        simp [here, apart]
  rw [write_eq, put]
  simp only [RamWrite.mem_parts_iff]

theorem readByte_writeAll (writes : List RamWrite) :
    (writes.foldl write m).readByte = RamWrite.latest writes m.readByte := by
  funext b
  exact view_foldl (fun m => m.readByte b) (fun m w => m.readByte_write w b) m writes

theorem framed_write (w : RamWrite) :
    Framed (fun b => w.covers b = true) (fun _ => False) m (m.write w) := by
  have same (b : RamAddress) (outside : ¬w.covers b = true) :
      (m.write w).readByte b = m.readByte b := by
    rw [readByte_write, if_neg outside]
  obtain ⟨width, a, v⟩ := w
  cases width <;> exact m.framed_store same

/-! ### Words -/

/-- Of a word that is written none but its four bytes change. -/
theorem framed_writeWord (a : RamAddress) (v : Word) :
    Framed (fun b => b.val / 4 = a.val / 4) (fun _ => False) m (m.writeWord a v) :=
  (m.framed_write ⟨.word, a, v⟩).mono (fun _ covered => RamWrite.covers_iff.1 covered) fun _ => id

/-- A word is reached by the address of each of its bytes. -/
theorem readWord_congr {a b : RamAddress} (same : a.val / 4 = b.val / 4) :
    m.readWord a = m.readWord b := by
  have start : a.wordStart = b.wordStart := congrArg (· * 4) same
  simp only [readWord, start]

theorem writeWord_congr {a b : RamAddress} (same : a.val / 4 = b.val / 4) (v : Word) :
    m.writeWord a v = m.writeWord b v := by
  have start : a.wordStart = b.wordStart := congrArg (· * 4) same
  simp only [writeWord, storeWord, start]

theorem readWord_writeWord {a b : RamAddress} (same : b.val / 4 = a.val / 4) (v : Word) :
    (m.writeWord a v).readWord b = v := by
  have byte (k : Fin RamWidth.word.size) {n : Nat} (last : 4 - 1 - k.val = n) :
      ((m.writeWord a v).readByte (RamWidth.word.part b k)).toNat = v.toNat / 256 ^ n % 2 ^ 8 := by
    have covered : RamWrite.covers ⟨.word, a, v⟩ (RamWidth.word.part b k) = true :=
      RamWrite.covers_iff.2 ((RamWidth.word.part_div b k).trans same)
    have written : (m.writeWord a v).readByte (RamWidth.word.part b k) =
        .ofNat (v.toNat / 256 ^ (4 - 1 - (RamWidth.word.part b k).val % 4)) :=
      (m.readByte_write ⟨.word, a, v⟩ _).trans (if_pos covered)
    have place : (RamWidth.word.part b k).val % 4 = k.val := RamWidth.word.part_mod b k
    rw [written, place, last, UInt8.toNat_ofNat']
  have bound := v.toNat_lt
  rw [← UInt32.toNat_inj, readWord_eq, Word.toNat_ofBytes, byte 0 (n := 3) rfl, byte 1 (n := 2) rfl,
    byte 2 (n := 1) rfl, byte 3 (n := 0) rfl]
  omega

theorem Framed.readWord {m n : GuestMemory} {ram : RamAddress → Prop}
    {nvram : Fin nvramSize → Prop} (framed : Framed ram nvram m n) {a : RamAddress}
    (outside : ∀ b : RamAddress, b.val / 4 = a.val / 4 → ¬ram b) : n.readWord a = m.readWord a := by
  have byte (k : Fin RamWidth.word.size) :
      n.readByte (RamWidth.word.part a k) = m.readByte (RamWidth.word.part a k) :=
    framed.ram _ (outside _ (RamWidth.word.part_div a k))
  rw [readWord_eq, readWord_eq, byte 0, byte 1, byte 2, byte 3]

end GuestMemory

end ArmConsole
