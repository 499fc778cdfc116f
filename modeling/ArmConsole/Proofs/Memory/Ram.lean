import ArmConsole.Memory.GuestMemory
import ArmConsole.Proofs.Memory.Block
import Mathlib.Tactic.SplitIfs

/-!
Writes to RAM byte by byte. Every byte of the store stands for one address of RAM, its `origin`:
itself in RAM, and in high resolution the byte of VRAM that a shadow page copies. A write of an
address reaches exactly the bytes that stand for it.
-/

namespace ArmConsole

namespace GuestMemory

/-- The address that a byte of the store stands for. Without shadows, the bytes behind RAM stand
for no address of it. -/
def origin (shadowed : Bool) (i : Nat) : Nat :=
  if shadowed && ramSize ≤ i then vramStart + (i - ramSize) % vramSize else i

/-- With shadows, a byte of the store is a byte of RAM or a copy of one of VRAM, up to three pages
behind it. -/
theorem origin_true_cases {i : Nat} (h : i < storeSize) :
    origin true i = i ∧ i < ramSize ∨
      vramStart ≤ origin true i ∧ origin true i < ramSize ∧
        (i = origin true i + vramSize ∨ i = origin true i + 2 * vramSize ∨
          i = origin true i + 3 * vramSize) := by
  have inStore : i < 0x600000 := h
  simp only [origin, Bool.true_and, decide_eq_true_eq, ramSize, vramStart, vramSize]
  split <;> omega

theorem getElem_storeByte (store : Block storeSize) (shadowed : Bool) (a : RamAddress) (v : Byte)
    {i : Nat} (h : i < storeSize) :
    (storeByte store shadowed a v)[i] = if origin shadowed i = a.val then v else store[i] := by
  obtain ⟨a, ha⟩ := a
  have inRam : a < 0x300000 := ha
  cases shadowed with
  | false =>
    have inStore : a < storeSize := Nat.lt_of_lt_of_le ha (by decide)
    have single : (storeByte store false ⟨a, ha⟩ v)[i] = if a = i then v else store[i] :=
      store.getElem_set v inStore h
    by_cases same : a = i
    · exact (single.trans (if_pos same)).trans (if_pos same.symm).symm
    · exact (single.trans (if_neg same)).trans (if_neg (Ne.symm same)).symm
  | true =>
    have cases := origin_true_cases h
    simp only [storeByte, Bool.true_and, decide_eq_true_eq, vramStart, vramSize, ramSize] at *
    generalize origin true i = o at *
    by_cases same : o = a
    · rw [if_pos same]
      split <;> simp only [Block.getElem_set] <;> split_ifs <;> first | rfl | omega
    · rw [if_neg same]
      split <;> simp only [Block.getElem_set] <;> split_ifs <;> first | rfl | omega

theorem getElem_lowBytes {count k : Nat} (value : Word) (h : k < (lowBytes count value).size) :
    (lowBytes count value)[k] = (value >>> .ofNat (8 * (count - 1 - k))).toUInt8 :=
  Array.getElem_ofFn h

/-- `new` is `old` with `data` written to RAM from `start` up. -/
def Written (shadowed : Bool) (start : Nat) (data : ByteArray) (old new : Block storeSize) : Prop :=
  ∀ i (h : i < storeSize), new[i] =
    if inside : start ≤ origin shadowed i ∧ origin shadowed i < start + data.size then
      data[origin shadowed i - start]
    else old[i]

theorem Written.unique {shadowed : Bool} {start : Nat} {data : ByteArray}
    {old new other : Block storeSize} (first : Written shadowed start data old new)
    (second : Written shadowed start data old other) : new = other :=
  Block.ext_getElem fun i h => (first i h).trans (second i h).symm

theorem written_storeByte (store : Block storeSize) (shadowed : Bool) (a : RamAddress) (v : Word) :
    Written shadowed a.val (lowBytes 1 v) store (storeByte store shadowed a v.toUInt8) := by
  intro i h
  rw [getElem_storeByte]
  simp only [getElem_lowBytes, size_lowBytes]
  by_cases same : origin shadowed i = a.val
  · rw [if_pos same, dif_pos (by omega), same, Nat.sub_self]
    simp
  · rw [if_neg same, dif_neg (by omega)]

theorem written_storeWord (store : Block storeSize) (shadowed : Bool) (a : RamAddress) (v : Word) :
    Written shadowed a.wordStart (lowBytes 4 v) store (storeWord store shadowed a v) := by
  intro i h
  simp only [storeWord, getElem_storeByte, getElem_lowBytes, size_lowBytes]
  generalize origin shadowed i = o
  by_cases inside : a.wordStart ≤ o ∧ o < a.wordStart + 4
  · rw [dif_pos inside]
    obtain same | same | same | same : o = a.wordStart ∨ o = a.wordStart + 1 ∨
        o = a.wordStart + 2 ∨ o = a.wordStart + 3 := by omega
    · simp [same, Word.byte0]
    · simp [same, Word.byte1]
    · simp [same, Word.byte2]
    · simp [same, Word.byte3]
  · rw [dif_neg inside]
    rw [if_neg (by omega), if_neg (by omega), if_neg (by omega), if_neg (by omega)]

/-! ### Accesses that are checked against the store only -/

theorem foldl_bigEndian (b0 b1 b2 b3 : Byte) :
    #[b0, b1, b2, b3].foldl (fun (w : Word) b => (w <<< 8) ||| b.toUInt32) 0 =
      .ofBytes b0 b1 b2 b3 := by
  have twice (w : Word) : w <<< 8 <<< 8 = w <<< 16 :=
    (UInt32.shiftLeft_add (by decide) (by decide) (by decide)).symm
  have thrice (w : Word) : w <<< 16 <<< 8 = w <<< 24 :=
    (UInt32.shiftLeft_add (by decide) (by decide) (by decide)).symm
  have unfolded : #[b0, b1, b2, b3].foldl (fun (w : Word) b => (w <<< 8) ||| b.toUInt32) 0 =
      ((((0 : Word) <<< 8 ||| b0.toUInt32) <<< 8 ||| b1.toUInt32) <<< 8 ||| b2.toUInt32) <<< 8 |||
        b3.toUInt32 := rfl
  rw [unfolded, Word.ofBytes]
  simp only [UInt32.shiftLeft_or, twice, thrice, UInt32.zero_shiftLeft, UInt32.zero_or]

/-- The word of RAM that holds an address. -/
theorem peekStore?_word (m : GuestMemory) {address : Word} {a : RamAddress}
    (same : address.toNat = a.val) : m.peekStore? 4 address = some (m.readWord a) := by
  obtain ⟨_, h⟩ := a
  subst same
  have fits : address.toNat / 4 * 4 + 4 ≤ storeSize :=
    Nat.le_trans (RamAddress.wordStart_le ⟨address.toNat, h⟩) (by decide)
  rw [peekStore?, if_pos fits, m.store.data_slice fits]
  exact congrArg some (foldl_bigEndian _ _ _ _)

theorem peekStore?_byte (m : GuestMemory) {address : Word} {a : RamAddress}
    (same : address.toNat = a.val) : m.peekStore? 1 address = some (m.readByte a).toUInt32 := by
  obtain ⟨_, h⟩ := a
  subst same
  have fits : address.toNat / 1 * 1 + 1 ≤ storeSize := by
    have : address.toNat < 0x300000 := h
    change _ ≤ 0x600000
    omega
  rw [peekStore?, if_pos fits, m.store.data_slice fits]
  have single (b : Byte) :
      #[b].foldl (fun (w : Word) b => (w <<< 8) ||| b.toUInt32) 0 = b.toUInt32 := by simp
  refine congrArg some ((single _).trans ?_)
  simp [readByte]

/-- A byte of a block after four blits, one into a page and one into each of its three copies, when
`o` is the place that the byte is or copies. -/
theorem getElem_blit_pages {n page first start : Nat} {store : Block n} {data : ByteArray}
    (fits0 : start + data.size ≤ n) (fits1 : start + page + data.size ≤ n)
    (fits2 : start + 2 * page + data.size ≤ n) (fits3 : start + 3 * page + data.size ≤ n)
    (inPage : first ≤ start ∧ start + data.size ≤ first + page) {i o : Nat} (h : i < n)
    (cases : o = i ∧ i < first + page ∨ first ≤ o ∧ o < first + page ∧
      (i = o + page ∨ i = o + 2 * page ∨ i = o + 3 * page)) :
    ((((store.blit start data fits0).blit _ data fits1).blit _ data fits2).blit _ data fits3)[i] =
      if inside : start ≤ o ∧ o < start + data.size then data[o - start] else store[i] := by
  simp only [Block.getElem_blit]
  by_cases inside : start ≤ o ∧ o < start + data.size
  · rw [dif_pos inside]
    obtain ⟨same, -⟩ | ⟨-, -, same | same | same⟩ := cases
    · rw [dif_neg (by omega), dif_neg (by omega), dif_neg (by omega), dif_pos (by omega)]
      exact getElem_congr_idx (by omega)
    · rw [dif_neg (by omega), dif_neg (by omega), dif_pos (by omega)]
      exact getElem_congr_idx (by omega)
    · rw [dif_neg (by omega), dif_pos (by omega)]
      exact getElem_congr_idx (by omega)
    · rw [dif_pos (by omega)]
      exact getElem_congr_idx (by omega)
  · rw [dif_neg inside, dif_neg (by omega), dif_neg (by omega), dif_neg (by omega),
      dif_neg (by omega)]

/-- Writing the copies in the shadow pages one after the other writes the RAM below them. -/
theorem pokeStore?_written (m : GuestMemory) {count : Nat} {address : Word} (value : Word)
    (inRam : address.toNat / count * count + count ≤ ramSize)
    (aligned : address.toNat / count * count < vramStart →
      address.toNat / count * count + count ≤ vramStart) :
    ∃ store, m.pokeStore? count address value = some { m with store } ∧
      Written m.highResolution (address.toNat / count * count) (lowBytes count value) m.store
        store := by
  obtain ⟨store, roms, romBank, nvram, highResolution⟩ := m
  have size : (lowBytes count value).size = count := size_lowBytes count value
  simp only [pokeStore?]
  generalize address.toNat / count * count = start at *
  generalize lowBytes count value = data at *
  have fits (page : Nat) (h : page ≤ 3 ∧ (page = 0 ∨ vramStart ≤ start)) :
      start + page * vramSize + data.size ≤ storeSize := by
    simp only [ramSize, storeSize, vramSize] at *
    omega
  have fits0 : start + data.size ≤ storeSize := by simpa using fits 0 (by omega)
  cases mirrored : highResolution && decide (vramStart ≤ start) with
  | false =>
    refine ⟨store.blit start data fits0, by simp [blitStore?, fits0], ?_⟩
    intro i h
    rw [Block.getElem_blit]
    cases highResolution with
    | false => rfl
    | true =>
      have cases := origin_true_cases h
      simp only [Bool.true_and, decide_eq_false_iff_not] at mirrored
      simp only [vramStart, vramSize, ramSize] at *
      obtain ⟨same, -⟩ | shadow := cases
      · simp only [same]
      · rw [dif_neg (by omega), dif_neg (by omega)]
  | true =>
    rw [Bool.and_eq_true, decide_eq_true_eq] at mirrored
    obtain ⟨rfl, inVram⟩ := mirrored
    have fits1 : start + vramSize + data.size ≤ storeSize := by
      simpa using fits 1 ⟨by decide, .inr inVram⟩
    have fits2 := fits 2 ⟨by decide, .inr inVram⟩
    have fits3 := fits 3 ⟨by decide, .inr inVram⟩
    refine ⟨(((store.blit start data fits0).blit _ data fits1).blit _ data fits2).blit _ data
      fits3, by simp [blitStore?, fits0, fits1, fits2, fits3], ?_⟩
    intro i h
    have inPage : start + data.size ≤ vramStart + vramSize := Nat.le_trans (by omega) inRam
    exact getElem_blit_pages fits0 fits1 fits2 fits3 ⟨inVram, inPage⟩ h (origin_true_cases h)

/-- A write that is checked against the store only writes the word of RAM that holds the address. -/
theorem pokeStore?_word (m : GuestMemory) {address : Word} {a : RamAddress} (value : Word)
    (same : address.toNat = a.val) :
    m.pokeStore? 4 address value = some (m.writeWord a value) := by
  obtain ⟨_, h⟩ := a
  subst same
  have inRam : address.toNat / 4 * 4 + 4 ≤ ramSize := RamAddress.wordStart_le ⟨address.toNat, h⟩
  have aligned : address.toNat / 4 * 4 < vramStart → address.toNat / 4 * 4 + 4 ≤ vramStart := by
    change _ < 0x200000 → _ ≤ 0x200000
    omega
  obtain ⟨store, poked, written⟩ := m.pokeStore?_written value inRam aligned
  have same := written.unique (written_storeWord m.store m.highResolution ⟨address.toNat, h⟩ value)
  rw [poked, same]
  rfl

theorem pokeStore?_byte (m : GuestMemory) {address : Word} {a : RamAddress} (value : Word)
    (same : address.toNat = a.val) :
    m.pokeStore? 1 address value = some (m.writeByte a value.toUInt8) := by
  obtain ⟨_, h⟩ := a
  subst same
  have inRam : address.toNat / 1 * 1 + 1 ≤ ramSize := by
    rw [Nat.div_one, Nat.mul_one]
    exact h
  have aligned : address.toNat / 1 * 1 < vramStart → address.toNat / 1 * 1 + 1 ≤ vramStart := by
    omega
  obtain ⟨store, poked, written⟩ := m.pokeStore?_written value inRam aligned
  rw [Nat.div_one, Nat.mul_one] at written
  have same := written.unique (written_storeByte m.store m.highResolution ⟨address.toNat, h⟩ value)
  rw [poked, same]
  rfl

end GuestMemory

end ArmConsole
