import ArmConsole.Word
import Mathlib.Algebra.Group.Nat.Defs

/-!
Words as rows of bits. `bit` and `withBit` are related to the bits of the underlying vector, and
masked words are compared as a whole: bits that a mask leaves out do not matter. Words are also
rows of bytes, lowest first where they are kept outside of the machine.
-/

namespace ArmConsole

namespace Word

/-! ### Single bits -/

theorem ext_bits {a b : Word} (same : ∀ i < 32, a.toBitVec.getLsbD i = b.toBitVec.getLsbD i) :
    a = b := UInt32.toBitVec_inj.1 (BitVec.eq_of_getLsbD_eq fun i small => same i small)

theorem bit_eq_getLsbD (w : Word) {i : Word} (small : i.toNat < 32) :
    w.bit i = w.toBitVec.getLsbD i.toNat := by
  have lowest : (w >>> i &&& 1).toNat = w.toNat / 2 ^ i.toNat % 2 := by
    rw [UInt32.toNat_and, UInt32.toNat_shiftRight, Nat.mod_eq_of_lt small,
      Nat.shiftRight_eq_div_pow]
    exact Nat.and_one_is_mod _
  have digit : w.toBitVec.getLsbD i.toNat = decide (w.toNat / 2 ^ i.toNat % 2 = 1) :=
    Nat.testBit_eq_decide_div_mod_eq
  rw [digit, ← lowest, bit, Bool.eq_iff_iff, beq_iff_eq, decide_eq_true_iff, ← UInt32.toNat_inj]
  rfl

theorem bit_or (a b : Word) {i : Word} (small : i.toNat < 32) :
    (a ||| b).bit i = (a.bit i || b.bit i) := by
  simp only [bit_eq_getLsbD _ small, UInt32.toBitVec_or, BitVec.getLsbD_or]

theorem bit_and (a b : Word) {i : Word} (small : i.toNat < 32) :
    (a &&& b).bit i = (a.bit i && b.bit i) := by
  simp only [bit_eq_getLsbD _ small, UInt32.toBitVec_and, BitVec.getLsbD_and]

theorem bit_xor (a b : Word) {i : Word} (small : i.toNat < 32) :
    (a ^^^ b).bit i = (a.bit i ^^ b.bit i) := by
  simp only [bit_eq_getLsbD _ small, UInt32.toBitVec_xor, BitVec.getLsbD_xor]

theorem bit_and_not (a b : Word) {i : Word} (small : i.toNat < 32) :
    (a &&& ~~~b).bit i = (a.bit i && !b.bit i) := by
  simp only [bit_eq_getLsbD _ small, UInt32.toBitVec_and, UInt32.toBitVec_not, BitVec.getLsbD_and,
    BitVec.getLsbD_not, small, decide_true, Bool.true_and]

theorem toNat_and_mask (w : Word) {mask : Word} {k : Nat} (ones : mask.toNat = 2 ^ k - 1) :
    (w &&& mask).toNat = w.toNat % 2 ^ k := by
  rw [UInt32.toNat_and, ones, Nat.and_two_pow_sub_one_eq_mod]

theorem toNat_shiftRight_last (w : Word) : (w >>> 31).toNat = w.toNat / 2 ^ 31 := by
  rw [UInt32.toNat_shiftRight, Nat.shiftRight_eq_div_pow]
  rfl

theorem isNegative_iff (w : Word) : w.isNegative = true ↔ 0x80000000 ≤ w.toNat := by
  have bound := w.toNat_lt
  have one : (1 : Word).toNat = 1 := rfl
  rw [isNegative, beq_iff_eq, ← UInt32.toNat_inj, toNat_shiftRight_last, one]
  omega

/-- The last bit is the sign. -/
theorem bit_last (w : Word) : w.bit 31 = w.isNegative := by
  have bound := w.toNat_lt
  have masked : (w >>> 31 &&& (1 : Word)).toNat = (w >>> 31).toNat % 2 :=
    (UInt32.toNat_and ..).trans (Nat.and_one_is_mod _)
  have same : w >>> 31 &&& (1 : Word) = w >>> 31 := by
    rw [← UInt32.toNat_inj, masked, toNat_shiftRight_last]
    omega
  rw [bit, same, isNegative]

theorem getLsbD_one_shiftLeft {i : Word} (small : i.toNat < 32) {j : Nat} (h : j < 32) :
    ((1 : Word) <<< i).toBitVec.getLsbD j = decide (i.toNat = j) := by
  simp only [UInt32.toBitVec_shiftLeft, BitVec.shiftLeft_eq', BitVec.getLsbD_shiftLeft,
    UInt32.toBitVec_one, BitVec.getLsbD_one, BitVec.toNat_umod, UInt32.toNat_toBitVec, h]
  simp only [BitVec.reduceToNat, Nat.mod_eq_of_lt small]
  by_cases same : i.toNat = j
  · simp [same]
  · simp [same]
    omega

theorem getLsbD_withBit (w : Word) {i : Word} (small : i.toNat < 32) (value : Bool) {j : Nat}
    (h : j < 32) :
    (w.withBit i value).toBitVec.getLsbD j =
      if i.toNat = j then value else w.toBitVec.getLsbD j := by
  cases value with
  | false =>
    change (w &&& ~~~(1 <<< i)).toBitVec.getLsbD j = _
    rw [UInt32.toBitVec_and, UInt32.toBitVec_not, BitVec.getLsbD_and, BitVec.getLsbD_not,
      getLsbD_one_shiftLeft small h]
    split <;> simp_all
  | true =>
    change (w ||| 1 <<< i).toBitVec.getLsbD j = _
    rw [UInt32.toBitVec_or, BitVec.getLsbD_or, getLsbD_one_shiftLeft small h]
    split <;> simp_all

theorem bit_withBit (w : Word) {i j : Word} (hi : i.toNat < 32) (hj : j.toNat < 32)
    (value : Bool) : (w.withBit i value).bit j = if i = j then value else w.bit j := by
  rw [bit_eq_getLsbD _ hj, bit_eq_getLsbD _ hj, getLsbD_withBit w hi value hj]
  simp only [UInt32.toNat_inj]

theorem withBit_withBit (w i : Word) (value : Bool) :
    (w.withBit i value).withBit i value = w.withBit i value := by
  cases value with
  | false =>
    change w &&& ~~~(1 <<< i) &&& ~~~(1 <<< i) = w &&& ~~~(1 <<< i)
    rw [UInt32.and_assoc, UInt32.and_self]
  | true =>
    change (w ||| 1 <<< i) ||| 1 <<< i = w ||| 1 <<< i
    rw [UInt32.or_assoc, UInt32.or_self]

theorem withBit_eq_self_iff {w i : Word} (small : i.toNat < 32) {value : Bool} :
    w.withBit i value = w ↔ w.bit i = value := by
  constructor
  · intro same
    rw [← same, bit_withBit w small small, if_pos rfl]
  · intro same
    apply ext_bits
    intro j h
    rw [getLsbD_withBit w small value h]
    split
    next here => rw [← same, bit_eq_getLsbD w small, here]
    next => rfl

/-! ### Shifts -/

theorem toBitVec_shiftLeft (w n : Word) :
    (w <<< n).toBitVec = w.toBitVec <<< (n.toNat % 32) := by
  rw [UInt32.toBitVec_shiftLeft, BitVec.shiftLeft_eq', BitVec.toNat_umod, UInt32.toNat_toBitVec]
  rfl

theorem toBitVec_shiftRight (w n : Word) :
    (w >>> n).toBitVec = w.toBitVec >>> (n.toNat % 32) := by
  rw [UInt32.toBitVec_shiftRight, BitVec.ushiftRight_eq', BitVec.toNat_umod, UInt32.toNat_toBitVec]
  rfl

/-- A rotation only depends on the count modulo 32. -/
theorem toBitVec_rotateRight (w n : Word) :
    (w.rotateRight n).toBitVec = w.toBitVec.rotateRight n.toNat := by
  have bound := n.toNat_lt
  have width : (32 : Word).toNat = 32 := rfl
  have back : (32 - n).toNat % 32 = (32 - n.toNat % 32) % 32 := by
    rw [UInt32.toNat_sub, width]
    omega
  rw [rotateRight, UInt32.toBitVec_or, toBitVec_shiftRight, toBitVec_shiftLeft, back,
    BitVec.rotateRight_def]
  obtain whole | part := Nat.eq_zero_or_pos (n.toNat % 32)
  · rw [whole, BitVec.shiftLeft_eq_zero (n := 32 - 0) (by decide), BitVec.or_zero]
    change w.toBitVec >>> 0 ||| w.toBitVec <<< 0 = _
    rw [BitVec.shiftLeft_zero, BitVec.ushiftRight_zero, BitVec.or_self]
  · rw [Nat.mod_eq_of_lt (by omega : 32 - n.toNat % 32 < 32)]

theorem rotateRight_zero (w : Word) : w.rotateRight 0 = w := by
  have left : w <<< (32 - 0 : Word) = w := by
    rw [← UInt32.toNat_inj, UInt32.toNat_shiftLeft]
    exact Nat.mod_eq_of_lt w.toNat_lt
  rw [rotateRight, left, UInt32.shiftRight_zero, UInt32.or_self]

/-! ### Masks -/

theorem or_and_distrib (a b m : Word) : (a ||| b) &&& m = (a &&& m) ||| (b &&& m) := by
  apply ext_bits
  intro i _
  simp only [UInt32.toBitVec_and, UInt32.toBitVec_or, BitVec.getLsbD_and, BitVec.getLsbD_or,
    Bool.and_or_distrib_right]

theorem or_and_of_disjoint {a b m : Word} (disjoint : b &&& m = 0) :
    (a ||| b) &&& m = a &&& m := by
  rw [or_and_distrib, disjoint, UInt32.or_zero]

theorem and_and_of_covered {a b m : Word} (covered : b &&& m = m) : (a &&& b) &&& m = a &&& m := by
  rw [UInt32.and_assoc, covered]

theorem not_and_of_disjoint {b m : Word} (disjoint : b &&& m = 0) : ~~~b &&& m = m := by
  apply ext_bits
  intro i small
  have apart : (b.toBitVec.getLsbD i && m.toBitVec.getLsbD i) = false := by
    rw [← BitVec.getLsbD_and, ← UInt32.toBitVec_and, disjoint]
    exact BitVec.getLsbD_zero
  rw [UInt32.toBitVec_and, UInt32.toBitVec_not, BitVec.getLsbD_and, BitVec.getLsbD_not]
  cases h : m.toBitVec.getLsbD i <;> simp_all

/-- Replacing a bit does not show through a mask that leaves it out. -/
theorem withBit_and {w i m : Word} (disjoint : 1 <<< i &&& m = 0) (value : Bool) :
    w.withBit i value &&& m = w &&& m := by
  cases value with
  | false => exact and_and_of_covered (not_and_of_disjoint disjoint)
  | true => exact or_and_of_disjoint disjoint

/-! ### Bytes -/

/-- A byte behind a word whose highest byte is given up. -/
theorem toNat_shiftLeft_or_byte (w : Word) (b : Byte) :
    (w <<< 8 ||| b.toUInt32).toNat = w.toNat % 2 ^ 24 * 2 ^ 8 + b.toNat := by
  have small : b.toNat < 2 ^ 8 := b.toNat_lt
  have shifted : (w <<< 8).toNat = (w.toNat % 2 ^ 24) <<< 8 := by
    have eight : (8 : Word).toNat % 32 = 8 := rfl
    rw [UInt32.toNat_shiftLeft, eight, Nat.shiftLeft_eq, Nat.shiftLeft_eq]
    omega
  rw [UInt32.toNat_or, shifted, UInt8.toNat_toUInt32, ← Nat.shiftLeft_add_eq_or_of_lt small,
    Nat.shiftLeft_eq]

theorem toNat_ofBytes (b0 b1 b2 b3 : Byte) :
    (ofBytes b0 b1 b2 b3).toNat =
      ((b0.toNat * 2 ^ 8 + b1.toNat) * 2 ^ 8 + b2.toNat) * 2 ^ 8 + b3.toNat := by
  have twice (w : Word) : w <<< 8 <<< 8 = w <<< 16 :=
    (UInt32.shiftLeft_add (by decide) (by decide) (by decide)).symm
  have thrice (w : Word) : w <<< 16 <<< 8 = w <<< 24 :=
    (UInt32.shiftLeft_add (by decide) (by decide) (by decide)).symm
  have steps : ofBytes b0 b1 b2 b3 =
      ((b0.toUInt32 <<< 8 ||| b1.toUInt32) <<< 8 ||| b2.toUInt32) <<< 8 ||| b3.toUInt32 := by
    simp only [ofBytes, UInt32.shiftLeft_or, twice, thrice]
  have bound0 := b0.toNat_lt
  have bound1 := b1.toNat_lt
  have bound2 := b2.toNat_lt
  rw [steps, toNat_shiftLeft_or_byte, toNat_shiftLeft_or_byte, toNat_shiftLeft_or_byte,
    UInt8.toNat_toUInt32]
  omega

theorem toNat_ofHalves (high low : HalfWord) :
    (ofHalves high low).toNat = high.toNat * 2 ^ 16 + low.toNat := by
  have small : low.toNat < 2 ^ 16 := low.toNat_lt
  have bound := high.toNat_lt
  have shifted : (high.toUInt32 <<< 16).toNat = high.toNat <<< 16 := by
    have sixteen : (16 : Word).toNat % 32 = 16 := rfl
    rw [UInt32.toNat_shiftLeft, sixteen, UInt16.toNat_toUInt32, Nat.shiftLeft_eq]
    omega
  rw [ofHalves, UInt32.toNat_or, shifted, UInt16.toNat_toUInt32,
    ← Nat.shiftLeft_add_eq_or_of_lt small, Nat.shiftLeft_eq]

theorem toNat_shiftRight_toUInt8 (w : Word) {n : Word} (small : n.toNat < 32) :
    (w >>> n).toUInt8.toNat = w.toNat / 2 ^ n.toNat % 2 ^ 8 := by
  rw [UInt32.toNat_toUInt8, UInt32.toNat_shiftRight, Nat.mod_eq_of_lt small,
    Nat.shiftRight_eq_div_pow]

theorem toNat_byte0 (w : Word) : w.byte0.toNat = w.toNat / 2 ^ 24 % 2 ^ 8 :=
  w.toNat_shiftRight_toUInt8 (by decide)

theorem toNat_byte1 (w : Word) : w.byte1.toNat = w.toNat / 2 ^ 16 % 2 ^ 8 :=
  w.toNat_shiftRight_toUInt8 (by decide)

theorem toNat_byte2 (w : Word) : w.byte2.toNat = w.toNat / 2 ^ 8 % 2 ^ 8 :=
  w.toNat_shiftRight_toUInt8 (by decide)

theorem toNat_byte3 (w : Word) : w.byte3.toNat = w.toNat % 2 ^ 8 := UInt32.toNat_toUInt8 w

theorem ofBytes_bytes (w : Word) : ofBytes w.byte0 w.byte1 w.byte2 w.byte3 = w := by
  have bound := w.toNat_lt
  rw [← UInt32.toNat_inj, toNat_ofBytes, toNat_byte0, toNat_byte1, toNat_byte2, toNat_byte3]
  omega

/-- The bytes of a word, lowest first. -/
def littleEndian (w : Word) : List Byte := [w.byte3, w.byte2, w.byte1, w.byte0]

/-- The last bit of a word is the last bit of its highest byte. -/
theorem littleEndian_withBit_last (w : Word) (value : Bool) :
    (w.withBit 31 value).littleEndian =
      w.littleEndian.modify 3 fun b => if value then b ||| 0x80 else b &&& 0x7F := by
  cases value with
  | false =>
    change littleEndian (w &&& 0x7FFFFFFF) = [w.byte3, w.byte2, w.byte1, w.byte0 &&& 0x7F]
    simp only [littleEndian, byte0, byte1, byte2, byte3, UInt32.shiftRight_and, UInt32.toUInt8_and,
      List.cons.injEq, and_true]
    exact ⟨UInt8.and_neg_one, UInt8.and_neg_one, UInt8.and_neg_one, rfl⟩
  | true =>
    change littleEndian (w ||| 0x80000000) = [w.byte3, w.byte2, w.byte1, w.byte0 ||| 0x80]
    simp only [littleEndian, byte0, byte1, byte2, byte3, UInt32.shiftRight_or, UInt32.toUInt8_or,
      List.cons.injEq, and_true]
    exact ⟨UInt8.or_zero, UInt8.or_zero, UInt8.or_zero, rfl⟩

theorem littleEndian_ofBytes (b0 b1 b2 b3 : Byte) :
    (ofBytes b0 b1 b2 b3).littleEndian = [b3, b2, b1, b0] := by
  have bound0 := b0.toNat_lt
  have bound1 := b1.toNat_lt
  have bound2 := b2.toNat_lt
  have bound3 := b3.toNat_lt
  have number := toNat_ofBytes b0 b1 b2 b3
  simp only [littleEndian, List.cons.injEq, and_true, ← UInt8.toNat_inj, toNat_byte0, toNat_byte1,
    toNat_byte2, toNat_byte3]
  omega

end Word

namespace HalfWord

/-- The bytes of a halfword, lowest first. -/
def littleEndian (h : HalfWord) : List Byte := [h.byte1, h.byte0]

theorem toNat_or_shiftLeft (low high : Byte) :
    (low.toUInt16 ||| high.toUInt16 <<< 8).toNat = high.toNat * 2 ^ 8 + low.toNat := by
  have small : low.toNat < 2 ^ 8 := low.toNat_lt
  have bound := high.toNat_lt
  have shifted : (high.toUInt16 <<< 8).toNat = high.toNat <<< 8 := by
    have eight : (8 : HalfWord).toNat % 16 = 8 := rfl
    rw [UInt16.toNat_shiftLeft, eight, UInt8.toNat_toUInt16, Nat.shiftLeft_eq]
    omega
  rw [UInt16.toNat_or, shifted, UInt8.toNat_toUInt16, Nat.or_comm,
    ← Nat.shiftLeft_add_eq_or_of_lt small, Nat.shiftLeft_eq]

theorem toNat_byte0 (h : HalfWord) : h.byte0.toNat = h.toNat / 2 ^ 8 := by
  have bound := h.toNat_lt
  have eight : (8 : HalfWord).toNat % 16 = 8 := rfl
  rw [byte0, UInt16.toNat_toUInt8, UInt16.toNat_shiftRight, eight, Nat.shiftRight_eq_div_pow]
  omega

theorem toNat_byte1 (h : HalfWord) : h.byte1.toNat = h.toNat % 2 ^ 8 := UInt16.toNat_toUInt8 h

theorem or_shiftLeft_bytes (h : HalfWord) : h.byte1.toUInt16 ||| h.byte0.toUInt16 <<< 8 = h := by
  rw [← UInt16.toNat_inj, toNat_or_shiftLeft, toNat_byte0, toNat_byte1]
  omega

theorem littleEndian_or_shiftLeft (low high : Byte) :
    littleEndian (low.toUInt16 ||| high.toUInt16 <<< 8) = [low, high] := by
  have bound := low.toNat_lt
  have number := toNat_or_shiftLeft low high
  simp only [littleEndian, List.cons.injEq, and_true, ← UInt8.toNat_inj, toNat_byte0, toNat_byte1]
  omega

theorem toNat_ofBytes (b0 b1 : Byte) : (ofBytes b0 b1).toNat = b0.toNat * 2 ^ 8 + b1.toNat := by
  rw [ofBytes, UInt16.or_comm, toNat_or_shiftLeft]

theorem byte0_ofBytes (b0 b1 : Byte) : (ofBytes b0 b1).byte0 = b0 := by
  have bound := b1.toNat_lt
  rw [← UInt8.toNat_inj, toNat_byte0, toNat_ofBytes]
  omega

theorem byte1_ofBytes (b0 b1 : Byte) : (ofBytes b0 b1).byte1 = b1 := by
  have bound := b1.toNat_lt
  rw [← UInt8.toNat_inj, toNat_byte1, toNat_ofBytes]
  omega

end HalfWord

end ArmConsole
