/-!
Machine words. Arithmetic on a word is modulo 2^32. Bits are counted from the least significant
one. The bytes of a word are counted from the most significant one, because guest memory is
big-endian: byte 0 is the byte at the lowest address.
-/

namespace ArmConsole

abbrev Word := UInt32

abbrev HalfWord := UInt16

abbrev Byte := UInt8

/-- One of the sixteen registers that an instruction can name. -/
abbrev RegisterNumber := Fin 16

namespace RegisterNumber

theorem bound (r : RegisterNumber) : r.val < 16 := r.isLt

/-! Arguments are passed in R0 to R3. -/

abbrev r0 : RegisterNumber := 0
abbrev r1 : RegisterNumber := 1
abbrev r2 : RegisterNumber := 2
abbrev r3 : RegisterNumber := 3

/-- Holds the return address after a branch with link or an exception. -/
abbrev link : RegisterNumber := 14

abbrev pc : RegisterNumber := 15

end RegisterNumber

namespace Word

/-- Bit `i` of `w`, for `i < 32`. -/
@[inline] def bit (w i : Word) : Bool := (w >>> i) &&& 1 == 1

/-- `w` with bit `i` replaced, for `i < 32`. -/
@[inline] def withBit (w i : Word) (value : Bool) : Word :=
  if value then w ||| (1 <<< i) else w &&& ~~~(1 <<< i)

/-- The `width` bits of `w` from bit `low` up, as a number; `width < 32`. -/
@[inline] def field (w low width : Word) : Word := (w >>> low) &&& ((1 <<< width) - 1)

/-- Rotation to the right by `n` modulo 32 places. A shift count is taken modulo 32, so for a
count of 0 both halves are `w` itself. -/
@[inline] def rotateRight (w n : Word) : Word := (w >>> n) ||| (w <<< (32 - n))

/-- Shift to the right by `n < 32` places that copies the sign bit. -/
@[inline] def shiftRightSigned (w n : Word) : Word := (w.toInt32 >>> n.toInt32).toUInt32

/-- Reads the low `bits` bits as a two's complement number, `0 < bits ≤ 32`. -/
@[inline] def signExtend (w bits : Word) : Word := (w <<< (32 - bits)).shiftRightSigned (32 - bits)

/-- The value of `w` as a two's complement number. -/
def toSigned (w : Word) : Int := w.toInt32.toInt

def isNegative (w : Word) : Bool := w >>> 31 == 1

/-- How many of the 32 bits are set. -/
def popCount (w : Word) : Nat := (List.range 32).countP fun i => w.bit (.ofNat i)

@[inline] def byte0 (w : Word) : Byte := (w >>> 24).toUInt8
@[inline] def byte1 (w : Word) : Byte := (w >>> 16).toUInt8
@[inline] def byte2 (w : Word) : Byte := (w >>> 8).toUInt8
@[inline] def byte3 (w : Word) : Byte := w.toUInt8

/-- The big-endian word of four bytes. -/
@[inline] def ofBytes (b0 b1 b2 b3 : Byte) : Word :=
  (b0.toUInt32 <<< 24) ||| (b1.toUInt32 <<< 16) ||| (b2.toUInt32 <<< 8) ||| b3.toUInt32

@[inline] def ofHalves (high low : HalfWord) : Word := (high.toUInt32 <<< 16) ||| low.toUInt32

@[inline] def highHalf (w : Word) : HalfWord := (w >>> 16).toUInt16
@[inline] def lowHalf (w : Word) : HalfWord := w.toUInt16

theorem toNat_and_lt {w mask : Word} {n : Nat} (h : mask.toNat < n) : (w &&& mask).toNat < n := by
  rw [UInt32.toNat_and]
  exact Nat.lt_of_le_of_lt Nat.and_le_right h

/-- The register number in the four bits from bit `low` up. -/
@[inline] def registerField (w low : Word) : RegisterNumber :=
  ⟨((w >>> low) &&& 15).toNat, toNat_and_lt (by decide)⟩

end Word

namespace HalfWord

@[inline] def bit (h : HalfWord) (i : HalfWord) : Bool := (h >>> i) &&& 1 == 1

@[inline] def byte0 (h : HalfWord) : Byte := (h >>> 8).toUInt8
@[inline] def byte1 (h : HalfWord) : Byte := h.toUInt8

/-- The big-endian halfword of two bytes. -/
@[inline] def ofBytes (b0 b1 : Byte) : HalfWord := (b0.toUInt16 <<< 8) ||| b1.toUInt16

end HalfWord

end ArmConsole
