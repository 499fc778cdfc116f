import ArmConsole.Controller.StreamChannel
import Mathlib.Algebra.Group.Nat.Defs
import Mathlib.Tactic.SplitIfs

/-!
The ways an access to a stream channel can go: nothing happens without a current buffer, an element
of it is moved as long as there is one left, and a used-up buffer gives way to the next one or
leaves the channel disarmed. Main statement: a cursor in a buffer goes through its elements in
order and is used up behind the last of them.
-/

namespace ArmConsole

namespace StreamChannel

variable {c : StreamChannel}

theorem armed_iff : c.armed ↔ c.startAddress ≠ 0 := bne_iff_ne

theorem remaining_pos_iff : 0 < c.remaining ↔ c.index < c.startLength := by
  rw [remaining, UInt32.lt_iff_toNat_lt]
  omega

/-- The channel without its current buffer. -/
def disarmed (c : StreamChannel) : StreamChannel := { c with index := 0, startAddress := 0 }

/-- The channel when its next buffer has taken over. -/
def promoted (c : StreamChannel) : StreamChannel :=
  { c with index := 0, startAddress := c.nextAddress, startLength := c.nextLength }

/-! ### Accesses -/

theorem access_of_disarmed (idle : c.armed = false) : c.access = ⟨c, false, none⟩ := by
  rw [access, idle]
  rfl

theorem access_of_left (armed : c.armed) (left : c.index < c.startLength) :
    c.access = c.move false := by
  rw [access, armed, if_neg (by decide), if_pos (remaining_pos_iff.2 left)]

theorem access_of_last (armed : c.armed) (used : c.startLength ≤ c.index)
    (last : c.nextAddress = 0) : c.access = ⟨c.disarmed, true, none⟩ := by
  have empty : ¬0 < c.remaining := fun left => UInt32.not_lt.2 used (remaining_pos_iff.1 left)
  rw [access, armed, if_neg (by decide), if_neg empty, if_pos (beq_iff_eq.2 last)]
  rfl

theorem access_of_next (armed : c.armed) (used : c.startLength ≤ c.index)
    (next : c.nextAddress ≠ 0) : c.access = c.promoted.move true := by
  have empty : ¬0 < c.remaining := fun left => UInt32.not_lt.2 used (remaining_pos_iff.1 left)
  rw [access, armed, if_neg (by decide), if_neg empty, if_neg (mt beq_iff_eq.1 next)]
  rfl

/-! ### Registers -/

theorem writeRegister_address (c : StreamChannel) (address : Word) :
    c.writeRegister 0x0 address = { c with startAddress := address, index := 0 } := rfl

theorem writeRegister_length (c : StreamChannel) {length : Word} (some : length ≠ 0) :
    c.writeRegister 0x4 length = { c with startLength := length, index := 0 } := by
  have kept : (if length == 0 then 0 else c.startAddress) = c.startAddress :=
    if_neg (mt beq_iff_eq.1 some)
  change { c with startLength := length, index := 0, startAddress := _ } = _
  rw [kept]

theorem writeRegister_nextAddress (c : StreamChannel) (address : Word) :
    c.writeRegister 0x8 address = { c with nextAddress := address } := rfl

theorem writeRegister_nextLength (c : StreamChannel) {length : Word} (some : length ≠ 0) :
    c.writeRegister 0xC length = { c with nextLength := length } := by
  have kept : (if length == 0 then 0 else c.nextAddress) = c.nextAddress :=
    if_neg (mt beq_iff_eq.1 some)
  change { c with nextLength := length, nextAddress := _ } = _
  rw [kept]

/-- No access touches the registers of the next buffer. -/
theorem next_access (c : StreamChannel) :
    c.access.channel.nextAddress = c.nextAddress ∧ c.access.channel.nextLength = c.nextLength := by
  unfold access
  split_ifs <;> exact ⟨rfl, rfl⟩

end StreamChannel

/-! ### Buffers -/

/-- A buffer in RAM, as it is programmed. The longest one leaves room for the cursor behind it. -/
structure StreamBuffer where
  address : Word
  length : Word
  armed : address ≠ 0
  positive : 0 < length.toNat
  bounded : length.toNat ≤ 2 ^ 32 - 2

namespace StreamBuffer

/-- How many elements a buffer has. The last one may go beyond an odd end. -/
def count (b : StreamBuffer) : Nat := (b.length.toNat + 1) / 2

/-- Where in RAM element `i` is. -/
def element (b : StreamBuffer) (i : Nat) : RamAddress :=
  ⟨(b.address.toNat + 2 * i) % 2 ^ 32 % GuestMemory.ramSize, Nat.mod_lt _ (by decide)⟩

theorem count_pos (b : StreamBuffer) : 0 < b.count := by
  have positive := b.positive
  unfold count
  omega

theorem length_ne_zero (b : StreamBuffer) : b.length ≠ 0 := by
  intro zero
  have positive := b.positive
  rw [zero] at positive
  exact Nat.lt_irrefl 0 positive

/-- The channel stands in a buffer with `i` elements moved. -/
structure At (b : StreamBuffer) (i : Nat) (c : StreamChannel) : Prop where
  address : c.startAddress = b.address
  length : c.startLength = b.length
  index : c.index.toNat = 2 * i

namespace At

variable {b : StreamBuffer} {i : Nat} {c : StreamChannel}

theorem armed (place : b.At i c) : c.armed := by
  rw [StreamChannel.armed_iff, place.address]
  exact b.armed

theorem left_iff (place : b.At i c) : c.index < c.startLength ↔ i < b.count := by
  rw [UInt32.lt_iff_toNat_lt, place.index, place.length, count]
  omega

theorem used_up (place : b.At i c) (last : b.count ≤ i) : c.startLength ≤ c.index :=
  UInt32.not_lt.1 fun left => Nat.not_lt.2 last (place.left_iff.1 left)

theorem target_move (place : b.At i c) (exhausted : Bool) :
    (c.move exhausted).target = some (b.element i) := by
  have address : c.currentAddress.toNat = (b.address.toNat + 2 * i) % 2 ^ 32 := by
    rw [StreamChannel.currentAddress, UInt32.toNat_add, place.address, place.index]
  refine congrArg some (Fin.ext ?_)
  change c.currentAddress.toNat % GuestMemory.ramSize = _
  rw [address]
  rfl

/-- The cursor goes on to the next element. It does not wrap around. -/
theorem move (place : b.At i c) (inside : i < b.count) (exhausted : Bool) :
    b.At (i + 1) (c.move exhausted).channel where
  address := place.address
  length := place.length
  index := by
    have bounded := b.bounded
    have two : (2 : Word).toNat = 2 := rfl
    change (c.index + 2).toNat = _
    unfold count at inside
    rw [UInt32.toNat_add, place.index, two]
    omega

/-- A next buffer that takes over is at its first element. -/
theorem promoted (address : c.nextAddress = b.address) (length : c.nextLength = b.length) :
    b.At 0 c.promoted :=
  ⟨address, length, rfl⟩

end At

end StreamBuffer

end ArmConsole
