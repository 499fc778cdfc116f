import ArmConsole.Expansion.Scripted
import ArmConsole.Proofs.Controller.Line
import ArmConsole.Proofs.Expansion.Stream
import ArmConsole.Proofs.Instruction.Fields
import ArmConsole.Proofs.Memory.Frame
import ArmConsole.Proofs.Memory.Location
import ArmConsole.System.AddressSpace
import Mathlib.Tactic.IntervalCases

/-!
Transfers from the expansion bus. A transfer takes as many words as the length register asks for off
the selected device's stream and stores their bytes from the destination on, letting go those that
fall outside of RAM. Main statement: a write to the enable register carries out a transfer exactly
if it sets the expansion bus's bit, and the transfer leaves every byte of RAM, the registers and the
pending interrupts as the length, the destination and the stream say.
-/

namespace ArmConsole

namespace AddressSpace

variable {δ : Type} [ExpansionDevice δ]

/-! ### Bytes -/

/-- Where in the stream the byte is that a transfer stores `n` bytes behind its destination.
Swapping turns every word around. -/
def place (swapped : Bool) (n : Nat) : Nat := if swapped then n / 4 * 4 + (3 - n % 4) else n

theorem readByte_storeByte (memory : GuestMemory) (address : Word) (b : Byte) (a : RamAddress) :
    (storeByte memory address b).readByte a =
      if a.val = address.toNat then b else memory.readByte a := by
  unfold storeByte
  split
  next c ram =>
    rw [Location.ram_of_ofAddress ram]
    exact memory.readByte_writeByte c a b
  next w outside =>
    have beyond : a.val ≠ address.toNat := by
      intro same
      unfold Location.ofAddress at outside
      rw [dif_pos (same ▸ a.isLt)] at outside
      exact Location.noConfusion outside
    rw [if_neg beyond]

/-- How far a byte of RAM is behind an address. Addresses start over behind the last. -/
def distance (address : Word) (a : RamAddress) : Nat := (.ofNat a.val - address : Word).toNat

theorem val_eq_iff (address : Word) (a : RamAddress) {n : Nat} (small : n < 2 ^ 32) :
    a.val = (address + .ofNat n).toNat ↔ distance address a = n := by
  have inRam : a.val < 0x300000 := a.isLt
  have bound := address.toNat_lt
  have count : (UInt32.ofNat n).toNat = n := UInt32.toNat_ofNat_of_lt' small
  rw [distance, UInt32.toNat_sub, UInt32.toNat_add, a.toNat_toWord, count]
  omega

theorem distance_add_four (address : Word) (a : RamAddress) :
    distance (address + 4) a =
      if distance address a < 4 then distance address a + (2 ^ 32 - 4)
      else distance address a - 4 := by
  have inRam : a.val < 0x300000 := a.isLt
  have bound := address.toNat_lt
  have four : (4 : Word).toNat = 4 := rfl
  simp only [distance, UInt32.toNat_sub, UInt32.toNat_add, a.toNat_toWord, four]
  split <;> omega

/-- Four bytes in a row, as they are stored one after the other. -/
theorem readByte_storeFour (memory : GuestMemory) (address : Word) (byte : Nat → Byte)
    (a : RamAddress) :
    (storeByte (storeByte (storeByte (storeByte memory address (byte 0)) (address + 1) (byte 1))
      (address + 2) (byte 2)) (address + 3) (byte 3)).readByte a =
      if distance address a < 4 then byte (distance address a) else memory.readByte a := by
  have first : a.val = address.toNat ↔ distance address a = 0 := by
    have zero : a.val = (address + 0).toNat ↔ distance address a = 0 :=
      val_eq_iff address a (by decide)
    rwa [UInt32.add_zero] at zero
  have second : a.val = (address + 1).toNat ↔ distance address a = 1 :=
    val_eq_iff address a (by decide)
  have third : a.val = (address + 2).toNat ↔ distance address a = 2 :=
    val_eq_iff address a (by decide)
  have fourth : a.val = (address + 3).toNat ↔ distance address a = 3 :=
    val_eq_iff address a (by decide)
  simp only [readByte_storeByte, first, second, third, fourth]
  by_cases inside : distance address a < 4
  · rw [if_pos inside]
    obtain same | same | same | same : distance address a = 0 ∨ distance address a = 1 ∨
        distance address a = 2 ∨ distance address a = 3 := by omega
    all_goals simp [same]
  · rw [if_neg inside, if_neg (by omega), if_neg (by omega), if_neg (by omega), if_neg (by omega)]

/-- A transfer of no more than the whole address space takes the stream in order, and stores each
byte in its place. -/
theorem transferWords_drain (swapped : Bool) (memory : GuestMemory) (bus : ExpansionBus δ)
    (taken : Nat) (address : Word) {count : Nat} (whole : 4 * count ≤ 2 ^ 32) :
    (transferWords swapped memory (bus.drain taken) address count).2 =
        bus.drain (taken + 4 * count) ∧
      ∀ a, (transferWords swapped memory (bus.drain taken) address count).1.readByte a =
        if distance address a < 4 * count then
          bus.stream (taken + place swapped (distance address a))
        else memory.readByte a := by
  induction count generalizing memory taken address with
  | zero => exact ⟨rfl, fun a => rfl⟩
  | succ count ih =>
    let byte (i : Nat) := bus.stream (taken + place swapped i)
    have word : transferWords swapped memory (bus.drain taken) address (count + 1) =
        transferWords swapped
          (storeByte (storeByte (storeByte (storeByte memory address (byte 0)) (address + 1)
            (byte 1)) (address + 2) (byte 2)) (address + 3) (byte 3))
          (bus.drain (taken + 4)) (address + 4) count := by
      simp only [transferWords, bus.data_drain]
      cases swapped <;> rfl
    rw [word]
    obtain ⟨rest, bytes⟩ := ih _ (taken + 4) (address + 4) (by omega)
    refine ⟨?_, ?_⟩
    · rw [rest]
      congr 1
      omega
    · intro a
      rw [bytes a, readByte_storeFour, distance_add_four]
      by_cases here : distance address a < 4
      · rw [if_pos here, if_neg (by omega), if_pos here, if_pos (by omega)]
      · rw [if_neg here, if_neg here]
        by_cases inside : distance address a < 4 * (count + 1)
        · have behind : taken + 4 + place swapped (distance address a - 4) =
              taken + place swapped (distance address a) := by
            unfold place
            split <;> omega
          rw [if_pos (by omega), if_pos inside, behind]
        · rw [if_neg (by omega), if_neg inside]

/-! ### Lengths -/

section Lengths

omit [ExpansionDevice δ]

theorem transferCount_cases (length : Word) :
    length.toNat < 2 ^ 31 ∧ transferCount length = length.toNat / 4 + 1 ∨
      2 ^ 31 ≤ length.toNat ∧ transferCount length = 0 := by
  have sign := Word.isNegative_iff length
  by_cases negative : length.isNegative = true
  · exact .inr ⟨sign.1 negative, if_pos negative⟩
  · exact .inl ⟨Nat.lt_of_not_le (mt sign.2 negative), if_neg negative⟩

/-- As many words as the length, a signed number of bytes less four, asks for. -/
theorem transferCount_eq (length : Word) :
    (transferCount length : Int) =
      if length.toSigned < 0 then 0 else length.toSigned / 4 + 1 := by
  have bound := length.toNat_lt
  have signed := Word.toSigned_eq length
  obtain ⟨positive, count⟩ | ⟨negative, count⟩ := transferCount_cases length
  · rw [if_pos positive] at signed
    rw [if_neg (by omega), count]
    omega
  · rw [if_neg (by omega)] at signed
    rw [if_pos (by omega), count]
    rfl

theorem transferCount_le (length : Word) : 4 * transferCount length ≤ 2 ^ 31 := by
  obtain ⟨positive, count⟩ | ⟨negative, count⟩ := transferCount_cases length <;> omega

theorem toNat_four_mul {count : Nat} (few : 4 * count < 2 ^ 32) :
    (4 * .ofNat count : Word).toNat = 4 * count := by
  have four : (4 : Word).toNat = 4 := rfl
  have number : (UInt32.ofNat count).toNat = count :=
    UInt32.toNat_ofNat_of_lt' (Nat.lt_of_le_of_lt (by omega) few)
  rw [UInt32.toNat_mul, four, number]
  exact Nat.mod_eq_of_lt few

/-- The length that a transfer leaves behind. -/
theorem toSigned_length_sub (length : Word) :
    (length - 4 * .ofNat (transferCount length)).toSigned =
      length.toSigned - 4 * transferCount length := by
  have few := transferCount_le length
  have bound := length.toNat_lt
  rw [Word.toSigned_eq, Word.toSigned_eq, UInt32.toNat_sub, toNat_four_mul (by omega)]
  obtain ⟨positive, count⟩ | ⟨negative, count⟩ := transferCount_cases length
  · rw [if_neg (by omega), if_pos positive]
    omega
  · rw [if_neg (by omega), if_neg (by omega)]
    omega

end Lengths

/-! ### Whole transfers -/

/-- The device in slot `select`, if there is one, has given `4 * count` bytes of its stream to RAM,
and without one as many zeros have been stored. Everything that a transfer reads is what it was in
`s`, but for the enable register, which holds `enabled`. -/
structure Transferred (s : AddressSpace δ) (enabled : Word) (count : Nat) (t : AddressSpace δ) :
    Prop where
  stored : ∀ j < count, ∀ i < 4, ∀ a : RamAddress,
    a.val = (s.io.graphics.read GraphicsRegisters.transferAddress + .ofNat (4 * j + i)).toNat →
    t.memory.readByte a =
      if s.io.controller.register SystemController.transferControl &&& swapBit = 0 then
        s.io.expansion.stream (4 * j + i)
      else s.io.expansion.stream (4 * j + 3 - i)
  kept : ∀ a : RamAddress,
    (∀ n < 4 * count,
      a.val ≠ (s.io.graphics.read GraphicsRegisters.transferAddress + .ofNat n).toNat) →
    t.memory.readByte a = s.memory.readByte a
  taken : t.io.expansion = s.io.expansion.drain (4 * count)
  address : t.io.graphics.read GraphicsRegisters.transferAddress =
    s.io.graphics.read GraphicsRegisters.transferAddress + 4 * .ofNat count
  length : (t.io.graphics.read GraphicsRegisters.transferLength).toSigned =
    (s.io.graphics.read GraphicsRegisters.transferLength).toSigned - 4 * count
  overdrawn : 0 < count →
    -4 ≤ (t.io.graphics.read GraphicsRegisters.transferLength).toSigned ∧
      (t.io.graphics.read GraphicsRegisters.transferLength).toSigned ≤ -1
  enable : t.io.controller.register SystemController.transferEnable = enabled &&& ~~~transferBit
  control : t.io.controller.register SystemController.transferControl =
    s.io.controller.register SystemController.transferControl ||| readyBit
  pending : ∀ source, t.io.controller.interrupts.isPending source =
    (s.io.controller.interrupts.isPending source || source = .primary 29)
  synced : t.io.controller.interrupts.Synced

theorem graphics_write_of_ne (graphics : GraphicsRegisters) {offset other : Word}
    (apart : GraphicsRegisters.slot offset ≠ GraphicsRegisters.slot other) (value : Word) :
    (graphics.write offset value).read other = graphics.read other :=
  Vector.getElem_set_ne (GraphicsRegisters.slot offset).isLt (GraphicsRegisters.slot other).isLt
    fun same => apart (Fin.ext same)

theorem graphics_write (graphics : GraphicsRegisters) (offset value : Word) :
    (graphics.write offset value).read offset = value :=
  Vector.getElem_set_self (GraphicsRegisters.slot offset).isLt

theorem transferred_runTransfer (s : AddressSpace δ) :
    Transferred s (s.io.controller.register SystemController.transferEnable)
      (transferCount (s.io.graphics.read GraphicsRegisters.transferLength)) s.runTransfer := by
  have few := transferCount_le (s.io.graphics.read GraphicsRegisters.transferLength)
  obtain ⟨taken, bytes⟩ := transferWords_drain
    (s.io.controller.register SystemController.transferControl &&& swapBit != 0) s.memory
    s.io.expansion 0 (s.io.graphics.read GraphicsRegisters.transferAddress)
    (Nat.le_trans few (by decide))
  rw [ExpansionBus.drain_zero] at taken bytes
  have registersApart : SystemController.slot SystemController.transferControl ≠
      SystemController.slot SystemController.transferEnable := by decide
  have graphicsApart : GraphicsRegisters.slot GraphicsRegisters.transferLength ≠
      GraphicsRegisters.slot GraphicsRegisters.transferAddress := by decide
  have rest : (s.runTransfer.io.graphics.read GraphicsRegisters.transferLength).toSigned =
      (s.io.graphics.read GraphicsRegisters.transferLength).toSigned -
        4 * transferCount (s.io.graphics.read GraphicsRegisters.transferLength) := by
    rw [← toSigned_length_sub]
    exact congrArg Word.toSigned (graphics_write _ _ _)
  constructor
  case stored =>
    intro j small i inWord a same
    have inside := (val_eq_iff _ a (n := 4 * j + i) (by omega)).1 same
    have byte := bytes a
    rw [inside, if_pos (by omega), Nat.zero_add] at byte
    refine byte.trans ?_
    by_cases straight : s.io.controller.register SystemController.transferControl &&& swapBit = 0
    · rw [if_pos straight, bne_eq_false_iff_eq.2 straight]
      rfl
    · have turned : (4 * j + i) / 4 * 4 + (3 - (4 * j + i) % 4) = 4 * j + 3 - i := by omega
      rw [if_neg straight, bne_iff_ne.2 straight, place, if_pos rfl, turned]
  case kept =>
    intro a outside
    refine (bytes a).trans (if_neg ?_)
    intro inside
    exact outside _ inside ((val_eq_iff _ a (by omega)).2 rfl)
  case taken =>
    rw [Nat.zero_add] at taken
    exact taken
  case address =>
    exact (graphics_write_of_ne _ graphicsApart _).trans (graphics_write _ _ _)
  case length => exact rest
  case overdrawn =>
    intro some
    have count := transferCount_eq (s.io.graphics.read GraphicsRegisters.transferLength)
    split at count <;> omega
  case enable =>
    exact (SystemController.register_withRegister_of_ne _ registersApart _).trans
      (SystemController.register_withRegister _ _ _)
  case control => exact SystemController.register_withRegister _ _ _
  case pending =>
    intro source
    refine (Interrupts.isPending_raise_primary _ _ source).trans ?_
    rw [← InterruptSource.among_one_shiftLeft source 29]
    rfl
  case synced => exact Interrupts.synced_raise _ _ _

/-! ### The enable register -/

omit [ExpansionDevice δ] in
/-- Bits are set in the enable register, nothing else happens. -/
def withEnabled (s : AddressSpace δ) (enabled : Word) : AddressSpace δ :=
  s.mapController fun c => c.withRegister SystemController.transferEnable enabled

theorem poke_set (s : AddressSpace δ) {offset value : Word} (place : offset &&& 0xFFFC = 0x304) :
    s.poke offset value =
      let s := s.withEnabled (s.io.controller.register SystemController.transferEnable ||| value)
      if value &&& transferBit != 0 then (true, s.runTransfer) else (false, s) := by
  have named : ControllerRegister.ofOffset offset = .transferEnable .set := by
    rw [ControllerRegister.ofOffset, place]
    rfl
  rw [poke, named]
  rfl

theorem poke_clear (s : AddressSpace δ) {offset value : Word} (place : offset &&& 0xFFFC = 0x308) :
    s.poke offset value = (false,
      s.withEnabled (s.io.controller.register SystemController.transferEnable &&& ~~~value)) := by
  have named : ControllerRegister.ofOffset offset = .transferEnable .clear := by
    rw [ControllerRegister.ofOffset, place]
    rfl
  rw [poke, named]
  rfl

/-- Enabling a transfer changes nothing that it reads. -/
theorem Transferred.of_withEnabled {s t : AddressSpace δ} {enabled : Word} {count : Nat}
    (done : Transferred (s.withEnabled enabled)
      ((s.withEnabled enabled).io.controller.register SystemController.transferEnable) count t) :
    Transferred s enabled count t := by
  have apart : SystemController.slot SystemController.transferEnable ≠
      SystemController.slot SystemController.transferControl := by decide
  have control : (s.withEnabled enabled).io.controller.register SystemController.transferControl =
      s.io.controller.register SystemController.transferControl :=
    SystemController.register_withRegister_of_ne _ apart _
  have enable : (s.withEnabled enabled).io.controller.register SystemController.transferEnable =
      enabled := SystemController.register_withRegister _ _ _
  rw [enable] at done
  obtain ⟨stored, kept, taken, address, length, overdrawn, enable, ready, pending, synced⟩ := done
  rw [control] at stored ready
  exact ⟨stored, kept, taken, address, length, overdrawn, enable, ready, pending, synced⟩

/-- A write to either enable register starts a transfer, and stalls the bus for it, if it sets the
expansion bus's bit. Otherwise it leaves memory, the expansion bus and the graphics registers
alone. -/
theorem transfer_on_enable (s : AddressSpace δ) {offset : Word}
    (place : offset &&& 0xFFFC = 0x304 ∨ offset &&& 0xFFFC = 0x308) (value : Word) :
    let length := s.io.graphics.read GraphicsRegisters.transferLength
    let count := transferCount length
    let enabled := s.io.controller.register SystemController.transferEnable
    let (stalled, t) := s.poke offset value
    (count : Int) = (if length.toSigned < 0 then 0 else length.toSigned / 4 + 1) ∧
      (stalled = true ↔ offset &&& 0xFFFC = 0x304 ∧ value &&& transferBit ≠ 0) ∧
      if stalled then Transferred s (enabled ||| value) count t
      else t.memory = s.memory ∧ t.io.expansion = s.io.expansion ∧
        t.io.graphics = s.io.graphics ∧
        t.io.controller.interrupts = s.io.controller.interrupts := by
  intro length count enabled
  have number := transferCount_eq length
  obtain set | clear := place
  · rw [s.poke_set set]
    by_cases started : value &&& transferBit = 0
    · simp only [bne_eq_false_iff_eq.2 started, Bool.false_eq_true, if_false]
      exact ⟨number, by simp [started], rfl, rfl, rfl, rfl⟩
    · simp only [bne_iff_ne.2 started, if_true]
      have done := transferred_runTransfer (s.withEnabled (enabled ||| value))
      exact ⟨number, by simp [started, set], done.of_withEnabled⟩
  · rw [s.poke_clear clear]
    have other : (0x308 : Word) ≠ 0x304 := by decide
    refine ⟨number, ?_, rfl, rfl, rfl, rfl⟩
    rw [clear]
    exact iff_of_false Bool.false_ne_true fun both => other both.1

/-- A device with nine bytes to give, and registers that ask for eight of them at 0x100. -/
def waiting : AddressSpace ScriptedDevice where
  memory := .empty
  io :=
    { (Peripherals.initial : Peripherals ScriptedDevice) with
      expansion := ExpansionBus.empty.withSlot 0
        (some { (default : ScriptedDevice) with stream := [1, 2, 3, 4, 5, 6, 7, 8, 0xFF] })
      graphics := (GraphicsRegisters.zero.write GraphicsRegisters.transferAddress 0x100).write
        GraphicsRegisters.transferLength 4 }

/-- The eight bytes end up in RAM in their order, the ninth stays with the device, and the length is
overdrawn by a word. -/
theorem transfer_on_enable_waiting :
    ((0x304 : Word) &&& 0xFFFC = 0x304 ∨ (0x304 : Word) &&& 0xFFFC = 0x308) ∧
      let (stalled, t) := waiting.poke 0x304 transferBit
      stalled = true ∧
        (∀ n < 8, ∀ a : RamAddress, a.val = 0x100 + n → t.memory.readByte a = .ofNat (n + 1)) ∧
        (t.io.expansion.slot 0).map (·.stream) = some [0xFF] ∧
        t.io.graphics.read GraphicsRegisters.transferAddress = 0x108 ∧
        (t.io.graphics.read GraphicsRegisters.transferLength).toSigned = -4 := by
  have place : (0x304 : Word) &&& 0xFFFC = 0x304 ∨ (0x304 : Word) &&& 0xFFFC = 0x308 :=
    .inl rfl
  refine ⟨place, ?_⟩
  have apart : GraphicsRegisters.slot GraphicsRegisters.transferLength ≠
      GraphicsRegisters.slot GraphicsRegisters.transferAddress := by decide
  have length : waiting.io.graphics.read GraphicsRegisters.transferLength = 4 :=
    graphics_write _ _ _
  have destination : waiting.io.graphics.read GraphicsRegisters.transferAddress = 0x100 :=
    (graphics_write_of_ne _ apart _).trans (graphics_write _ _ _)
  have quiet : waiting.io.controller.register SystemController.transferControl = 0 :=
    SystemController.register_zero _
  have control :
      waiting.io.controller.register SystemController.transferControl &&& swapBit = 0 := by
    rw [quiet]
    rfl
  have two : transferCount 4 = 2 := rfl
  have result := transfer_on_enable waiting place transferBit
  dsimp only at result
  generalize waiting.poke 0x304 transferBit = outcome at result
  obtain ⟨stalled, t⟩ := outcome
  dsimp only at result ⊢
  obtain ⟨-, stalls, done⟩ := result
  have stall : stalled = true := stalls.2 ⟨rfl, by decide⟩
  rw [if_pos stall, length, two] at done
  refine ⟨stall, ?_, ?_, ?_, ?_⟩
  · intro n small a same
    have here : a.val = (0x100 + .ofNat (4 * (n / 4) + n % 4) : Word).toNat := by
      rw [Nat.div_add_mod, same]
      interval_cases n <;> rfl
    have byte := done.stored (n / 4) (by omega) (n % 4) (by omega) a (destination ▸ here)
    rw [if_pos control, Nat.div_add_mod] at byte
    rw [byte]
    interval_cases n <;> rfl
  · have left := waiting.io.expansion.slot_drain 8 0
    rw [← done.taken] at left
    rw [left]
    rfl
  · rw [done.address, destination]
    rfl
  · rw [done.length, length]
    rfl

end AddressSpace

end ArmConsole
