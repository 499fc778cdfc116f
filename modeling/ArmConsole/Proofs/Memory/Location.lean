import ArmConsole.Memory.Location
import Mathlib.Tactic.SplitIfs

/-!
What a location says about its address, so that an index can be computed from the address alone.
-/

namespace ArmConsole

theorem Location.ram_of_ofAddress {address : Word} {a : RamAddress}
    (located : Location.ofAddress address = .ram a) : address.toNat = a.val := by
  unfold ofAddress at located
  split at located
  · cases located
    rfl
  · contradiction

theorem Location.ofAddress_of_lt {address : Word} (inRam : address.toNat < GuestMemory.ramSize) :
    ofAddress address = .ram ⟨address.toNat, inRam⟩ := dif_pos inRam

/-- An address of RAM as a word. -/
abbrev RamAddress.toWord (a : RamAddress) : Word := .ofNat a.val

theorem RamAddress.toNat_toWord (a : RamAddress) : a.toWord.toNat = a.val :=
  UInt32.toNat_ofNat_of_lt' (Nat.lt_trans a.isLt (by decide))

theorem Location.ofAddress_toWord (a : RamAddress) : ofAddress a.toWord = .ram a := by
  have inRam : a.toWord.toNat < GuestMemory.ramSize := a.toNat_toWord.symm ▸ a.isLt
  rw [ofAddress_of_lt inRam]
  exact congrArg ram (Fin.ext a.toNat_toWord)

theorem Location.window_of_ofAddress {address : Word} {w : Window}
    (located : Location.ofAddress address = .window w) : w = Window.ofAddress address := by
  unfold ofAddress at located
  split at located
  · contradiction
  · cases located
    rfl

theorem Window.nvram_of_ofAddress {address : Word} {slot : Fin GuestMemory.nvramSize}
    (located : Window.nvram slot = Window.ofAddress address) :
    slot = GuestMemory.nvramSlot address := by
  unfold ofAddress at located
  split_ifs at located
  cases located
  rfl

theorem Window.rom_of_ofAddress {address : Word} {offset : Fin GuestMemory.romSize}
    (located : Window.rom offset = Window.ofAddress address) :
    offset = GuestMemory.romOffset address := by
  unfold ofAddress at located
  split_ifs at located
  cases located
  rfl

end ArmConsole
