import ArmConsole.Proofs.Machine.Simulation
import ArmConsole.Proofs.Memory.Mirrors

/-!
Shadow pages while a guest runs. With nothing plugged into the serial interface, which writes VRAM
behind the shadows, every access to the bus keeps them up to date: a transfer from the expansion
bus writes byte by byte as the processor does.
-/

namespace ArmConsole

variable {δ : Type} [ExpansionDevice δ]

theorem Peripherals.videoSerial_peek (io : Peripherals δ) (offset : Word) :
    (io.peek offset).2.videoSerial = io.videoSerial := by
  unfold peek
  dsimp only
  split <;> rfl

theorem Peripherals.videoSerial_tickLine (io : Peripherals δ) :
    io.tickLine.videoSerial = io.videoSerial := by
  unfold tickLine pollExpansion
  generalize ({ io with controller := _ } : Peripherals δ).expansion.attentionNeeded = answer
  obtain ⟨needed, expansion⟩ := answer
  cases needed <;> rfl

namespace AddressSpace

/-- The shadow pages are up to date, and nothing can write VRAM without them. -/
structure Mirrored (s : AddressSpace δ) : Prop where
  memory : s.memory.Mirrored
  serial : s.io.videoSerial = .detached

/-! ### Transfers -/

omit [ExpansionDevice δ] in
theorem mirrored_storeByte {memory : GuestMemory} (mirrored : memory.Mirrored) (address : Word)
    (b : Byte) : (storeByte memory address b).Mirrored := by
  unfold storeByte
  split
  · exact mirrored.writeByte _ b
  · exact mirrored

theorem mirrored_transferWords {memory : GuestMemory} (mirrored : memory.Mirrored) (swapped : Bool)
    (bus : ExpansionBus δ) (address : Word) (count : Nat) :
    (transferWords swapped memory bus address count).1.Mirrored := by
  induction count generalizing memory bus address with
  | zero => exact mirrored
  | succ count ih =>
    simp only [transferWords]
    apply ih
    apply mirrored_storeByte
    apply mirrored_storeByte
    apply mirrored_storeByte
    exact mirrored_storeByte mirrored _ _

namespace Mirrored

variable {s : AddressSpace δ}

theorem runTransfer (mirrored : s.Mirrored) : s.runTransfer.Mirrored :=
  ⟨mirrored_transferWords mirrored.memory .., mirrored.serial⟩

/-! ### Accesses -/

theorem poke (mirrored : s.Mirrored) (offset value : Word) : (s.poke offset value).2.Mirrored := by
  obtain ⟨memory, serial⟩ := mirrored
  unfold AddressSpace.poke
  cases ControllerRegister.ofOffset offset with
  | primaryPending access => cases access <;> exact ⟨memory, serial⟩
  | secondaryPending access => cases access <;> exact ⟨memory, serial⟩
  | primaryEnable access => cases access <;> exact ⟨memory, serial⟩
  | secondaryEnable access => cases access <;> exact ⟨memory, serial⟩
  | timerControl high access => cases access <;> exact ⟨memory, serial⟩
  | transferEnable access =>
    cases access with
    | set =>
      dsimp only
      split
      · dsimp only
        apply runTransfer
        exact ⟨memory, serial⟩
      · exact ⟨memory, serial⟩
    | clear => exact ⟨memory, serial⟩
  | _ => exact ⟨memory, serial⟩

theorem readWindow (mirrored : s.Mirrored) (w : Window) : (s.readWindow w).2.Mirrored := by
  obtain ⟨memory, serial⟩ := mirrored
  cases w with
  | controller offset => exact ⟨memory, (s.io.videoSerial_peek offset).trans serial⟩
  | videoSerial offset =>
    refine ⟨memory, ?_⟩
    change s.io.videoSerial.setSource offset = _
    rw [serial]
    rfl
  | _ => exact ⟨memory, serial⟩

theorem writeWindow (mirrored : s.Mirrored) (w : Window) (value : Word) :
    (s.writeWindow w value).2.Mirrored := by
  cases w with
  | controller offset => exact mirrored.poke offset value
  | videoSerial offset =>
    obtain ⟨memory, controller, expansion, diagnostic, graphics, videoSerial, signal⟩ := s
    obtain ⟨mirrored, serial⟩ := mirrored
    dsimp only at serial
    subst serial
    exact ⟨mirrored, rfl⟩
  | nvram slot => exact ⟨mirrored.memory.writeNvram slot _, mirrored.serial⟩
  | _ => exact ⟨mirrored.memory, mirrored.serial⟩

theorem writeWord (mirrored : s.Mirrored) (address value : Word) :
    (s.writeWord address value).2.Mirrored := by
  unfold AddressSpace.writeWord
  split
  · exact ⟨mirrored.memory.writeWord _ value, mirrored.serial⟩
  · exact mirrored.writeWindow _ value

theorem writeHalfWord (mirrored : s.Mirrored) (address : Word) (value : HalfWord) :
    (s.writeHalfWord address value).2.Mirrored := by
  unfold AddressSpace.writeHalfWord
  split
  · exact ⟨mirrored.memory.writeHalfWord _ value, mirrored.serial⟩
  · exact mirrored.writeWindow _ _

theorem writeByte (mirrored : s.Mirrored) (address : Word) (value : Byte) :
    (s.writeByte address value).2.Mirrored := by
  unfold AddressSpace.writeByte
  split
  · exact ⟨mirrored.memory.writeByte _ value, mirrored.serial⟩
  · exact mirrored.writeWindow _ _

theorem readWord (mirrored : s.Mirrored) (address : Word) :
    (s.readWord address).2.Mirrored := by
  unfold AddressSpace.readWord
  split
  · exact mirrored
  · exact mirrored.readWindow _

theorem readByte (mirrored : s.Mirrored) (address : Word) :
    (s.readByte address).2.Mirrored := by
  unfold AddressSpace.readByte
  split
  · exact mirrored
  · exact mirrored
  · exact mirrored.readWindow _

end Mirrored

/-- No access of a guest, and no math call, lets a shadow page fall behind. -/
theorem mirrored_invariant : Invariant (Mirrored : AddressSpace δ → Prop) where
  readWord address mirrored := mirrored.readWord address
  readByte address mirrored := mirrored.readByte address
  writeWord address value mirrored := mirrored.writeWord address value
  writeByte address value mirrored := mirrored.writeByte address value
  answer call a mirrored := ⟨mirrored.memory.run call a, mirrored.serial⟩

end AddressSpace

end ArmConsole
