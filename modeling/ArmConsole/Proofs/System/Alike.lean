import ArmConsole.Proofs.Machine.Simulation
import ArmConsole.Proofs.Memory.Alike

/-!
Address spaces that differ in their shadow pages only. Neither a guest nor a device can tell them
apart.
-/

namespace ArmConsole

variable {δ : Type} [ExpansionDevice δ]

namespace AddressSpace

/-- Equal but for the shadow pages. -/
structure Alike (s t : AddressSpace δ) : Prop where
  memory : s.memory.Alike t.memory
  io : s.io = t.io

variable {m n : GuestMemory}

omit [ExpansionDevice δ] in
theorem alike_storeByte (alike : m.Alike n) (address : Word) (b : Byte) :
    (storeByte m address b).Alike (storeByte n address b) := by
  unfold storeByte
  split
  · exact alike.writeByte _ b
  · exact alike

theorem alike_transferWords (alike : m.Alike n) (swapped : Bool) (bus : ExpansionBus δ)
    (address : Word) (count : Nat) :
    (transferWords swapped m bus address count).1.Alike
        (transferWords swapped n bus address count).1 ∧
      (transferWords swapped m bus address count).2 =
        (transferWords swapped n bus address count).2 := by
  induction count generalizing m n bus address with
  | zero => exact ⟨alike, rfl⟩
  | succ count ih =>
    simp only [transferWords]
    apply ih
    apply alike_storeByte
    apply alike_storeByte
    apply alike_storeByte
    exact alike_storeByte alike _ _

variable {s t : AddressSpace δ}

theorem alike_runTransfer (alike : s.Alike t) : s.runTransfer.Alike t.runTransfer := by
  obtain ⟨m, io⟩ := s
  obtain ⟨n, _⟩ := t
  obtain ⟨memory, rfl⟩ := alike
  have moved := alike_transferWords memory
    (io.controller.register SystemController.transferControl &&& swapBit != 0) io.expansion
    (io.graphics.read GraphicsRegisters.transferAddress)
    (transferCount (io.graphics.read GraphicsRegisters.transferLength))
  unfold runTransfer
  dsimp only
  refine ⟨moved.1, ?_⟩
  dsimp only
  rw [moved.2]

theorem alike_poke (alike : s.Alike t) (offset value : Word) :
    Agree Alike (s.poke offset value) (t.poke offset value) := by
  obtain ⟨m, io⟩ := s
  obtain ⟨n, _⟩ := t
  obtain ⟨memory, rfl⟩ := alike
  unfold poke
  cases ControllerRegister.ofOffset offset with
  | primaryPending access => cases access <;> exact ⟨rfl, memory, rfl⟩
  | secondaryPending access => cases access <;> exact ⟨rfl, memory, rfl⟩
  | primaryEnable access => cases access <;> exact ⟨rfl, memory, rfl⟩
  | secondaryEnable access => cases access <;> exact ⟨rfl, memory, rfl⟩
  | timerControl high access => cases access <;> exact ⟨rfl, memory, rfl⟩
  | transferEnable access =>
    cases access with
    | set =>
      dsimp only
      split
      · refine ⟨rfl, ?_⟩
        dsimp only
        apply alike_runTransfer
        exact ⟨memory, rfl⟩
      · exact ⟨rfl, memory, rfl⟩
    | clear => exact ⟨rfl, memory, rfl⟩
  | _ => exact ⟨rfl, memory, rfl⟩

theorem alike_readWindow (alike : s.Alike t) (w : Window) :
    Agree Alike (s.readWindow w) (t.readWindow w) := by
  obtain ⟨m, io⟩ := s
  obtain ⟨n, _⟩ := t
  obtain ⟨memory, rfl⟩ := alike
  cases w with
  | nvram slot => exact ⟨congrArg UInt8.toUInt32 (memory.readNvram slot), memory, rfl⟩
  | rom offset => exact ⟨memory.readRom offset, memory, rfl⟩
  | _ => exact ⟨rfl, memory, rfl⟩

theorem alike_writeWindow (alike : s.Alike t) (w : Window) (value : Word) :
    Agree Alike (s.writeWindow w value) (t.writeWindow w value) := by
  obtain ⟨m, io⟩ := s
  obtain ⟨n, _⟩ := t
  obtain ⟨memory, rfl⟩ := alike
  cases w with
  | controller offset => exact alike_poke ⟨memory, rfl⟩ offset value
  | videoSerial offset =>
    obtain ⟨controller, expansion, diagnostic, graphics, videoSerial, signal⟩ := io
    cases videoSerial with
    | detached => exact ⟨rfl, memory, rfl⟩
    | attached engine history =>
      refine ⟨rfl, ?_, ?_⟩
      · simp only [AddressSpace.writeWindow, VideoSerial.write, memory.vramBlock]
        exact memory.withVram _
      · simp only [AddressSpace.writeWindow, VideoSerial.write, memory.vramBlock]
  | nvram slot => exact ⟨rfl, memory.writeNvram slot value.toUInt8, rfl⟩
  | _ => exact ⟨rfl, memory, rfl⟩

theorem alike_simulation : Simulation (Alike : AddressSpace δ → AddressSpace δ → Prop) where
  readWord := by
    intro s t address alike
    unfold readWord
    split
    next a _ => exact ⟨alike.memory.readWord a, alike⟩
    next w _ => exact alike_readWindow alike w
  readByte := by
    intro s t address alike
    unfold readByte
    split
    next a _ => exact ⟨alike.memory.readByte a, alike⟩
    next slot _ => exact ⟨alike.memory.readNvram slot, alike⟩
    next w _ _ =>
      obtain ⟨same, rest⟩ := alike_readWindow alike w
      exact ⟨congrArg (fun v => (v >>> (24 - (address &&& 3) * 8)).toUInt8) same, rest⟩
  writeWord := by
    intro s t address value alike
    unfold writeWord
    split
    next a _ => exact ⟨rfl, alike.memory.writeWord a value, alike.io⟩
    next w _ => exact alike_writeWindow alike w value
  writeByte := by
    intro s t address value alike
    unfold writeByte
    split
    next a _ => exact ⟨rfl, alike.memory.writeByte a value, alike.io⟩
    next w _ => exact alike_writeWindow alike w _
  answer := by
    intro s t call a alike
    obtain ⟨result, memory⟩ := alike.memory.run call a
    exact ⟨result, memory, alike.io⟩
  fiqNeeded := by
    intro s t alike
    rw [alike.io]

end AddressSpace

end ArmConsole
