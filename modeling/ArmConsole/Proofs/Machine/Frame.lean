import ArmConsole.Device.SerialProbe
import ArmConsole.Proofs.System.Frame

/-!
What a step leaves alone in memory. Main statement: unless a math call is answered, a step changes
those bytes that a store of its instruction addresses, and those that such a store makes a transfer
or the serial port of video RAM write; without a store it changes nothing.
-/

namespace ArmConsole

/-- Whether an instruction is of a class that stores. -/
def Instruction.stores : Instruction → Bool
  | .swap _ => true
  | .singleTransfer i => !i.load
  | .blockTransfer i => !i.load
  | .dataProcessing _ | .readStatus _ _ | .writeStatus _ | .multiply _ | .branch _ _
  | .softwareInterrupt _ | .coprocessor | .undefined => false

theorem BusAccess.isWrite_read (width : Width) (address : Word) :
    (BusAccess.read width address).isWrite = false := by
  cases width <;> rfl

theorem Processor.isWrite_accesses (p : Processor) {i : Instruction} (loads : i.stores = false) :
    ∀ access ∈ p.accesses i, access.isWrite = false := by
  intro access among
  cases i with
  | swap i => contradiction
  | singleTransfer i =>
    simp only [Instruction.stores, Bool.not_eq_false'] at loads
    simp only [accesses, loads, if_true, List.mem_singleton] at among
    rw [among, BusAccess.isWrite_read]
  | blockTransfer i =>
    simp only [Instruction.stores, Bool.not_eq_false'] at loads
    simp only [accesses, loads, if_true, List.mem_map] at among
    obtain ⟨address, -, rfl⟩ := among
    rfl
  | _ => exact absurd among List.not_mem_nil

namespace Machine

variable {δ : Type} [ExpansionDevice δ]

theorem isWrite_accesses {m : Machine δ} (loads : ∀ i, m.executed? = some i → i.stores = false) :
    ∀ access ∈ m.accesses, access.isWrite = false := by
  rw [accesses, List.forall_mem_cons]
  refine ⟨rfl, ?_⟩
  cases executed : m.executed? with
  | none => exact List.forall_mem_nil _
  | some i => exact m.ready.2.processor.isWrite_accesses (loads i executed)

/-- A step that answers no math call leaves the ROM images, the selected bank and the resolution
alone. It changes a slot of NVRAM or a byte of RAM only by a store that reaches it, be it by way of
a transfer or, for a byte of VRAM, of what is plugged into the serial port, if something is; and no
other instruction changes either, nor does any read. -/
theorem memory_step (m : Machine δ) (unanswered : m.answered? = none) :
    let before := m.space.memory
    let after := m.step.space.memory
    (after.roms = before.roms ∧ after.romBank = before.romBank ∧
      after.highResolution = before.highResolution) ∧
    (∀ slot, after.readNvram slot ≠ before.readNvram slot →
      ∃ access ∈ m.accesses, access.StoresSlot slot) ∧
    (∀ a, after.readByte a ≠ before.readByte a →
      m.space.Sometime (fun s access => s.Stores a access ∨ s.StoresSerially a access)
        m.accesses) ∧
    (m.space.io.videoSerial = .detached → ∀ a, after.readByte a ≠ before.readByte a →
      m.space.Sometime (fun s access => s.Stores a access) m.accesses) ∧
    ((∀ i, m.executed? = some i → i.stores = false) → after = before) ∧
    ∀ (s : AddressSpace δ) access, access.isWrite = false →
      (s.perform access).memory = s.memory := by
  intro before after
  have performed : m.step.space = m.space.performAll m.accesses := space_step unanswered
  have framed := m.space.framed_performAll m.accesses
  rw [← performed] at framed
  have ram (a : RamAddress) (changed : after.readByte a ≠ before.readByte a) :
      m.space.Sometime (fun s access => s.Stores a access ∨ s.StoresSerially a access)
        m.accesses := by
    apply Classical.byContradiction
    intro outside
    exact changed (framed.ram a outside)
  refine ⟨⟨framed.roms, framed.romBank, framed.highResolution⟩, ?_, ram, ?_, ?_, ?_⟩
  · intro slot changed
    apply Classical.byContradiction
    intro outside
    exact changed (framed.nvram slot outside)
  · intro detached a changed
    exact AddressSpace.sometime_of_detached detached (ram a changed)
  · intro loads
    have same := m.space.memory_performAll (isWrite_accesses loads)
    rwa [← performed] at same
  · exact fun s access reads => s.memory_perform reads

/-- An engine that stores the mask is plugged into the serial port, to which a store follows. -/
def probing : Machine ScriptedDevice :=
  let p := (Processor.initial.withRegister .r0 0xCAFEBABE).withRegister .r1 0x03200000
  let m := fed p [0xE5810000]
  { m with space := { m.space with io := { m.space.io with videoSerial := .attached .probe [] } } }

theorem accesses_probing :
    probing.accesses = [.readWord 0x03180000, .writeWord 0x03200000 0xCAFEBABE] := by
  decide

def firstOfVram : RamAddress := ⟨0x200000, by decide⟩

theorem readByte_probing :
    probing.step.space.memory.readByte firstOfVram ≠
      probing.space.memory.readByte firstOfVram := by
  have performed : probing.step.space = _ := space_step rfl
  let found := GuestMemory.empty.vramBlock
  have memory : probing.step.space.memory =
      GuestMemory.empty.withVram (SerialEngine.probe.write [] 0 0xCAFEBABE found) := by
    rw [performed, accesses_probing]
    rfl
  have zero : probing.space.memory.readByte firstOfVram = 0 := Block.getElem_zero _
  have first : (SerialEngine.probe.write [] 0 0xCAFEBABE found)[0] = 0xCA := by
    have fits : 0 + (GuestMemory.lowBytes 4 0xCAFEBABE).size ≤ GuestMemory.vramSize := by decide
    refine (found.getElem_blit_front fits (by decide) (by decide)).trans ?_
    rw [GuestMemory.getElem_lowBytes]
    decide
  rw [memory, zero, GuestMemory.readByte_withVram, if_pos (by decide)]
  have stored : (0xCA : Byte) ≠ 0 := by decide
  exact first.symm ▸ stored

theorem memory_step_probing :
    probing.space.Sometime
      (fun s access => s.Stores firstOfVram access ∨ s.StoresSerially firstOfVram access)
      probing.accesses := by
  obtain ⟨-, -, ram, -⟩ := memory_step probing rfl
  exact ram firstOfVram readByte_probing

/-- With something plugged into the serial port, a store that addresses no byte of RAM and starts
no transfer changes one. -/
theorem memory_step_serial : ¬∀ m : Machine ScriptedDevice, m.answered? = none →
    ∀ a, m.step.space.memory.readByte a ≠ m.space.memory.readByte a →
      m.space.Sometime (fun s access => s.Stores a access) m.accesses := by
  intro claim
  have stored := claim probing rfl firstOfVram readByte_probing
  rw [accesses_probing] at stored
  obtain fetch | store | absurd := stored
  · cases fetch with
    | transfer reached => contradiction
  · cases store with
    | word value same => contradiction
    | transfer reached => contradiction
  · exact absurd

end Machine

end ArmConsole
