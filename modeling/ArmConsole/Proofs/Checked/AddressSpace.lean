import ArmConsole.Proofs.Checked.Controller
import ArmConsole.Proofs.Checked.Memory
import ArmConsole.System.AddressSpace

/-!
The checked address space. A location only says which window an address falls into; the index
into the window is computed from the address again. A transfer from the expansion bus is a loop
that runs while the length is not negative; it ends because the length goes down.
-/

namespace ArmConsole

variable {δ : Type} [ExpansionDevice δ]

/-! ### Transfers from the expansion bus -/

namespace AddressSpace

omit [ExpansionDevice δ] in
def storeByte? (memory : GuestMemory) (address : Word) (b : Byte) : Checked GuestMemory :=
  if address.toNat < GuestMemory.ramSize then memory.pokeStore? 1 address b.toUInt32
  else some memory

@[simp] theorem storeByte?_eq (memory : GuestMemory) (address : Word) (b : Byte) :
    storeByte? memory address b = some (storeByte memory address b) := by
  unfold storeByte? storeByte Location.ofAddress
  split
  next h =>
    rw [memory.pokeStore?_byte (a := ⟨address.toNat, h⟩) _ rfl, UInt8.toUInt8_toUInt32]
  next => rfl

omit [ExpansionDevice δ] in
/-- One turn of the loop moves one of the words that the length asks for. -/
theorem transferCount_succ {length : Word} (h : length.isNegative = false) :
    transferCount length = transferCount (length - 4) + 1 := by
  have small : length.toNat < 0x80000000 := by
    rw [← Nat.not_le, ← Word.isNegative_iff, h]
    decide
  have rest : (length - 4).toNat = (2 ^ 32 - 4 + length.toNat) % 2 ^ 32 := UInt32.toNat_sub ..
  rw [transferCount, if_neg (by rw [h]; decide), transferCount]
  cases sign : (length - 4).isNegative with
  | false =>
    have positive : ¬0x80000000 ≤ (length - 4).toNat := by rw [← Word.isNegative_iff, sign]; decide
    rw [if_neg (by decide)]
    omega
  | true =>
    have negative := (Word.isNegative_iff _).mp sign
    rw [if_pos rfl]
    omega

/-- Moves words from the selected device to RAM while the length, a signed number, is not below
zero. Yields also where address and length end up. -/
def transferLoop? (swapped : Bool) (memory : GuestMemory) (bus : ExpansionBus δ)
    (address length : Word) : Checked (GuestMemory × ExpansionBus δ × Word × Word) :=
  if _ : length.isNegative then some (memory, bus, address, length)
  else do
    let (b0, bus) := bus.data
    let (b1, bus) := bus.data
    let (b2, bus) := bus.data
    let (b3, bus) := bus.data
    let memory ← storeByte? memory address (if swapped then b3 else b0)
    let memory ← storeByte? memory (address + 1) (if swapped then b2 else b1)
    let memory ← storeByte? memory (address + 2) (if swapped then b1 else b2)
    let memory ← storeByte? memory (address + 3) (if swapped then b0 else b3)
    transferLoop? swapped memory bus (address + 4) (length - 4)
termination_by transferCount length
decreasing_by
  have running : length.isNegative = false := Bool.eq_false_iff.2 ‹_›
  rw [transferCount_succ running]
  exact Nat.lt_succ_self _

/-- The loop ends, after as many turns as there are words to move. -/
theorem transferLoop?_eq (swapped : Bool) (memory : GuestMemory) (bus : ExpansionBus δ)
    (address length : Word) :
    transferLoop? swapped memory bus address length =
      let count := transferCount length
      let moved := transferWords swapped memory bus address count
      some (moved.1, moved.2, address + 4 * .ofNat count, length - 4 * .ofNat count) := by
  dsimp only
  generalize h : transferCount length = count
  induction count generalizing memory bus address length with
  | zero =>
    have negative : length.isNegative = true := by
      cases sign : length.isNegative with
      | false =>
        rw [transferCount_succ sign] at h
        contradiction
      | true => rfl
    rw [transferLoop?, dif_pos negative]
    simp [transferWords]
  | succ count ih =>
    have positive : length.isNegative = false := by
      cases sign : length.isNegative with
      | false => rfl
      | true =>
        rw [transferCount, if_pos sign] at h
        contradiction
    have rest : transferCount (length - 4) = count := by
      rw [transferCount_succ positive] at h
      exact Nat.succ.inj h
    have further : (4 : Word) * .ofNat (count + 1) = 4 + 4 * .ofNat count := by
      rw [UInt32.ofNat_add, UInt32.mul_add, UInt32.add_comm]
      rfl
    have apart (a b c : Word) : a - (b + c) = a - b - c := by
      rw [UInt32.sub_eq_add_neg, UInt32.neg_add, UInt32.sub_eq_add_neg (-b), ← UInt32.add_assoc,
        ← UInt32.sub_eq_add_neg, ← UInt32.sub_eq_add_neg]
    rw [transferLoop?, dif_neg (by rw [positive]; decide), further, ← UInt32.add_assoc, apart]
    simp only [storeByte?_eq, Option.bind_eq_bind, Option.bind_some]
    exact ih _ _ _ _ rest

def runTransfer? (s : AddressSpace δ) : Checked (AddressSpace δ) := do
  let c := s.io.controller
  let control ← c.register? SystemController.transferControl
  let address ← s.io.graphics.read? GraphicsRegisters.transferAddress
  let length ← s.io.graphics.read? GraphicsRegisters.transferLength
  let (memory, expansion, address, length) ←
    transferLoop? (control &&& swapBit != 0) s.memory s.io.expansion address length
  let enabled ← c.register? SystemController.transferEnable
  let c ← c.withRegister? SystemController.transferEnable (enabled &&& ~~~transferBit)
  let c ← c.withRegister? SystemController.transferControl (control ||| readyBit)
  let graphics ← s.io.graphics.write? GraphicsRegisters.transferAddress address
  let graphics ← graphics.write? GraphicsRegisters.transferLength length
  let controller := c.raise Interrupts.transferDone
  return { memory, io := { s.io with controller, expansion, graphics } }

@[simp] theorem runTransfer?_eq (s : AddressSpace δ) : s.runTransfer? = some s.runTransfer := by
  simp only [runTransfer?, SystemController.register?_eq, GraphicsRegisters.read?_eq,
    transferLoop?_eq, SystemController.withRegister?_eq, GraphicsRegisters.write?_eq,
    Option.bind_eq_bind, Option.bind_some, Option.pure_def]
  rfl

end AddressSpace

/-! ### The system controller -/

namespace Peripherals

open ControllerRegister (aligned element)

def peek? (io : Peripherals δ) (offset : Word) : Checked (Word × Peripherals δ) :=
  let c := io.controller
  let p := io.signal
  match ControllerRegister.ofOffset offset with
  | .instructionPair _ => do
    let w ← SignalProcessor.readPair? p.instructions (element offset 0x1800 2).toUInt16
    return (w, io)
  | .instruction _ => do
    let h ← SignalProcessor.read? p.instructions (element offset 0x2000 2).toUInt16
    return (h.toUInt32, io)
  | .dataPair _ => do
    let w ← SignalProcessor.readPair? p.data (element offset 0x3000 2).toUInt16
    return (w, io)
  | .datum _ => do
    let h ← SignalProcessor.read? p.data (element offset 0x3400 2).toUInt16
    return (h.toUInt32, io)
  | .timerCounter _ => do
    let h ← c.timers.counter[(element offset 0x100 3).toNat]?
    return (h.toUInt32, io)
  | .timerBackup _ => do
    let h ← c.timers.backup[(element offset 0x100 3).toNat]?
    return (h.toUInt32, io)
  | .transferEnable _ => do
    let w ← c.register? SystemController.transferEnable
    return (w, io)
  | .inputChannel _ => do
    let channel ← c.inputs[(element offset 0x400 4).toNat]?
    return (channel.readRegister offset, io)
  | .outputChannel _ => do
    let channel ← c.outputs[(element offset 0x500 4).toNat]?
    return (channel.readRegister offset, io)
  | .processorReset | .processorRun | .plain => do
    let w ← c.register? (aligned offset)
    return (w, io)
  -- The remaining registers are not kept in arrays.
  | .revision | .primaryPending _ | .primaryEnable _ | .secondaryPending _ | .secondaryEnable _
  | .timerControl _ _ | .expansion | .semaphore => some (io.peek offset)

@[simp] theorem peek?_eq (io : Peripherals δ) (offset : Word) :
    io.peek? offset = some (io.peek offset) := by
  have indexed := ControllerRegister.indexed_ofOffset offset
  unfold peek? peek
  cases h : ControllerRegister.ofOffset offset with
  | instructionPair i =>
    rw [h] at indexed
    simp only [SignalProcessor.readPair?_eq indexed (by omega)]
    rfl
  | instruction i =>
    rw [h] at indexed
    simp only [SignalProcessor.read?_eq indexed i.isLt]
    rfl
  | dataPair i =>
    rw [h] at indexed
    simp only [SignalProcessor.readPair?_eq indexed (by omega)]
    rfl
  | datum i =>
    rw [h] at indexed
    simp only [SignalProcessor.read?_eq indexed (by omega)]
    rfl
  | timerCounter t | timerBackup t | inputChannel c | outputChannel c =>
    rw [h] at indexed
    simp only [getElem?_of_val _ indexed]
    rfl
  | transferEnable access => rfl
  | processorReset | processorRun | plain =>
    simp only [SystemController.register?_eq]
    rfl
  | _ => rfl

end Peripherals

namespace AddressSpace

open ControllerRegister (aligned element)

def mapController? (s : AddressSpace δ) (f : SystemController → Checked SystemController) :
    Checked (AddressSpace δ) := do
  let controller ← f s.io.controller
  return { s with io := { s.io with controller } }

/-- Replaces the signal processor, and notes what was written to one of its windows. -/
def writeSignal? (s : AddressSpace δ) (window : Nat) (value : Word)
    (f : SignalProcessor → Checked SignalProcessor) : Checked (AddressSpace δ) := do
  let c := s.io.controller
  let controller := { c with lastWritten := ← replace? c.lastWritten window value }
  let signal ← f s.io.signal
  return { s with io := { s.io with controller, signal } }

def poke? (s : AddressSpace δ) (offset value : Word) : Checked (Bool × AddressSpace δ) :=
  match ControllerRegister.ofOffset offset with
  | .instructionPair _ => do
    let i := (element offset 0x1800 2).toUInt16
    let s ← s.writeSignal? 0 value fun p => do
      return { p with instructions := ← SignalProcessor.writePair? p.instructions i value }
    return (false, s)
  | .instruction _ => do
    let i := (element offset 0x2000 2).toUInt16
    let s ← s.writeSignal? 1 value fun p => do
      return { p with instructions := ← SignalProcessor.write? p.instructions i value.lowHalf }
    return (false, s)
  | .dataPair _ => do
    let i := (element offset 0x3000 2).toUInt16
    let s ← s.writeSignal? 2 value fun p => do
      return { p with data := ← SignalProcessor.writePair? p.data i value }
    return (false, s)
  | .datum _ => do
    let i := (element offset 0x3400 2).toUInt16
    let s ← s.writeSignal? 3 value fun p => do
      return { p with data := ← SignalProcessor.write? p.data i value.lowHalf }
    return (false, s)
  | .timerCounter _ => do
    let t := (element offset 0x100 3).toNat
    let s ← s.mapController? fun c => do
      let counter ← replace? c.timers.counter t value.lowHalf
      return { c with timers := { c.timers with counter } }
    return (false, s)
  | .timerBackup _ => do
    let t := (element offset 0x100 3).toNat
    let s ← s.mapController? fun c => do
      let backup ← replace? c.timers.backup t value.lowHalf
      return { c with timers := { c.timers with backup } }
    return (false, s)
  | .transferEnable .set => do
    let s ← s.mapController? fun c => do
      let enabled ← c.register? SystemController.transferEnable
      c.withRegister? SystemController.transferEnable (enabled ||| value)
    if value &&& transferBit != 0 then
      return (true, ← s.runTransfer?)
    else
      return (false, s)
  | .transferEnable .clear => do
    let s ← s.mapController? fun c => do
      let enabled ← c.register? SystemController.transferEnable
      c.withRegister? SystemController.transferEnable (enabled &&& ~~~value)
    return (false, s)
  | .inputChannel _ => do
    let i := (element offset 0x400 4).toNat
    let s ← s.mapController? fun c => do
      let channel ← c.inputs[i]?
      return { c with inputs := ← replace? c.inputs i (channel.writeRegister offset value) }
    return (false, s)
  | .outputChannel _ => do
    let i := (element offset 0x500 4).toNat
    let s ← s.mapController? fun c => do
      let channel ← c.outputs[i]?
      return { c with outputs := ← replace? c.outputs i (channel.writeRegister offset value) }
    return (false, s)
  | .processorRun => do
    let s ← s.mapController? fun c => c.withRegister? SystemController.processorRun (value &&& 1)
    return (false, s.mapSignal fun p => { p with running := value.bit 0 })
  | .plain => do
    let s ← s.mapController? fun c => c.withRegister? (aligned offset) value
    return (false, s)
  -- The remaining registers are not kept in arrays.
  | .revision | .primaryPending _ | .primaryEnable _ | .secondaryPending _ | .secondaryEnable _
  | .timerControl _ _ | .expansion | .semaphore | .processorReset => some (s.poke offset value)

@[simp] theorem poke?_eq (s : AddressSpace δ) (offset value : Word) :
    s.poke? offset value = some (s.poke offset value) := by
  have indexed := ControllerRegister.indexed_ofOffset offset
  unfold poke? poke
  cases h : ControllerRegister.ofOffset offset with
  | instructionPair i =>
    rw [h] at indexed
    simp only [writeSignal?, SignalProcessor.writePair?_eq indexed (by omega)]
    rfl
  | instruction i =>
    rw [h] at indexed
    simp only [writeSignal?, SignalProcessor.write?_eq indexed i.isLt]
    rfl
  | dataPair i =>
    rw [h] at indexed
    simp only [writeSignal?, SignalProcessor.writePair?_eq indexed (by omega)]
    rfl
  | datum i =>
    rw [h] at indexed
    simp only [writeSignal?, SignalProcessor.write?_eq indexed (by omega)]
    rfl
  | timerCounter t | timerBackup t =>
    rw [h] at indexed
    simp only [mapController?, replace?_of_val _ _ indexed]
    rfl
  | inputChannel c | outputChannel c =>
    rw [h] at indexed
    simp only [mapController?, getElem?_of_val _ indexed, replace?_of_val _ _ indexed]
    rfl
  | transferEnable access =>
    cases access with
    | set =>
      simp only [mapController?, SystemController.register?_eq, SystemController.withRegister?_eq,
        runTransfer?_eq, Option.bind_eq_bind, Option.bind_some, Option.pure_def, ite_some]
      rfl
    | clear =>
      simp only [mapController?, SystemController.register?_eq, SystemController.withRegister?_eq]
      rfl
  | processorRun | plain =>
    simp only [mapController?, SystemController.withRegister?_eq]
    rfl
  | _ => rfl

/-! ### Access by address -/

def readWindow? (s : AddressSpace δ) (address : Word) (w : Window) :
    Checked (Word × AddressSpace δ) :=
  match w with
  | .graphics offset => do
    let w ← s.io.graphics.read? offset
    return (w, s)
  | .controller offset => do
    let (w, io) ← s.io.peek? offset
    return (w, { s with io })
  | .nvram _ => do
    let b ← s.memory.readNvram? address
    return (b.toUInt32, s)
  | .rom _ => do
    let w ← s.memory.readRom? address
    return (w, s)
  | .videoSerial _ | .diagnostic | .unmapped => some (s.readWindow w)

theorem readWindow?_eq (s : AddressSpace δ) (address : Word) :
    s.readWindow? address (.ofAddress address) = some (s.readWindow (.ofAddress address)) := by
  cases h : Window.ofAddress address with
  | graphics offset =>
    rw [readWindow?, s.io.graphics.read?_eq]
    rfl
  | controller offset =>
    rw [readWindow?, s.io.peek?_eq]
    rfl
  | nvram slot =>
    rw [readWindow?, s.memory.readNvram?_eq, ← Window.nvram_of_ofAddress h.symm]
    rfl
  | rom offset =>
    rw [readWindow?, s.memory.readRom?_eq, ← Window.rom_of_ofAddress h.symm]
    rfl
  | _ => rfl

def readWord? (s : AddressSpace δ) (address : Word) : Checked (Word × AddressSpace δ) :=
  match Location.ofAddress address with
  | .ram _ => do
    let w ← s.memory.peekStore? 4 address
    return (w, s)
  | .window w => s.readWindow? address w

@[simp] theorem readWord?_eq (s : AddressSpace δ) (address : Word) :
    s.readWord? address = some (s.readWord address) := by
  unfold readWord? readWord
  cases h : Location.ofAddress address with
  | ram a =>
    simp only [s.memory.peekStore?_word (Location.ram_of_ofAddress h)]
    rfl
  | window w =>
    rw [Location.window_of_ofAddress h]
    exact s.readWindow?_eq address

def readByte? (s : AddressSpace δ) (address : Word) : Checked (Byte × AddressSpace δ) :=
  match Location.ofAddress address with
  | .ram _ => do
    let w ← s.memory.peekStore? 1 address
    return (w.toUInt8, s)
  | .window (.nvram _) => do
    let b ← s.memory.readNvram? address
    return (b, s)
  | .window w => do
    let (v, s) ← s.readWindow? address w
    return ((v >>> (24 - (address &&& 3) * 8)).toUInt8, s)

@[simp] theorem readByte?_eq (s : AddressSpace δ) (address : Word) :
    s.readByte? address = some (s.readByte address) := by
  unfold readByte? readByte
  cases h : Location.ofAddress address with
  | ram a =>
    simp only [s.memory.peekStore?_byte (Location.ram_of_ofAddress h), Option.bind_eq_bind,
      Option.bind_some, UInt8.toUInt8_toUInt32]
    rfl
  | window w =>
    have located := Location.window_of_ofAddress h
    have read := s.readWindow?_eq address
    rw [← located] at read
    cases w with
    | nvram slot =>
      rw [Window.nvram_of_ofAddress located]
      simp only [s.memory.readNvram?_eq]
      rfl
    | _ =>
      simp only [read]
      rfl

def writeWindow? (s : AddressSpace δ) (address : Word) (w : Window) (value : Word) :
    Checked (Bool × AddressSpace δ) :=
  match w with
  | .graphics offset => do
    let graphics ← s.io.graphics.write? offset value
    return (false, { s with io := { s.io with graphics } })
  | .controller offset => s.poke? offset value
  | .nvram _ => do
    let memory ← s.memory.writeNvram? address value.toUInt8
    return (false, { s with memory })
  | .videoSerial _ => do
    let _ ← s.memory.vram?
    return s.writeWindow w value
  | .diagnostic | .rom _ | .unmapped => some (s.writeWindow w value)

theorem writeWindow?_eq (s : AddressSpace δ) (address value : Word) :
    s.writeWindow? address (.ofAddress address) value =
      some (s.writeWindow (.ofAddress address) value) := by
  cases h : Window.ofAddress address with
  | graphics offset =>
    rw [writeWindow?, s.io.graphics.write?_eq]
    rfl
  | controller offset => exact s.poke?_eq offset value
  | videoSerial offset =>
    rw [writeWindow?, s.memory.vram?_eq]
    rfl
  | nvram slot =>
    rw [writeWindow?, s.memory.writeNvram?_eq, ← Window.nvram_of_ofAddress h.symm]
    rfl
  | _ => rfl

def writeWord? (s : AddressSpace δ) (address value : Word) : Checked (Bool × AddressSpace δ) :=
  match Location.ofAddress address with
  | .ram _ => do
    let memory ← s.memory.pokeStore? 4 address value
    return (false, { s with memory })
  | .window w => s.writeWindow? address w value

@[simp] theorem writeWord?_eq (s : AddressSpace δ) (address value : Word) :
    s.writeWord? address value = some (s.writeWord address value) := by
  unfold writeWord? writeWord
  cases h : Location.ofAddress address with
  | ram a =>
    simp only [s.memory.pokeStore?_word value (Location.ram_of_ofAddress h)]
    rfl
  | window w =>
    rw [Location.window_of_ofAddress h]
    exact s.writeWindow?_eq address value

def writeByte? (s : AddressSpace δ) (address : Word) (value : Byte) :
    Checked (Bool × AddressSpace δ) :=
  match Location.ofAddress address with
  | .ram _ => do
    let memory ← s.memory.pokeStore? 1 address value.toUInt32
    return (false, { s with memory })
  | .window w => s.writeWindow? address w (value.toUInt32 * 0x01010101)

@[simp] theorem writeByte?_eq (s : AddressSpace δ) (address : Word) (value : Byte) :
    s.writeByte? address value = some (s.writeByte address value) := by
  unfold writeByte? writeByte
  cases h : Location.ofAddress address with
  | ram a =>
    simp only [s.memory.pokeStore?_byte _ (Location.ram_of_ofAddress h), UInt8.toUInt8_toUInt32]
    rfl
  | window w =>
    rw [Location.window_of_ofAddress h]
    exact s.writeWindow?_eq address _

end AddressSpace

end ArmConsole
