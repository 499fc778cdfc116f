import ArmConsole.Memory.Location
import ArmConsole.System.Peripherals

/-!
The address space that the processor sees: memory and peripherals behind the address map. A read
may change a peripheral, and a write to the system controller may stall the bus, which happens
when it starts a transfer from the expansion bus into RAM.
-/

namespace ArmConsole

structure AddressSpace (δ : Type) where
  memory : GuestMemory
  io : Peripherals δ

namespace AddressSpace

variable {δ : Type}

/-- What a read yields that reaches nothing. -/
def sentinel : Word := 0xBADACCE5

variable [ExpansionDevice δ]

/-! ### Transfers from the expansion bus -/

def transferBit : Word := 0x00100000

def swapBit : Word := 1

def readyBit : Word := 0x80000000

/-- Writes a byte to RAM; an address outside of it is let go. -/
def storeByte (memory : GuestMemory) (address : Word) (b : Byte) : GuestMemory :=
  match Location.ofAddress address with
  | .ram a => memory.writeByte a b
  | .window _ => memory

/-- Moves `count` words of the selected device's stream to RAM from `address` up. -/
def transferWords (swapped : Bool) (memory : GuestMemory) (bus : ExpansionBus δ) (address : Word) :
    Nat → GuestMemory × ExpansionBus δ
  | 0 => (memory, bus)
  | count + 1 =>
    let (b0, bus) := bus.data
    let (b1, bus) := bus.data
    let (b2, bus) := bus.data
    let (b3, bus) := bus.data
    let memory := storeByte memory address (if swapped then b3 else b0)
    let memory := storeByte memory (address + 1) (if swapped then b2 else b1)
    let memory := storeByte memory (address + 2) (if swapped then b1 else b2)
    let memory := storeByte memory (address + 3) (if swapped then b0 else b3)
    transferWords swapped memory bus (address + 4) count

/-- How many words a length register asks for. It counts bytes less four, as a signed number. -/
def transferCount (length : Word) : Nat :=
  if length.isNegative then 0 else length.toNat / 4 + 1

/-- Carries out a whole transfer. Address and length end up behind the last word. -/
def runTransfer (s : AddressSpace δ) : AddressSpace δ :=
  let ⟨memory, io⟩ := s
  let control := io.controller.register SystemController.transferControl
  let address := io.graphics.read GraphicsRegisters.transferAddress
  let length := io.graphics.read GraphicsRegisters.transferLength
  let count := transferCount length
  let moved : Word := 4 * .ofNat count
  let ⟨controller, expansion, diagnostic, graphics, videoSerial, signal⟩ := io
  let (memory, expansion) :=
    transferWords (control &&& swapBit != 0) memory expansion address count
  let enabled := controller.register SystemController.transferEnable
  let controller :=
    controller.withRegister SystemController.transferEnable (enabled &&& ~~~transferBit)
  let controller := controller.withRegister SystemController.transferControl (control ||| readyBit)
  let controller := controller.raise Interrupts.transferDone
  let graphics := graphics.write GraphicsRegisters.transferAddress (address + moved)
  let graphics := graphics.write GraphicsRegisters.transferLength (length - moved)
  ⟨memory, ⟨controller, expansion, diagnostic, graphics, videoSerial, signal⟩⟩

/-! ### The system controller -/

@[inline] def mapController (s : AddressSpace δ) (f : SystemController → SystemController) :
    AddressSpace δ :=
  { s with io := { s.io with controller := f s.io.controller } }

@[inline] def mapInterrupts (s : AddressSpace δ) (f : Interrupts → Interrupts) : AddressSpace δ :=
  s.mapController fun c => { c with interrupts := f c.interrupts }

@[inline] def mapTimers (s : AddressSpace δ) (f : Timers → Timers) : AddressSpace δ :=
  s.mapController fun c => { c with timers := f c.timers }

@[inline] def writeSignal (s : AddressSpace δ) (window : Fin 4) (value : Word)
    (f : SignalProcessor → SignalProcessor) : AddressSpace δ :=
  let s := s.mapController fun c => c.withLastWritten window value
  { s with io := { s.io with signal := f s.io.signal } }

@[inline] def mapSignal (s : AddressSpace δ) (f : SignalProcessor → SignalProcessor) :
    AddressSpace δ :=
  { s with io := { s.io with signal := f s.io.signal } }

/-- Writes the controller's window at `offset`; says whether the bus stalled. -/
def poke (s : AddressSpace δ) (offset value : Word) : Bool × AddressSpace δ :=
  match ControllerRegister.ofOffset offset with
  | .instructionPair i => (false, s.writeSignal 0 value fun p => p.setInstructionPair i value)
  | .instruction i => (false, s.writeSignal 1 value fun p => p.setInstruction i value)
  | .dataPair i => (false, s.writeSignal 2 value fun p => p.setDataPair i value)
  | .datum i => (false, s.writeSignal 3 value fun p => p.setDatum i value)
  | .revision => (false, s)
  | .primaryPending .set => (false, s.mapInterrupts fun i => i.setPrimaryPending value)
  | .primaryPending .clear => (false, s.mapInterrupts fun i => i.clearPrimaryPending value)
  | .primaryEnable .set => (false, s.mapInterrupts fun i => i.setPrimaryEnable value)
  | .primaryEnable .clear => (false, s.mapInterrupts fun i => i.clearPrimaryEnable value)
  | .secondaryPending .set => (false, s.mapInterrupts fun i => i.setSecondaryPending value)
  | .secondaryPending .clear => (false, s.mapInterrupts fun i => i.clearSecondaryPending value)
  | .secondaryEnable .set => (false, s.mapInterrupts fun i => i.setSecondaryEnable value)
  | .secondaryEnable .clear => (false, s.mapInterrupts fun i => i.clearSecondaryEnable value)
  | .timerCounter t => (false, s.mapTimers fun timers => timers.withCounter t value.lowHalf)
  | .timerBackup t => (false, s.mapTimers fun timers => timers.withBackup t value.lowHalf)
  | .timerControl high .set => (false, s.mapTimers fun timers => timers.setControl high value)
  | .timerControl high .clear => (false, s.mapTimers fun timers => timers.clearControl high value)
  | .transferEnable .set =>
    let s := s.mapController fun c =>
      c.withRegister SystemController.transferEnable
        (c.register SystemController.transferEnable ||| value)
    if value &&& transferBit != 0 then (true, s.runTransfer) else (false, s)
  | .transferEnable .clear =>
    (false, s.mapController fun c =>
      c.withRegister SystemController.transferEnable
        (c.register SystemController.transferEnable &&& ~~~value))
  | .inputChannel ch =>
    (false, s.mapController fun c => c.writeInputRegister ch offset value)
  | .outputChannel ch =>
    (false, s.mapController fun c => c.writeOutputRegister ch offset value)
  | .expansion =>
    (false, { s with
      io := { s.io with expansion := s.io.expansion.write (offset &&& 0xFFFC) value } })
  | .semaphore => (false, s.mapSignal fun p => { p with semaphore := value })
  | .processorReset => (false, s.mapSignal SignalProcessor.reset)
  | .processorRun =>
    let s := s.mapController fun c => c.withRegister SystemController.processorRun (value &&& 1)
    (false, s.mapSignal fun p => { p with running := value.bit 0 })
  | .plain => (false, s.mapController fun c => c.withRegister (offset &&& 0xFFFC) value)

/-! ### Access by address -/

def readWindow (s : AddressSpace δ) : Window → Word × AddressSpace δ
  | .graphics offset => (s.io.graphics.read offset, s)
  | .controller offset =>
    let (w, io) := s.io.peek offset
    (w, { s with io := io })
  | .videoSerial offset =>
    (sentinel, { s with io := { s.io with videoSerial := s.io.videoSerial.setSource offset } })
  | .diagnostic =>
    let (w, diagnostic) := s.io.diagnostic.read
    (w, { s with io := { s.io with diagnostic := diagnostic } })
  | .nvram slot => ((s.memory.readNvram slot).toUInt32, s)
  | .rom offset => (s.memory.readRom offset, s)
  | .unmapped => (sentinel, s)

def readWord (s : AddressSpace δ) (address : Word) : Word × AddressSpace δ :=
  match Location.ofAddress address with
  | .ram a => (s.memory.readWord a, s)
  | .window w => s.readWindow w

/-- Outside of RAM a halfword is half of the word that is read. -/
def readHalfWord (s : AddressSpace δ) (address : Word) : HalfWord × AddressSpace δ :=
  match Location.ofAddress address with
  | .ram a => (s.memory.readHalfWord a, s)
  | .window w =>
    let (v, s) := s.readWindow w
    ((v >>> (16 - (address &&& 2) * 8)).toUInt16, s)

/-- Outside of RAM a byte is a quarter of the word that is read. NVRAM has only bytes. -/
def readByte (s : AddressSpace δ) (address : Word) : Byte × AddressSpace δ :=
  match Location.ofAddress address with
  | .ram a => (s.memory.readByte a, s)
  | .window (.nvram slot) => (s.memory.readNvram slot, s)
  | .window w =>
    let (v, s) := s.readWindow w
    ((v >>> (24 - (address &&& 3) * 8)).toUInt8, s)

/-- Writes a word outside of RAM; says whether the bus stalled. -/
def writeWindow (s : AddressSpace δ) (w : Window) (value : Word) : Bool × AddressSpace δ :=
  match w with
  | .graphics offset =>
    (false, { s with io := { s.io with graphics := s.io.graphics.write offset value } })
  | .controller offset => s.poke offset value
  | .videoSerial offset =>
    let ⟨memory, io⟩ := s
    let (videoSerial, memory) := io.videoSerial.write memory offset value
    (false, ⟨memory, { io with videoSerial := videoSerial }⟩)
  | .diagnostic =>
    (false, { s with io := { s.io with diagnostic := s.io.diagnostic.write value } })
  | .nvram slot => (false, { s with memory := s.memory.writeNvram slot value.toUInt8 })
  | .rom _ | .unmapped => (false, s)

def writeWord (s : AddressSpace δ) (address value : Word) : Bool × AddressSpace δ :=
  match Location.ofAddress address with
  | .ram a => (false, { s with memory := s.memory.writeWord a value })
  | .window w => s.writeWindow w value

/-- Outside of RAM a halfword is driven on both halves of the bus. -/
def writeHalfWord (s : AddressSpace δ) (address : Word) (value : HalfWord) :
    Bool × AddressSpace δ :=
  match Location.ofAddress address with
  | .ram a => (false, { s with memory := s.memory.writeHalfWord a value })
  | .window w => s.writeWindow w (value.toUInt32 * 0x00010001)

/-- Outside of RAM a byte is driven on all four lanes of the bus. -/
def writeByte (s : AddressSpace δ) (address : Word) (value : Byte) : Bool × AddressSpace δ :=
  match Location.ofAddress address with
  | .ram a => (false, { s with memory := s.memory.writeByte a value })
  | .window w => s.writeWindow w (value.toUInt32 * 0x01010101)

end AddressSpace

end ArmConsole
