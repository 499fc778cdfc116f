import ArmConsole.Proofs.Controller.RegisterMap
import ArmConsole.Proofs.Machine.Accesses
import ArmConsole.Proofs.Memory.FlatRam
import ArmConsole.Proofs.Memory.Location
import ArmConsole.Proofs.System.Mirrors

/-!
What accesses to the bus leave alone in memory. Reads change none of it. A write changes the bytes
that it addresses, unless it starts a transfer from the expansion bus, which stores where the
graphics registers say, or reaches the serial port of video RAM with something plugged in, which
may then store anywhere in VRAM.
-/

namespace ArmConsole

/-- A write reaches a slot of NVRAM. -/
def BusAccess.StoresSlot (access : BusAccess) (slot : Fin GuestMemory.nvramSize) : Prop :=
  ∃ value, access.window? = some (.nvram slot, value)

namespace AddressSpace

variable {δ : Type}

/-- Byte `a` is in one of the `count` words from `address` up. Addresses start over behind the
last. -/
def InWords (address : Word) (count : Nat) (a : RamAddress) : Prop :=
  (.ofNat a.val - address : Word).toNat < 4 * count

/-- Byte `a` is one of those that a transfer stores if it starts now. -/
def Transfers (s : AddressSpace δ) (a : RamAddress) : Prop :=
  InWords (s.io.graphics.read GraphicsRegisters.transferAddress)
    (transferCount (s.io.graphics.read GraphicsRegisters.transferLength)) a

/-- An access stores to byte `a`, or it starts a transfer that does. -/
inductive Stores (s : AddressSpace δ) (a : RamAddress) : BusAccess → Prop
  | word {address : Word} (value : Word) :
      address.toNat / 4 = a.val / 4 → Stores s a (.writeWord address value)
  | byte {address : Word} (value : Byte) :
      address.toNat = a.val → Stores s a (.writeByte address value)
  | transfer {access : BusAccess} {offset value : Word} :
      access.window? = some (.controller offset, value) → offset &&& 0xFFFC = 0x304 →
      value &&& transferBit ≠ 0 → s.Transfers a → Stores s a access

/-- Byte `a` is in VRAM, and an access hands VRAM to what is plugged into the serial port. -/
inductive StoresSerially (s : AddressSpace δ) (a : RamAddress) : BusAccess → Prop
  | intro {access : BusAccess} {offset value : Word} :
      access.window? = some (.videoSerial offset, value) → s.io.videoSerial ≠ .detached →
      GuestMemory.vramStart ≤ a.val → StoresSerially s a access

variable [ExpansionDevice δ]

/-- Some access has a property when its turn comes. -/
def Sometime (P : AddressSpace δ → BusAccess → Prop) (s : AddressSpace δ) :
    List BusAccess → Prop
  | [] => False
  | access :: accesses => P s access ∨ Sometime P (s.perform access) accesses

/-! ### Transfers -/

open GuestMemory (Framed)

theorem framed_storeByte (memory : GuestMemory) (address : Word) (b : Byte) :
    Framed (fun a => a.val = address.toNat) (fun _ => False) memory
      (storeByte memory address b) := by
  unfold storeByte
  split
  next a ram =>
    rw [Location.ram_of_ofAddress ram]
    exact memory.framed_writeByte a b
  next => exact .refl memory

theorem inWords_of_eq {address k : Word} {a : RamAddress} (inWord : k.toNat < 4)
    (same : a.val = (address + k).toNat) (count : Nat) : InWords address (count + 1) a := by
  rw [InWords, same, UInt32.ofNat_toNat, UInt32.add_comm, UInt32.add_sub_cancel]
  omega

theorem InWords.succ {address : Word} {count : Nat} {a : RamAddress}
    (inside : InWords (address + 4) count a) : InWords address (count + 1) a := by
  have width : (4 : Word).toNat = 4 := rfl
  have bound := address.toNat_lt
  rw [InWords, UInt32.toNat_sub, UInt32.toNat_add] at inside
  rw [InWords, UInt32.toNat_sub]
  omega

theorem framed_transferWords (swapped : Bool) (memory : GuestMemory) (bus : ExpansionBus δ)
    (address : Word) (count : Nat) :
    Framed (InWords address count) (fun _ => False) memory
      (transferWords swapped memory bus address count).1 := by
  induction count generalizing memory bus address with
  | zero => exact .refl memory
  | succ count ih =>
    have stored (memory : GuestMemory) {k : Word} (inWord : k.toNat < 4) (b : Byte) :
        Framed (InWords address (count + 1)) (fun _ => False) memory
          (storeByte memory (address + k) b) :=
      (framed_storeByte memory (address + k) b).mono
        (fun a same => inWords_of_eq inWord same count) fun _ => id
    have first (memory : GuestMemory) (b : Byte) :
        Framed (InWords address (count + 1)) (fun _ => False) memory
          (storeByte memory address b) := by
      have stored := stored memory (k := 0) (by decide) b
      rwa [UInt32.add_zero] at stored
    have rest (memory : GuestMemory) (bus : ExpansionBus δ) :
        Framed (InWords address (count + 1)) (fun _ => False) memory
          (transferWords swapped memory bus (address + 4) count).1 :=
      (ih memory bus (address + 4)).mono (fun a => InWords.succ) fun _ => id
    simp only [transferWords]
    exact ((((first _ _).trans (stored _ (by decide) _)).trans (stored _ (by decide) _)).trans
      (stored _ (by decide) _)).trans (rest _ _)

/-! ### Accesses -/

theorem framed_poke (s : AddressSpace δ) (offset value : Word) :
    Framed
      (fun a => offset &&& 0xFFFC = 0x304 ∧ value &&& transferBit ≠ 0 ∧ s.Transfers a)
      (fun _ => False) s.memory (s.poke offset value).2.memory := by
  have place := ControllerRegister.places_ofOffset offset
  unfold poke
  cases named : ControllerRegister.ofOffset offset with
  | transferEnable access =>
    rw [named] at place
    cases access with
    | set =>
      dsimp only
      split
      next started =>
        rw [bne_iff_ne] at started
        have moved := framed_transferWords
          ((s.io.controller.withRegister SystemController.transferEnable
            (s.io.controller.register SystemController.transferEnable ||| value)).register
              SystemController.transferControl &&& swapBit != 0)
          s.memory s.io.expansion (s.io.graphics.read GraphicsRegisters.transferAddress)
          (transferCount (s.io.graphics.read GraphicsRegisters.transferLength))
        exact moved.mono (fun a inside => ⟨place, started, inside⟩) fun _ => id
      next => exact .refl s.memory
    | clear => exact .refl s.memory
  | primaryPending access => cases access <;> exact .refl s.memory
  | primaryEnable access => cases access <;> exact .refl s.memory
  | secondaryPending access => cases access <;> exact .refl s.memory
  | secondaryEnable access => cases access <;> exact .refl s.memory
  | timerControl high access => cases access <;> exact .refl s.memory
  | _ => exact .refl s.memory

theorem framed_writeWindow (s : AddressSpace δ) {access : BusAccess} {w : Window} {value : Word}
    (reached : access.window? = some (w, value)) :
    Framed (fun a => s.Stores a access ∨ s.StoresSerially a access) access.StoresSlot s.memory
      (s.writeWindow w value).2.memory := by
  cases w with
  | controller offset =>
    apply (s.framed_poke offset value).mono
    · rintro a ⟨place, started, inside⟩
      exact .inl (.transfer reached place started inside)
    · exact fun _ => False.elim
  | videoSerial offset =>
    change Framed _ _ s.memory (s.io.videoSerial.write s.memory offset value).2
    cases port : s.io.videoSerial with
    | detached => exact .refl s.memory
    | attached engine history =>
      have plugged : s.io.videoSerial ≠ .detached := by
        rw [port]
        exact VideoSerial.noConfusion
      apply (s.memory.framed_withVram _).mono
      · intro a inVram
        exact .inr (.intro reached plugged inVram)
      · exact fun _ => False.elim
  | nvram slot =>
    apply (s.memory.framed_writeNvram slot value.toUInt8).mono
    · exact fun _ => False.elim
    · rintro _ rfl
      exact ⟨value, reached⟩
  | graphics offset => exact .refl s.memory
  | diagnostic => exact .refl s.memory
  | rom offset => exact .refl s.memory
  | unmapped => exact .refl s.memory

theorem memory_readWindow (s : AddressSpace δ) (w : Window) :
    (s.readWindow w).2.memory = s.memory := by
  cases w <;> rfl

theorem memory_perform (s : AddressSpace δ) {access : BusAccess} (reads : access.isWrite = false) :
    (s.perform access).memory = s.memory := by
  have performed := s.performed access
  generalize s.perform access = t at performed ⊢
  cases performed with
  | read => rfl
  | readWindow w => exact s.memory_readWindow w
  | storeWord value ram => contradiction
  | storeByte value ram => contradiction
  | writeWindow reached => cases access <;> contradiction

theorem memory_performAll (s : AddressSpace δ) {accesses : List BusAccess}
    (reads : ∀ access ∈ accesses, access.isWrite = false) :
    (s.performAll accesses).memory = s.memory := by
  induction accesses generalizing s with
  | nil => rfl
  | cons access accesses ih =>
    obtain ⟨first, rest⟩ := List.forall_mem_cons.1 reads
    exact (ih (s.perform access) rest).trans (s.memory_perform first)

theorem framed_perform (s : AddressSpace δ) (access : BusAccess) :
    Framed (fun a => s.Stores a access ∨ s.StoresSerially a access) access.StoresSlot s.memory
      (s.perform access).memory := by
  have performed := s.performed access
  generalize s.perform access = t at performed ⊢
  cases performed with
  | read => exact .refl s.memory
  | readWindow w =>
    rw [memory_readWindow]
    exact .refl s.memory
  | @storeWord address a value ram =>
    have place := Location.ram_of_ofAddress ram
    apply (s.memory.framed_writeWord a value).mono
    · intro b same
      exact .inl (.word value (by rw [place, same]))
    · exact fun _ => False.elim
  | @storeByte address a value ram =>
    have place := Location.ram_of_ofAddress ram
    apply (s.memory.framed_writeByte a value).mono
    · intro b same
      exact .inl (.byte value (by rw [place, same]))
    · exact fun _ => False.elim
  | writeWindow reached => exact s.framed_writeWindow reached

theorem framed_performAll (s : AddressSpace δ) (accesses : List BusAccess) :
    Framed
      (fun a => s.Sometime (fun t access => t.Stores a access ∨ t.StoresSerially a access) accesses)
      (fun slot => ∃ access ∈ accesses, access.StoresSlot slot) s.memory
      (s.performAll accesses).memory := by
  induction accesses generalizing s with
  | nil => exact .refl s.memory
  | cons access accesses ih =>
    apply Framed.trans (n := (s.perform access).memory)
    · apply (s.framed_perform access).mono
      · exact fun a stores => .inl stores
      · exact fun slot stores => ⟨access, List.mem_cons_self, stores⟩
    · apply (ih (s.perform access)).mono
      · exact fun a later => .inr later
      · rintro slot ⟨other, later, stores⟩
        exact ⟨other, List.mem_cons_of_mem access later, stores⟩

/-! ### Nothing in the serial port -/

variable {s : AddressSpace δ}

theorem videoSerial_poke (s : AddressSpace δ) (offset value : Word) :
    (s.poke offset value).2.io.videoSerial = s.io.videoSerial := by
  unfold poke
  cases ControllerRegister.ofOffset offset with
  | transferEnable access =>
    cases access with
    | set =>
      dsimp only
      split <;> rfl
    | clear => rfl
  | primaryPending access => cases access <;> rfl
  | primaryEnable access => cases access <;> rfl
  | secondaryPending access => cases access <;> rfl
  | secondaryEnable access => cases access <;> rfl
  | timerControl high access => cases access <;> rfl
  | _ => rfl

/-- No access plugs anything in. -/
theorem detached_perform (detached : s.io.videoSerial = .detached) (access : BusAccess) :
    (s.perform access).io.videoSerial = .detached := by
  have performed := s.performed access
  generalize s.perform access = t at performed ⊢
  cases performed with
  | read => exact detached
  | readWindow w =>
    cases w with
    | controller offset => exact (s.io.videoSerial_peek offset).trans detached
    | videoSerial offset => exact congrArg (·.setSource offset) detached
    | _ => exact detached
  | storeWord value ram => exact detached
  | storeByte value ram => exact detached
  | @writeWindow _ w value reached =>
    cases w with
    | controller offset => exact (s.videoSerial_poke offset value).trans detached
    | videoSerial offset =>
      exact congrArg (fun port => (port.write s.memory offset value).1) detached
    | _ => exact detached

theorem sometime_of_detached {a : RamAddress} {accesses : List BusAccess}
    (detached : s.io.videoSerial = .detached)
    (sometime : s.Sometime (fun t access => t.Stores a access ∨ t.StoresSerially a access)
      accesses) :
    s.Sometime (fun t access => t.Stores a access) accesses := by
  induction accesses generalizing s with
  | nil => exact sometime
  | cons access accesses ih =>
    obtain (stores | serially) | later := sometime
    · exact .inl stores
    · cases serially with
      | intro reached plugged => exact absurd detached plugged
    · exact .inr (ih (detached_perform detached access) later)

end AddressSpace

end ArmConsole
