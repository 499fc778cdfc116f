import ArmConsole.Proofs.Memory.FlatRam
import ArmConsole.Proofs.Memory.Location
import ArmConsole.System.AddressSpace

/-!
RAM behind the bus. An access that lands in RAM reaches no peripheral and never stalls, whatever its
width is. Main statement: for the processor, RAM is a flat big-endian array of bytes.
-/

namespace ArmConsole

namespace AddressSpace

variable {δ : Type} [ExpansionDevice δ]

/-! ### Accesses that land in RAM -/

section Located

variable {address : Word} (inRam : address.toNat < GuestMemory.ramSize) (s : AddressSpace δ)

include inRam

theorem readWord_of_lt : s.readWord address = (s.memory.readWord ⟨_, inRam⟩, s) := by
  rw [readWord, Location.ofAddress_of_lt inRam]

theorem readByte_of_lt : s.readByte address = (s.memory.readByte ⟨_, inRam⟩, s) := by
  rw [readByte, Location.ofAddress_of_lt inRam]

theorem writeWord_of_lt (v : Word) :
    s.writeWord address v = (false, { s with memory := s.memory.writeWord ⟨_, inRam⟩ v }) := by
  rw [writeWord, Location.ofAddress_of_lt inRam]

theorem writeByte_of_lt (v : Byte) :
    s.writeByte address v = (false, { s with memory := s.memory.writeByte ⟨_, inRam⟩ v }) := by
  rw [writeByte, Location.ofAddress_of_lt inRam]

end Located

/-! ### All widths -/

/-- Reads RAM over the bus. -/
def readRam (s : AddressSpace δ) (width : RamWidth) (a : RamAddress) : Nat × AddressSpace δ :=
  match width with
  | .byte => (s.readByte a.toWord).map UInt8.toNat id
  | .halfWord => (s.readHalfWord a.toWord).map UInt16.toNat id
  | .word => (s.readWord a.toWord).map UInt32.toNat id

/-- Writes RAM over the bus; says whether the bus stalled. -/
def writeRam (s : AddressSpace δ) (w : RamWrite) : Bool × AddressSpace δ :=
  match w.width with
  | .byte => s.writeByte w.address.toWord w.value.toUInt8
  | .halfWord => s.writeHalfWord w.address.toWord w.value.toUInt16
  | .word => s.writeWord w.address.toWord w.value

def writeRamAll (s : AddressSpace δ) (writes : List RamWrite) : AddressSpace δ :=
  writes.foldl (fun s w => (s.writeRam w).2) s

theorem readRam_eq (s : AddressSpace δ) (width : RamWidth) (a : RamAddress) :
    s.readRam width a = (s.memory.read width a, s) := by
  cases width with
  | byte => rw [readRam, readByte, Location.ofAddress_toWord]; rfl
  | halfWord => rw [readRam, readHalfWord, Location.ofAddress_toWord]; rfl
  | word => rw [readRam, readWord, Location.ofAddress_toWord]; rfl

theorem writeRam_eq (s : AddressSpace δ) (w : RamWrite) :
    s.writeRam w = (false, { s with memory := s.memory.write w }) := by
  obtain ⟨width, a, v⟩ := w
  cases width with
  | byte => rw [writeRam, writeByte, Location.ofAddress_toWord]; rfl
  | halfWord => rw [writeRam, writeHalfWord, Location.ofAddress_toWord]; rfl
  | word => rw [writeRam, writeWord, Location.ofAddress_toWord]; rfl

theorem writeRamAll_eq (s : AddressSpace δ) (writes : List RamWrite) :
    s.writeRamAll writes = { s with memory := writes.foldl GuestMemory.write s.memory } := by
  induction writes generalizing s with
  | nil => rfl
  | cons w writes ih =>
    change (s.writeRam w).2.writeRamAll writes = _
    rw [ih, writeRam_eq]
    rfl

/-- Whatever has been written to RAM, in words, halfwords and bytes, a read of any width yields the
big-endian number of the bytes that it covers, each as the last write left it that covers it. A
write changes the bytes that it covers and nothing else, and no access stalls the bus. -/
theorem ram_flat (s : AddressSpace δ) (writes : List RamWrite) :
    let t := s.writeRamAll writes
    (∀ width a,
      t.readRam width a = (width.bigEndian (RamWrite.latest writes s.memory.readByte) a, t)) ∧
    ∀ w, let u := (t.writeRam w).2
      t.writeRam w = (false, { t with memory := u.memory }) ∧
      GuestMemory.Framed (fun b => w.covers b = true) (fun _ => False) t.memory u.memory ∧
      ∀ b, w.covers b = true → u.memory.readByte b = w.byteAt b := by
  intro t
  have behind : t.memory.readByte = RamWrite.latest writes s.memory.readByte := by
    have memory : t.memory = writes.foldl GuestMemory.write s.memory := by
      rw [show t = s.writeRamAll writes from rfl, writeRamAll_eq]
    rw [memory, GuestMemory.readByte_writeAll]
  constructor
  · intro width a
    rw [readRam_eq, GuestMemory.read_eq, behind]
  · intro w
    rw [writeRam_eq]
    refine ⟨rfl, t.memory.framed_write w, ?_⟩
    intro b covered
    exact (t.memory.readByte_write w b).trans (if_pos covered)

end AddressSpace

end ArmConsole
