import ArmConsole.Controller.Basic
import ArmConsole.Device.GraphicsRegisters
import ArmConsole.Device.SignalProcessor
import ArmConsole.Proofs.Checked.Access
import Mathlib.Algebra.Group.Nat.Defs

/-!
Checked access to the arrays behind the register windows: the register files, the timers, the
stream channels and the memories of the signal processor. Indices are computed from the offset.
Main statement: `indexed_ofOffset` says that an index computed from an offset is the one that the
register at the offset names.
-/

namespace ArmConsole

/-! ### Register files -/

namespace GraphicsRegisters

/-- The index of the register that a window offset addresses. -/
def index (offset : Word) : Nat := ((offset &&& 0x7FF) >>> 2).toNat

theorem index_eq (offset : Word) : index offset = (slot offset).val := by
  have same : (offset &&& 0x7FF) >>> 2 = offset >>> 2 &&& (0x1FF : Word) := UInt32.shiftRight_and
  exact congrArg UInt32.toNat same

def read? (r : GraphicsRegisters) (offset : Word) : Checked Word := r.words[index offset]?

@[simp] theorem read?_eq (r : GraphicsRegisters) (offset : Word) :
    r.read? offset = some (r.read offset) := by
  rw [read?, index_eq]
  exact Vector.getElem?_eq_getElem (slot offset).isLt

def write? (r : GraphicsRegisters) (offset value : Word) : Checked GraphicsRegisters := do
  return ⟨← replace? r.words (index offset) value⟩

@[simp] theorem write?_eq (r : GraphicsRegisters) (offset value : Word) :
    r.write? offset value = some (r.write offset value) := by
  rw [write?, index_eq, replace?_fin]
  rfl

end GraphicsRegisters

namespace SystemController

def index (offset : Word) : Nat := ((offset >>> 2) &&& 0xFFFF).toNat

def register? (c : SystemController) (offset : Word) : Checked Word := c.registers[index offset]?

@[simp] theorem register?_eq (c : SystemController) (offset : Word) :
    c.register? offset = some (c.register offset) :=
  Vector.getElem?_eq_getElem (slot offset).isLt

def withRegister? (c : SystemController) (offset value : Word) : Checked SystemController := do
  return { c with registers := ← replace? c.registers (index offset) value }

@[simp] theorem withRegister?_eq (c : SystemController) (offset value : Word) :
    c.withRegister? offset value = some (c.withRegister offset value) := by
  have replaced := replace?_fin c.registers (slot offset) value
  rw [withRegister?]
  change (replace? c.registers (slot offset).val value >>= _) = _
  rw [replaced]
  rfl

end SystemController

/-! ### Memories of the signal processor -/

namespace SignalProcessor

/-- A halfword of a memory. Addresses wrap around at its end. -/
def read? (memory : Vector HalfWord 1024) (address : HalfWord) : Checked HalfWord :=
  memory[(address &&& 0x3FF).toNat]?

def write? (memory : Vector HalfWord 1024) (address v : HalfWord) :
    Checked (Vector HalfWord 1024) :=
  replace? memory (address &&& 0x3FF).toNat v

/-- The two halfwords of pair `i`, high half first. -/
def readPair? (memory : Vector HalfWord 1024) (i : HalfWord) : Checked Word := do
  return .ofHalves (← read? memory (i * 2)) (← read? memory (i * 2 + 1))

def writePair? (memory : Vector HalfWord 1024) (i : HalfWord) (v : Word) :
    Checked (Vector HalfWord 1024) := do
  write? (← write? memory (i * 2) v.highHalf) (i * 2 + 1) v.lowHalf

theorem toNat_masked (address : HalfWord) : (address &&& 0x3FF).toNat = address.toNat % 1024 :=
  (UInt16.toNat_and ..).trans (Nat.and_two_pow_sub_one_eq_mod _ 10)

variable {memory : Vector HalfWord 1024} {address : HalfWord} {i : Nat}

theorem read?_eq (same : address.toNat = i) (h : i < 1024) :
    read? memory address = some memory[i] := by
  have masked : (address &&& 0x3FF).toNat = i := by rw [toNat_masked]; omega
  rw [read?, masked]
  exact Vector.getElem?_eq_getElem h

theorem write?_eq (same : address.toNat = i) (h : i < 1024) (v : HalfWord) :
    write? memory address v = some (memory.set i v) := by
  have masked : (address &&& 0x3FF).toNat = i := by rw [toNat_masked]; omega
  rw [write?, masked]
  exact replace?_eq memory v h

/-- The addresses of the halves of a pair. -/
theorem toNat_halves (same : address.toNat = i) (h : 2 * i + 1 < 1024) :
    (address * 2).toNat = 2 * i ∧ (address * 2 + 1).toNat = 2 * i + 1 := by
  have first : (address * 2).toNat = address.toNat * 2 % 65536 := UInt16.toNat_mul ..
  have second : (address * 2 + 1).toNat = ((address * 2).toNat + 1) % 65536 := UInt16.toNat_add ..
  omega

theorem readPair?_eq (same : address.toNat = i) (h : 2 * i + 1 < 1024) :
    readPair? memory address = some (pair memory i h) := by
  obtain ⟨first, second⟩ := toNat_halves same h
  rw [readPair?, read?_eq first (by omega), read?_eq second h]
  rfl

theorem writePair?_eq (same : address.toNat = i) (h : 2 * i + 1 < 1024) (v : Word) :
    writePair? memory address v = some (setPair memory i v h) := by
  obtain ⟨first, second⟩ := toNat_halves same h
  rw [writePair?, write?_eq first (by omega)]
  exact write?_eq second h _

end SignalProcessor

/-! ### The register map -/

namespace ControllerRegister

/-- What a register that is kept in an array says about its offset. -/
def Describes (offset : Nat) : ControllerRegister → Prop
  | instructionPair i => 0x1800 ≤ offset ∧ (offset - 0x1800) / 4 = i.val
  | instruction i => 0x2000 ≤ offset ∧ (offset - 0x2000) / 4 = i.val
  | dataPair i => 0x3000 ≤ offset ∧ (offset - 0x3000) / 4 = i.val
  | datum i => 0x3400 ≤ offset ∧ (offset - 0x3400) / 4 = i.val
  | timerCounter t | timerBackup t => 0x100 ≤ offset ∧ (offset - 0x100) / 8 = t.val
  | inputChannel c => 0x400 ≤ offset ∧ (offset - 0x400) / 16 = c.val
  | outputChannel c => 0x500 ≤ offset ∧ (offset - 0x500) / 16 = c.val
  | _ => True

theorem describes_ofNat (offset : Nat) : (ofNat offset).Describes offset := by
  -- One range of offsets after the other; splitting all of them at once would take too long.
  have ranges {p : Prop} [Decidable p] {a : p → ControllerRegister}
      {b : ¬p → ControllerRegister}
      (inside : ∀ h, (a h).Describes offset) (outside : ∀ h, (b h).Describes offset) :
      (dite p a b).Describes offset := by
    by_cases h : p
    · rw [dif_pos h]
      exact inside h
    · rw [dif_neg h]
      exact outside h
  unfold ofNat
  refine ranges (fun _ => ?lowest) fun _ => ranges (fun _ => ?timers) fun _ =>
    ranges (fun _ => ?controls) fun _ => ranges (fun _ => ⟨by omega, rfl⟩) fun _ =>
    ranges (fun _ => trivial) fun _ => ranges (fun _ => ⟨by omega, rfl⟩) fun _ =>
    ranges (fun _ => trivial) fun _ => ranges (fun _ => trivial) fun _ =>
    ranges (fun _ => ?processor) fun _ => ranges (fun _ => ⟨by omega, rfl⟩) fun _ =>
    ranges (fun _ => ⟨by omega, rfl⟩) fun _ => ranges (fun _ => ⟨by omega, rfl⟩) fun _ =>
    ranges (fun _ => ⟨by omega, rfl⟩) fun _ => trivial
  case lowest => split <;> exact trivial
  case timers => exact ranges (fun _ => ⟨by omega, rfl⟩) fun _ => ⟨by omega, rfl⟩
  case controls => split <;> exact trivial
  case processor => split <;> exact trivial

/-- The bits of an offset that name a register. -/
def aligned (offset : Word) : Word := offset &&& 0xFFFC

/-- The index of the element at an offset, in an array that starts at `base` and has elements of
`2 ^ shift` bytes. -/
def element (offset base shift : Word) : Word := (aligned offset - base) >>> shift

variable {offset base shift : Word} {first size i : Nat}

/-- The index computed from an offset is that of the register which describes the offset. -/
theorem toNat_element
    (described : first ≤ (aligned offset).toNat ∧ ((aligned offset).toNat - first) / size = i)
    (start : base.toNat = first) (width : 2 ^ (shift.toNat % 32) = size) :
    (element offset base shift).toNat = i := by
  obtain ⟨behind, index⟩ := described
  have apart := UInt32.toNat_sub_of_le (aligned offset) base
    (UInt32.le_iff_toNat_le.mpr (by rw [start]; exact behind))
  rw [element, UInt32.toNat_shiftRight, apart, Nat.shiftRight_eq_div_pow, start, width, index]

theorem toNat_toUInt16_element
    (described : first ≤ (aligned offset).toNat ∧ ((aligned offset).toNat - first) / size = i)
    (start : base.toNat = first) (width : 2 ^ (shift.toNat % 32) = size) (small : i < 65536) :
    (element offset base shift).toUInt16.toNat = i := by
  rw [UInt32.toNat_toUInt16, toNat_element described start width, Nat.mod_eq_of_lt small]

/-- The index of a register that is kept in an array, computed from an offset. -/
def Indexed (offset : Word) : ControllerRegister → Prop
  | instructionPair i => (element offset 0x1800 2).toUInt16.toNat = i.val
  | instruction i => (element offset 0x2000 2).toUInt16.toNat = i.val
  | dataPair i => (element offset 0x3000 2).toUInt16.toNat = i.val
  | datum i => (element offset 0x3400 2).toUInt16.toNat = i.val
  | timerCounter t | timerBackup t => (element offset 0x100 3).toNat = t.val
  | inputChannel c => (element offset 0x400 4).toNat = c.val
  | outputChannel c => (element offset 0x500 4).toNat = c.val
  | _ => True

theorem indexed_ofOffset (offset : Word) : (ofOffset offset).Indexed offset := by
  have described : (ofOffset offset).Describes (aligned offset).toNat := describes_ofNat _
  cases h : ofOffset offset with
  | instructionPair i | instruction i | dataPair i | datum i =>
    rw [h] at described
    exact toNat_toUInt16_element described (by decide) (by decide) (by omega)
  | timerCounter t | timerBackup t | inputChannel c | outputChannel c =>
    rw [h] at described
    exact toNat_element described (by decide) (by decide)
  | _ => trivial

end ControllerRegister

end ArmConsole
