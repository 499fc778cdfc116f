import ArmConsole.Proofs.Expansion.Snapshot
import ArmConsole.Proofs.Machine.Simulation

/-!
A bus without devices. It answers every question with 0, keeps nothing but its selection, and takes
back every blob of its own. No access plugs a device in.
-/

namespace ArmConsole

variable {δ : Type}

namespace ExpansionBus

variable {bus : ExpansionBus δ}

/-- No slot holds a device. -/
def Vacant (bus : ExpansionBus δ) : Prop := ∀ slot : Fin 15, bus.slot slot = none

theorem vacant_empty : (empty : ExpansionBus δ).Vacant := fun slot =>
  Vector.getElem_replicate slot.isLt

namespace Vacant

theorem slots_eq (vacant : bus.Vacant) : bus.slots = .replicate 15 none := by
  apply Vector.ext
  intro i h
  rw [Vector.getElem_replicate]
  exact vacant ⟨i, h⟩

/-! ### Questions -/

theorem askSlot {α : Type} [Inhabited α] (vacant : bus.Vacant) (slot : Fin 15) (f : δ → α × δ) :
    bus.askSlot slot f = (default, bus) := by
  rw [ExpansionBus.askSlot, vacant slot]

theorem ask (vacant : bus.Vacant) (f : δ → Byte × δ) : bus.ask f = (0, bus) := by
  unfold ExpansionBus.ask
  split
  · exact vacant.askSlot _ f
  · rfl

theorem tell (vacant : bus.Vacant) (f : δ → δ) : bus.tell f = bus := by
  rw [ExpansionBus.tell, vacant.ask]

variable [ExpansionDevice δ]

theorem read (vacant : bus.Vacant) (offset : Word) : (bus.read offset).2 = bus := by
  unfold ExpansionBus.read
  split <;> simp only [vacant.ask]

theorem write (vacant : bus.Vacant) (offset value : Word) : (bus.write offset value).Vacant := by
  unfold ExpansionBus.write
  split
  · exact vacant
  all_goals
    try rw [vacant.tell]
    exact vacant

theorem attentionNeeded (vacant : bus.Vacant) : bus.attentionNeeded = (false, bus) := by
  have quiet : requestsAttention default = false := rfl
  apply List.foldl_fixed'
  intro slot
  dsimp only
  rw [if_neg Bool.false_ne_true, vacant.askSlot, quiet]

theorem reset (vacant : bus.Vacant) : bus.reset.Vacant := by
  intro slot
  have mapped : bus.reset.slot slot = (bus.slot slot).map ExpansionDevice.reset :=
    Vector.getElem_map _ slot.isLt
  rw [mapped, vacant slot]
  rfl

theorem detach (vacant : bus.Vacant) (slot : Nat) : bus.detach slot = none := by
  unfold ExpansionBus.detach
  split
  next inside =>
    rw [vacant ⟨slot, inside⟩]
    rfl
  next => rfl

theorem transferWords (vacant : bus.Vacant) (swapped : Bool) (memory : GuestMemory)
    (address : Word) (count : Nat) :
    (AddressSpace.transferWords swapped memory bus address count).2 = bus := by
  induction count generalizing memory address with
  | zero => rfl
  | succ count ih =>
    simp only [AddressSpace.transferWords, data, vacant.ask]
    exact ih _ _

/-! ### Snapshots -/

theorem progress (vacant : bus.Vacant) (s : Saved) (k : Nat) :
    bus.progress s k = { bus with select := s.select } := by
  have nothing (entry : Option ByteArray) : tried (none : Option δ) entry = none := rfl
  have start : bus.progress s k = bus.progress s 0 := by
    simp only [ExpansionBus.progress, vacant _, nothing, ite_self]
  rw [start, progress_zero]

/-- What a bus without devices was saved as is taken back by every other such bus. -/
theorem decode_save (vacant : bus.Vacant) {other : ExpansionBus δ} (saved : other.Vacant) :
    bus.decode other.save = .ok other.saved := by
  apply ExpansionBus.decode_save
  rw [ExpansionBus.fits_iff]
  intro slot
  rw [vacant slot, saved slot]
  exact .vacant

theorem apply (vacant : bus.Vacant) {s : Saved} (all : s.slots.length = 15) :
    ExpansionBus.apply s bus = .ok () { bus with select := s.select } := by
  obtain ⟨-, applied⟩ | ⟨j, e, -, refused, -⟩ := apply_cases (s := s) bus all
  · rw [applied, vacant.progress]
  · rw [vacant j] at refused
    cases refused

end Vacant

end ExpansionBus

/-! ### Accesses -/

variable [ExpansionDevice δ]

theorem Peripherals.vacant_peek {io : Peripherals δ} (vacant : io.expansion.Vacant)
    (offset : Word) : (io.peek offset).2.expansion = io.expansion := by
  unfold peek
  dsimp only
  cases ControllerRegister.ofOffset offset with
  | expansion => exact vacant.read _
  | _ => rfl

theorem Peripherals.vacant_tickLine {io : Peripherals δ} (vacant : io.expansion.Vacant) :
    io.tickLine.expansion.Vacant := by
  unfold tickLine pollExpansion
  simp only [vacant.attentionNeeded, Bool.false_eq_true, if_false]
  exact vacant

namespace AddressSpace

theorem vacant_readWindow {s : AddressSpace δ} (vacant : s.io.expansion.Vacant) (w : Window) :
    (s.readWindow w).2.io.expansion = s.io.expansion := by
  cases w with
  | controller offset => exact Peripherals.vacant_peek vacant offset
  | _ => rfl

theorem vacant_runTransfer {s : AddressSpace δ} (vacant : s.io.expansion.Vacant) :
    s.runTransfer.io.expansion.Vacant := by
  have same : s.runTransfer.io.expansion = s.io.expansion := vacant.transferWords ..
  rw [same]
  exact vacant

theorem vacant_poke {s : AddressSpace δ} (vacant : s.io.expansion.Vacant) (offset value : Word) :
    (s.poke offset value).2.io.expansion.Vacant := by
  unfold poke
  cases ControllerRegister.ofOffset offset with
  | primaryPending access => cases access <;> exact vacant
  | secondaryPending access => cases access <;> exact vacant
  | primaryEnable access => cases access <;> exact vacant
  | secondaryEnable access => cases access <;> exact vacant
  | timerControl high access => cases access <;> exact vacant
  | transferEnable access =>
    cases access with
    | set =>
      dsimp only
      split
      · dsimp only
        apply vacant_runTransfer
        exact vacant
      · exact vacant
    | clear => exact vacant
  | expansion => exact vacant.write _ _
  | _ => exact vacant

theorem vacant_invariant : Invariant fun s : AddressSpace δ => s.io.expansion.Vacant := by
  apply invariant_of_io (P := fun io => io.expansion.Vacant)
  · intro s w vacant
    rw [vacant_readWindow vacant]
    exact vacant
  · intro s w value vacant
    cases w with
    | controller offset => exact vacant_poke vacant offset value
    | _ => exact vacant

end AddressSpace

end ArmConsole
