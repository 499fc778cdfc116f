import ArmConsole.Proofs.Controller.Pending
import ArmConsole.Proofs.Machine.Accesses
import ArmConsole.Proofs.System.Interrupts

/-!
Pending sources while a guest runs. Of all accesses to the bus only a write to the register that
acknowledges a source, with the bit of that source set, can end its being pending.
-/

namespace ArmConsole

namespace BusAccess

/-- Whether a write reaches the register that acknowledges a source, with the bit of that source
set. -/
def acknowledges (access : BusAccess) (source : InterruptSource) : Bool :=
  match access.window? with
  | some (.controller offset, value) =>
    offset &&& 0xFFFC == source.acknowledgeOffset && value.bit source.bit
  | _ => false

end BusAccess

variable {δ : Type} [ExpansionDevice δ]

namespace AddressSpace

def isPending (s : AddressSpace δ) (source : InterruptSource) : Bool :=
  s.io.controller.interrupts.isPending source

variable {s : AddressSpace δ} {source : InterruptSource}

theorem isPending_readWindow (pending : s.isPending source) (w : Window) :
    (s.readWindow w).2.isPending source := by
  rw [isPending, controller_readWindow]
  exact pending

theorem isPending_writeWindow (pending : s.isPending source) {w : Window} {value : Word}
    (other : ∀ offset, w = .controller offset → offset &&& 0xFFFC = source.acknowledgeOffset →
      value.bit source.bit = false) :
    (s.writeWindow w value).2.isPending source := by
  cases w with
  | controller offset => exact (s.poked_poke offset value).isPending pending (other offset rfl)
  | _ => exact pending

theorem isPending_perform (pending : s.isPending source) {access : BusAccess}
    (other : access.acknowledges source = false) : (s.perform access).isPending source := by
  have performed := s.performed access
  generalize s.perform access = t at performed ⊢
  cases performed with
  | read => exact pending
  | readWindow w => exact isPending_readWindow pending w
  | storeWord value ram => exact pending
  | storeByte value ram => exact pending
  | @writeWindow _ w value reached =>
    apply isPending_writeWindow pending
    rintro offset rfl place
    simpa only [BusAccess.acknowledges, reached, place, beq_self_eq_true, Bool.true_and] using other

theorem isPending_performAll (pending : s.isPending source) {accesses : List BusAccess}
    (others : ∀ access ∈ accesses, access.acknowledges source = false) :
    (s.performAll accesses).isPending source := by
  induction accesses generalizing s with
  | nil => exact pending
  | cons access accesses ih =>
    obtain ⟨first, rest⟩ := List.forall_mem_cons.1 others
    exact ih (isPending_perform pending first) rest

end AddressSpace

theorem Machine.isPending_step {m : Machine δ} {source : InterruptSource}
    (pending : m.space.isPending source)
    (others : ∀ access ∈ m.accesses, access.acknowledges source = false) :
    m.step.space.isPending source := by
  rw [AddressSpace.isPending, m.io_step]
  exact AddressSpace.isPending_performAll pending others

end ArmConsole
