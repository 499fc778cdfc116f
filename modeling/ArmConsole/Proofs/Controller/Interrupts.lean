import ArmConsole.Controller.Interrupts
import ArmConsole.Proofs.Word

/-!
The aggregate bit. Every operation that can change a pending bit leaves bit 31 of primary pending
saying whether a secondary source is pending, whatever it said before.
-/

namespace ArmConsole

namespace Interrupts

/-- The aggregate bit is replaced and nothing else. -/
theorem sync_eq (i : Interrupts) :
    i.sync =
      { i with primaryPending := i.primaryPending.withBit 31 (i.secondaryPending != 0) } := by
  unfold sync
  by_cases quiet : i.secondaryPending = 0
  · rw [if_pos (beq_iff_eq.2 quiet), bne_eq_false_iff_eq.2 quiet]
    rfl
  · rw [if_neg (mt beq_iff_eq.1 quiet), bne_iff_ne.2 quiet]
    rfl

/-- The aggregate bit says whether a secondary source is pending. -/
def Synced (i : Interrupts) : Prop := i.primaryPending.bit 31 = (i.secondaryPending != 0)

variable {i : Interrupts}

theorem synced_iff_sync_eq : i.Synced ↔ i.sync = i := by
  rw [Synced, ← Word.withBit_eq_self_iff (by decide), sync_eq]
  constructor
  · intro same
    rw [same]
  · exact congrArg primaryPending

theorem synced_none : none.Synced := rfl

theorem synced_sync (i : Interrupts) : i.sync.Synced := by
  rw [synced_iff_sync_eq]
  simp only [sync_eq, Word.withBit_withBit]

theorem synced_raise (i : Interrupts) (primary secondary : Word) :
    (i.raise primary secondary).Synced := synced_sync _

/-! ### Changes -/

theorem setPrimaryPending_eq_raise (i : Interrupts) (bits : Word) :
    i.setPrimaryPending bits = i.raise bits 0 := by
  simp only [raise, setPrimaryPending, UInt32.or_zero]

theorem setSecondaryPending_eq_raise (i : Interrupts) (bits : Word) :
    i.setSecondaryPending bits = i.raise 0 bits := by
  simp only [raise, setSecondaryPending, UInt32.or_zero]

/-- Sources have been raised, any number of times. -/
inductive Raised (i : Interrupts) : Interrupts → Prop
  | refl : Raised i i
  | raise {j : Interrupts} (primary secondary : Word) :
      Raised i j → Raised i (j.raise primary secondary)

/-- What a write to the controller at `offset` can do. Pending sources are cleared in two registers
only. -/
inductive Poked (i : Interrupts) (offset value : Word) : Interrupts → Prop
  | raised {j : Interrupts} : i.Raised j → Poked i offset value j
  | clearPrimary : offset &&& 0xFFFC = 0x44 → Poked i offset value (i.clearPrimaryPending value)
  | clearSecondary :
      offset &&& 0xFFFC = 0x64 → Poked i offset value (i.clearSecondaryPending value)
  | enables (primary secondary : Word) :
      Poked i offset value { i with primaryEnable := primary, secondaryEnable := secondary }

variable {j k : Interrupts}

theorem Raised.trans (first : i.Raised j) (second : j.Raised k) : i.Raised k := by
  induction second with
  | refl => exact first
  | raise primary secondary _ ih => exact .raise primary secondary ih

theorem Raised.synced (raised : i.Raised j) (synced : i.Synced) : j.Synced := by
  cases raised with
  | refl => exact synced
  | raise primary secondary => exact synced_raise _ primary secondary

theorem Poked.synced {offset value : Word} (poked : i.Poked offset value j) (synced : i.Synced) :
    j.Synced := by
  cases poked with
  | raised raised => exact raised.synced synced
  | clearPrimary => exact synced_sync _
  | clearSecondary => exact synced_sync _
  | enables primary secondary => exact synced

end Interrupts

end ArmConsole
