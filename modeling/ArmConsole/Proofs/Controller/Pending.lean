import ArmConsole.Proofs.Controller.Interrupts

/-!
Pending sources. A source is pending from when it is raised until it is acknowledged in the one
register that does this. Raising other sources, making the aggregate bit anew and acknowledging
other sources leave it pending.
-/

namespace ArmConsole

/-- A source of interrupts. Bit 31 of primary pending stands for the secondary ones and is none. -/
inductive InterruptSource where
  | primary (n : Fin 31)
  | secondary (n : Fin 32)
  deriving DecidableEq

namespace InterruptSource

/-- The bit of a source in its registers. -/
def bit : InterruptSource → Word
  | primary n => .ofNat n
  | secondary n => .ofNat n

/-- The offset of the register that acknowledges a source. -/
def acknowledgeOffset : InterruptSource → Word
  | primary _ => 0x44
  | secondary _ => 0x64

/-- Whether a source is a primary one with its bit set. -/
def among (source : InterruptSource) (primary : Word) : Bool :=
  match source with
  | .primary _ => primary.bit source.bit
  | .secondary _ => false

theorem toNat_bit_lt (source : InterruptSource) : source.bit.toNat < 32 := by
  have small {n : Nat} (h : n < 32) : (UInt32.ofNat n).toNat < 32 := by
    rwa [UInt32.toNat_ofNat_of_lt' (Nat.lt_trans h (by decide))]
  cases source with
  | primary n => exact small (Nat.lt_succ_of_lt n.isLt)
  | secondary n => exact small n.isLt

theorem toNat_bit_primary (n : Fin 31) : (primary n).bit.toNat = n :=
  UInt32.toNat_ofNat_of_lt' (Nat.lt_trans n.isLt (by decide))

/-- No primary source has the bit of the aggregate. -/
theorem bit_primary_ne (n : Fin 31) : (primary n).bit ≠ 31 := by
  intro same
  have number := congrArg UInt32.toNat same
  have last : (31 : Word).toNat = 31 := rfl
  rw [toNat_bit_primary] at number
  omega

theorem among_zero (source : InterruptSource) : source.among 0 = false := by
  cases source with
  | primary n => simp [among, Word.bit]
  | secondary n => rfl

theorem among_or (source : InterruptSource) (a b : Word) :
    source.among (a ||| b) = (source.among a || source.among b) := by
  cases source with
  | primary n => exact Word.bit_or a b (toNat_bit_lt _)
  | secondary n => rfl

/-- A word with one bit set names one source. -/
theorem among_one_shiftLeft (source : InterruptSource) (n : Fin 31) :
    source.among (1 <<< (primary n).bit) = decide (source = primary n) := by
  cases source with
  | secondary m => rfl
  | primary m =>
    have small := toNat_bit_lt (primary m)
    rw [among, Word.bit_eq_getLsbD _ small, Word.getLsbD_one_shiftLeft (toNat_bit_lt _) small]
    simp only [toNat_bit_primary, primary.injEq, Fin.ext_iff, eq_comm]

end InterruptSource

namespace Interrupts

def isPending (i : Interrupts) (source : InterruptSource) : Bool :=
  match source with
  | .primary _ => i.primaryPending.bit source.bit
  | .secondary _ => i.secondaryPending.bit source.bit

variable {i : Interrupts} {source : InterruptSource}

/-- The aggregate bit belongs to no source. -/
@[simp] theorem isPending_sync : i.sync.isPending source = i.isPending source := by
  rw [sync_eq]
  cases source with
  | primary n =>
    have last := InterruptSource.bit_primary_ne n
    simp only [isPending]
    rw [Word.bit_withBit _ (by decide) (InterruptSource.toNat_bit_lt _), if_neg last.symm]
  | secondary n => rfl

theorem isPending_raise (pending : i.isPending source) (primary secondary : Word) :
    (i.raise primary secondary).isPending source := by
  rw [raise, isPending_sync]
  cases source with
  | primary n =>
    change i.primaryPending.bit _ = true at pending
    simp only [isPending, Word.bit_or _ _ (InterruptSource.toNat_bit_lt _), pending, Bool.true_or]
  | secondary n =>
    change i.secondaryPending.bit _ = true at pending
    simp only [isPending, Word.bit_or _ _ (InterruptSource.toNat_bit_lt _), pending, Bool.true_or]

/-- What is raised is pending. -/
theorem isPending_raise_of_bit {n : Fin 31} {primary : Word}
    (raised : primary.bit (InterruptSource.primary n).bit = true) (secondary : Word) :
    (i.raise primary secondary).isPending (.primary n) := by
  rw [raise, isPending_sync]
  simp only [isPending, Word.bit_or _ _ (InterruptSource.toNat_bit_lt _), raised, Bool.or_true]

theorem Raised.isPending {j : Interrupts} (raised : i.Raised j) (pending : i.isPending source) :
    j.isPending source := by
  induction raised with
  | refl => exact pending
  | raise primary secondary _ ih => exact isPending_raise ih primary secondary

/-- Raising primary sources makes those pending and leaves all others as they are. -/
theorem isPending_raise_primary (i : Interrupts) (primary : Word) (source : InterruptSource) :
    (i.raise primary 0).isPending source =
      (i.isPending source || source.among primary) := by
  rw [raise, isPending_sync]
  cases source with
  | primary n => exact Word.bit_or _ _ (InterruptSource.toNat_bit_lt _)
  | secondary n => simp [isPending, InterruptSource.among]

theorem enables_raise (i : Interrupts) (primary secondary : Word) :
    (i.raise primary secondary).primaryEnable = i.primaryEnable ∧
      (i.raise primary secondary).secondaryEnable = i.secondaryEnable := by
  rw [raise, sync_eq]
  exact ⟨rfl, rfl⟩

/-- Only primary sources whose bits are written are acknowledged. -/
theorem isPending_clearPrimaryPending (pending : i.isPending source) {bits : Word}
    (other : source.acknowledgeOffset = 0x44 → bits.bit source.bit = false) :
    (i.clearPrimaryPending bits).isPending source := by
  rw [clearPrimaryPending, isPending_sync]
  cases source with
  | primary n =>
    change i.primaryPending.bit _ = true at pending
    simp only [isPending, Word.bit_and_not _ _ (InterruptSource.toNat_bit_lt _), pending,
      other rfl, Bool.not_false, Bool.and_self]
  | secondary n => exact pending

theorem isPending_clearSecondaryPending (pending : i.isPending source) {bits : Word}
    (other : source.acknowledgeOffset = 0x64 → bits.bit source.bit = false) :
    (i.clearSecondaryPending bits).isPending source := by
  rw [clearSecondaryPending, isPending_sync]
  cases source with
  | primary n => exact pending
  | secondary n =>
    change i.secondaryPending.bit _ = true at pending
    simp only [isPending, Word.bit_and_not _ _ (InterruptSource.toNat_bit_lt _), pending,
      other rfl, Bool.not_false, Bool.and_self]

/-- Only the register of a source, with its bit, acknowledges it. -/
theorem Poked.isPending {j : Interrupts} {offset value : Word} (poked : i.Poked offset value j)
    (pending : i.isPending source)
    (other : offset &&& 0xFFFC = source.acknowledgeOffset → value.bit source.bit = false) :
    j.isPending source := by
  cases poked with
  | raised raised => exact raised.isPending pending
  | clearPrimary place =>
    apply isPending_clearPrimaryPending pending
    intro own
    exact other (place.trans own.symm)
  | clearSecondary place =>
    apply isPending_clearSecondaryPending pending
    intro own
    exact other (place.trans own.symm)
  | enables primary secondary =>
    cases source with
    | primary n => exact pending
    | secondary n => exact pending

end Interrupts

end ArmConsole
