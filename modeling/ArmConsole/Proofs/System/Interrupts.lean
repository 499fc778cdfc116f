import ArmConsole.Proofs.Controller.Channels
import ArmConsole.Proofs.Controller.Interrupts
import ArmConsole.Proofs.Controller.RegisterMap
import ArmConsole.Proofs.Machine.Simulation

/-!
Interrupts while a guest runs. Reads leave the controller alone, its timers, channels and compare
lines raise sources at most, and a write to it says by its offset what else can change. So the
aggregate bit is kept by all of them.
-/

namespace ArmConsole

namespace SystemController

variable (c : SystemController)

theorem raised_raise (sources : Word) : c.interrupts.Raised (c.raise sources).interrupts :=
  .raise sources 0 .refl

theorem raised_compareLine (line compare source : Word) :
    c.interrupts.Raised (c.compareLine line compare source).interrupts := by
  unfold compareLine
  split
  · exact c.raised_raise source
  · exact .refl

theorem raised_updateLine (line field : Word) :
    c.interrupts.Raised (c.updateLine line field).interrupts :=
  (raised_compareLine (c.withRegister lineCounter _) _ _ _).trans (raised_compareLine _ _ _ _)

theorem raised_tickTimers : c.interrupts.Raised c.tickTimers.interrupts := by
  unfold tickTimers
  dsimp only
  split
  · exact .refl
  · exact .raise _ 0 .refl

theorem raised_ite (i : Interrupts) (exhausted : Bool) (sources : Word) :
    i.Raised (if exhausted then i.raise sources 0 else i) := by
  split
  · exact .raise sources 0 .refl
  · exact .refl

theorem raised_readInput (channel : Fin 13) (memory : GuestMemory) :
    c.interrupts.Raised (c.readInput channel memory).2.interrupts := by
  rw [(c.inputAccess_readInput channel memory).interrupts]
  exact raised_ite _ _ _

theorem raised_writeOutput (channel : Fin 4) (value : HalfWord) (memory : GuestMemory) :
    c.interrupts.Raised (c.writeOutput channel value memory).1.interrupts := by
  rw [(c.outputAccess_writeOutput channel value memory).interrupts]
  exact raised_ite _ _ _

end SystemController

variable {δ : Type} [ExpansionDevice δ]

namespace Peripherals

/-- A device may ask for attention, which raises a source. -/
theorem raised_pollExpansion (io : Peripherals δ) :
    io.controller.interrupts.Raised io.pollExpansion.controller.interrupts := by
  unfold pollExpansion
  generalize io.expansion.attentionNeeded = answer
  obtain ⟨needed, expansion⟩ := answer
  cases needed with
  | false => exact .refl
  | true => exact io.controller.raised_raise _

theorem raised_tickLine (io : Peripherals δ) :
    io.controller.interrupts.Raised io.tickLine.controller.interrupts :=
  io.controller.raised_tickTimers.trans
    (raised_pollExpansion { io with controller := io.controller.tickTimers })

end Peripherals

namespace AddressSpace

theorem controller_readWindow (s : AddressSpace δ) (w : Window) :
    (s.readWindow w).2.io.controller = s.io.controller := by
  cases w with
  | controller offset =>
    unfold readWindow Peripherals.peek
    dsimp only
    split <;> rfl
  | _ => rfl

theorem poked_poke (s : AddressSpace δ) (offset value : Word) :
    s.io.controller.interrupts.Poked offset value
      (s.poke offset value).2.io.controller.interrupts := by
  have place := ControllerRegister.places_ofOffset offset
  unfold poke
  cases named : ControllerRegister.ofOffset offset with
  | primaryPending access =>
    rw [named] at place
    cases access with
    | set =>
      apply Interrupts.Poked.raised
      dsimp only [mapInterrupts, mapController]
      rw [Interrupts.setPrimaryPending_eq_raise]
      exact .raise value 0 .refl
    | clear => exact .clearPrimary place
  | secondaryPending access =>
    rw [named] at place
    cases access with
    | set =>
      apply Interrupts.Poked.raised
      dsimp only [mapInterrupts, mapController]
      rw [Interrupts.setSecondaryPending_eq_raise]
      exact .raise 0 value .refl
    | clear => exact .clearSecondary place
  | primaryEnable access => cases access <;> exact .enables _ _
  | secondaryEnable access => cases access <;> exact .enables _ _
  | timerControl high access => cases access <;> exact .raised .refl
  | transferEnable access =>
    cases access with
    | set =>
      dsimp only
      split
      · exact .raised (.raise _ 0 .refl)
      · exact .raised .refl
    | clear => exact .raised .refl
  | _ => exact .raised .refl

theorem synced_writeWindow (s : AddressSpace δ) (synced : s.io.controller.interrupts.Synced)
    (w : Window) (value : Word) : (s.writeWindow w value).2.io.controller.interrupts.Synced := by
  cases w with
  | controller offset => exact (s.poked_poke offset value).synced synced
  | _ => exact synced

/-- The processor has no halfwords, others that write to the bus do. -/
theorem synced_writeHalfWord (s : AddressSpace δ) (synced : s.io.controller.interrupts.Synced)
    (address : Word) (value : HalfWord) :
    (s.writeHalfWord address value).2.io.controller.interrupts.Synced := by
  unfold writeHalfWord
  split
  · exact synced
  · exact s.synced_writeWindow synced _ _

theorem synced_invariant :
    Invariant fun s : AddressSpace δ => s.io.controller.interrupts.Synced := by
  apply invariant_of_io (P := fun io => io.controller.interrupts.Synced)
  · intro s w synced
    rw [controller_readWindow]
    exact synced
  · intro s w value synced
    exact s.synced_writeWindow synced w value

end AddressSpace

end ArmConsole
