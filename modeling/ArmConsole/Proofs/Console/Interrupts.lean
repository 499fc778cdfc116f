import ArmConsole.Proofs.Console.Boundary
import ArmConsole.Proofs.Console.Mirrors
import ArmConsole.Proofs.System.Pending

/-!
Interrupts over whole runs. Main statements: the aggregate bit says whether a secondary source is
pending, whatever has happened to a console, and no source that is pending is lost: it stays so
until the guest acknowledges it.
-/

namespace ArmConsole

variable {δ : Type} [ExpansionDevice δ]

namespace Console

variable {c : Console δ}

/-! ### The aggregate bit -/

theorem Tidy.serve (tidy : c.Tidy) (event : BusEvent δ) : (c.serve event).Tidy := by
  have written := AddressSpace.synced_invariant (δ := δ)
  cases event with
  | host event => exact tidy.handle event
  | writeWord address value => exact ⟨tidy.coherent, written.writeWord address value tidy.synced⟩
  | writeHalfWord address value =>
    exact ⟨tidy.coherent, AddressSpace.synced_writeHalfWord _ tidy.synced address value⟩
  | writeByte address value => exact ⟨tidy.coherent, written.writeByte address value tidy.synced⟩

/-- The last bit of primary pending is that some secondary source is pending, also where a guest
writes that bit itself or a snapshot is restored that has another one. -/
theorem primaryPending_serveAll (configuration : Configuration) (events : List (BusEvent δ)) :
    let interrupts :=
      ((new configuration).serveAll events).machine.space.io.controller.interrupts
    interrupts.primaryPending.bit 31 = true ↔ interrupts.secondaryPending ≠ 0 := by
  intro interrupts
  have tidy : ((new configuration).serveAll events).Tidy :=
    serveAll_invariant (fun _ event tidy => tidy.serve event)
      (atBoundary_new configuration).toTidy events
  have synced : interrupts.primaryPending.bit 31 = (interrupts.secondaryPending != 0) := tidy.synced
  rw [synced, bne_iff_ne]

/-! ### Accesses of a run -/

/-- What the steps of a line ask of the bus. -/
def lineAccesses (budget : Word) : Nat → Word → Console δ → List BusAccess
  | 0, _, _ => []
  | fuel + 1, spent, c =>
    if spent < budget then
      c.machine.accesses ++
        lineAccesses budget fuel (spent + c.step.machine.processor.cycles) c.step
    else []

/-- What the guest asks of the bus while an event is handled. -/
def accesses (c : Console δ) : ConsoleEvent δ → List BusAccess
  | .step => c.machine.accesses
  | .runLine =>
    let budget := c.configuration.cyclesPerLine
    c.lineAccesses budget (budget.toNat - c.carry.toNat) c.carry
  | _ => []

def runAccesses (c : Console δ) : List (ConsoleEvent δ) → List BusAccess
  | [] => []
  | event :: events => c.accesses event ++ (c.handle event).runAccesses events

end Console

/-! ### Pending sources -/

/-- Does not put the controller in another state as a whole. -/
def ConsoleEvent.KeepsController : ConsoleEvent δ → Prop
  | .reset | .load _ => False
  | _ => True

namespace Console

variable {c : Console δ} {source : InterruptSource}

def isPending (c : Console δ) (source : InterruptSource) : Bool :=
  c.machine.space.isPending source

theorem isPending_runCycles (pending : c.isPending source) {budget : Word} {fuel : Nat}
    {spent : Word}
    (others : ∀ access ∈ c.lineAccesses budget fuel spent, access.acknowledges source = false) :
    (c.runCycles budget fuel spent).2.isPending source := by
  induction fuel generalizing c spent with
  | zero => exact pending
  | succ fuel ih =>
    unfold lineAccesses at others
    unfold runCycles
    split
    next short =>
      rw [if_pos short] at others
      obtain ⟨first, rest⟩ := List.forall_mem_append.1 others
      have stepped : c.step.isPending source := Machine.isPending_step pending first
      exact ih stepped rest
    next => exact pending

/-- Timers, devices and the line interrupts raise sources at most. -/
theorem isPending_endLine (pending : c.isPending source) (carry : Word) :
    ({ c with carry } : Console δ).tickLine.nextLine.isPending source := by
  have ticked := Peripherals.raised_tickLine c.machine.space.io
  exact (ticked.trans (SystemController.raised_updateLine _ _ _)).isPending pending

theorem isPending_handle (pending : c.isPending source) {event : ConsoleEvent δ}
    (keeps : event.KeepsController)
    (others : ∀ access ∈ c.accesses event, access.acknowledges source = false) :
    (c.handle event).isPending source := by
  cases event with
  | step => exact Machine.isPending_step pending others
  | runLine => exact isPending_endLine (isPending_runCycles pending others) _
  | reset => exact keeps.elim
  | load s => exact keeps.elim
  | _ =>
    refine (c.raised_handle ?_).isPending pending
    trivial

theorem isPending_run (pending : c.isPending source) {events : List (ConsoleEvent δ)}
    (keep : ∀ event ∈ events, event.KeepsController)
    (others : ∀ access ∈ c.runAccesses events, access.acknowledges source = false) :
    (c.run events).isPending source := by
  induction events generalizing c with
  | nil => exact pending
  | cons event events ih =>
    obtain ⟨keeps, keep⟩ := List.forall_mem_cons.1 keep
    obtain ⟨first, rest⟩ := List.forall_mem_append.1 others
    exact ih (isPending_handle pending keeps first) keep rest

/-- No interrupt is lost. From any state on, one within a line among them, a pending source stays
pending as long as the guest writes nothing to the register that acknowledges it with its bit
set. -/
theorem pending_until_acknowledged (c : Console δ) (source : InterruptSource)
    (pending : c.isPending source) :
    (∀ events : List (ConsoleEvent δ), (∀ event ∈ events, event.KeepsController) →
      (∀ access ∈ c.runAccesses events, access.acknowledges source = false) →
      (c.run events).isPending source) ∧
    ∀ budget fuel spent carry,
      (∀ access ∈ c.lineAccesses budget fuel spent, access.acknowledges source = false) →
      let rest := (c.runCycles budget fuel spent).2
      rest.isPending source ∧ ({ rest with carry }).tickLine.nextLine.isPending source := by
  refine ⟨fun events keep others => isPending_run pending keep others, ?_⟩
  intro budget fuel spent carry others
  have still := isPending_runCycles pending others
  exact ⟨still, isPending_endLine still carry⟩

/-- About to acknowledge source 1. -/
def acknowledging : Console ScriptedDevice :=
  (new .standard).mapMachine fun _ =>
    .fed ((Processor.initial.withRegister .r0 2).withRegister .r1 0x03400044) [0xE5810000]

/-- Of two sources the one that is acknowledged is pending no more. -/
theorem pending_until_acknowledged_other :
    let c := acknowledging.handle (.raise 3 0)
    (c.run [.step, .readInput 0]).isPending (.primary 0) = true ∧
      (c.runCycles 1 1 0).2.tickLine.nextLine.isPending (.primary 0) = true ∧
      (c.run [.step, .readInput 0]).isPending (.primary 1) = false := by
  have raised : (acknowledging.handle (.raise 3 0)).isPending (.primary 0) = true := rfl
  obtain ⟨run, line⟩ := pending_until_acknowledged _ _ raised
  refine ⟨run [.step, .readInput 0] ?_ (by decide), (line 1 1 0 0 (by decide)).2, rfl⟩
  exact List.forall_mem_cons.2 ⟨trivial, List.forall_mem_singleton.2 trivial⟩

end Console

end ArmConsole
