import ArmConsole.Controller.Basic

/-!
Accesses to a channel of the controller. The channel says what its access moves and whether that
completes a buffer; the controller keeps the channel, raises the channel's source if so, and changes
nothing else.
-/

namespace ArmConsole

namespace SystemController

theorem get_set {α : Type} {n : Nat} (channels : Vector α n) (i : Fin n) (a : α) :
    (channels.set i a i.isLt).get i = a :=
  Vector.getElem_set_self i.isLt

theorem get_set_of_ne {α : Type} {n : Nat} (channels : Vector α n) {i j : Fin n} (apart : j ≠ i)
    (a : α) : (channels.set i a i.isLt).get j = channels.get j :=
  Vector.getElem_set_ne i.isLt j.isLt fun same => apart (Fin.ext same.symm)

/-- Nothing but channels and interrupts differs. -/
structure Alone (c d : SystemController) : Prop where
  registers : d.registers = c.registers
  timers : d.timers = c.timers
  lastWritten : d.lastWritten = c.lastWritten

/-- What an input channel's access makes of the controller. -/
structure InputAccess (c : SystemController) (channel : Fin 13) (memory : GuestMemory)
    (access : StreamChannel.Access) (value : HalfWord) (d : SystemController) : Prop where
  value : value =
    match access.target with
    | some a => memory.readHalfWord a
    | none => 0
  interrupts : d.interrupts =
    if access.exhausted then c.interrupts.raise (Interrupts.inputChannel channel) 0
    else c.interrupts
  own : d.inputs.get channel = access.channel
  others : ∀ other, other ≠ channel → d.inputs.get other = c.inputs.get other
  outputs : d.outputs = c.outputs
  alone : Alone c d

theorem inputAccess_readInput (c : SystemController) (channel : Fin 13) (memory : GuestMemory) :
    InputAccess c channel memory (c.inputs.get channel).access
      (c.readInput channel memory).1 (c.readInput channel memory).2 := by
  have get : c.inputs[channel] = c.inputs.get channel := rfl
  have own (a : StreamChannel) := get_set c.inputs channel a
  have others (a : StreamChannel) (other : Fin 13) (apart : other ≠ channel) :=
    get_set_of_ne c.inputs apart a
  unfold readInput
  rw [get]
  dsimp only
  obtain ⟨a, exhausted, target⟩ := (c.inputs.get channel).access
  cases exhausted <;> cases target <;>
    exact ⟨rfl, rfl, own a, others a, rfl, rfl, rfl, rfl⟩

/-- What an output channel's access makes of the controller and memory. -/
structure OutputAccess (c : SystemController) (channel : Fin 4) (value : HalfWord)
    (memory : GuestMemory) (access : StreamChannel.Access) (d : SystemController)
    (written : GuestMemory) : Prop where
  written : written =
    match access.target with
    | some a => memory.writeHalfWord a value
    | none => memory
  interrupts : d.interrupts =
    if access.exhausted then c.interrupts.raise (Interrupts.outputChannel channel) 0
    else c.interrupts
  own : d.outputs.get channel = access.channel
  others : ∀ other, other ≠ channel → d.outputs.get other = c.outputs.get other
  inputs : d.inputs = c.inputs
  alone : Alone c d

theorem outputAccess_writeOutput (c : SystemController) (channel : Fin 4) (value : HalfWord)
    (memory : GuestMemory) :
    OutputAccess c channel value memory (c.outputs.get channel).access
      (c.writeOutput channel value memory).1 (c.writeOutput channel value memory).2 := by
  have get : c.outputs[channel] = c.outputs.get channel := rfl
  have own (a : StreamChannel) := get_set c.outputs channel a
  have others (a : StreamChannel) (other : Fin 4) (apart : other ≠ channel) :=
    get_set_of_ne c.outputs apart a
  unfold writeOutput
  rw [get]
  dsimp only
  obtain ⟨a, exhausted, target⟩ := (c.outputs.get channel).access
  cases exhausted <;> cases target <;>
    exact ⟨rfl, rfl, own a, others a, rfl, rfl, rfl, rfl⟩

end SystemController

end ArmConsole
