import ArmConsole.Machine.Execute

/-!
What a machine is equipped with besides its processor and its address space. No instruction changes
which software interrupts are answered natively, and a redirect that has happened is armed again by
a reset. Main statement: but for what a reset undoes, a step leaves the equipment alone.
-/

namespace ArmConsole

namespace RedirectList

/-- A redirect that fires is marked and stays in its place. -/
theorem map_fst_of_fire {live : Registers} {entries entries' : List (Redirect × Bool)}
    {target : Word} (fired : fire live entries = some (target, entries')) :
    entries'.map Prod.fst = entries.map Prod.fst := by
  induction entries generalizing entries' with
  | nil => contradiction
  | cons entry entries ih =>
    obtain ⟨redirect, done⟩ := entry
    unfold fire at fired
    split at fired
    · cases fired
      rfl
    · obtain ⟨⟨target, rest⟩, found, same⟩ := Option.map_eq_some_iff.1 fired
      cases same
      rw [List.map_cons, List.map_cons, ih found]

theorem reset_apply (l : RedirectList) (live : Registers) : (l.apply live).2.1.reset = l.reset := by
  unfold apply
  split
  next target entries fired =>
    have same := congrArg (List.map fun r : Redirect => (r, false)) (map_fst_of_fire fired)
    rw [List.map_map, List.map_map] at same
    exact congrArg RedirectList.mk same
  next => rfl

end RedirectList

namespace Machine

variable {δ : Type}

/-- Calls and redirects. -/
def services (m : Machine δ) : Option CallTable × Option RedirectList := (m.calls, m.redirects)

/-- The services as a reset leaves them. -/
def armed (m : Machine δ) : Option CallTable × Option RedirectList :=
  (m.calls, m.redirects.map RedirectList.reset)

theorem armed_eq_of_services {m n : Machine δ} (same : m.services = n.services) :
    m.armed = n.armed := by
  obtain ⟨calls, redirects⟩ := Prod.ext_iff.1 same
  change m.calls = n.calls at calls
  change m.redirects = n.redirects at redirects
  rw [armed, armed, calls, redirects]

theorem armed_redirect (m : Machine δ) : m.redirect.armed = m.armed := by
  obtain ⟨processor, space, calls, redirects⟩ := m
  cases redirects with
  | none => rfl
  | some redirects =>
    change (calls, some (redirects.apply processor.live).2.1.reset) = _
    rw [RedirectList.reset_apply]
    rfl

variable [ExpansionDevice δ]

theorem services_readData (m : Machine δ) (width : Width) (address : Word) :
    (m.readData width address).2.services = m.services := by cases width <;> rfl

theorem services_writeData (m : Machine δ) (width : Width) (address value : Word) :
    (m.writeData width address value).services = m.services := by cases width <;> rfl

theorem services_swap (m : Machine δ) (i : Swap) : (m.swap i).services = m.services := by
  unfold swap
  exact (services_writeData _ _ _ _).trans (services_readData _ _ _)

theorem services_singleTransfer (m : Machine δ) (i : SingleTransfer) :
    (m.singleTransfer i).services = m.services := by
  unfold singleTransfer
  dsimp only
  split
  · exact services_readData _ _ _
  · exact services_writeData _ _ _ _

theorem services_loadRegisters (m : Machine δ) (user : Bool) (address : Word)
    (registers : List RegisterNumber) :
    (m.loadRegisters user address registers).services = m.services := by
  induction registers generalizing m address with
  | nil => rfl
  | cons r rs ih => exact ih _ _

theorem services_storeValues (m : Machine δ) (address : Word) (values : List Word) :
    (m.storeValues address values).services = m.services := by
  induction values generalizing m address with
  | nil => rfl
  | cons v vs ih => exact ih _ _

theorem services_blockTransfer (m : Machine δ) (i : BlockTransfer) :
    (m.blockTransfer i).services = m.services := by
  unfold blockTransfer
  dsimp only
  split
  · exact services_loadRegisters _ _ _ _
  · exact services_storeValues _ _ _

theorem services_execute (m : Machine δ) (i : Instruction) :
    (m.execute i).services = m.services := by
  cases i with
  | swap i => exact m.services_swap i
  | singleTransfer i => exact m.services_singleTransfer i
  | blockTransfer i => exact m.services_blockTransfer i
  | softwareInterrupt comment =>
    simp only [execute, softwareInterrupt]
    split <;> rfl
  | _ => rfl

theorem services_executeWord (m : Machine δ) (w : Word) :
    (m.executeWord w).services = m.services := by
  unfold executeWord
  split
  · exact m.services_execute _
  · rfl

theorem armed_step (m : Machine δ) : m.step.armed = m.armed := by
  let begun := m.mapProcessor fun p => { p with cycles := Processor.sequential, stalled := false }
  have executed := begun.redirect.fetch.2.services_executeWord begun.redirect.fetch.1
  exact (armed_eq_of_services executed).trans begun.armed_redirect

end Machine

end ArmConsole
