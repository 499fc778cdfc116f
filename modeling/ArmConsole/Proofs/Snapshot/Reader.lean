import ArmConsole.Snapshot.Reader

/-!
What a reader guarantees about the values that it yields, whatever blob it reads. A guarantee
goes through a sequence of fields step by step.
-/

namespace ArmConsole

namespace SnapshotReader

variable {α β : Type}

theorem bind_eq_ok {r : SnapshotReader α} {f : α → SnapshotReader β} {c c' : SnapshotCursor}
    {b : β} :
    (r >>= f) c = .ok b c' ↔ ∃ a between, r c = .ok a between ∧ f a between = .ok b c' := by
  change EStateM.bind r f c = _ ↔ _
  unfold EStateM.bind
  split
  next a between read =>
    constructor
    · intro rest
      exact ⟨a, between, read, rest⟩
    · rintro ⟨a', between', read', rest⟩
      cases read.symm.trans read'
      exact rest
  next e between failed =>
    constructor
    · nofun
    · rintro ⟨a', between', read', -⟩
      cases failed.symm.trans read'

/-- Every value that the reader yields satisfies `P`. -/
def Ensures (r : SnapshotReader α) (P : α → Prop) : Prop := ∀ c a c', r c = .ok a c' → P a

theorem Ensures.trivial (r : SnapshotReader α) : r.Ensures fun _ => True := fun _ _ _ _ => ⟨⟩

theorem ensures_pure {P : α → Prop} {a : α} (h : P a) : Ensures (pure a) P := by
  rintro c b c' ⟨⟩
  exact h

theorem ensures_corrupt {P : α → Prop} (reason : String) : Ensures (corrupt reason) P := nofun

theorem Ensures.bind {P : β → Prop} {Q : α → Prop} {r : SnapshotReader α}
    {f : α → SnapshotReader β} (first : r.Ensures Q) (rest : ∀ a, Q a → (f a).Ensures P) :
    (r >>= f).Ensures P := by
  intro c b c' read
  obtain ⟨a, between, readFirst, readRest⟩ := bind_eq_ok.1 read
  exact rest a (first c a between readFirst) between b c' readRest

/-- Where the value of a field does not matter. -/
theorem Ensures.bind' {P : β → Prop} {r : SnapshotReader α} {f : α → SnapshotReader β}
    (rest : ∀ a, (f a).Ensures P) : (r >>= f).Ensures P :=
  (Ensures.trivial r).bind fun a _ => rest a

/-- What the fields guarantee holds of a blob that is accepted. -/
theorem Ensures.decode {P : α → Prop} {h : SnapshotHeader} {fields : SnapshotReader α}
    (ensures : fields.Ensures P) {blob : ByteArray} {a : α}
    (accepted : SnapshotReader.decode h fields blob = .ok a) : P a := by
  unfold SnapshotReader.decode at accepted
  dsimp only at accepted
  split at accepted
  next value c read =>
    cases accepted
    have all : Ensures (do header h; let value ← fields; finish; return value) P :=
      Ensures.bind' fun _ => ensures.bind fun value good => Ensures.bind' fun _ => ensures_pure good
    exact all _ _ _ read
  next => contradiction

end SnapshotReader

end ArmConsole
