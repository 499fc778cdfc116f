import ArmConsole.Proofs.Snapshot.Fields

/-!
Readers that know where they end. What such a reader accepts is settled by the bytes that it
consumes: with others behind them it yields the same value, and where they break off it asks for
more. Readers made of such readers are of the same kind. Main statement: a blob that is decoded by
one can be neither cut nor continued.
-/

namespace ArmConsole

namespace SnapshotCursor

/-- Behind the next `n` bytes. -/
def skip (c : SnapshotCursor) (n : Nat) : SnapshotCursor := { c with position := c.position + n }

theorem rest_skip (c : SnapshotCursor) (n : Nat) : (c.skip n).rest = c.rest.drop n := by
  rw [rest, rest, List.drop_drop]
  rfl

theorem skip_skip (c : SnapshotCursor) (m n : Nat) : (c.skip m).skip n = c.skip (m + n) :=
  congrArg (mk c.subsystem c.data) (Nat.add_assoc ..)

end SnapshotCursor

namespace SnapshotReader

variable {α β : Type} {r : SnapshotReader α} {a : α} {bytes : List Byte}

/-- Wherever `bytes` come next the reader yields `a` and moves behind them, and where only some of
them are left it asks for more, but not for more than the others. -/
structure Recognizes (r : SnapshotReader α) (bytes : List Byte) (a : α) : Prop where
  accepts {c : SnapshotCursor} : bytes <+: c.rest → r c = .ok a (c.skip bytes.length)
  truncates {c : SnapshotCursor} : c.rest <+: bytes → c.rest.length < bytes.length →
    ∃ needed after, 0 < needed ∧ needed + c.rest.length ≤ bytes.length ∧
      r c = .error (.truncated c.subsystem needed) after

/-- The reader goes by the bytes that it consumes, wherever it succeeds. -/
def Delimited (r : SnapshotReader α) : Prop :=
  ∀ ⦃c a c'⦄, r c = .ok a c' → ∃ bytes, c.Consumes bytes c' ∧ r.Recognizes bytes a

/-! ### Sequences -/

theorem bind_eq_error {f : α → SnapshotReader β} {c c' : SnapshotCursor} {e : SnapshotError}
    (failed : r c = .error e c') : (r >>= f) c = .error e c' := by
  change EStateM.bind r f c = _
  rw [EStateM.bind, failed]

theorem recognizes_pure (a : α) : Recognizes (pure a) [] a where
  accepts _ := rfl
  truncates _ short := absurd short (Nat.not_lt_zero _)

theorem Recognizes.bind {f : α → SnapshotReader β} {behind : List Byte} {b : β}
    (first : r.Recognizes bytes a) (second : (f a).Recognizes behind b) :
    (r >>= f).Recognizes (bytes ++ behind) b where
  accepts := by
    intro c next
    have front : r c = .ok a (c.skip bytes.length) :=
      first.accepts ((List.prefix_append bytes behind).trans next)
    have left : behind <+: (c.skip bytes.length).rest := by
      rw [c.rest_skip]
      obtain ⟨others, split⟩ := next
      rw [← split, List.append_assoc, List.drop_left]
      exact List.prefix_append ..
    have back := second.accepts left
    rw [c.skip_skip, ← List.length_append] at back
    exact bind_eq_ok.2 ⟨a, _, front, back⟩
  truncates := by
    intro c broken short
    rw [List.length_append] at short ⊢
    obtain early | late := Nat.lt_or_ge c.rest.length bytes.length
    · have broken : c.rest <+: bytes :=
        List.prefix_of_prefix_length_le broken (List.prefix_append ..) (Nat.le_of_lt early)
      obtain ⟨needed, after, some, enough, failed⟩ := first.truncates broken early
      exact ⟨needed, after, some, by omega, bind_eq_error failed⟩
    · obtain ⟨left, split⟩ :=
        List.prefix_of_prefix_length_le (List.prefix_append bytes behind) broken late
      have rest : (c.skip bytes.length).rest = left := by
        rw [c.rest_skip, ← split, List.drop_left]
      have length : c.rest.length = bytes.length + left.length := by
        rw [← split, List.length_append]
      rw [← split, List.prefix_append_right_inj] at broken
      rw [← rest] at broken length
      obtain ⟨needed, after, some, enough, failed⟩ := second.truncates broken (by omega)
      have front : r c = .ok a (c.skip bytes.length) := first.accepts ⟨left, split⟩
      refine ⟨needed, after, some, by omega, ?_⟩
      change EStateM.bind r f c = _
      rw [EStateM.bind, front]
      exact failed

theorem delimited_pure (a : α) : Delimited (pure a) := by
  intro c b c' read
  obtain ⟨rfl, rfl⟩ := pure_eq_ok.1 read
  exact ⟨[], SnapshotCursor.consumes_nil.2 rfl, recognizes_pure a⟩

/-- A reader that always fails never gets to an end. -/
theorem delimited_error {e : SnapshotCursor → SnapshotError} :
    Delimited (fun c => .error (e c) c : SnapshotReader α) := nofun

/-- What would come after a failure does not matter. -/
theorem delimited_throw_bind (e : SnapshotError) (f : β → SnapshotReader α) :
    Delimited (throw e >>= f) := nofun

theorem Delimited.bind {f : α → SnapshotReader β} (first : r.Delimited)
    (rest : ∀ a, (f a).Delimited) : (r >>= f).Delimited := by
  intro c b c' read
  obtain ⟨a, between, front, back⟩ := bind_eq_ok.1 read
  obtain ⟨bytes, consumed, recognized⟩ := first front
  obtain ⟨behind, consumedBehind, recognizedBehind⟩ := rest a back
  exact ⟨bytes ++ behind, SnapshotCursor.consumes_append.2 ⟨between, consumed, consumedBehind⟩,
    recognized.bind recognizedBehind⟩

theorem Delimited.ite {p : Prop} [Decidable p] {s : SnapshotReader α} (yes : r.Delimited)
    (no : s.Delimited) : (if p then r else s).Delimited := by
  split
  · exact yes
  · exact no

/-- Such a reader recognizes the layout of a value. -/
theorem Delimited.recognizes (delimited : r.Delimited)
    (eq_ok : ∀ {c c'}, r c = .ok a c' ↔ c.Consumes bytes c') : r.Recognizes bytes a := by
  let c : SnapshotCursor := ⟨"", ⟨⟨bytes⟩⟩, 0⟩
  have consumes := SnapshotCursor.consumes_of_prefix (c := c) (List.prefix_refl bytes)
  obtain ⟨bytes', consumes', recognized⟩ := delimited (eq_ok.2 consumes)
  have same : bytes' = bytes :=
    List.append_cancel_right (consumes'.found.symm.trans consumes.found)
  rwa [← same]

/-! ### Fields -/

theorem delimited_take (n : Nat) : (take n).Delimited := by
  intro c b c' read
  refine ⟨b.toList, take_eq_ok.1 read, ?_, ?_⟩
  · intro d next
    exact take_eq_ok.2 (SnapshotCursor.consumes_of_prefix next)
  · intro d broken short
    rw [d.length_rest, b.length_toList] at short ⊢
    have missing : d.take? n = none := dif_neg (Nat.not_le.2 short)
    refine ⟨n - d.remaining, d, by omega, by omega, ?_⟩
    rw [take, missing]

theorem delimited_byte : byte.Delimited :=
  (delimited_take 1).bind fun _ => delimited_pure _

theorem delimited_bool : bool.Delimited :=
  delimited_byte.bind fun _ => (delimited_pure _).ite ((delimited_pure _).ite delimited_error)

theorem delimited_halfWord : halfWord.Delimited :=
  (delimited_take 2).bind fun _ => delimited_pure _

theorem delimited_word : word.Delimited :=
  (delimited_take 4).bind fun _ => delimited_pure _

theorem Delimited.repeatFrom (each : r.Delimited) {m n count : Nat} (seen : Vector α m)
    (h : m + count = n) : (repeatFrom r seen count h).Delimited := by
  induction count generalizing m with
  | zero => exact delimited_pure _
  | succ count ih => exact each.bind fun a => ih (seen.push a) _

theorem Delimited.repeated (each : r.Delimited) (n : Nat) : (repeated n r).Delimited :=
  each.repeatFrom _ _

theorem delimited_words (n : Nat) : (words n).Delimited := delimited_word.repeated n

theorem delimited_chunk : chunk.Delimited :=
  delimited_word.bind fun length => (delimited_take length.toNat).bind fun _ => delimited_pure _

theorem delimited_sizedChunk (n : Nat) : (sizedChunk n).Delimited :=
  delimited_word.bind fun _ => (delimited_take n).ite delimited_error

theorem delimited_header (h : SnapshotHeader) : (header h).Delimited := by
  unfold header
  refine (delimited_take 4).bind fun magic => ?_
  refine Delimited.ite (delimited_throw_bind _ _) ?_
  exact delimited_byte.bind fun version => delimited_error.ite (delimited_pure _)

/-! ### Blobs -/

/-- What a decoder accepts can be neither cut nor continued: of a part of it the decoder says that
it is truncated, by no more than what was cut off, and of anything longer how much is left over. -/
def SelfDelimiting (subsystem : String) (decode : ByteArray → Except SnapshotError α) : Prop :=
  ∀ ⦃blob a⦄, decode blob = .ok a →
    (∀ front tail, blob = front ++ tail → tail.size ≠ 0 →
      ∃ needed, 0 < needed ∧ needed ≤ tail.size ∧
        decode front = .error (.truncated subsystem needed)) ∧
    ∀ tail : ByteArray, tail.size ≠ 0 →
      decode (blob ++ tail) = .error (.oversized subsystem tail.size)

/-- Header and fields are read, and then nothing may be left. -/
theorem decode_eq (h : SnapshotHeader) (fields : SnapshotReader α) (blob : ByteArray) :
    decode h fields blob =
      match (header h >>= fun _ => fields) ⟨h.subsystem, blob, 0⟩ with
      | .ok a c =>
        if c.remaining = 0 then .ok a else .error (.oversized c.subsystem c.remaining)
      | .error e _ => .error e := by
  unfold decode
  simp only [bind, EStateM.bind, finish, pure, EStateM.pure]
  cases header h ⟨h.subsystem, blob, 0⟩ with
  | error e c => rfl
  | ok u c =>
    dsimp only
    cases fields c with
    | error e c => rfl
    | ok a c =>
      dsimp only
      by_cases nothing : c.remaining = 0
      · rw [if_pos nothing, if_pos nothing]
      · rw [if_neg nothing, if_neg nothing]

theorem rest_start (subsystem : String) (blob : ByteArray) :
    SnapshotCursor.rest ⟨subsystem, blob, 0⟩ = blob.data.toList := List.drop_zero

variable {h : SnapshotHeader} {fields : SnapshotReader α} {blob : ByteArray}

/-- A blob is decoded to what the bytes of it stand for, to the last. -/
theorem Delimited.recognizes_of_decode (delimited : fields.Delimited)
    (accepted : decode h fields blob = .ok a) :
    (header h >>= fun _ => fields).Recognizes blob.data.toList a := by
  rw [decode_eq] at accepted
  split at accepted
  next value last read =>
    split at accepted
    next nothing =>
      cases accepted
      obtain ⟨bytes, consumed, recognized⟩ := ((delimited_header h).bind fun _ => delimited) read
      have found := consumed.found
      rw [rest_start, List.eq_nil_of_length_eq_zero (last.length_rest.trans nothing),
        List.append_nil] at found
      rwa [found]
    next => contradiction
  next => contradiction

variable (recognized : (header h >>= fun _ => fields).Recognizes blob.data.toList a)

include recognized

theorem Recognizes.decode_eq_ok : decode h fields blob = .ok a := by
  let start : SnapshotCursor := ⟨h.subsystem, blob, 0⟩
  have bytes : start.rest = blob.data.toList := rest_start ..
  have nothing : (start.skip blob.data.toList.length).remaining = 0 := by
    rw [← SnapshotCursor.length_rest, start.rest_skip, bytes, List.drop_length]
    rfl
  rw [decode_eq, recognized.accepts (bytes ▸ List.prefix_refl _)]
  dsimp only
  rw [if_pos nothing]

theorem Recognizes.decode_front {front tail : ByteArray} (split : blob = front ++ tail)
    (cut : tail.size ≠ 0) :
    ∃ needed, 0 < needed ∧ needed ≤ tail.size ∧
      decode h fields front = .error (.truncated h.subsystem needed) := by
  have bytes : blob.data.toList = front.data.toList ++ tail.data.toList := by
    rw [split, ByteArray.toList_data_append]
  have length : blob.data.toList.length = front.data.toList.length + tail.size := by
    rw [bytes, List.length_append]
    rfl
  have broken : front.data.toList <+: blob.data.toList := ⟨_, bytes.symm⟩
  rw [← rest_start h.subsystem front] at broken length
  obtain ⟨needed, after, some, enough, failed⟩ := recognized.truncates broken (by omega)
  refine ⟨needed, some, by omega, ?_⟩
  rw [decode_eq, failed]

theorem Recognizes.decode_append {tail : ByteArray} (longer : tail.size ≠ 0) :
    decode h fields (blob ++ tail) = .error (.oversized h.subsystem tail.size) := by
  let start : SnapshotCursor := ⟨h.subsystem, blob ++ tail, 0⟩
  have bytes : start.rest = blob.data.toList ++ tail.data.toList := by
    rw [rest_start, ByteArray.toList_data_append]
  have next : blob.data.toList <+: start.rest := bytes ▸ List.prefix_append ..
  have left : (start.skip blob.data.toList.length).remaining = tail.size := by
    rw [← SnapshotCursor.length_rest, start.rest_skip, bytes, List.drop_left]
    rfl
  rw [decode_eq, recognized.accepts next]
  dsimp only
  rw [left, if_neg longer]
  rfl

omit recognized in
theorem Delimited.selfDelimiting (delimited : fields.Delimited) (h : SnapshotHeader) :
    SelfDelimiting h.subsystem (decode h fields) := by
  intro blob a accepted
  have recognized := delimited.recognizes_of_decode accepted
  exact ⟨fun _ _ => recognized.decode_front, fun _ => recognized.decode_append⟩

end SnapshotReader

end ArmConsole
