import ArmConsole.Proofs.Memory.FlatRam
import ArmConsole.Service.MathCall

/-!
Rows of words in RAM, as math calls read and write them. The addresses of a row do not wrap as long
as its words are aligned words of RAM, so that the words of a row are apart. Numbers are written one
after the other until an address is out of place. Main statements: such a write changes the words
that it gets to and nothing else, and if the whole row is in RAM it leaves the numbers there.
-/

namespace ArmConsole

/-- The address `count` words behind another. -/
def Word.past (address : Word) (count : Nat) : Word := address + .ofNat (4 * count)

namespace Word

theorem past_zero (address : Word) : address.past 0 = address := UInt32.add_zero address

theorem past_past (address : Word) (i k : Nat) :
    (address.past i).past k = address.past (i + k) := by
  rw [past, past, past, UInt32.add_assoc, ← UInt32.ofNat_add, ← Nat.mul_add]

end Word

namespace GuestMemory

/-! ### Addresses -/

/-- Whether an aligned word of RAM is at an address. -/
def wordInRam (address : Word) : Bool := (wordAddress? address).isSome

theorem toNat_of_wordAddress? {address : Word} {a : RamAddress}
    (aligned : wordAddress? address = some a) : address.toNat = a.val := by
  unfold wordAddress? at aligned
  split at aligned
  · cases aligned
    rfl
  · contradiction

theorem wordInRam_iff {address : Word} :
    wordInRam address = true ↔ address.toNat % 4 = 0 ∧ address.toNat + 4 ≤ ramSize := by
  unfold wordInRam wordAddress?
  split
  next inRam => exact iff_of_true rfl inRam
  next outside => exact iff_of_false Bool.false_ne_true outside

theorem wordAddress?_of_inRam {address : Word} (inRam : wordInRam address = true) :
    ∃ a : RamAddress, wordAddress? address = some a ∧ a.val = address.toNat ∧ a.val % 4 = 0 := by
  obtain ⟨a, found⟩ := Option.isSome_iff_exists.1 inRam
  have number := toNat_of_wordAddress? found
  have aligned := (wordInRam_iff.1 inRam).1
  exact ⟨a, found, number.symm, by omega⟩

theorem wordAddress?_of_outside {address : Word} (outside : wordInRam address = false) :
    wordAddress? address = none := by
  simpa [wordInRam] using outside

/-- The addresses of `count` words from `address` up. -/
def words (address : Word) (count : Nat) : List Word := (List.range count).map address.past

theorem words_succ (address : Word) (count : Nat) :
    words address (count + 1) = address :: words (address.past 1) count := by
  rw [words, List.range_succ_eq_map, List.map_cons, List.map_map, address.past_zero, words]
  refine congrArg (address :: ·) (List.map_congr_left fun k _ => ?_)
  rw [Function.comp_apply, Word.past_past, Nat.add_comm]

theorem mem_words {address w : Word} {count : Nat} :
    w ∈ words address count ↔ ∃ k < count, address.past k = w := by
  simp only [words, List.mem_map, List.mem_range]

theorem wordsInRam_eq_all (address : Word) (count : Nat) :
    wordsInRam address count = (words address count).all wordInRam := by
  rw [words, List.all_map]
  rfl

theorem wordsInRam_iff {address : Word} {count : Nat} :
    wordsInRam address count = true ↔ ∀ k < count, wordInRam (address.past k) = true := by
  simp only [wordsInRam, List.all_eq_true, List.mem_range]
  rfl

/-- Words of RAM that follow each other do so without wrapping. -/
theorem toNat_past {address : Word} {count : Nat} (inRam : wordsInRam address count = true)
    {k : Nat} (inside : k < count) : (address.past k).toNat = address.toNat + 4 * k := by
  induction k with
  | zero => rw [address.past_zero, Nat.mul_zero, Nat.add_zero]
  | succ k ih =>
    have before := (wordInRam_iff.1 (wordsInRam_iff.1 inRam k (by omega))).2
    have next : (address.past (k + 1)).toNat = ((address.past k).toNat + 4) % 2 ^ 32 := by
      rw [← Word.past_past]
      exact UInt32.toNat_add _ _
    have last : (address.past k).toNat + 4 ≤ 0x300000 := before
    have here := ih (by omega)
    omega

theorem wordsInRam_iff_range {address : Word} {count : Nat} (some : 0 < count) :
    wordsInRam address count = true ↔
      address.toNat % 4 = 0 ∧ address.toNat + 4 * count ≤ ramSize := by
  constructor
  · intro inRam
    have first := wordInRam_iff.1 (wordsInRam_iff.1 inRam 0 some)
    have last := wordInRam_iff.1 (wordsInRam_iff.1 inRam (count - 1) (by omega))
    rw [address.past_zero] at first
    rw [toNat_past inRam (by omega)] at last
    omega
  · intro ⟨aligned, fits⟩
    have fits : address.toNat + 4 * count ≤ 0x300000 := fits
    rw [wordsInRam_iff]
    intro k inside
    have number : (address.past k).toNat = address.toNat + 4 * k := by
      rw [Word.past, UInt32.toNat_add, UInt32.toNat_ofNat']
      omega
    rw [wordInRam_iff, number]
    exact ⟨by omega, show _ ≤ 0x300000 by omega⟩

theorem wordsInRam_past {address : Word} {i count total : Nat}
    (inRam : wordsInRam address total = true) (fits : i + count ≤ total) :
    wordsInRam (address.past i) count = true := by
  rw [wordsInRam_iff]
  intro k inside
  rw [Word.past_past]
  exact wordsInRam_iff.1 inRam _ (by omega)

theorem wordsInRam_add {address : Word} {i k : Nat} (first : wordsInRam address i = true)
    (second : wordsInRam (address.past i) k = true) : wordsInRam address (i + k) = true := by
  rw [wordsInRam_iff] at *
  intro j inside
  by_cases before : j < i
  · exact first j before
  · have later := second (j - i) (by omega)
    rwa [Word.past_past, Nat.add_sub_cancel' (Nat.not_lt.1 before)] at later

/-- Where a row of a square matrix begins. -/
theorem rowAddress (matrix : Word) (n row : Nat) :
    matrix + .ofNat (4 * n * row) = matrix.past (row * n) := by
  rw [Word.past, Nat.mul_comm row, Nat.mul_assoc]

/-! ### What a write leaves alone -/

/-- The bytes of `count` words from `address` up. -/
def InWords (address : Word) (count : Nat) (b : Nat) : Prop :=
  address.toNat ≤ b ∧ b < address.toNat + 4 * count

/-- From `m` to `n` nothing has changed but bytes of RAM in `ram`, and in high resolution the
copies of such bytes. -/
structure Confined (ram : Nat → Prop) (m n : GuestMemory) : Prop where
  roms : n.roms = m.roms
  romBank : n.romBank = m.romBank
  nvram : n.nvram = m.nvram
  highResolution : n.highResolution = m.highResolution
  store : ∀ i (h : i < storeSize), ¬ram (origin m.highResolution i) → n.store[i] = m.store[i]

namespace Confined

variable {ram ram' : Nat → Prop} {m n o : GuestMemory}

theorem refl (m : GuestMemory) : Confined ram m m := ⟨rfl, rfl, rfl, rfl, fun _ _ _ => rfl⟩

theorem trans (first : Confined ram m n) (second : Confined ram n o) : Confined ram m o where
  roms := second.roms.trans first.roms
  romBank := second.romBank.trans first.romBank
  nvram := second.nvram.trans first.nvram
  highResolution := second.highResolution.trans first.highResolution
  store i h outside := by
    have same := first.highResolution
    exact (second.store i h (same ▸ outside)).trans (first.store i h outside)

theorem mono (confined : Confined ram m n) (more : ∀ b, ram b → ram' b) : Confined ram' m n where
  roms := confined.roms
  romBank := confined.romBank
  nvram := confined.nvram
  highResolution := confined.highResolution
  store i h outside := confined.store i h (mt (more _) outside)

/-- A memory in which nothing may change is the same. -/
theorem eq_of_empty (confined : Confined ram m n) (empty : ∀ b, ¬ram b) : n = m := by
  obtain ⟨store, roms, romBank, nvram, highResolution⟩ := m
  obtain ⟨store', roms', romBank', nvram', highResolution'⟩ := n
  obtain ⟨rfl, rfl, rfl, rfl, same⟩ := confined
  have stores : store' = store := Block.ext_getElem fun i h => same i h (empty _)
  rw [stores]

theorem framed (confined : Confined ram m n) :
    Framed (fun a => ram a.val) (fun _ => False) m n where
  roms := confined.roms
  romBank := confined.romBank
  highResolution := confined.highResolution
  ram a outside := confined.store a.val _ (by rwa [origin_of_lt a.isLt])
  nvram slot _ := by rw [readNvram, confined.nvram]; rfl

end Confined

/-! ### One word -/

/-- The word at an address, 0 if there is no aligned word of RAM. -/
def wordAt (m : GuestMemory) (address : Word) : Word :=
  match wordAddress? address with
  | some a => m.readWord a
  | none => 0

theorem wordAt_empty (address : Word) : empty.wordAt address = 0 := by
  unfold wordAt
  cases wordAddress? address with
  | none => rfl
  | some a =>
    simp only [readWord, empty, Block.word, Block.getElem_zero]
    rfl

/-- A memory with a word put at an address, unless there is no aligned word of RAM. -/
def putWord (m : GuestMemory) (address v : Word) : GuestMemory :=
  match wordAddress? address with
  | some a => m.writeWord a v
  | none => m

theorem wordAt_putWord (m : GuestMemory) {address : Word} (inRam : wordInRam address = true)
    (v : Word) : (m.putWord address v).wordAt address = v := by
  obtain ⟨a, found, -, -⟩ := wordAddress?_of_inRam inRam
  simp only [wordAt, putWord, found]
  exact m.readWord_writeWord rfl v

theorem confined_putWord (m : GuestMemory) (address v : Word) :
    Confined (InWords address 1) m (m.putWord address v) := by
  cases inRam : wordInRam address with
  | false =>
    simp only [putWord, wordAddress?_of_outside inRam]
    exact .refl m
  | true =>
    obtain ⟨a, found, number, aligned⟩ := wordAddress?_of_inRam inRam
    simp only [putWord, found]
    refine ⟨rfl, rfl, rfl, rfl, fun i h outside => ?_⟩
    have start : a.wordStart = address.toNat := by
      unfold RamAddress.wordStart
      omega
    have size := size_lowBytes 4 v
    have written := written_storeWord m.store m.highResolution a v i h
    rwa [dif_neg (by rwa [start, size])] at written

theorem Confined.wordAt {ram : Nat → Prop} {m n : GuestMemory} (confined : Confined ram m n)
    {address : Word} (outside : ∀ b, InWords address 1 b → ¬ram b) :
    n.wordAt address = m.wordAt address := by
  unfold GuestMemory.wordAt
  cases inRam : wordInRam address with
  | false =>
    rw [wordAddress?_of_outside inRam]
  | true =>
    obtain ⟨a, found, number, aligned⟩ := wordAddress?_of_inRam inRam
    simp only [found]
    refine confined.framed.readWord fun b same => outside b.val ?_
    unfold InWords
    omega

theorem wordAt_putWord_of_ne (m : GuestMemory) {address w : Word} (other : w ≠ address) (v : Word) :
    (m.putWord address v).wordAt w = m.wordAt w := by
  cases inRam : wordInRam w with
  | false =>
    simp only [wordAt, wordAddress?_of_outside inRam]
  | true =>
    cases inRam' : wordInRam address with
    | false =>
      simp only [putWord, wordAddress?_of_outside inRam']
    | true =>
      refine (m.confined_putWord address v).wordAt fun b here there => ?_
      have aligned := (wordInRam_iff.1 inRam).1
      have aligned' := (wordInRam_iff.1 inRam').1
      unfold InWords at here there
      exact other (UInt32.toNat_inj.1 (by omega))

theorem wordAt_putWord_or (m : GuestMemory) (address v w : Word) :
    (m.putWord address v).wordAt w = v ∨ (m.putWord address v).wordAt w = m.wordAt w := by
  by_cases same : w = address
  · subst same
    cases inRam : wordInRam w with
    | false =>
      right
      simp only [putWord, wordAddress?_of_outside inRam]
    | true => exact .inl (m.wordAt_putWord inRam v)
  · exact .inr (m.wordAt_putWord_of_ne same v)

/-! ### Words, one after the other -/

/-- Words at the given addresses are written in turn. Their values are of a kind. -/
inductive Puts (value : Word → Prop) : GuestMemory → List Word → GuestMemory → Prop where
  | done (m : GuestMemory) : Puts value m [] m
  | put {m n : GuestMemory} {address v : Word} {rest : List Word} (allowed : value v)
      (puts : Puts value (m.putWord address v) rest n) : Puts value m (address :: rest) n

/-- The bytes of some words. -/
def Covered (ws : List Word) (b : Nat) : Prop := ∃ w ∈ ws, InWords w 1 b

namespace Puts

variable {value value' : Word → Prop} {m n o : GuestMemory} {ws ws' : List Word}

theorem append (first : Puts value m ws n) (second : Puts value n ws' o) :
    Puts value m (ws ++ ws') o := by
  induction first with
  | done => exact second
  | put allowed _ ih => exact .put allowed (ih second)

theorem mono (puts : Puts value m ws n) (more : ∀ v, value v → value' v) : Puts value' m ws n := by
  induction puts with
  | done m => exact .done m
  | put allowed _ ih => exact .put (more _ allowed) ih

theorem confined (puts : Puts value m ws n) : Confined (Covered ws) m n := by
  induction puts with
  | done m => exact .refl m
  | put _ _ ih =>
    refine ((confined_putWord _ _ _).mono fun b inside => ?_).trans (ih.mono ?_)
    · exact ⟨_, List.mem_cons_self, inside⟩
    · exact fun b ⟨w, among, inside⟩ => ⟨w, List.mem_cons_of_mem _ among, inside⟩

/-- A word that is written in the end has a value of the kind, also if it is written again. -/
theorem wordAt (puts : Puts value m ws n) (inRam : ∀ w ∈ ws, wordInRam w = true) {w : Word}
    (held : w ∈ ws ∨ value (m.wordAt w)) : value (n.wordAt w) := by
  induction puts with
  | done => exact held.resolve_left List.not_mem_nil
  | @put m n address v rest allowed _ ih =>
    refine ih (fun w among => inRam w (List.mem_cons_of_mem _ among)) ?_
    by_cases same : w = address
    · subst same
      rw [m.wordAt_putWord (inRam w List.mem_cons_self)]
      exact .inr allowed
    · rw [m.wordAt_putWord_of_ne same]
      exact held.imp_left fun among => List.mem_of_ne_of_mem same among

end Puts

/-! ### Rows of numbers -/

theorem writeFixed_cons (m : GuestMemory) (address : Word) (v : Int64) (vs : List Int64) :
    m.writeFixed address (v :: vs) =
      if wordInRam address then
        (m.putWord address v.toUInt64.toUInt32).writeFixed (address.past 1) vs
      else (false, m) := by
  rw [writeFixed, wordInRam, putWord]
  cases wordAddress? address <;> rfl

theorem writeFixed_finished (m : GuestMemory) (address : Word) (vs : List Int64) :
    (m.writeFixed address vs).1 = (words address vs.length).all wordInRam := by
  induction vs generalizing m address with
  | nil => rfl
  | cons v vs ih =>
    rw [writeFixed_cons, List.length_cons, words_succ, List.all_cons]
    cases wordInRam address with
    | false => rfl
    | true => exact ih _ _

/-- What is written are the words before the first one out of place. -/
theorem puts_writeFixed {value : Word → Prop} (m : GuestMemory) (address : Word) {vs : List Int64}
    (allowed : ∀ v ∈ vs, value v.toUInt64.toUInt32) :
    Puts value m ((words address vs.length).takeWhile wordInRam) (m.writeFixed address vs).2 := by
  induction vs generalizing m address with
  | nil => exact .done m
  | cons v vs ih =>
    rw [writeFixed_cons, List.length_cons, words_succ, List.takeWhile_cons]
    cases wordInRam address with
    | false => exact .done m
    | true =>
      exact .put (allowed v List.mem_cons_self) (ih _ _ fun v among =>
        allowed v (List.mem_cons_of_mem _ among))

theorem confined_writeFixed_row (m : GuestMemory) {address : Word} {vs : List Int64}
    (inRam : wordsInRam address vs.length = true) :
    Confined (InWords address vs.length) m (m.writeFixed address vs).2 := by
  have puts : Puts (fun _ => True) m _ (m.writeFixed address vs).2 :=
    m.puts_writeFixed address fun _ _ => trivial
  refine puts.confined.mono fun b ⟨w, among, inside⟩ => ?_
  obtain ⟨k, short, rfl⟩ := mem_words.1 ((List.takeWhile_prefix _).subset among)
  have number := toNat_past inRam short
  unfold InWords at *
  omega

theorem wordAt_writeFixed (m : GuestMemory) {address : Word} {vs : List Int64}
    (inRam : wordsInRam address vs.length = true) {k : Nat} {v : Int64} (entry : vs[k]? = some v) :
    (m.writeFixed address vs).2.wordAt (address.past k) = v.toUInt64.toUInt32 := by
  induction vs generalizing m address k with
  | nil => contradiction
  | cons first vs ih =>
    have here := wordsInRam_iff.1 inRam 0 (Nat.succ_pos _)
    have rest : wordsInRam (address.past 1) vs.length = true :=
      wordsInRam_past inRam (Nat.le_of_eq (Nat.add_comm _ _))
    rw [address.past_zero] at here
    rw [writeFixed_cons, if_pos here]
    cases k with
    | zero =>
      have apart (b : Nat) (inside : InWords address 1 b) :
          ¬InWords (address.past 1) vs.length b := by
        intro later
        unfold InWords at *
        cases vs with
        | nil =>
          rw [List.length_nil] at later
          omega
        | cons =>
          have second := toNat_past inRam (k := 1) (by simp)
          omega
      rw [address.past_zero, (confined_writeFixed_row _ rest).wordAt apart, m.wordAt_putWord here]
      exact congrArg (fun v : Int64 => v.toUInt64.toUInt32) (Option.some.inj entry)
    | succ k =>
      have next : address.past (k + 1) = (address.past 1).past k := by
        rw [Word.past_past, Nat.add_comm]
      rw [next]
      exact ih _ rest entry

end GuestMemory

end ArmConsole
