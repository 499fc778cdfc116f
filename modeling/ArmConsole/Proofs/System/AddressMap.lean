import ArmConsole.Expansion.Scripted
import ArmConsole.Proofs.Memory.Location
import ArmConsole.Proofs.Word
import ArmConsole.System.AddressSpace
import Mathlib.Data.Nat.Bitwise

/-!
The address map as a table of intervals. The tests that recognise a window by the bits of an address
are statements about quotients of it, and so the windows are intervals that have nothing in common.
Main statement: every address is found in the interval that it lies in, at its distance from where
that starts, whatever the order of the tests.
-/

namespace ArmConsole

/-! ### Tests on bits -/

namespace Word

/-- Nothing is left outside of a mask of ones exactly if the word is small. -/
theorem and_not_mask_eq_zero_iff (w : Word) {mask : Word} {k : Nat}
    (ones : mask.toNat = 2 ^ k - 1) : w &&& ~~~mask = 0 ↔ w.toNat < 2 ^ k := by
  have split : w &&& ~~~mask = 0 ↔ w &&& mask = w := by
    constructor
    · intro outside
      have whole : (w &&& mask) ||| (w &&& ~~~mask) = w := by
        apply ext_bits
        intro i small
        simp only [UInt32.toBitVec_or, UInt32.toBitVec_and, UInt32.toBitVec_not, BitVec.getLsbD_or,
          BitVec.getLsbD_and, BitVec.getLsbD_not, small, decide_true, Bool.true_and,
          ← Bool.and_or_distrib_left, Bool.or_not_self, Bool.and_true]
      rwa [outside, UInt32.or_zero] at whole
    · intro inside
      rw [← inside, UInt32.and_assoc]
      apply ext_bits
      intro i small
      simp only [UInt32.toBitVec_and, UInt32.toBitVec_not, BitVec.getLsbD_and, BitVec.getLsbD_not,
        small, decide_true, Bool.true_and, Bool.and_not_self, Bool.and_false, UInt32.toBitVec_zero,
        BitVec.getLsbD_zero]
  rw [split, ← UInt32.toNat_inj, toNat_and_mask w ones]
  constructor
  · intro same
    rw [← same]
    exact Nat.mod_lt _ (Nat.two_pow_pos k)
  · exact Nat.mod_eq_of_lt

theorem and_bit_ne_zero_iff (w : Word) {b : Word} {k : Nat} (one : b.toNat = 2 ^ k) :
    (w &&& b != 0) = true ↔ w.toNat / 2 ^ k % 2 = 1 := by
  have digit : w.toNat.testBit k = decide (w.toNat / 2 ^ k % 2 = 1) :=
    Nat.testBit_eq_decide_div_mod_eq
  rw [bne_iff_ne, ne_eq, ← UInt32.toNat_inj, UInt32.toNat_and, one, Nat.and_two_pow, digit]
  by_cases set : w.toNat / 2 ^ k % 2 = 1 <;> simp [set]

end Word

theorem Window.covers_iff {base mask : Word} {k : Nat} (ones : mask.toNat = 2 ^ k - 1)
    (address : Word) :
    covers base mask address = true ↔ address.toNat / 2 ^ k = base.toNat / 2 ^ k := by
  rw [covers, beq_iff_eq, Word.and_not_mask_eq_zero_iff _ ones, UInt32.toNat_xor,
    ← Nat.div_eq_zero_iff_lt (Nat.two_pow_pos k), Nat.xor_div_two_pow, Nat.xor_eq_zero_iff]

/-! ### The table -/

/-- The parts of the address map at which something lies. -/
inductive Region where
  | ram | graphics | controller | videoSerial | diagnostic | nvram | rom
  deriving DecidableEq

namespace Region

def first : Region → Nat
  | ram => 0x00000000
  | graphics => 0x03300000
  | controller => 0x03400000
  | videoSerial => 0x03200000
  | diagnostic => 0x03180000
  | nvram => 0x03140000
  | rom => 0x03000000

def last : Region → Nat
  | ram => 0x002FFFFF
  | graphics => 0x033007FF
  | controller => 0x0340FFFF
  | videoSerial => 0x032FFFFF
  | diagnostic => 0x031FFFFF
  | nvram => 0x0317FFFF
  | rom => 0x030FFFFF

def Holds (r : Region) (address : Word) : Prop :=
  r.first ≤ address.toNat ∧ address.toNat ≤ r.last

instance (r : Region) (address : Word) : Decidable (r.Holds address) :=
  inferInstanceAs (Decidable (_ ∧ _))

/-- What lies at a distance from the first address of a region. NVRAM has one byte for each word,
and it lies in its region twice. -/
def place (r : Region) (distance : Nat) (inside : r.first + distance ≤ r.last) : Location :=
  match r, inside with
  | ram, inside =>
    .ram ⟨distance, Nat.lt_succ_of_le (Nat.le_trans (Nat.le_add_left distance 0) inside)⟩
  | graphics, _ => .window (.graphics (.ofNat distance))
  | controller, _ => .window (.controller (.ofNat distance))
  | videoSerial, _ => .window (.videoSerial (.ofNat distance))
  | diagnostic, _ => .window .diagnostic
  | nvram, _ => .window (.nvram ⟨distance / 4 % GuestMemory.nvramSize, Nat.mod_lt _ (by decide)⟩)
  | rom, inside =>
    .window (.rom ⟨distance, Nat.lt_succ_of_le (Nat.le_of_add_le_add_left inside)⟩)

theorem forall_iff {p : Region → Prop} :
    (∀ r, p r) ↔ p ram ∧ p graphics ∧ p controller ∧ p videoSerial ∧ p diagnostic ∧ p nvram ∧
      p rom := by
  constructor
  · intro all
    exact ⟨all _, all _, all _, all _, all _, all _, all _⟩
  · rintro ⟨inRam, inGraphics, inController, inVideoSerial, inDiagnostic, inNvram, inRom⟩ (_ | _)
    all_goals assumption

/-- Two regions have no address in common. -/
theorem eq_of_holds {r r' : Region} {address : Word} (here : r.Holds address)
    (there : r'.Holds address) : r = r' := by
  cases r <;> cases r' <;> simp only [Holds, first, last] at here there <;> first | rfl | omega

end Region

/-- The region of a location, if anything lies there. -/
def Location.region? : Location → Option Region
  | .ram _ => some .ram
  | .window (.graphics _) => some .graphics
  | .window (.controller _) => some .controller
  | .window (.videoSerial _) => some .videoSerial
  | .window .diagnostic => some .diagnostic
  | .window (.nvram _) => some .nvram
  | .window (.rom _) => some .rom
  | .window .unmapped => none

theorem Region.region?_place (r : Region) (distance : Nat)
    (inside : r.first + distance ≤ r.last) : (r.place distance inside).region? = some r := by
  cases r <;> rfl

/-! ### The tests -/

/-- The tests of the address map. The diagnostic channel and NVRAM share one, and two bits tell them
apart, of which the upper one is looked at first. -/
inductive AddressTest where
  | ram | graphics | controller | videoSerial | shared | rom
  deriving DecidableEq

namespace AddressTest

def passes (t : AddressTest) (address : Word) : Bool :=
  match t with
  | ram => address.toNat < GuestMemory.ramSize
  | graphics => Window.covers 0x03300000 0x7FF address
  | controller => Window.covers 0x03400000 0xFFFF address
  | videoSerial => Window.covers 0x03200000 0xFFFFF address
  | shared => Window.covers 0x03100000 0xFFFFF address
  | rom => Window.covers 0x03000000 0xFFFFF address

/-- Where an address lies that passes the test. -/
def location (t : AddressTest) (address : Word) : Location :=
  match t with
  | ram => .ram ⟨address.toNat % GuestMemory.ramSize, Nat.mod_lt _ (by decide)⟩
  | graphics => .window (.graphics (address &&& 0x7FF))
  | controller => .window (.controller (address &&& 0xFFFF))
  | videoSerial => .window (.videoSerial (address &&& 0xFFFFF))
  | shared =>
    .window (if address &&& 0x80000 != 0 then .diagnostic
      else if address &&& 0x40000 != 0 then .nvram (GuestMemory.nvramSlot address)
      else .unmapped)
  | rom => .window (.rom (GuestMemory.romOffset address))

/-- The tests in the order of the address map. -/
def all : List AddressTest := [ram, graphics, controller, videoSerial, shared, rom]

theorem mem_all (t : AddressTest) : t ∈ all := by cases t <;> decide

/-- The first test that passes tells the location. -/
def locate (order : List AddressTest) (address : Word) : Location :=
  (order.find? fun t => t.passes address).elim (.window .unmapped) fun t => t.location address

variable {t t' : AddressTest} {order : List AddressTest} {address : Word}

/-- A test as a statement about numbers. -/
theorem passes_iff (t : AddressTest) (address : Word) :
    t.passes address = true ↔
      match t with
      | ram => address.toNat < 0x300000
      | graphics => address.toNat / 2 ^ 11 = 0x03300000 / 2 ^ 11
      | controller => address.toNat / 2 ^ 16 = 0x03400000 / 2 ^ 16
      | videoSerial => address.toNat / 2 ^ 20 = 0x03200000 / 2 ^ 20
      | shared => address.toNat / 2 ^ 20 = 0x03100000 / 2 ^ 20
      | rom => address.toNat / 2 ^ 20 = 0x03000000 / 2 ^ 20 := by
  cases t with
  | ram => exact decide_eq_true_iff
  | _ => exact Window.covers_iff rfl address

/-- No address passes two tests. -/
theorem eq_of_passes (here : t.passes address = true) (there : t'.passes address = true) :
    t = t' := by
  rw [passes_iff] at here there
  cases t <;> cases t' <;> first | rfl | (dsimp only at here there; omega)

theorem locate_of_passes (member : t ∈ order) (passes : t.passes address = true) :
    locate order address = t.location address := by
  have found : (order.find? fun t => t.passes address) = some t := by
    cases found : order.find? fun t => t.passes address with
    | none => exact absurd passes (List.find?_eq_none.1 found t member)
    | some t' =>
      have there := List.find?_some (p := fun t : AddressTest => t.passes address) found
      rw [eq_of_passes passes there]
  rw [locate, found]
  rfl

theorem locate_of_fails (fails : ∀ t : AddressTest, ¬t.passes address = true) :
    locate order address = .window .unmapped := by
  rw [locate, List.find?_eq_none.2 fun t _ => fails t]
  rfl

theorem ofAddress_eq_locate (address : Word) :
    Location.ofAddress address = locate all address := by
  have first (t : AddressTest) (behind : List AddressTest) : locate (t :: behind) address =
      if t.passes address then t.location address else locate behind address := by
    rw [locate, List.find?_cons]
    cases t.passes address <;> rfl
  simp only [all, first]
  unfold Location.ofAddress Window.ofAddress
  by_cases inRam : address.toNat < GuestMemory.ramSize
  · have passes : ram.passes address = true := decide_eq_true inRam
    rw [dif_pos inRam, if_pos passes]
    exact congrArg Location.ram (Fin.ext (Nat.mod_eq_of_lt inRam).symm)
  · have fails : ¬ram.passes address = true := fun passes => inRam (of_decide_eq_true passes)
    rw [dif_neg inRam, if_neg fails]
    simp only [passes, location, apply_ite Location.window]
    rfl

/-- Every test is made, in whatever order. -/
theorem locate_eq_ofAddress (whole : ∀ t, t ∈ order) (address : Word) :
    locate order address = Location.ofAddress address := by
  rw [ofAddress_eq_locate]
  by_cases passed : ∃ t : AddressTest, t.passes address = true
  · obtain ⟨t, passes⟩ := passed
    rw [locate_of_passes (whole t) passes, locate_of_passes t.mem_all passes]
  · rw [locate_of_fails (not_exists.1 passed), locate_of_fails (not_exists.1 passed)]

theorem ofAddress_of_passes (passes : t.passes address = true) :
    Location.ofAddress address = t.location address := by
  rw [ofAddress_eq_locate, locate_of_passes t.mem_all passes]

end AddressTest

/-! ### The map -/

namespace Region

variable {r : Region} {address : Word} {distance : Nat}

/-- The low bits of an address in a window are its distance from where the window starts. -/
theorem and_mask_eq {mask : Word} {k base : Nat} (ones : mask.toNat = 2 ^ k - 1)
    (aligned : base % 2 ^ k = 0) (distant : address.toNat = base + distance)
    (near : distance < 2 ^ k) : (address &&& mask).toNat = distance := by
  obtain ⟨n, rfl⟩ := Nat.dvd_of_mod_eq_zero aligned
  rw [Word.toNat_and_mask _ ones, distant, Nat.mul_add_mod, Nat.mod_eq_of_lt near]

theorem and_mask_eq_ofNat {mask : Word} {k base : Nat} (ones : mask.toNat = 2 ^ k - 1)
    (aligned : base % 2 ^ k = 0) (distant : address.toNat = base + distance)
    (near : distance < 2 ^ k) : address &&& mask = .ofNat distance := by
  rw [← and_mask_eq ones aligned distant near, UInt32.ofNat_toNat]

theorem nvramSlot_eq (distant : address.toNat = nvram.first + distance) :
    (GuestMemory.nvramSlot address).val = distance / 4 % GuestMemory.nvramSize := by
  have word : (address >>> 2).toNat = address.toNat / 4 := by
    rw [UInt32.toNat_shiftRight]
    exact Nat.shiftRight_eq_div_pow _ 2
  have slot : (address >>> 2 &&& 0x7FFF).toNat = (address >>> 2).toNat % 2 ^ 15 :=
    Word.toNat_and_mask _ rfl
  rw [word, distant] at slot
  refine slot.trans ?_
  dsimp only [first, GuestMemory.nvramSize]
  omega

/-- The test by which a region is found. -/
def test : Region → AddressTest
  | ram => .ram
  | graphics => .graphics
  | controller => .controller
  | videoSerial => .videoSerial
  | diagnostic | nvram => .shared
  | rom => .rom

theorem passes_test (inside : r.first + distance ≤ r.last)
    (distant : address.toNat = r.first + distance) : r.test.passes address = true := by
  rw [AddressTest.passes_iff]
  cases r <;> dsimp only [first, last] at inside distant <;> dsimp only [test] <;> omega

theorem ofAddress_eq_place (inside : r.first + distance ≤ r.last)
    (distant : address.toNat = r.first + distance) :
    Location.ofAddress address = r.place distance inside := by
  have bit19 := address.and_bit_ne_zero_iff (b := 0x80000) (k := 19) rfl
  have bit18 := address.and_bit_ne_zero_iff (b := 0x40000) (k := 18) rfl
  rw [AddressTest.ofAddress_of_passes (passes_test inside distant)]
  cases r <;> dsimp only [first, last] at inside distant <;> dsimp only [test, AddressTest.location]
  case ram =>
    have inRam : distance < GuestMemory.ramSize := Nat.lt_succ_of_le (by omega)
    refine congrArg Location.ram (Fin.ext ?_)
    dsimp only
    rw [distant, Nat.zero_add, Nat.mod_eq_of_lt inRam]
  case graphics =>
    rw [and_mask_eq_ofNat (k := 11) rfl (by decide) distant (by omega)]
    rfl
  case controller =>
    rw [and_mask_eq_ofNat (k := 16) rfl (by decide) distant (by omega)]
    rfl
  case videoSerial =>
    rw [and_mask_eq_ofNat (k := 20) rfl (by decide) distant (by omega)]
    rfl
  case diagnostic =>
    rw [if_pos (bit19.2 (by omega))]
    rfl
  case nvram =>
    rw [if_neg (fun set => absurd (bit19.1 set) (by omega)), if_pos (bit18.2 (by omega))]
    exact congrArg (fun slot => Location.window (.nvram slot)) (Fin.ext (nvramSlot_eq distant))
  case rom =>
    have near : distance < 2 ^ 20 := by omega
    exact congrArg (fun offset => Location.window (.rom offset))
      (Fin.ext (and_mask_eq (k := 20) rfl (by decide) distant near))

/-- A test that passes tells of a region, but for the low quarter of the shared block. -/
theorem ofAddress_of_nowhere (nowhere : ∀ r : Region, ¬r.Holds address) :
    Location.ofAddress address = .window .unmapped := by
  have bit19 := address.and_bit_ne_zero_iff (b := 0x80000) (k := 19) rfl
  have bit18 := address.and_bit_ne_zero_iff (b := 0x40000) (k := 18) rfl
  by_cases passed : ∃ t : AddressTest, t.passes address = true
  · obtain ⟨t, passes⟩ := passed
    rw [AddressTest.ofAddress_of_passes passes]
    rw [AddressTest.passes_iff] at passes
    simp only [forall_iff, Holds, first, last] at nowhere
    cases t <;> dsimp only at passes
    case shared =>
      rw [AddressTest.location, if_neg (fun set => absurd (bit19.1 set) (by omega)),
        if_neg (fun set => absurd (bit18.1 set) (by omega))]
    all_goals omega
  · rw [AddressTest.ofAddress_eq_locate, AddressTest.locate_of_fails (not_exists.1 passed)]

theorem region?_eq_some_iff : (Location.ofAddress address).region? = some r ↔ r.Holds address := by
  have located (r : Region) (holds : r.Holds address) :
      (Location.ofAddress address).region? = some r := by
    have distant := (Nat.add_sub_cancel' holds.1).symm
    rw [ofAddress_eq_place (distant ▸ holds.2) distant, region?_place]
  constructor
  · intro found
    by_cases somewhere : ∃ r' : Region, r'.Holds address
    · obtain ⟨r', holds⟩ := somewhere
      cases found.symm.trans (located r' holds)
      exact holds
    · rw [ofAddress_of_nowhere (not_exists.1 somewhere)] at found
      cases found
  · exact located r

theorem unmapped_iff :
    Location.ofAddress address = .window .unmapped ↔ ∀ r : Region, ¬r.Holds address := by
  constructor
  · intro unmapped r holds
    have found := region?_eq_some_iff.2 holds
    rw [unmapped] at found
    cases found
  · exact ofAddress_of_nowhere

/-- The region is found by looking at the table, in whatever order. -/
theorem find?_holds {order : List Region} (whole : ∀ r, r ∈ order) (address : Word) :
    (order.find? fun r => r.Holds address) = (Location.ofAddress address).region? := by
  cases found : order.find? fun r => r.Holds address with
  | none =>
    have nowhere (r : Region) : ¬r.Holds address := fun holds =>
      List.find?_eq_none.1 found r (whole r) (decide_eq_true holds)
    rw [ofAddress_of_nowhere nowhere]
    rfl
  | some r =>
    have holds := List.find?_some (p := fun r : Region => decide (r.Holds address)) found
    exact (region?_eq_some_iff.2 (of_decide_eq_true holds)).symm

end Region

/-- Every access to an address is one to a window. -/
structure AddressSpace.Reaches (address : Word) (w : Window) : Prop where
  readWord {δ : Type} [ExpansionDevice δ] (s : AddressSpace δ) :
    s.readWord address = s.readWindow w
  writeWord {δ : Type} [ExpansionDevice δ] (s : AddressSpace δ) (value : Word) :
    s.writeWord address value = s.writeWindow w value
  readHalfWord {δ : Type} [ExpansionDevice δ] (s : AddressSpace δ) :
    (s.readHalfWord address).2 = (s.readWindow w).2
  writeHalfWord {δ : Type} [ExpansionDevice δ] (s : AddressSpace δ) (value : HalfWord) :
    s.writeHalfWord address value = s.writeWindow w (value.toUInt32 * 0x00010001)
  readByte {δ : Type} [ExpansionDevice δ] (s : AddressSpace δ) :
    (s.readByte address).2 = (s.readWindow w).2
  writeByte {δ : Type} [ExpansionDevice δ] (s : AddressSpace δ) (value : Byte) :
    s.writeByte address value = s.writeWindow w (value.toUInt32 * 0x01010101)

theorem AddressSpace.reaches_of_ofAddress {address : Word} {w : Window}
    (located : Location.ofAddress address = .window w) : Reaches address w where
  readWord s := by rw [AddressSpace.readWord, located]
  writeWord s value := by rw [AddressSpace.writeWord, located]
  readHalfWord s := by rw [AddressSpace.readHalfWord, located]
  writeHalfWord s value := by rw [AddressSpace.writeHalfWord, located]
  readByte s := by
    rw [AddressSpace.readByte, located]
    cases w <;> rfl
  writeByte s value := by rw [AddressSpace.writeByte, located]

/-- The address map is the table of the regions: what lies at an address is told by the region that
holds it and the distance from where that starts, and the order of the tests does not matter. -/
theorem Location.ofAddress_iff_region (address : Word) :
    (∀ r, (ofAddress address).region? = some r ↔ r.Holds address) ∧
    (ofAddress address = .window .unmapped ↔ ∀ r : Region, ¬r.Holds address) ∧
    (∀ r r' : Region, r.Holds address → r'.Holds address → r = r') ∧
    (∀ order, (∀ t, t ∈ order) → AddressTest.locate order address = ofAddress address) ∧
    (∀ order : List Region, (∀ r, r ∈ order) →
      (order.find? fun r => r.Holds address) = (ofAddress address).region?) ∧
    (∀ (r : Region) (distance : Nat) (inside : r.first + distance ≤ r.last),
      address.toNat = r.first + distance →
        ofAddress address = r.place distance inside ∧
        ∀ w, r.place distance inside = .window w → AddressSpace.Reaches address w) := by
  refine ⟨fun r => Region.region?_eq_some_iff, Region.unmapped_iff, fun r r' => Region.eq_of_holds,
    fun order whole => AddressTest.locate_eq_ofAddress whole address,
    fun order whole => Region.find?_holds whole address, ?_⟩
  intro r distance inside distant
  have located := Region.ofAddress_eq_place inside distant
  refine ⟨located, fun w window => ?_⟩
  exact AddressSpace.reaches_of_ofAddress (located.trans window)

/-- The last address of NVRAM shows the last slot for the second time. -/
theorem Location.ofAddress_iff_region_nvram :
    AddressTest.locate AddressTest.all.reverse 0x0317FFFF = ofAddress 0x0317FFFF ∧
      AddressSpace.Reaches 0x0317FFFF (.nvram ⟨0x7FFF, by decide⟩) := by
  obtain ⟨-, -, -, ordered, -, placed⟩ := ofAddress_iff_region 0x0317FFFF
  constructor
  · exact ordered _ fun t => List.mem_reverse.2 t.mem_all
  · exact (placed .nvram 0x3FFFF (by decide) rfl).2 _ rfl

end ArmConsole
