import Pysnmp.Foundation.BitString
import Pysnmp.Smi.IndexEncoding

/-!
# The names of bits

`Bits.prettyIn` and `Bits.prettyOut` of `proto/rfc1902.py`. Both ask the named values for what they
need by subscription and test the answer for `None`, but `NamedValues` raises `KeyError` where it
has none, so that neither branch for an absent name is taken.

`readsAsNamed_iff` says when that does not show.
-/

set_option autoImplicit false
set_option relaxedAutoImplicit false

namespace Pysnmp.Smi.BitNames

open Foundation Foundation.BitString Proto IndexEncoding

/-! ### The methods -/

/-- The named values of a class: no name and no number is given twice. -/
structure NamedBits where
  values : NamedValues
  names_nodup : (values.map Prod.fst).Nodup
  numbers_nodup : (values.map Prod.snd).Nodup

/-- What the methods raise. -/
inductive BitsError
  | python (error : PythonError)
  | protocolError (message : String)
  deriving DecidableEq, Repr

/-- `str` of a name or a number. -/
def bitText : BitKey → String
  | .name name => name
  | .number number => toString number

/-- `self.namedValues[bit]`. -/
def subscript (named : NamedBits) (bit : BitKey) : Except BitsError (Option BitKey) :=
  match named.values.getItem bit with
  | none => .error (.python .keyError)
  | some value => .ok (some value)

/-- One turn of the loop in `prettyIn`. -/
def setNamedBit (named : NamedBits) (octets : Octets) (bit : BitKey) : Except BitsError Octets := do
  match ← subscript named bit with
  | none => .error (.protocolError ("Unknown named bit " ++ bitText bit))
  | some _ => (setBit named.values octets bit).mapError .python

/-- `prettyIn` of a tuple of bits. -/
def prettyIn (named : NamedBits) (bits : List BitKey) : Except BitsError Octets :=
  bits.foldlM (setNamedBit named) []

/-- What `prettyOut` calls a bit that is set. -/
def bitName (named : NamedBits) (bit : ℕ) : Except BitsError String := do
  match ← subscript named (.number bit) with
  | none => .ok ("UnknownBit-" ++ toString bit)
  | some name => .ok (bitText name)

/-- The inner loop of `prettyOut` from bit `j - 1` of the octet down. -/
def octetNames (named : NamedBits) (i : ℕ) (v : UInt8) : ℕ → Except BitsError (List String)
  | 0 => .ok []
  | j + 1 =>
    if v.toNat &&& 1 <<< j ≠ 0 then do
      let name ← bitName named (i * 8 + 7 - j)
      let names ← octetNames named i v j
      .ok (name :: names)
    else
      octetNames named i v j

/-- The names that `prettyOut` joins. -/
def bitNames (named : NamedBits) (value : Octets) : Except BitsError (List String) :=
  value.zipIdx.foldlM (fun names octet ↦
    (octetNames named octet.2 octet.1 8).map (names ++ ·)) []

/-- `prettyOut`. -/
def prettyOut (named : NamedBits) (value : Octets) : Except BitsError String :=
  (bitNames named value).map (String.intercalate ", ")

/-! ### The names of the bits that are set -/

/-- The bit has a name. -/
def IsNamed (named : NamedBits) (bit : ℕ) : Prop :=
  bit ∈ named.values.map Prod.snd

/-- How a bit is to be shown. -/
def shownName (named : NamedBits) (bit : ℕ) : String :=
  ((named.values.find? fun entry ↦ entry.2 = bit).map Prod.fst).getD
    ("UnknownBit-" ++ toString bit)

/-- Octets are shown by the names of the bits that are set, in increasing order; the names, when all
bits have one, give the octets back up to zero octets at the end; and names of which one is not
known are refused. -/
structure ReadsAsNamed (named : NamedBits) (octets : Octets) (names : List String) : Prop where
  shown : prettyOut named octets =
    .ok (String.intercalate ", " ((setBits octets).map (shownName named)))
  rebuilt : (∀ bit ∈ setBits octets, IsNamed named bit) →
    ∃ built zeros,
      prettyIn named ((setBits octets).map fun bit ↦ .name (shownName named bit)) = .ok built ∧
        octets = built ++ List.replicate zeros 0
  refused : (∃ name ∈ names, name ∉ named.values.map Prod.fst) →
    ∃ message, prettyIn named (names.map .name) = .error (.protocolError message)

variable {named : NamedBits}

/-! ### Showing -/

theorem bitName_of_isNamed {bit : ℕ} (hnamed : IsNamed named bit) :
    bitName named bit = .ok (shownName named bit) := by
  obtain ⟨entry, hentry, hnumber⟩ := List.mem_map.mp hnamed
  have hsome : (named.values.find? fun entry ↦ entry.2 = bit).isSome :=
    List.find?_isSome.mpr ⟨entry, hentry, decide_eq_true hnumber⟩
  obtain ⟨found, hfound⟩ := Option.isSome_iff_exists.mp hsome
  unfold bitName subscript shownName NamedValues.getItem
  simp only [Nat.cast_inj, hfound]
  rfl

theorem bitName_of_not_isNamed {bit : ℕ} (hnamed : ¬ IsNamed named bit) :
    bitName named bit = .error (.python .keyError) := by
  have hnone : (named.values.find? fun entry ↦ entry.2 = bit) = none := by
    refine List.find?_eq_none.mpr fun entry hentry hnumber ↦ hnamed ?_
    exact List.mem_map.mpr ⟨entry, hentry, of_decide_eq_true hnumber⟩
  unfold bitName subscript NamedValues.getItem
  simp only [Nat.cast_inj, hnone]
  rfl

/-- The inner loop meets the bits of an octet in increasing order. -/
theorem octetNames_eq (named : NamedBits) (i : ℕ) (v : UInt8) {j : ℕ} (hj : j ≤ 8) :
    octetNames named i v j =
      (((List.range' (8 - j) j).filter fun bit ↦ v.toNat.testBit (7 - bit)).map
        fun bit ↦ 8 * i + bit).mapM (bitName named) := by
  induction j with
  | zero => rfl
  | succ j ih =>
    have hstart : 8 - (j + 1) + 1 = 8 - j := by omega
    have hdigit : 7 - (8 - (j + 1)) = j := by omega
    have hbit : i * 8 + 7 - j = 8 * i + (8 - (j + 1)) := by omega
    have htest : v.toNat &&& 1 <<< j ≠ 0 ↔ v.toNat.testBit j = true := by
      rw [Nat.one_shiftLeft, Nat.and_two_pow]
      cases v.toNat.testBit j <;> simp
    rw [octetNames, ih (by omega), List.range'_succ, hstart, List.filter_cons, hdigit, hbit]
    by_cases hset : v.toNat.testBit j = true
    · rw [if_pos (htest.mpr hset), if_pos hset, List.map_cons, List.mapM_cons]
      rfl
    · rw [if_neg (mt htest.mp hset), if_neg hset]

/-- The names of the bits that are set, one after the other. -/
theorem bitNames_eq (named : NamedBits) (octets : Octets) :
    bitNames named octets = (setBits octets).mapM (bitName named) := by
  induction octets using List.reverseRecOn with
  | nil => rfl
  | append_singleton octets octet ih =>
    have hlast : bitNames named (octets ++ [octet]) =
        bitNames named octets >>= fun names ↦
          (octetNames named octets.length octet 8).map (names ++ ·) := by
      unfold bitNames
      rw [List.zipIdx_append, List.foldlM_append]
      refine congrArg _ (funext fun names ↦ ?_)
      simp
    rw [hlast, ih, octetNames_eq named _ octet le_rfl, setBits_append_singleton, List.mapM_append,
      List.range_eq_range']
    refine congrArg _ (funext fun names ↦ ?_)
    cases (((List.range' 0 8).filter fun bit ↦ octet.toNat.testBit (7 - bit)).map
        fun bit ↦ 8 * octets.length + bit).mapM (bitName named) with
    | error error => rfl
    | ok others => rfl

theorem mapM_bitName_of_isNamed {bits : List ℕ} (hnamed : ∀ bit ∈ bits, IsNamed named bit) :
    bits.mapM (bitName named) = .ok (bits.map (shownName named)) := by
  induction bits with
  | nil => rfl
  | cons bit rest ih =>
    rw [List.mapM_cons, bitName_of_isNamed (hnamed bit List.mem_cons_self),
      ih fun other hother ↦ hnamed other (List.mem_cons_of_mem bit hother)]
    rfl

theorem mapM_bitName_of_not_isNamed {bits : List ℕ} (hbits : ∃ bit ∈ bits, ¬ IsNamed named bit) :
    bits.mapM (bitName named) = .error (.python .keyError) := by
  induction bits with
  | nil =>
    obtain ⟨bit, hmem, _⟩ := hbits
    exact absurd hmem List.not_mem_nil
  | cons bit rest ih =>
    rw [List.mapM_cons]
    by_cases hnamed : IsNamed named bit
    · obtain ⟨other, hmem, hother⟩ := hbits
      rcases List.mem_cons.mp hmem with rfl | hrest
      · exact absurd hnamed hother
      · rw [bitName_of_isNamed hnamed, ih ⟨other, hrest, hother⟩]
        rfl
    · rw [bitName_of_not_isNamed hnamed]
      rfl

/-- A value is shown exactly when all its bits have names. -/
theorem prettyOut_eq_ok_iff {octets : Octets} :
    prettyOut named octets =
        .ok (String.intercalate ", " ((setBits octets).map (shownName named))) ↔
      ∀ bit ∈ setBits octets, IsNamed named bit := by
  constructor
  · intro hshown
    by_contra hbits
    push Not at hbits
    rw [prettyOut, bitNames_eq, mapM_bitName_of_not_isNamed hbits] at hshown
    cases hshown
  · intro hnamed
    rw [prettyOut, bitNames_eq, mapM_bitName_of_isNamed hnamed]
    rfl

/-! ### Building -/

/-- A name has one number. -/
theorem find_name {entry : String × ℕ} (hentry : entry ∈ named.values) :
    (named.values.find? fun other ↦ other.1 = entry.1) = some entry := by
  have hsome : (named.values.find? fun other ↦ other.1 = entry.1).isSome :=
    List.find?_isSome.mpr ⟨entry, hentry, decide_eq_true rfl⟩
  obtain ⟨found, hfound⟩ := Option.isSome_iff_exists.mp hsome
  have hname : found.1 = entry.1 := by
    simpa using List.find?_some hfound
  rw [hfound, List.inj_on_of_nodup_map named.names_nodup (List.mem_of_find?_eq_some hfound) hentry
    hname]

/-- The name a bit is shown by sets this bit. -/
theorem setNamedBit_shownName {octets : Octets} {bit : ℕ} (hnamed : IsNamed named bit) :
    setNamedBit named octets (.name (shownName named bit)) = .ok (withBit octets bit) := by
  obtain ⟨entry, hentry, hnumber⟩ := List.mem_map.mp hnamed
  have hsome : (named.values.find? fun entry ↦ entry.2 = bit).isSome :=
    List.find?_isSome.mpr ⟨entry, hentry, decide_eq_true hnumber⟩
  obtain ⟨found, hfound⟩ := Option.isSome_iff_exists.mp hsome
  have hbit : found.2 = bit := by
    simpa using List.find?_some hfound
  have hget : named.values.getItem (.name (shownName named bit)) = some (.number bit) := by
    rw [shownName, hfound, Option.map_some, Option.getD_some, NamedValues.getItem,
      find_name (List.mem_of_find?_eq_some hfound), Option.map_some, hbit]
  unfold setNamedBit subscript setBit
  rw [hget]
  rfl

theorem foldlM_setNamedBit {bits : List ℕ} (hnamed : ∀ bit ∈ bits, IsNamed named bit)
    (octets : Octets) :
    (bits.map fun bit ↦ BitKey.name (shownName named bit)).foldlM (setNamedBit named) octets =
      .ok (bits.foldl withBit octets) := by
  induction bits generalizing octets with
  | nil => rfl
  | cons bit rest ih =>
    rw [List.map_cons, List.foldlM_cons, setNamedBit_shownName (hnamed bit List.mem_cons_self)]
    exact ih (fun other hother ↦ hnamed other (List.mem_cons_of_mem bit hother)) _

/-- No names are refused with `ProtocolError`. -/
theorem foldlM_setNamedBit_ne (bits : List BitKey) (octets : Octets) (message : String) :
    bits.foldlM (setNamedBit named) octets ≠ .error (.protocolError message) := by
  induction bits generalizing octets with
  | nil => exact fun heq ↦ nomatch heq
  | cons bit rest ih =>
    rw [List.foldlM_cons]
    cases hget : named.values.getItem bit with
    | none =>
      unfold setNamedBit subscript
      rw [hget]
      exact fun heq ↦ nomatch heq
    | some value =>
      have hturn : setNamedBit named octets bit =
          (setBit named.values octets bit).mapError .python := by
        unfold setNamedBit subscript
        rw [hget]
        rfl
      rw [hturn]
      cases setBit named.values octets bit with
      | error error => exact fun heq ↦ nomatch heq
      | ok built => exact ih built

/-- Octets are shown by names, and names refused or taken back, exactly when neither method looks
for a name or a number that is missing. -/
theorem readsAsNamed_iff (named : NamedBits) (octets : Octets) (names : List String) :
    ReadsAsNamed named octets names ↔
      (∀ bit ∈ setBits octets, IsNamed named bit) ∧
        ∀ name ∈ names, name ∈ named.values.map Prod.fst := by
  constructor
  · intro hreads
    refine ⟨prettyOut_eq_ok_iff.mp hreads.shown, fun name hname ↦ ?_⟩
    by_contra hunknown
    obtain ⟨message, hrefused⟩ := hreads.refused ⟨name, hname, hunknown⟩
    exact foldlM_setNamedBit_ne _ _ message hrefused
  · rintro ⟨hnamed, hknown⟩
    refine ⟨prettyOut_eq_ok_iff.mpr hnamed, fun _ ↦ ?_, ?_⟩
    · obtain ⟨zeros, hzeros⟩ := eq_packed_setBits octets
      exact ⟨_, zeros, foldlM_setNamedBit hnamed [], hzeros⟩
    · rintro ⟨name, hname, hunknown⟩
      exact absurd (hknown name hname) hunknown

/-- The names of the first and the third bit. -/
def appleAndPeach : NamedBits where
  values := [("apple", 0), ("peach", 2)]
  names_nodup := by decide
  numbers_nodup := by decide

/-- The second bit has no name, and a name that is not known raises `KeyError`. -/
theorem not_readsAsNamed_unnamedBit :
    ¬ ReadsAsNamed appleAndPeach [0x40] [] ∧ ¬ ReadsAsNamed appleAndPeach [] ["plum"] := by
  constructor
  · intro hreads
    have hshown := hreads.shown
    rw [show prettyOut appleAndPeach [0x40] = .error (.python .keyError) by rfl] at hshown
    cases hshown
  · intro hreads
    obtain ⟨message, hrefused⟩ := hreads.refused ⟨"plum", List.mem_singleton_self _, by decide⟩
    rw [show prettyIn appleAndPeach (["plum"].map .name) =
      .error (.python .keyError) by rfl] at hrefused
    cases hrefused

end Pysnmp.Smi.BitNames
