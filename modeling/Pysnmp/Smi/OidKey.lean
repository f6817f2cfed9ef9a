import Mathlib.Data.Nat.Size
import Pysnmp.Foundation.OrderedCode
import Pysnmp.Proto.Types

/-!
# The sort key of an object identifier

`oid_key` and `subtree_bound` of `smi/corpus.py`. A corpus orders its nodes by keys: every
sub-identifier is written as the number of its octets and then these octets, the most significant
first. The keys lie in the order of the identifiers (`arcsKey_lt_arcsKey_iff`), and those from one
key up to its bound belong to the identifiers at or below it (`between_subtreeBound_iff`).
-/

set_option autoImplicit false
set_option relaxedAutoImplicit false

namespace Pysnmp.Smi.OidKey

open Foundation.OrderedCode Proto

/-- The octets of a sort key, as the numbers they stand for. -/
abbrev Key := List ℕ

/-- What the corpus functions raise: the `SmiError` of an OID that cannot be encoded. -/
inductive OidKeyError
  | emptyOid
  | subIdentifierOutOfRange (oid : Oid) (arc : ℕ)
  deriving DecidableEq, Repr

/-- Largest sub-identifier that is encoded. -/
def maxArc : ℕ := 0xFFFFFFFF

/-- `to_bytes(width, "big")`. -/
def toBytes : ℕ → ℕ → Key
  | 0, _ => []
  | width + 1, number => number / 256 ^ width :: toBytes width (number % 256 ^ width)

/-- The octets that a sub-identifier takes. -/
def arcWidth (arc : ℕ) : ℕ := max 1 ((arc.size + 7) / 8)

/-- A sub-identifier in a key. -/
def arcKey (arc : ℕ) : Key := arcWidth arc :: toBytes (arcWidth arc) arc

/-- Encode the sub-identifiers of an OID one after the other. -/
def encodeArcs (oid : Oid) : List ℕ → Except OidKeyError Key
  | [] => .ok []
  | arc :: arcs =>
    if maxArc < arc then .error (.subIdentifierOutOfRange oid arc)
    else do
      let rest ← encodeArcs oid arcs
      .ok (arcKey arc ++ rest)

/-- `oid_key` of an OID given by its sub-identifiers. -/
def oidKey (oid : Oid) : Except OidKeyError Key :=
  if oid = [] then .error .emptyOid else encodeArcs oid oid

/-- `subtree_bound`. -/
def subtreeBound (key : Key) : Key := successor 0xFF key

/-- An object identifier: at least one sub-identifier, each of 32 bits. -/
def WellFormed (oid : Oid) : Prop := oid ≠ [] ∧ ∀ arc ∈ oid, arc ≤ maxArc

instance (oid : Oid) : Decidable (WellFormed oid) := inferInstanceAs (Decidable (_ ∧ _))

/-- The key of the sub-identifiers of an object identifier. -/
def arcsKey (oid : Oid) : Key := oid.flatMap arcKey

theorem encodeArcs_eq_ok {arcs : List ℕ} (hrange : ∀ arc ∈ arcs, arc ≤ maxArc) (oid : Oid) :
    encodeArcs oid arcs = .ok (arcsKey arcs) := by
  induction arcs with
  | nil => rfl
  | cons arc arcs ih =>
    obtain ⟨harc, hrest⟩ := List.forall_mem_cons.mp hrange
    rw [encodeArcs, if_neg (not_lt.mpr harc), ih hrest]
    rfl

theorem oidKey_eq_ok {oid : Oid} (hoid : WellFormed oid) : oidKey oid = .ok (arcsKey oid) := by
  rw [oidKey, if_neg hoid.1, encodeArcs_eq_ok hoid.2]

/-! ### The order of the keys -/

theorem lt_pow_arcWidth (arc : ℕ) : arc < 256 ^ arcWidth arc := by
  have hsize : arc.size ≤ 8 * arcWidth arc := by
    unfold arcWidth
    omega
  calc arc < 2 ^ (8 * arcWidth arc) := Nat.size_le.mp hsize
    _ = 256 ^ arcWidth arc := by rw [pow_mul]; norm_num

theorem arcWidth_mono {first second : ℕ} (hle : first ≤ second) :
    arcWidth first ≤ arcWidth second := by
  have hsize := Nat.size_le_size hle
  unfold arcWidth
  omega

theorem toBytes_lt_toBytes {width first second : ℕ} (hsecond : second < 256 ^ width)
    (hlt : first < second) : toBytes width first < toBytes width second := by
  induction width generalizing first second with
  | zero => omega
  | succ width ih =>
    rw [toBytes, toBytes, List.cons_lt_cons_iff]
    rcases (Nat.div_le_div_right hlt.le : first / 256 ^ width ≤ _).lt_or_eq with hhead | hhead
    · exact Or.inl hhead
    · refine Or.inr ⟨hhead, ih (Nat.mod_lt _ (by positivity)) ?_⟩
      have hfirst := Nat.div_add_mod first (256 ^ width)
      have hother := Nat.div_add_mod second (256 ^ width)
      rw [hhead] at hfirst
      omega

theorem length_toBytes (width number : ℕ) : (toBytes width number).length = width := by
  induction width generalizing number with
  | zero => rfl
  | succ width ih => rw [toBytes, List.length_cons, ih]

theorem toBytes_le {width number : ℕ} (hnumber : number < 256 ^ width) :
    ∀ octet ∈ toBytes width number, octet ≤ 0xFF := by
  induction width generalizing number with
  | zero => simp [toBytes]
  | succ width ih =>
    refine List.forall_mem_cons.mpr ⟨?_, ih (Nat.mod_lt _ (by positivity))⟩
    apply Nat.lt_succ_iff.mp
    apply Nat.div_lt_of_lt_mul
    rwa [pow_succ] at hnumber

theorem arcKey_lt_arcKey {first second : ℕ} (hlt : first < second) :
    arcKey first < arcKey second := by
  rw [arcKey, arcKey, List.cons_lt_cons_iff]
  rcases (arcWidth_mono hlt.le).lt_or_eq with hwidth | hwidth
  · exact Or.inl hwidth
  · refine Or.inr ⟨hwidth, ?_⟩
    rw [hwidth]
    exact toBytes_lt_toBytes (lt_pow_arcWidth second) hlt

/-- The code of the sub-identifiers keeps their order, and says itself where a word ends. -/
theorem isOrdered_arcKey : IsOrdered arcKey where
  word_ne_nil _ := List.cons_ne_nil _ _
  word_lt_word := arcKey_lt_arcKey
  eq_of_prefix {first second} hbegins := by
    have hinjective : Function.Injective arcKey :=
      StrictMono.injective fun _ _ ↦ arcKey_lt_arcKey
    have hwidth : arcWidth first = arcWidth second := (List.cons_prefix_cons.mp hbegins).1
    apply hinjective
    apply hbegins.eq_of_length
    rw [arcKey, arcKey, List.length_cons, List.length_cons, length_toBytes, length_toBytes, hwidth]

/-- Keys compare as the object identifiers do. -/
theorem arcsKey_lt_arcsKey_iff {first second : Oid} :
    arcsKey first < arcsKey second ↔ first < second :=
  text_lt_text_iff isOrdered_arcKey

theorem arcsKey_injective : Function.Injective arcsKey :=
  text_injective isOrdered_arcKey

theorem arcWidth_le {arc : ℕ} (harc : arc ≤ maxArc) : arcWidth arc ≤ 4 := by
  have hsize : arc.size ≤ 32 := Nat.size_le.mpr (Nat.lt_succ_iff.mpr harc)
  unfold arcWidth
  omega

theorem arcsKey_le {oid : Oid} (hrange : ∀ arc ∈ oid, arc ≤ maxArc) :
    ∀ octet ∈ arcsKey oid, octet ≤ 0xFF := by
  intro octet hmem
  obtain ⟨arc, harc, hmem⟩ := List.mem_flatMap.mp hmem
  rcases List.mem_cons.mp hmem with rfl | hmem
  · exact (arcWidth_le (hrange arc harc)).trans (by norm_num)
  · exact toBytes_le (lt_pow_arcWidth arc) octet hmem

/-- The keys from that of an OID up to its bound belong to the OIDs at or below it. -/
theorem between_subtreeBound_iff {root oid : Oid} (hroot : WellFormed root)
    (hoid : WellFormed oid) :
    (¬ arcsKey oid < arcsKey root ∧ arcsKey oid < subtreeBound (arcsKey root)) ↔ root <+: oid := by
  have hdigit : ∃ octet ∈ arcsKey root, octet ≠ 0xFF := by
    obtain ⟨arc, rest, rfl⟩ := List.exists_cons_of_ne_nil hroot.1
    have hwidth := arcWidth_le (hroot.2 arc List.mem_cons_self)
    exact ⟨arcWidth arc, List.mem_append_left _ List.mem_cons_self, by omega⟩
  rw [subtreeBound, between_successor_iff hdigit (arcsKey_le hoid.2)]
  exact text_prefix_text_iff isOrdered_arcKey

end Pysnmp.Smi.OidKey
