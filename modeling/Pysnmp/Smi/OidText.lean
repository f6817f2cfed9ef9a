import Pysnmp.Foundation.Numeral
import Pysnmp.Smi.OidKey

/-!
# Sort keys and dotted decimals

`oid_from_key` of `smi/corpus.py`, and `oid_key` of an OID that is given as text. The length in
front of every sub-identifier says where it ends in the key, so that a key is read back as the OID
it was made of (`oidFromKey_arcsKey`), and the text that comes out has the same key again.

`keys_orderAsOids` puts together what the queries of the corpus rely on.
-/

set_option autoImplicit false
set_option relaxedAutoImplicit false

namespace Pysnmp.Smi.OidKey

open Foundation.Numeral Proto

/-! ### Reading keys -/

/-- What `oid_from_key` raises. -/
inductive KeyError
  | emptyOidKey
  | truncatedOidKey (position : ℕ)
  deriving DecidableEq, Repr

/-- `int.from_bytes(octets, "big")`. -/
def fromBytes (octets : Key) : ℕ :=
  octets.foldl (fun value octet ↦ 256 * value + octet) 0

/-- The loop of `oid_from_key`, over the octets from a position on. -/
def decodeArcs (position : ℕ) : Key → Except KeyError (List ℕ)
  | [] => .ok []
  | width :: rest =>
    if width < 1 ∨ rest.length < width then
      .error (.truncatedOidKey (position + 1))
    else do
      let arcs ← decodeArcs (position + 1 + width) (rest.drop width)
      .ok (fromBytes (rest.take width) :: arcs)
  termination_by key => key.length
  decreasing_by
    simp only [List.length_drop, List.length_cons]
    omega

/-- Sub-identifiers in dotted decimal. -/
def dotted (arcs : List ℕ) : List Char :=
  ['.'].intercalate (arcs.map fun arc : ℕ ↦ numeral 10 arc)

/-- `oid_from_key`. -/
def oidFromKey (key : Key) : Except KeyError (List Char) := do
  let arcs ← decodeArcs 0 key
  if arcs = [] then .error .emptyOidKey else .ok (dotted arcs)

/-! ### Keys of texts -/

/-- What `oid_key` raises for a text. -/
inductive TextError
  | notAnOid (oid : List Char)
  | subIdentifierOutOfRange (oid : List Char) (arc : ℤ)
  deriving DecidableEq, Repr

/-- `tuple(int(x) for x in oid.split("."))`. -/
def splitArcs (table : CharacterTable) (oid : List Char) : Option (List ℤ) :=
  (oid.splitOn '.').mapM (readInt table maxStrDigits 10)

/-- The loop of `oid_key`, for the sub-identifiers of a text. -/
def encodeTextArcs (oid : List Char) : List ℤ → Except TextError Key
  | [] => .ok []
  | arc :: arcs =>
    if arc < 0 ∨ maxArc < arc then
      .error (.subIdentifierOutOfRange oid arc)
    else do
      let rest ← encodeTextArcs oid arcs
      .ok (arcKey arc.toNat ++ rest)

/-- `oid_key` of an OID in dotted decimal. -/
def oidKeyOfText (table : CharacterTable) (oid : List Char) : Except TextError Key :=
  match splitArcs table oid with
  | none => .error (.notAnOid oid)
  | some arcs => encodeTextArcs oid arcs

/-! ### What is written is read -/

theorem foldl_fromBytes (octets : Key) (start : ℕ) :
    octets.foldl (fun value octet ↦ 256 * value + octet) start =
      start * 256 ^ octets.length + fromBytes octets := by
  induction octets generalizing start with
  | nil => simp [fromBytes]
  | cons octet octets ih =>
    rw [fromBytes, List.foldl_cons, List.foldl_cons, ih, ih, List.length_cons, pow_succ]
    ring

theorem fromBytes_toBytes {width number : ℕ} (hnumber : number < 256 ^ width) :
    fromBytes (toBytes width number) = number := by
  induction width generalizing number with
  | zero =>
    rw [pow_zero, Nat.lt_one_iff] at hnumber
    rw [hnumber]
    rfl
  | succ width ih =>
    have hrest : number % 256 ^ width < 256 ^ width := Nat.mod_lt _ (by positivity)
    rw [toBytes, fromBytes, List.foldl_cons, foldl_fromBytes, length_toBytes, ih hrest, mul_zero,
      zero_add, mul_comm]
    exact Nat.div_add_mod number (256 ^ width)

theorem decodeArcs_arcKey_append (position arc : ℕ) (rest : Key) :
    decodeArcs position (arcKey arc ++ rest) =
      decodeArcs (position + 1 + arcWidth arc) rest >>= fun arcs ↦ .ok (arc :: arcs) := by
  have hwidth : 1 ≤ arcWidth arc := le_max_left _ _
  have hlength : (toBytes (arcWidth arc) arc).length = arcWidth arc := length_toBytes _ _
  have hwhole : ¬ (arcWidth arc < 1 ∨
      (toBytes (arcWidth arc) arc ++ rest).length < arcWidth arc) := by
    rw [List.length_append, hlength]
    omega
  rw [arcKey, List.cons_append, decodeArcs, if_neg hwhole, List.drop_left' hlength,
    List.take_left' hlength, fromBytes_toBytes (lt_pow_arcWidth arc)]

/-- A key is read as the sub-identifiers it was made of. -/
theorem decodeArcs_arcsKey (position : ℕ) (arcs : Oid) :
    decodeArcs position (arcsKey arcs) = .ok arcs := by
  induction arcs generalizing position with
  | nil =>
    rw [arcsKey, List.flatMap_nil, decodeArcs]
  | cons arc arcs ih =>
    rw [arcsKey, List.flatMap_cons, decodeArcs_arcKey_append, ← arcsKey, ih]
    rfl

theorem oidFromKey_arcsKey {oid : Oid} (hne : oid ≠ []) :
    oidFromKey (arcsKey oid) = .ok (dotted oid) := by
  rw [oidFromKey, decodeArcs_arcsKey]
  exact if_neg hne

/-! ### Dotted decimals -/

section Dotted

variable {table : CharacterTable} {oid : Oid}

theorem not_mem_numeral (arc : ℕ) : '.' ∉ numeral 10 arc := by
  intro hmem
  have hdigits : '.' ∈ Nat.toDigits 10 arc := by
    rwa [numeral, if_neg (by omega), Int.natAbs_natCast] at hmem
  obtain ⟨digit, hdigit, heq⟩ := exists_of_mem_toDigits (by norm_num) arc hdigits
  interval_cases digit <;> revert heq <;> decide

theorem splitOn_dotted (hne : oid ≠ []) :
    (dotted oid).splitOn '.' = oid.map fun arc : ℕ ↦ numeral 10 arc := by
  refine List.splitOn_intercalate '.' (fun text hmem ↦ ?_) (by simpa using hne)
  obtain ⟨arc, -, rfl⟩ := List.mem_map.mp hmem
  exact not_mem_numeral arc

theorem readInt_arc {arc : ℕ} (harc : arc ≤ maxArc) :
    readInt table maxStrDigits 10 (numeral 10 arc) = some (arc : ℤ) := by
  refine readInt_numeral (by decide) fun _ ↦ ?_
  have hlength : (Nat.toDigits 10 arc).length ≤ 10 :=
    (Nat.length_toDigits_le_iff (by norm_num) (by norm_num)).mpr (harc.trans_lt (by decide))
  rw [Int.natAbs_natCast]
  exact hlength.trans (by decide)

/-- The text of an OID is that of its sub-identifiers. -/
theorem splitArcs_dotted (hoid : WellFormed oid) :
    splitArcs table (dotted oid) = some (oid.map fun arc : ℕ ↦ (arc : ℤ)) := by
  rw [splitArcs, splitOn_dotted hoid.1]
  have hall : ∀ arcs : Oid, (∀ arc ∈ arcs, arc ≤ maxArc) →
      (arcs.map fun arc : ℕ ↦ numeral 10 arc).mapM (readInt table maxStrDigits 10) =
        some (arcs.map fun arc : ℕ ↦ (arc : ℤ)) := by
    intro arcs hrange
    induction arcs with
    | nil => rfl
    | cons arc arcs ih =>
      obtain ⟨harc, hrest⟩ := List.forall_mem_cons.mp hrange
      rw [List.map_cons, List.mapM_cons, readInt_arc harc, ih hrest]
      rfl
  exact hall oid hoid.2

theorem encodeTextArcs_map_cast {arcs : Oid} (hrange : ∀ arc ∈ arcs, arc ≤ maxArc)
    (text : List Char) :
    encodeTextArcs text (arcs.map fun arc : ℕ ↦ (arc : ℤ)) = .ok (arcsKey arcs) := by
  induction arcs with
  | nil => rfl
  | cons arc arcs ih =>
    obtain ⟨harc, hrest⟩ := List.forall_mem_cons.mp hrange
    have hinside : ¬ ((arc : ℤ) < 0 ∨ (maxArc : ℤ) < arc) := by omega
    rw [List.map_cons, encodeTextArcs, if_neg hinside, ih hrest]
    rfl

/-- Written in dotted decimal an OID has the same key. -/
theorem oidKeyOfText_dotted (hoid : WellFormed oid) :
    oidKeyOfText table (dotted oid) = .ok (arcsKey oid) := by
  rw [oidKeyOfText, splitArcs_dotted hoid]
  exact encodeTextArcs_map_cast hoid.2 _

end Dotted

/-! ### Keys order as object identifiers do -/

/-- OIDs have keys that compare as they do; a key is read back as the OID, in dotted decimal, which
has the same sub-identifiers and the same key; and the keys from that of an OID up to its bound are
those of the OIDs that it begins. -/
theorem keys_orderAsOids {first second : Oid} (hfirst : WellFormed first)
    (hsecond : WellFormed second) :
    ∃ key other, oidKey first = .ok key ∧ oidKey second = .ok other ∧
      (key < other ↔ first < second) ∧
      (∃ text, oidFromKey key = .ok text ∧ ∀ table, oidKeyOfText table text = .ok key ∧
        splitArcs table text = some (first.map fun arc : ℕ ↦ (arc : ℤ))) ∧
      (key ≤ other ∧ other < subtreeBound key ↔ first <+: second) := by
  refine ⟨arcsKey first, arcsKey second, oidKey_eq_ok hfirst, oidKey_eq_ok hsecond,
    arcsKey_lt_arcsKey_iff, ⟨dotted first, oidFromKey_arcsKey hfirst.1, fun table ↦
      ⟨oidKeyOfText_dotted hfirst, splitArcs_dotted hfirst⟩⟩, ?_⟩
  rw [← between_subtreeBound_iff hfirst hsecond, not_lt]

theorem keys_orderAsOids_greatestArc :
    ∃ key other, oidKey [1, 4294967295] = .ok key ∧ oidKey [1, 4294967295, 0] = .ok other ∧
      (key < other ↔ [1, 4294967295] < [1, 4294967295, 0]) ∧
      (∃ text, oidFromKey key = .ok text ∧ ∀ table, oidKeyOfText table text = .ok key ∧
        splitArcs table text = some ([1, 4294967295].map fun arc : ℕ ↦ (arc : ℤ))) ∧
      (key ≤ other ∧ other < subtreeBound key ↔ [1, 4294967295] <+: [1, 4294967295, 0]) :=
  keys_orderAsOids (by decide) (by decide)

end Pysnmp.Smi.OidKey
