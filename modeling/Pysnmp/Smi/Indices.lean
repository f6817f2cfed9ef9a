import Pysnmp.Foundation.PrefixOrder
import Pysnmp.Foundation.SortedMap
import Pysnmp.Proto.Types

/-!
# Dictionaries in the order of object identifiers

`OidOrderedDict` of `smi/indices.py` keeps its keys sorted as object identifiers. A key is found
through the identifiers below it by trying the lengths of the keys, longest first (`getBranch`), and
the key after an identifier, which need not be there, by bisection (`getNextBranch`).
-/

set_option autoImplicit false
set_option relaxedAutoImplicit false

namespace Pysnmp.Smi

open Foundation Proto

/-- A dictionary keyed and ordered by object identifiers. -/
abbrev OidOrderedDict (ν : Type) := SortedMap Oid ν

namespace OidOrderedDict

variable {ν : Type}

/-- The distinct lengths of keys, longest first. -/
def lengthsOf (keys : List Oid) : List ℕ :=
  ((keys.map List.length).dedup).insertionSort (· ≥ ·)

/-- The distinct lengths of the keys, longest first. -/
def getKeysLens (vars : OidOrderedDict ν) : List ℕ :=
  lengthsOf vars.keys

/-- The entry whose key is the longest prefix of the name. -/
def getBranch (vars : OidOrderedDict ν) (name : Oid) : Option (Oid × ν) :=
  vars.getKeysLens.findSome? fun keyLen ↦
    (vars.get? (name.take keyLen)).map fun node ↦ (name.take keyLen, node)

/-- The entry whose key follows the name: the first one, or the one bisection finds. -/
def getNextBranch (vars : OidOrderedDict ν) (name : Oid) : Option (Oid × ν) :=
  match vars.entries with
  | [] => none
  | first :: _ => if name < first.1 then some first else vars.next? name

/-! ### What the lookups find -/

/-- The first entry needs no case of its own. -/
theorem getNextBranch_eq_next? (vars : OidOrderedDict ν) (name : Oid) :
    vars.getNextBranch name = vars.next? name := by
  obtain ⟨entries, hsorted⟩ := vars
  cases entries with
  | nil => rfl
  | cons first rest =>
    simp only [getNextBranch, SortedMap.next?]
    split_ifs with hlt
    · rw [List.find?_cons_of_pos (by simpa using hlt)]
    · rfl

theorem mem_getKeysLens {vars : OidOrderedDict ν} {keyLen : ℕ} :
    keyLen ∈ vars.getKeysLens ↔ ∃ key node, (key, node) ∈ vars.entries ∧ key.length = keyLen := by
  simp only [getKeysLens, lengthsOf, List.mem_insertionSort, List.mem_dedup, List.mem_map,
    SortedMap.keys, Prod.exists]
  constructor
  · rintro ⟨_, ⟨key, node, hmem, rfl⟩, rfl⟩
    exact ⟨key, node, hmem, rfl⟩
  · rintro ⟨key, node, hmem, rfl⟩
    exact ⟨key, ⟨key, node, hmem, rfl⟩, rfl⟩

/-- The lengths are tried from the longest one down. -/
theorem getKeysLens_sorted (vars : OidOrderedDict ν) :
    vars.getKeysLens.Pairwise fun first second ↦ second ≤ first :=
  List.pairwise_insertionSort (· ≥ ·) _

/-- An entry found among the keys of some lengths is one whose key is a prefix of the name. -/
theorem mem_of_findSome?_eq_some {vars : OidOrderedDict ν} {name : Oid} {lens : List ℕ}
    {entry : Oid × ν}
    (hfound : (lens.findSome? fun keyLen ↦
      (vars.get? (name.take keyLen)).map fun node ↦ (name.take keyLen, node)) = some entry) :
    entry ∈ vars.entries ∧ entry.1 <+: name := by
  obtain ⟨keyLen, -, hkeyLen⟩ := List.exists_of_findSome?_eq_some hfound
  obtain ⟨node, hnode, rfl⟩ := Option.map_eq_some_iff.mp hkeyLen
  exact ⟨SortedMap.get?_eq_some_iff.mp hnode, List.take_prefix _ _⟩

/-- No longer prefix of the name is a key: its length was tried before. -/
theorem length_le_of_findSome?_eq_some {vars : OidOrderedDict ν} {name : Oid} {lens : List ℕ}
    {entry other : Oid × ν} (hsorted : lens.Pairwise fun first second ↦ second ≤ first)
    (hfound : (lens.findSome? fun keyLen ↦
      (vars.get? (name.take keyLen)).map fun node ↦ (name.take keyLen, node)) = some entry)
    (hother : other ∈ vars.entries) (hbegins : other.1 <+: name) (hlen : other.1.length ∈ lens) :
    other.1.length ≤ entry.1.length := by
  induction lens with
  | nil => cases hfound
  | cons keyLen lens ih =>
    obtain ⟨hkeyLen, hrest⟩ := List.pairwise_cons.mp hsorted
    have hotherName : name.take other.1.length = other.1 :=
      (List.prefix_iff_eq_take.mp hbegins).symm
    have hle : other.1.length ≤ keyLen := by
      rcases List.mem_cons.mp hlen with heq | hmem
      · exact heq.le
      · exact hkeyLen _ hmem
    rw [List.findSome?_cons] at hfound
    cases hget : vars.get? (name.take keyLen) with
    | some node =>
      rw [hget] at hfound
      obtain rfl := Option.some.inj hfound
      rw [List.length_take]
      exact le_min hle hbegins.length_le
    | none =>
      rw [hget] at hfound
      refine ih hrest hfound (List.mem_of_ne_of_mem (fun heq ↦ ?_) hlen)
      rw [← heq, hotherName] at hget
      exact SortedMap.get?_eq_none_iff.mp hget other.2 hother

theorem getBranch_eq_none_iff {vars : OidOrderedDict ν} {name : Oid} :
    vars.getBranch name = none ↔ ∀ entry ∈ vars.entries, ¬ entry.1 <+: name := by
  rw [getBranch, List.findSome?_eq_none_iff]
  constructor
  · rintro hnone ⟨key, node⟩ hmem hbegins
    have hget := hnone key.length (mem_getKeysLens.mpr ⟨key, node, hmem, rfl⟩)
    rw [Option.map_eq_none_iff, ← List.prefix_iff_eq_take.mp hbegins] at hget
    exact SortedMap.get?_eq_none_iff.mp hget node hmem
  · intro hnone keyLen _
    rw [Option.map_eq_none_iff, SortedMap.get?_eq_none_iff]
    exact fun node hmem ↦ hnone _ hmem (List.take_prefix _ _)

/-- The branch of a name is the entry whose key is a prefix of the name, the longest one. -/
theorem getBranch_eq_some_iff {vars : OidOrderedDict ν} {name : Oid} {entry : Oid × ν} :
    vars.getBranch name = some entry ↔
      entry ∈ vars.entries ∧ entry.1 <+: name ∧
        ∀ other ∈ vars.entries, other.1 <+: name → other.1.length ≤ entry.1.length := by
  constructor
  · intro hfound
    obtain ⟨hmem, hbegins⟩ := mem_of_findSome?_eq_some hfound
    refine ⟨hmem, hbegins, fun other hother hotherPrefix ↦ ?_⟩
    exact length_le_of_findSome?_eq_some (getKeysLens_sorted vars) hfound hother hotherPrefix
      (mem_getKeysLens.mpr ⟨other.1, other.2, hother, rfl⟩)
  · rintro ⟨hmem, hbegins, hlongest⟩
    cases hfound : vars.getBranch name with
    | none => exact absurd hbegins (getBranch_eq_none_iff.mp hfound entry hmem)
    | some found =>
      obtain ⟨hfoundMem, hfoundPrefix⟩ := mem_of_findSome?_eq_some hfound
      have hlength : entry.1.length = found.1.length := le_antisymm
        (length_le_of_findSome?_eq_some (getKeysLens_sorted vars) hfound hmem hbegins
          (mem_getKeysLens.mpr ⟨entry.1, entry.2, hmem, rfl⟩))
        (hlongest found hfoundMem hfoundPrefix)
      have hkey : entry.1 = found.1 :=
        (List.prefix_of_prefix_length_le hbegins hfoundPrefix hlength.le).eq_of_length hlength
      obtain ⟨key, node⟩ := entry
      obtain ⟨foundKey, foundNode⟩ := found
      obtain rfl : key = foundKey := hkey
      rw [SortedMap.eq_of_mem_of_mem hmem hfoundMem]

/-- A key is its own branch. -/
theorem getBranch_of_mem {vars : OidOrderedDict ν} {entry : Oid × ν} (hmem : entry ∈ vars.entries) :
    vars.getBranch entry.1 = some entry :=
  getBranch_eq_some_iff.mpr ⟨hmem, List.prefix_rfl, fun _ _ hbegins ↦ hbegins.length_le⟩

end OidOrderedDict

end Pysnmp.Smi
