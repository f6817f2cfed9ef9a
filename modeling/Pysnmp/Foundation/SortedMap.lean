import Mathlib.Data.List.Sort
import Mathlib.Tactic

/-!
# Maps with their keys in order

A `SortedMap κ ν` is a list of entries with strictly increasing keys; the order is a field, so an
unordered map cannot be built. Looking up, inserting and erasing are stated through the entries
(`get?_eq_some_iff`, `mem_insert`, `mem_erase`) and then through `get?`, and two maps with the same
lookups are equal (`ext_get?`).

`next?` is the first entry after a key, whether or not the key is there.
-/

set_option autoImplicit false
set_option relaxedAutoImplicit false

namespace Pysnmp.Foundation

/-- Entries in the strict order of their keys. -/
structure SortedMap (κ ν : Type) [LinearOrder κ] where
  entries : List (κ × ν)
  sorted : entries.Pairwise fun first second ↦ first.1 < second.1

namespace SortedMap

variable {κ ν : Type} [LinearOrder κ]

/-- The map without entries. -/
def empty : SortedMap κ ν := ⟨[], List.Pairwise.nil⟩

instance : EmptyCollection (SortedMap κ ν) := ⟨empty⟩

/-- The value under a key. -/
def get? (map : SortedMap κ ν) (key : κ) : Option ν :=
  (map.entries.find? fun entry ↦ entry.1 = key).map Prod.snd

/-- The keys in order. -/
def keys (map : SortedMap κ ν) : List κ := map.entries.map Prod.fst

/-- The values in the order of their keys. -/
def values (map : SortedMap κ ν) : List ν := map.entries.map Prod.snd

/-- Set the value under a key. -/
def insert (map : SortedMap κ ν) (key : κ) (value : ν) : SortedMap κ ν where
  entries := map.entries.filter (fun entry ↦ entry.1 < key) ++
    (key, value) :: map.entries.filter fun entry ↦ key < entry.1
  sorted := by
    refine List.pairwise_append.mpr ⟨map.sorted.filter _, List.pairwise_cons.mpr
      ⟨fun entry hentry ↦ ?_, map.sorted.filter _⟩, fun first hfirst second hsecond ↦ ?_⟩
    · exact of_decide_eq_true (List.mem_filter.mp hentry).2
    · have hbefore : first.1 < key := of_decide_eq_true (List.mem_filter.mp hfirst).2
      rcases List.mem_cons.mp hsecond with rfl | hsecond
      · exact hbefore
      · exact hbefore.trans (of_decide_eq_true (List.mem_filter.mp hsecond).2)

/-- Remove a key. -/
def erase (map : SortedMap κ ν) (key : κ) : SortedMap κ ν where
  entries := map.entries.filter fun entry ↦ entry.1 ≠ key
  sorted := map.sorted.filter _

/-- The entries after a key. -/
def after (map : SortedMap κ ν) (key : κ) : List (κ × ν) :=
  map.entries.filter fun entry ↦ key < entry.1

/-- The first entry after a key. -/
def next? (map : SortedMap κ ν) (key : κ) : Option (κ × ν) :=
  map.entries.find? fun entry ↦ key < entry.1

/-! ### Lookup -/

/-- Entries with the same key are the same. -/
theorem eq_of_mem_of_mem {map : SortedMap κ ν} {key : κ} {first second : ν}
    (hfirst : (key, first) ∈ map.entries) (hsecond : (key, second) ∈ map.entries) :
    first = second := by
  by_contra hne
  have hsymm : Std.Symm fun one other : κ × ν ↦ one.1 ≠ other.1 := ⟨fun _ _ ↦ Ne.symm⟩
  have hpairs : map.entries.Pairwise fun one other ↦ one.1 ≠ other.1 := map.sorted.imp ne_of_lt
  exact hpairs.forall hfirst hsecond (fun heq ↦ hne (Prod.mk.inj heq).2) rfl

/-- The value of a key is the one filed with it. -/
theorem get?_eq_some_iff {map : SortedMap κ ν} {key : κ} {value : ν} :
    map.get? key = some value ↔ (key, value) ∈ map.entries := by
  rw [get?, Option.map_eq_some_iff]
  constructor
  · rintro ⟨⟨found, _⟩, hfind, rfl⟩
    have hkey := List.find?_some hfind
    obtain rfl : found = key := of_decide_eq_true hkey
    exact List.mem_of_find?_eq_some hfind
  · intro hmem
    cases hfind : map.entries.find? fun entry ↦ entry.1 = key with
    | none => exact absurd (decide_eq_true rfl) (List.find?_eq_none.mp hfind _ hmem)
    | some found =>
      obtain ⟨foundKey, foundValue⟩ := found
      have hkey := List.find?_some hfind
      obtain rfl : foundKey = key := of_decide_eq_true hkey
      exact ⟨_, rfl, eq_of_mem_of_mem (List.mem_of_find?_eq_some hfind) hmem⟩

/-- A key without a value is filed with none. -/
theorem get?_eq_none_iff {map : SortedMap κ ν} {key : κ} :
    map.get? key = none ↔ ∀ value, (key, value) ∉ map.entries := by
  rw [Option.eq_none_iff_forall_ne_some]
  exact forall_congr' fun value ↦ not_congr get?_eq_some_iff

/-- A key has a value where one is filed with it. -/
theorem isSome_get?_iff {map : SortedMap κ ν} {key : κ} :
    (map.get? key).isSome ↔ ∃ value, (key, value) ∈ map.entries := by
  rw [Option.isSome_iff_exists]
  exact exists_congr fun value ↦ get?_eq_some_iff

/-- Keys are in ascending order, each of them once. -/
theorem keys_sorted (map : SortedMap κ ν) : map.keys.Pairwise (· < ·) :=
  List.pairwise_map.mpr map.sorted

/-- The keys are those that have a value. -/
theorem mem_keys {map : SortedMap κ ν} {key : κ} : key ∈ map.keys ↔ (map.get? key).isSome := by
  rw [isSome_get?_iff, keys, List.mem_map]
  constructor
  · rintro ⟨⟨found, value⟩, hmem, rfl⟩
    exact ⟨value, hmem⟩
  · rintro ⟨value, hmem⟩
    exact ⟨(key, value), hmem, rfl⟩

/-- The empty map has no values. -/
@[simp] theorem get?_empty (key : κ) : (∅ : SortedMap κ ν).get? key = none :=
  rfl

/-- Maps with the same lookups are equal. -/
theorem ext_get? {first second : SortedMap κ ν} (hget : ∀ key, first.get? key = second.get? key) :
    first = second := by
  have hmem : ∀ entry, entry ∈ first.entries ↔ entry ∈ second.entries := by
    rintro ⟨key, value⟩
    rw [← get?_eq_some_iff, ← get?_eq_some_iff, hget]
  have hirrefl : Std.Irrefl fun one other : κ × ν ↦ one.1 < other.1 := ⟨fun _ ↦ lt_irrefl _⟩
  have hantisymm : Std.Antisymm fun one other : κ × ν ↦ one.1 < other.1 :=
    ⟨fun _ _ hlt hgt ↦ absurd hgt hlt.asymm⟩
  obtain ⟨entries, hsorted⟩ := first
  obtain ⟨others, hothers⟩ := second
  congr 1
  exact hsorted.eq_of_mem_iff hothers fun entry ↦ hmem entry

/-- Maps with entries under the same keys have the same keys in order. -/
theorem keys_congr {μ : Type} {first : SortedMap κ ν} {second : SortedMap κ μ}
    (hsome : ∀ key, (first.get? key).isSome = (second.get? key).isSome) :
    first.keys = second.keys := by
  refine first.keys_sorted.eq_of_mem_iff second.keys_sorted fun key ↦ ?_
  rw [mem_keys, mem_keys, hsome]

/-! ### Inserting and erasing -/

/-- An insertion files one entry and drops the old one of the same key. -/
theorem mem_insert {map : SortedMap κ ν} {key other : κ} {value found : ν} :
    (other, found) ∈ (map.insert key value).entries ↔
      other = key ∧ found = value ∨ other ≠ key ∧ (other, found) ∈ map.entries := by
  simp only [insert, List.mem_append, List.mem_filter, List.mem_cons, Prod.mk.injEq,
    decide_eq_true_eq]
  constructor
  · rintro (⟨hmem, hlt⟩ | heq | ⟨hmem, hlt⟩)
    · exact Or.inr ⟨hlt.ne, hmem⟩
    · exact Or.inl heq
    · exact Or.inr ⟨hlt.ne', hmem⟩
  · rintro (heq | ⟨hne, hmem⟩)
    · exact Or.inr (Or.inl heq)
    · rcases lt_or_gt_of_ne hne with hlt | hlt
      · exact Or.inl ⟨hmem, hlt⟩
      · exact Or.inr (Or.inr ⟨hmem, hlt⟩)

/-- An erasure drops the entry of its key. -/
theorem mem_erase {map : SortedMap κ ν} {key other : κ} {found : ν} :
    (other, found) ∈ (map.erase key).entries ↔ other ≠ key ∧ (other, found) ∈ map.entries := by
  simp [erase, and_comm]

/-- The inserted key has the new value. -/
@[simp] theorem get?_insert_self (map : SortedMap κ ν) (key : κ) (value : ν) :
    (map.insert key value).get? key = some value :=
  get?_eq_some_iff.mpr (mem_insert.mpr (Or.inl ⟨rfl, rfl⟩))

/-- An insertion leaves the other keys alone. -/
theorem get?_insert_of_ne (map : SortedMap κ ν) {key other : κ} (value : ν) (hne : other ≠ key) :
    (map.insert key value).get? other = map.get? other := by
  refine Option.ext fun found ↦ ?_
  rw [get?_eq_some_iff, get?_eq_some_iff, mem_insert]
  exact ⟨fun hmem ↦ hmem.elim (fun heq ↦ absurd heq.1 hne) And.right, fun hmem ↦ Or.inr ⟨hne, hmem⟩⟩

/-- The erased key has no value. -/
@[simp] theorem get?_erase_self (map : SortedMap κ ν) (key : κ) : (map.erase key).get? key = none :=
  get?_eq_none_iff.mpr fun _ hmem ↦ (mem_erase.mp hmem).1 rfl

/-- An erasure leaves the other keys alone. -/
theorem get?_erase_of_ne (map : SortedMap κ ν) {key other : κ} (hne : other ≠ key) :
    (map.erase key).get? other = map.get? other := by
  refine Option.ext fun found ↦ ?_
  rw [get?_eq_some_iff, get?_eq_some_iff, mem_erase]
  exact and_iff_right hne

/-- The lookups after an insertion. -/
theorem get?_insert_eq_update [DecidableEq κ] (map : SortedMap κ ν) (key : κ) (value : ν) :
    (map.insert key value).get? = Function.update map.get? key (some value) := by
  funext other
  by_cases hother : other = key
  · rw [hother, get?_insert_self, Function.update_self]
  · rw [get?_insert_of_ne map value hother, Function.update_of_ne hother]

/-- The lookups after a removal. -/
theorem get?_erase_eq_update [DecidableEq κ] (map : SortedMap κ ν) (key : κ) :
    (map.erase key).get? = Function.update map.get? key none := by
  funext other
  by_cases hother : other = key
  · rw [hother, get?_erase_self, Function.update_self]
  · rw [get?_erase_of_ne map hother, Function.update_of_ne hother]

/-- Erasing what is not there changes nothing. -/
theorem erase_eq_self {map : SortedMap κ ν} {key : κ} (hmissing : map.get? key = none) :
    map.erase key = map := by
  apply ext_get?
  intro other
  rw [get?_erase_eq_update, ← hmissing, Function.update_eq_self]

/-! ### The next entry -/

/-- Nothing comes after the greatest key. -/
theorem after_eq_nil_iff {map : SortedMap κ ν} {key : κ} :
    map.after key = [] ↔ ∀ entry ∈ map.entries, entry.1 ≤ key := by
  simp [after, List.filter_eq_nil_iff]

/-- What comes after a key are the entries of greater keys. -/
theorem mem_after {map : SortedMap κ ν} {key : κ} {entry : κ × ν} :
    entry ∈ map.after key ↔ entry ∈ map.entries ∧ key < entry.1 := by
  simp [after]

/-- The next entry is the first of those after the key. -/
theorem next?_eq_head? (map : SortedMap κ ν) (key : κ) : map.next? key = (map.after key).head? := by
  rw [next?, after, List.head?_filter]

/-- The entries after the first entry after a key are the rest of the entries after the key. -/
theorem after_eq_cons {map : SortedMap κ ν} {key next : κ} {value : ν}
    (hnext : map.next? key = some (next, value)) :
    map.after key = (next, value) :: map.after next := by
  obtain ⟨entries, hsorted⟩ := map
  simp only [next?, after] at hnext ⊢
  induction entries with
  | nil => cases hnext
  | cons head rest ih =>
    obtain ⟨hhead, hrest⟩ := List.pairwise_cons.mp hsorted
    by_cases hlt : key < head.1
    · rw [List.find?_cons_of_pos (by simpa using hlt)] at hnext
      obtain rfl := Option.some.inj hnext
      have hall : rest.filter (fun entry ↦ decide (key < entry.1)) = rest :=
        List.filter_eq_self.mpr fun entry hentry ↦
          decide_eq_true (hlt.trans (hhead entry hentry))
      have hallNext : rest.filter (fun entry ↦ decide (next < entry.1)) = rest :=
        List.filter_eq_self.mpr fun entry hentry ↦ decide_eq_true (hhead entry hentry)
      rw [List.filter_cons_of_pos (by simpa using hlt), hall,
        List.filter_cons_of_neg (by simp), hallNext]
    · rw [List.find?_cons_of_neg (by simpa using hlt)] at hnext
      have hnextMem : (next, value) ∈ rest := List.mem_of_find?_eq_some hnext
      have hheadNext : head.1 < next := hhead _ hnextMem
      rw [List.filter_cons_of_neg (by simpa using hlt), ih hrest hnext,
        List.filter_cons_of_neg (by simpa using hheadNext.le)]

/-- The next entry is under the least key after the given one. -/
theorem isLeast_of_next?_eq_some {map : SortedMap κ ν} {key : κ} {entry : κ × ν}
    (hnext : map.next? key = some entry) :
    IsLeast {other | (map.get? other).isSome ∧ key < other} entry.1 := by
  have hafter : map.after key = entry :: map.after entry.1 := after_eq_cons hnext
  have hmem : entry ∈ map.after key := hafter ▸ List.mem_cons_self
  obtain ⟨hentry, hgreater⟩ := mem_after.mp hmem
  refine ⟨⟨isSome_get?_iff.mpr ⟨entry.2, hentry⟩, hgreater⟩, ?_⟩
  rintro other ⟨hother, hkey⟩
  obtain ⟨value, hvalue⟩ := isSome_get?_iff.mp hother
  have hlisted : (other, value) ∈ entry :: map.after entry.1 :=
    hafter ▸ mem_after.mpr ⟨hvalue, hkey⟩
  rcases List.mem_cons.mp hlisted with heq | hlater
  · rw [← heq]
  · exact (mem_after.mp hlater).2.le

/-- There is no next entry past the greatest key. -/
theorem next?_eq_none_iff {map : SortedMap κ ν} {key : κ} :
    map.next? key = none ↔ ∀ other, (map.get? other).isSome → other ≤ key := by
  rw [next?_eq_head?, List.head?_eq_none_iff, after_eq_nil_iff]
  constructor
  · intro hall other hother
    obtain ⟨value, hvalue⟩ := isSome_get?_iff.mp hother
    exact hall (other, value) hvalue
  · intro hall entry hentry
    exact hall entry.1 (isSome_get?_iff.mpr ⟨entry.2, hentry⟩)

/-- A map is its entries up to a key and those after it. -/
theorem entries_eq_append (map : SortedMap κ ν) (key : κ) :
    map.entries = (map.entries.filter fun entry ↦ entry.1 ≤ key) ++ map.after key := by
  have hirrefl : Std.Irrefl fun one other : κ × ν ↦ one.1 < other.1 := ⟨fun _ ↦ lt_irrefl _⟩
  have hantisymm : Std.Antisymm fun one other : κ × ν ↦ one.1 < other.1 :=
    ⟨fun _ _ hlt hgt ↦ absurd hgt hlt.asymm⟩
  have hsplit : ((map.entries.filter fun entry ↦ entry.1 ≤ key) ++ map.after key).Pairwise
      fun first second ↦ first.1 < second.1 := by
    refine List.pairwise_append.mpr ⟨map.sorted.filter _, map.sorted.filter _, ?_⟩
    intro first hfirst second hsecond
    have hle : first.1 ≤ key := of_decide_eq_true (List.mem_filter.mp hfirst).2
    have hlt : key < second.1 := of_decide_eq_true (List.mem_filter.mp hsecond).2
    exact hle.trans_lt hlt
  refine map.sorted.eq_of_mem_iff hsplit fun entry ↦ ?_
  simp only [after, List.mem_append, List.mem_filter, decide_eq_true_eq, ← and_or_left]
  exact ⟨fun hmem ↦ ⟨hmem, le_or_gt _ _⟩, And.left⟩

/-- The entries from a key on are its own entry and those after it. -/
theorem filter_le_eq (map : SortedMap κ ν) (key : κ) :
    (map.entries.filter fun entry ↦ key ≤ entry.1) =
      ((map.get? key).map fun value ↦ (key, value)).toList ++ map.after key := by
  obtain ⟨entries, hsorted⟩ := map
  simp only [get?, after]
  induction entries with
  | nil => rfl
  | cons head rest ih =>
    obtain ⟨hhead, hrest⟩ := List.pairwise_cons.mp hsorted
    rcases lt_trichotomy head.1 key with hlt | rfl | hgt
    · rw [List.filter_cons_of_neg (by simpa using hlt), List.filter_cons_of_neg
        (by simpa using hlt.le), List.find?_cons_of_neg (by simpa using hlt.ne), ih hrest]
    · have hfrom : rest.filter (fun entry ↦ decide (head.1 ≤ entry.1)) = rest :=
        List.filter_eq_self.mpr fun entry hentry ↦ decide_eq_true (hhead entry hentry).le
      have hafter : rest.filter (fun entry ↦ decide (head.1 < entry.1)) = rest :=
        List.filter_eq_self.mpr fun entry hentry ↦ decide_eq_true (hhead entry hentry)
      rw [List.filter_cons_of_pos (by simp), List.filter_cons_of_neg (by simp),
        List.find?_cons_of_pos (by simp), hfrom, hafter]
      rfl
    · have hnone : rest.find? (fun entry ↦ decide (entry.1 = key)) = none :=
        List.find?_eq_none.mpr fun entry hentry ↦
          by simpa using (hgt.trans (hhead entry hentry)).ne'
      have hfrom : rest.filter (fun entry ↦ decide (key ≤ entry.1)) = rest :=
        List.filter_eq_self.mpr fun entry hentry ↦
          decide_eq_true (hgt.trans (hhead entry hentry)).le
      have hafter : rest.filter (fun entry ↦ decide (key < entry.1)) = rest :=
        List.filter_eq_self.mpr fun entry hentry ↦
          decide_eq_true (hgt.trans (hhead entry hentry))
      rw [List.filter_cons_of_pos (by simpa using hgt.le), List.filter_cons_of_pos
        (by simpa using hgt), List.find?_cons_of_neg (by simpa using hgt.ne'), hnone, hfrom, hafter]
      rfl

end SortedMap

end Pysnmp.Foundation
