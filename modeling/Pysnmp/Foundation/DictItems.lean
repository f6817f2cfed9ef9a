import Pysnmp.Foundation.Dict

/-!
# Dictionaries in the order of their keys

A dictionary lists its keys in the order in which they were added: `items` is that list, of keys and
values. A value assigned to a key it has takes the place of the one before, and a deleted key leaves
the others in their order. The lemmas say so, and that a lookup finds the item of the key.
-/

set_option autoImplicit false
set_option relaxedAutoImplicit false

namespace Pysnmp.Foundation.Dict

variable {κ ν : Type}

/-- The items of a dictionary, the first one that was added first. -/
def items (dict : Dict κ ν) : List (κ × ν) :=
  dict.entries.reverse.map fun entry ↦ (entry.1, entry.2)

@[simp] theorem items_empty : items (∅ : Dict κ ν) = [] :=
  rfl

theorem map_fst_items (dict : Dict κ ν) : dict.items.map Prod.fst = dict.keys.reverse := by
  rw [items, List.map_map, List.map_reverse]
  rfl

theorem nodup_map_fst_items (dict : Dict κ ν) : (dict.items.map Prod.fst).Nodup := by
  rw [map_fst_items, List.nodup_reverse]
  exact dict.keys_nodup

theorem mem_items_iff {dict : Dict κ ν} {key : κ} {value : ν} :
    (key, value) ∈ dict.items ↔ ⟨key, value⟩ ∈ dict.entries := by
  rw [items, List.mem_map]
  constructor
  · rintro ⟨entry, hmem, heq⟩
    cases heq
    exact List.mem_reverse.mp hmem
  · intro hmem
    exact ⟨_, List.mem_reverse.mpr hmem, rfl⟩

variable [DecidableEq κ]

/-- In a list whose keys are distinct, an item is the one that is found by its key. -/
theorem find?_map_snd_eq_some_iff {items : List (κ × ν)} (hnodup : (items.map Prod.fst).Nodup)
    {key : κ} {value : ν} :
    (items.find? fun item ↦ item.1 = key).map Prod.snd = some value ↔ (key, value) ∈ items := by
  constructor
  · intro hfind
    obtain ⟨item, hitem, rfl⟩ := Option.map_eq_some_iff.mp hfind
    have hkey : item.1 = key := by simpa using List.find?_some hitem
    rw [← hkey]
    exact List.mem_of_find?_eq_some hitem
  · intro hmem
    cases hfind : items.find? fun item ↦ item.1 = key with
    | none => simpa using List.find?_eq_none.mp hfind _ hmem
    | some item =>
      have hkey : item.1 = key := by simpa using List.find?_some hfind
      have heq : item = (key, value) :=
        List.inj_on_of_nodup_map hnodup (List.mem_of_find?_eq_some hfind) hmem hkey
      rw [heq]
      rfl

/-- A lookup finds the item of the key. -/
theorem lookup_eq_find?_items (dict : Dict κ ν) (key : κ) :
    AList.lookup key dict = (dict.items.find? fun item ↦ item.1 = key).map Prod.snd := by
  refine Option.ext fun value ↦ ?_
  rw [find?_map_snd_eq_some_iff dict.nodup_map_fst_items, mem_items_iff]
  exact AList.mem_lookup_iff

/-- A new item is the last one. -/
theorem items_insert {dict : Dict κ ν} {key : κ} (value : ν)
    (hmissing : AList.lookup key dict = none) :
    items (AList.insert key value dict) = dict.items ++ [(key, value)] := by
  rw [items, AList.entries_insert_of_notMem (AList.lookup_eq_none.mp hmissing), List.reverse_cons,
    List.map_append]
  rfl

/-- Where the keys are distinct, replacing the first value of a key replaces all. -/
theorem kreplace_eq_map {entries : List (Sigma fun _ : κ ↦ ν)} (hnodup : entries.NodupKeys)
    (key : κ) (value : ν) :
    List.kreplace key value entries =
      entries.map fun entry ↦ if entry.1 = key then ⟨key, value⟩ else entry := by
  induction entries with
  | nil => rfl
  | cons entry rest ih =>
    obtain ⟨hhead, htail⟩ := List.nodupKeys_cons.mp hnodup
    rw [List.map_cons]
    by_cases hkey : entry.1 = key
    · have hrest : (rest.map fun entry ↦ if entry.1 = key then ⟨key, value⟩ else entry) = rest := by
        refine (List.map_congr_left fun other hmem ↦ if_neg fun heq ↦ hhead ?_).trans
          (List.map_id rest)
        rw [hkey, ← heq]
        exact List.mem_keys_of_mem hmem
      rw [if_pos hkey, hrest]
      exact List.lookmap_cons_some _ _ (if_pos hkey.symm)
    · rw [if_neg hkey, ← ih htail]
      exact List.lookmap_cons_none _ _ (if_neg fun heq ↦ hkey heq.symm)

/-- Where the keys are distinct, deleting the first item of a key deletes all. -/
theorem kerase_eq_filter {entries : List (Sigma fun _ : κ ↦ ν)} (hnodup : entries.NodupKeys)
    (key : κ) : List.kerase key entries = entries.filter fun entry ↦ entry.1 ≠ key := by
  induction entries with
  | nil => rfl
  | cons entry rest ih =>
    obtain ⟨hhead, htail⟩ := List.nodupKeys_cons.mp hnodup
    by_cases hkey : key = entry.1
    · have hrest : key ∉ List.keys rest := hkey ▸ hhead
      rw [List.kerase_cons_eq hkey, List.filter_cons_of_neg (by simp [hkey]), ← ih htail,
        List.kerase_of_notMem_keys hrest]
    · rw [List.kerase_cons_ne hkey, List.filter_cons_of_pos (by simpa using Ne.symm hkey), ih htail]

/-- A replaced value stays where the one before was. -/
theorem items_replace (dict : Dict κ ν) (key : κ) (value : ν) :
    items (AList.replace key value dict) =
      dict.items.map fun item ↦ if item.1 = key then (key, value) else item := by
  have hentries : (AList.replace key value dict).entries =
      dict.entries.map fun entry ↦ if entry.1 = key then ⟨key, value⟩ else entry :=
    kreplace_eq_map dict.nodupKeys key value
  rw [items, hentries, ← List.map_reverse, List.map_map, items, List.map_map]
  refine List.map_congr_left fun entry _ ↦ ?_
  simp only [Function.comp_apply]
  split_ifs <;> rfl

/-- Deleting a key leaves the other items in their order. -/
theorem items_erase (dict : Dict κ ν) (key : κ) :
    items (AList.erase key dict) = dict.items.filter fun item ↦ item.1 ≠ key := by
  have hentries : (AList.erase key dict).entries =
      dict.entries.filter fun entry ↦ entry.1 ≠ key :=
    kerase_eq_filter dict.nodupKeys key
  rw [items, hentries, ← List.filter_reverse, items, List.filter_map]
  rfl

/-- Assign a value to a key, in the place of the value it had or as the last item. -/
def assign (key : κ) (value : ν) (dict : Dict κ ν) : Dict κ ν :=
  if (AList.lookup key dict).isSome then AList.replace key value dict
  else AList.insert key value dict

theorem items_assign (dict : Dict κ ν) (key : κ) (value : ν) :
    items (assign key value dict) =
      if (AList.lookup key dict).isSome then
        dict.items.map fun item ↦ if item.1 = key then (key, value) else item
      else
        dict.items ++ [(key, value)] := by
  rw [assign]
  split_ifs with hkey
  · exact items_replace dict key value
  · exact items_insert value (Option.not_isSome_iff_eq_none.mp hkey)

end Pysnmp.Foundation.Dict
