import Pysnmp.Foundation.Effect

/-!
# Caches of limited size

`Cache` of `cache.py`: a dictionary that counts the reads of its entries, and drops the tenth of
them with the fewest reads where a value is to be kept and it is full. The two dictionaries of the
class have the same keys in the same order, and are one list of entries here, in the order in which
they were made.

What holds of every entry that is kept holds of what is read, whatever was dropped (`Holds`). An
operation changes what is found under its own key and drops others at most (`find_put`,
`find_chop`), and a chopped cache has room (`length_chop`).
-/

set_option autoImplicit false
set_option relaxedAutoImplicit false

namespace Pysnmp.LimitedCache

open Foundation Foundation.Effect

/-- A key with its value and how often it was read. -/
structure Entry (κ ν : Type) where
  key : κ
  value : ν
  usage : ℕ
  deriving DecidableEq, Repr

/-- A cache of at most `maxSize` entries. -/
structure Cache (κ ν : Type) where
  maxSize : ℕ
  entries : List (Entry κ ν)
  deriving DecidableEq, Repr

namespace Cache

variable {κ ν ε : Type} [DecidableEq κ]

/-- `__init__`, without entries. -/
def init (maxSize : ℕ) : Cache κ ν where
  maxSize := maxSize
  entries := []

/-- A tenth of the size, at least one. -/
def chopSize (cache : Cache κ ν) : ℕ :=
  max (cache.maxSize / 10) 1

/-- The value kept under a key. -/
def find (cache : Cache κ ν) (key : κ) : Option ν :=
  (cache.entries.find? fun entry ↦ entry.key = key).map Entry.value

/-- Count a read of a key. -/
def countRead (key : κ) (cache : Cache κ ν) : Cache κ ν :=
  { cache with entries := cache.entries.map fun entry ↦
      if entry.key = key then { entry with usage := entry.usage + 1 } else entry }

/-- The keys to drop: those with the fewest reads, and of these the oldest. -/
def usageKeys (cache : Cache κ ν) : List κ :=
  ((cache.entries.insertionSort fun entry other ↦ entry.usage ≤ other.usage).take
    cache.chopSize).map Entry.key

/-- Make room in a full cache. -/
def chop (cache : Cache κ ν) : Cache κ ν :=
  if cache.maxSize ≤ cache.entries.length then
    { cache with entries := cache.entries.filter fun entry ↦ entry.key ∉ cache.usageKeys }
  else
    cache

/-- Keep a value under a key, in the place of the one it had. -/
def put (key : κ) (value : ν) (cache : Cache κ ν) : Cache κ ν :=
  if (cache.find key).isSome then
    { cache with entries := cache.entries.map fun entry ↦
        if entry.key = key then { entry with value := value } else entry }
  else
    { cache with entries := cache.entries ++ [{ key := key, value := value, usage := 0 }] }

/-- `__getitem__`; there is no value where the key is missing. -/
def getItem (key : κ) : Effect (Cache κ ν) ε (Option ν) := do
  let value ← gets fun cache ↦ cache.find key
  modify (countRead key)
  pure value

/-- `__setitem__`. -/
def setItem (key : κ) (value : ν) : Effect (Cache κ ν) ε Unit :=
  modify fun cache ↦ cache.chop.put key value

/-- `__delitem__`, of a key that is not missing. -/
def remove (key : κ) (cache : Cache κ ν) : Cache κ ν :=
  { cache with entries := cache.entries.filter fun entry ↦ entry.key ≠ key }

/-! ### What holds of every entry -/

/-- A relation of keys and values holds of every entry. -/
def Holds (relation : κ → ν → Prop) (cache : Cache κ ν) : Prop :=
  ∀ entry ∈ cache.entries, relation entry.key entry.value

variable {relation : κ → ν → Prop} {cache : Cache κ ν} {key : κ} {value : ν}

omit [DecidableEq κ] in
/-- A new cache has nothing that could be wrong. -/
theorem holds_init (relation : κ → ν → Prop) (maxSize : ℕ) :
    Holds relation (init maxSize) := by
  intro entry hmem
  exact absurd hmem List.not_mem_nil

/-- What is found is right. -/
theorem Holds.of_find (hholds : Holds relation cache) (hfind : cache.find key = some value) :
    relation key value := by
  unfold find at hfind
  obtain ⟨entry, hentry, rfl⟩ := Option.map_eq_some_iff.mp hfind
  have hkey : entry.key = key := by simpa using List.find?_some hentry
  rw [← hkey]
  exact hholds entry (List.mem_of_find?_eq_some hentry)

/-- Counting a read keeps what is there. -/
theorem Holds.countRead (hholds : Holds relation cache) (key : κ) :
    Holds relation (countRead key cache) := by
  intro entry hmem
  obtain ⟨before, hbefore, rfl⟩ := List.mem_map.mp hmem
  split_ifs
  · exact hholds before hbefore
  · exact hholds before hbefore

/-- Making room keeps what remains. -/
theorem Holds.chop (hholds : Holds relation cache) : Holds relation cache.chop := by
  unfold Cache.chop
  split_ifs
  · intro entry hmem
    exact hholds entry (List.mem_filter.mp hmem).1
  · exact hholds

/-- Storing what is right keeps the cache right. -/
theorem Holds.put (hholds : Holds relation cache) (hnew : relation key value) :
    Holds relation (cache.put key value) := by
  unfold Cache.put
  split_ifs
  · intro entry hmem
    obtain ⟨before, hbefore, rfl⟩ := List.mem_map.mp hmem
    split_ifs with hkey
    · rw [← hkey] at hnew
      exact hnew
    · exact hholds before hbefore
  · intro entry hmem
    rcases List.mem_append.mp hmem with hold | hlast
    · exact hholds entry hold
    · rw [List.mem_singleton.mp hlast]
      exact hnew

@[simp] theorem getItem_run (key : κ) (cache : Cache κ ν) :
    (getItem key : Effect (Cache κ ν) ε (Option ν)).run cache =
      (.ok (cache.find key), countRead key cache) :=
  rfl

@[simp] theorem setItem_run (key : κ) (value : ν) (cache : Cache κ ν) :
    (setItem key value : Effect (Cache κ ν) ε Unit).run cache =
      (.ok (), cache.chop.put key value) :=
  rfl

/-! ### What is found -/

/-- A change that leaves the keys of entries leaves where they are found. -/
theorem find?_map_entries {entries : List (Entry κ ν)} {change : Entry κ ν → Entry κ ν}
    (hkey : ∀ entry, (change entry).key = entry.key) (key : κ) :
    ((entries.map change).find? fun entry ↦ entry.key = key) =
      (entries.find? fun entry ↦ entry.key = key).map change := by
  rw [List.find?_map]
  congr 2
  funext entry
  rw [Function.comp_apply, hkey]

/-- Dropping the entries of some keys leaves where the others are found. -/
theorem find?_filter_entries (entries : List (Entry κ ν)) (isKept : κ → Prop)
    [DecidablePred isKept] (key : κ) :
    ((entries.filter fun entry ↦ isKept entry.key).find? fun entry ↦ entry.key = key) =
      if isKept key then entries.find? fun entry ↦ entry.key = key else none := by
  rw [List.find?_filter]
  split_ifs with hkept
  · congr 1
    funext entry
    simp only [decide_eq_true_eq, decide_eq_decide]
    exact ⟨And.right, fun hkey ↦ ⟨hkey ▸ hkept, hkey⟩⟩
  · rw [List.find?_eq_none]
    intro entry _ hboth
    simp only [decide_eq_true_eq] at hboth
    exact hkept (hboth.2 ▸ hboth.1)

/-- Where a key is not found no entry has it. -/
theorem find_eq_none_iff : cache.find key = none ↔ ∀ entry ∈ cache.entries, entry.key ≠ key := by
  rw [find, Option.map_eq_none_iff, List.find?_eq_none]
  simp only [decide_eq_true_eq, ne_eq]

theorem mem_keys_of_isSome_find (hfound : (cache.find key).isSome) :
    key ∈ cache.entries.map Entry.key := by
  by_contra hmissing
  have hnone : cache.find key = none := find_eq_none_iff.mpr fun entry hmem heq ↦
    hmissing (heq ▸ List.mem_map_of_mem hmem)
  rw [hnone] at hfound
  cases hfound

/-- A read of what is not there is not counted. -/
theorem countRead_of_find_eq_none (hmissing : cache.find key = none) :
    countRead key cache = cache := by
  have hentries : (cache.entries.map fun entry ↦
      if entry.key = key then { entry with usage := entry.usage + 1 } else entry) =
      cache.entries :=
    (List.map_congr_left fun entry hmem ↦
      if_neg (find_eq_none_iff.mp hmissing entry hmem)).trans (List.map_id _)
  rw [countRead, hentries]

/-- There is nothing to remove under a key that is not found. -/
theorem remove_of_find_eq_none (hmissing : cache.find key = none) : remove key cache = cache := by
  have hentries : (cache.entries.filter fun entry ↦ entry.key ≠ key) = cache.entries :=
    List.filter_eq_self.mpr fun entry hmem ↦
      decide_eq_true (find_eq_none_iff.mp hmissing entry hmem)
  rw [remove, hentries]

@[simp] theorem find_init (maxSize : ℕ) : (init maxSize : Cache κ ν).find key = none :=
  rfl

@[simp] theorem find_countRead (read : κ) : (countRead read cache).find key = cache.find key := by
  rw [find, countRead, find?_map_entries (fun entry ↦ by split_ifs <;> rfl), Option.map_map, find]
  congr 1
  funext entry
  rw [Function.comp_apply]
  split_ifs <;> rfl

/-- The value put under a key is found there, and the others as before. -/
theorem find_put (stored : κ) (value : ν) :
    (cache.put stored value).find key = if key = stored then some value else cache.find key := by
  unfold put
  by_cases hstored : (cache.find stored).isSome
  · rw [if_pos hstored, find, find?_map_entries (fun entry ↦ by split_ifs <;> rfl), Option.map_map]
    unfold find at hstored ⊢
    cases hentry : cache.entries.find? fun entry ↦ entry.key = key with
    | none =>
      have hne : key ≠ stored := by
        rintro rfl
        rw [hentry] at hstored
        cases hstored
      rw [if_neg hne]
      rfl
    | some entry =>
      have hkey : entry.key = key := by simpa using List.find?_some hentry
      rw [Option.map_some, Option.map_some, Function.comp_apply, hkey]
      split_ifs <;> rfl
  · rw [if_neg hstored, find, List.find?_append, Option.map_or, ← find]
    rw [Option.not_isSome_iff_eq_none] at hstored
    split_ifs with hkey
    · rw [hkey, hstored]
      simp
    · simp [Ne.symm hkey]

/-- Chopping drops a value or leaves it. -/
theorem find_chop :
    cache.chop.find key =
      if cache.maxSize ≤ cache.entries.length ∧ key ∈ cache.usageKeys then none
      else cache.find key := by
  unfold chop
  by_cases hfull : cache.maxSize ≤ cache.entries.length
  · rw [if_pos hfull, find, find?_filter_entries cache.entries (· ∉ cache.usageKeys)]
    by_cases hdropped : key ∈ cache.usageKeys
    · rw [if_neg (not_not_intro hdropped), if_pos ⟨hfull, hdropped⟩]
      rfl
    · rw [if_pos hdropped, if_neg fun hboth ↦ hdropped hboth.2]
      rfl
  · rw [if_neg hfull, if_neg fun hboth ↦ hfull hboth.1]

/-- A removed key is gone, and no other. -/
theorem find_remove (removed : κ) :
    (remove removed cache).find key = if key = removed then none else cache.find key := by
  rw [find, remove, find?_filter_entries cache.entries (· ≠ removed)]
  by_cases hkey : key = removed
  · rw [if_neg (not_not_intro hkey), if_pos hkey]
    rfl
  · rw [if_pos hkey, if_neg hkey]
    rfl

/-! ### How many entries there are -/

omit [DecidableEq κ] in
/-- The entries to drop are the first ones of the entries in some order. -/
theorem exists_perm_usageKeys (cache : Cache κ ν) :
    ∃ sorted : List (Entry κ ν), sorted.Perm cache.entries ∧
      cache.usageKeys = (sorted.take cache.chopSize).map Entry.key :=
  ⟨_, List.perm_insertionSort _ cache.entries, rfl⟩

omit [DecidableEq κ] in
/-- The keys are listed once each by their use. -/
theorem nodup_usageKeys (hdistinct : (cache.entries.map Entry.key).Nodup) :
    cache.usageKeys.Nodup := by
  obtain ⟨sorted, hperm, hkeys⟩ := cache.exists_perm_usageKeys
  have hsorted : (sorted.map Entry.key).Nodup := (hperm.map Entry.key).nodup_iff.mpr hdistinct
  rw [hkeys]
  exact hsorted.sublist ((List.take_sublist _ _).map Entry.key)

omit [DecidableEq κ] in
/-- They are keys of the cache. -/
theorem usageKeys_subset (cache : Cache κ ν) : cache.usageKeys ⊆ cache.entries.map Entry.key := by
  obtain ⟨sorted, hperm, hkeys⟩ := cache.exists_perm_usageKeys
  rw [hkeys]
  exact List.map_subset Entry.key fun entry hmem ↦ hperm.subset (List.mem_of_mem_take hmem)

/-- A full cache loses as many entries as are chopped. -/
theorem length_chop (hdistinct : (cache.entries.map Entry.key).Nodup) :
    cache.chop.entries.length =
      if cache.maxSize ≤ cache.entries.length then cache.entries.length - cache.chopSize
      else cache.entries.length := by
  unfold chop
  split_ifs
  · obtain ⟨sorted, hperm, hkeys⟩ := cache.exists_perm_usageKeys
    have hsorted : ((sorted.take cache.chopSize ++ sorted.drop cache.chopSize).map
        Entry.key).Nodup := by
      rw [List.take_append_drop]
      exact (hperm.map Entry.key).nodup_iff.mpr hdistinct
    rw [List.map_append, List.nodup_append, ← hkeys] at hsorted
    obtain ⟨-, -, hdisjoint⟩ := hsorted
    have htake : ((sorted.take cache.chopSize).filter fun entry ↦
        entry.key ∉ cache.usageKeys) = [] := by
      rw [List.filter_eq_nil_iff]
      intro entry hmem
      rw [hkeys]
      exact fun hkept ↦ of_decide_eq_true hkept (List.mem_map_of_mem hmem)
    have hdrop : ((sorted.drop cache.chopSize).filter fun entry ↦
        entry.key ∉ cache.usageKeys) = sorted.drop cache.chopSize := by
      rw [List.filter_eq_self]
      intro entry hmem
      exact decide_eq_true fun hdropped ↦
        hdisjoint entry.key hdropped entry.key (List.mem_map_of_mem hmem) rfl
    have hlength := (hperm.filter fun entry ↦ entry.key ∉ cache.usageKeys).length_eq
    rw [← List.take_append_drop cache.chopSize sorted, List.filter_append, htake, hdrop,
      List.nil_append, List.length_drop, hperm.length_eq] at hlength
    exact hlength.symm
  · rfl

@[simp] theorem maxSize_chop : cache.chop.maxSize = cache.maxSize := by
  unfold chop
  split_ifs <;> rfl

@[simp] theorem maxSize_put (key : κ) (value : ν) :
    (cache.put key value).maxSize = cache.maxSize := by
  unfold put
  split_ifs <;> rfl

theorem length_countRead (read : κ) :
    (countRead read cache).entries.length = cache.entries.length :=
  List.length_map _

/-- Removing a key that is there leaves one entry less. -/
theorem length_remove (hdistinct : (cache.entries.map Entry.key).Nodup)
    (hfound : (cache.find key).isSome) :
    (remove key cache).entries.length + 1 = cache.entries.length := by
  have hkeys : (remove key cache).entries.map Entry.key =
      (cache.entries.map Entry.key).erase key := by
    rw [hdistinct.erase_eq_filter, List.filter_map, remove]
    congr 1
    refine List.filter_congr fun entry _ ↦ ?_
    rw [Bool.eq_iff_iff, decide_eq_true_iff, Function.comp_apply, bne_iff_ne]
  have hlength := List.length_erase_add_one (mem_keys_of_isSome_find hfound)
  rw [← hkeys, List.length_map, List.length_map] at hlength
  exact hlength

/-- Storing under a new key adds an entry. -/
theorem length_put (key : κ) (value : ν) :
    (cache.put key value).entries.length =
      if (cache.find key).isSome then cache.entries.length else cache.entries.length + 1 := by
  unfold put
  split_ifs
  · exact List.length_map _
  · exact List.length_append

omit [DecidableEq κ] in
theorem chopSize_pos (cache : Cache κ ν) : 0 < cache.chopSize :=
  lt_of_lt_of_le zero_lt_one (le_max_right _ _)

omit [DecidableEq κ] in
theorem chopSize_le (hmaxSize : 1 ≤ cache.maxSize) : cache.chopSize ≤ cache.maxSize :=
  max_le (Nat.div_le_self _ _) hmaxSize

/-- A cache that has room for an entry at all has room for one more after it is chopped. -/
theorem length_chop_put_le (hdistinct : (cache.entries.map Entry.key).Nodup)
    (hmaxSize : 1 ≤ cache.maxSize) (hfits : cache.entries.length ≤ cache.maxSize) (key : κ)
    (value : ν) : (cache.chop.put key value).entries.length ≤ cache.maxSize := by
  have hpos := cache.chopSize_pos
  have hroom : cache.chop.entries.length + 1 ≤ cache.maxSize := by
    rw [length_chop hdistinct]
    split_ifs <;> omega
  rw [length_put]
  split_ifs
  · exact (Nat.lt_of_succ_le hroom).le
  · exact hroom

end Cache

end Pysnmp.LimitedCache
