import Pysnmp.Foundation.DictItems
import Pysnmp.Foundation.LastMatch
import Pysnmp.LimitedCache

/-!
# The dictionaries of a cache

`Cache` of `cache.py` as it is: a dictionary of the values, one that counts the reads, and a size
kept beside them. Every call changes the three by hand; `Represents` says that they are one list of
entries, a `LimitedCache.Cache`, and that the calls do to them what its operations do to the list.
What is found, and how many entries there are, is then known from the list (`truthful_foldl`).
-/

set_option autoImplicit false
set_option relaxedAutoImplicit false

namespace Pysnmp.CacheDictionaries

open Foundation Foundation.Effect

/-- What a call raises: `KeyError`. -/
inductive CacheError (κ : Type)
  | keyError (key : κ)
  deriving DecidableEq, Repr

/-- A cache: its limit, the number of entries it counts, how many are dropped from a full cache, and
the two dictionaries. -/
structure Cache (κ ν : Type) where
  maxSize : ℕ
  size : ℤ
  chopSize : ℕ
  cache : Dict κ ν
  usage : Dict κ ℕ

namespace Cache

variable {κ ν α : Type}

/-- `__init__`. -/
def init (maxSize : ℕ) : Cache κ ν where
  maxSize := maxSize
  size := 0
  chopSize := if maxSize / 10 = 0 then 1 else maxSize / 10
  cache := ∅
  usage := ∅

variable [DecidableEq κ]

/-- The item of a dictionary under a key. -/
def itemOf (dict : Cache κ ν → Dict κ α) (key : κ) : Effect (Cache κ ν) (CacheError κ) α := do
  match AList.lookup key (dict (← get)) with
  | some item => pure item
  | none => raise (.keyError key)

/-- `__contains__`. -/
def contains (key : κ) : Effect (Cache κ ν) (CacheError κ) Bool :=
  gets fun self ↦ (AList.lookup key self.cache).isSome

omit [DecidableEq κ] in
/-- `__len__`. -/
def len : Effect (Cache κ ν) (CacheError κ) ℤ :=
  gets size

/-- `__getitem__`. -/
def getItem (key : κ) : Effect (Cache κ ν) (CacheError κ) ν := do
  let count ← itemOf usage key
  modify fun self ↦ { self with usage := Dict.assign key (count + 1) self.usage }
  itemOf cache key

/-- Delete a key from both dictionaries. -/
def delItems (key : κ) : Effect (Cache κ ν) (CacheError κ) Unit := do
  let _ ← itemOf cache key
  modify fun self ↦ { self with cache := AList.erase key self.cache }
  let _ ← itemOf usage key
  modify fun self ↦ { self with usage := AList.erase key self.usage }

/-- The keys, those with the fewest reads first. -/
def usageKeys (self : Cache κ ν) : List κ :=
  LastMatch.sortByKey (fun key ↦ (AList.lookup key self.usage).getD 0)
    (self.usage.items.map Prod.fst)

/-- Make room in a full cache. -/
def chop : Effect (Cache κ ν) (CacheError κ) Unit := do
  let self ← get
  runIf ((self.maxSize : ℤ) ≤ self.size) do
    forEach delItems (self.usageKeys.take self.chopSize)
    modify fun self ↦ { self with size := self.size - self.chopSize }

/-- `__setitem__`. -/
def setItem (key : κ) (value : ν) : Effect (Cache κ ν) (CacheError κ) Unit := do
  chop
  let self ← get
  runIf ((AList.lookup key self.cache).isNone)
    (modify fun self ↦
      { self with size := self.size + 1, usage := Dict.assign key 0 self.usage })
  modify fun self ↦ { self with cache := Dict.assign key value self.cache }

/-- `__delitem__`. -/
def delItem (key : κ) : Effect (Cache κ ν) (CacheError κ) Unit := do
  delItems key
  modify fun self ↦ { self with size := self.size - 1 }

/-! ### A dictionary that lists entries -/

open LimitedCache (Entry)

/-- A dictionary has, in their order, the keys of some entries and a part of each. -/
def ListsBy (part : Entry κ ν → α) (entries : List (Entry κ ν)) (dict : Dict κ α) : Prop :=
  dict.items = entries.map fun entry ↦ (entry.key, part entry)

section ListsBy

variable {part : Entry κ ν → α} {entries : List (Entry κ ν)} {dict : Dict κ α} {key : κ}

omit [DecidableEq κ] in
theorem ListsBy.nodup (hlists : ListsBy part entries dict) : (entries.map Entry.key).Nodup := by
  have hnodup := dict.nodup_map_fst_items
  rw [hlists, List.map_map] at hnodup
  exact hnodup

theorem ListsBy.lookup (hlists : ListsBy part entries dict) (key : κ) :
    AList.lookup key dict = (entries.find? fun entry ↦ entry.key = key).map part := by
  rw [Dict.lookup_eq_find?_items, hlists, List.find?_map, Option.map_map]
  rfl

omit [DecidableEq κ] in
/-- Entries that change in other parts only are listed as before. -/
theorem ListsBy.map (hlists : ListsBy part entries dict) {change : Entry κ ν → Entry κ ν}
    (hkey : ∀ entry, (change entry).key = entry.key)
    (hpart : ∀ entry, part (change entry) = part entry) :
    ListsBy part (entries.map change) dict := by
  rw [ListsBy, hlists, List.map_map]
  exact List.map_congr_left fun entry _ ↦ by rw [Function.comp_apply, hkey, hpart]

/-- Assigning to a key that is listed changes the part of its entry. -/
theorem ListsBy.assign_map (hlists : ListsBy part entries dict) {item : α}
    {change : Entry κ ν → Entry κ ν} (hfound : (AList.lookup key dict).isSome)
    (hkey : ∀ entry, (change entry).key = entry.key)
    (hpart : ∀ entry ∈ entries,
      part (change entry) = if entry.key = key then item else part entry) :
    ListsBy part (entries.map change) (Dict.assign key item dict) := by
  rw [ListsBy, Dict.items_assign, if_pos hfound, hlists, List.map_map, List.map_map]
  refine List.map_congr_left fun entry hmem ↦ ?_
  rw [Function.comp_apply, Function.comp_apply, hkey, hpart entry hmem]
  by_cases heq : entry.key = key
  · rw [if_pos heq, if_pos heq, heq]
  · rw [if_neg heq, if_neg heq]

/-- Assigning to another key lists a new entry. -/
theorem ListsBy.assign_append (hlists : ListsBy part entries dict)
    (hmissing : AList.lookup key dict = none) {entry : Entry κ ν} (hkey : entry.key = key) :
    ListsBy part (entries ++ [entry]) (Dict.assign key (part entry) dict) := by
  rw [ListsBy, Dict.items_assign, hmissing, hlists, List.map_append, ← hkey]
  rfl

theorem ListsBy.erase (hlists : ListsBy part entries dict) (key : κ) :
    ListsBy part (entries.filter fun entry ↦ entry.key ≠ key) (AList.erase key dict) := by
  rw [ListsBy, Dict.items_erase, hlists, List.filter_map]
  rfl

end ListsBy

/-! ### The calls change one list of entries -/

/-- Both dictionaries list the same entries. -/
structure Lists (entries : List (Entry κ ν)) (object : Cache κ ν) : Prop where
  cache : ListsBy Entry.value entries object.cache
  usage : ListsBy Entry.usage entries object.usage

/-- A cache is a list of entries that is counted right. -/
structure Represents (object : Cache κ ν) (model : LimitedCache.Cache κ ν) : Prop where
  lists : Lists model.entries object
  size_eq : object.size = model.entries.length
  maxSize_eq : object.maxSize = model.maxSize
  chopSize_eq : object.chopSize = model.chopSize

omit [DecidableEq κ] in
theorem represents_init (maxSize : ℕ) :
    Represents (init maxSize : Cache κ ν) (LimitedCache.Cache.init maxSize) where
  lists := ⟨rfl, rfl⟩
  size_eq := rfl
  maxSize_eq := rfl
  chopSize_eq := by
    change (if maxSize / 10 = 0 then 1 else maxSize / 10) = max (maxSize / 10) 1
    split_ifs <;> omega

variable {object : Cache κ ν} {model : LimitedCache.Cache κ ν}

theorem Represents.lookup_cache (hrepresents : Represents object model) (key : κ) :
    AList.lookup key object.cache = model.find key :=
  hrepresents.lists.cache.lookup key

theorem Represents.isSome_lookup_usage (hrepresents : Represents object model) (key : κ) :
    (AList.lookup key object.usage).isSome = (model.find key).isSome := by
  rw [hrepresents.lists.usage.lookup, LimitedCache.Cache.find, Option.isSome_map,
    Option.isSome_map]

theorem itemOf_run_of_some {dict : Cache κ ν → Dict κ α} {key : κ} {item : α}
    (hitem : AList.lookup key (dict object) = some item) :
    (itemOf dict key).run object = (.ok item, object) := by
  rw [itemOf, bind_run_of_ok (get_run object), hitem]
  rfl

theorem itemOf_run_of_none {dict : Cache κ ν → Dict κ α} {key : κ}
    (hmissing : AList.lookup key (dict object) = none) :
    (itemOf dict key).run object = (.error (.keyError key), object) := by
  rw [itemOf, bind_run_of_ok (get_run object), hmissing]
  rfl

/-- A lookup gives the value of the entry and counts the read, or finds nothing to count. -/
theorem Represents.getItem (hrepresents : Represents object model) (key : κ) :
    ∃ after, (getItem key).run object =
        (((model.find key).elim (.error (.keyError key)) .ok), after) ∧
      Represents after (LimitedCache.Cache.countRead key model) := by
  cases hentry : model.entries.find? fun entry ↦ entry.key = key with
  | none =>
    have hfind : model.find key = none := by rw [LimitedCache.Cache.find, hentry]; rfl
    have hmissing : AList.lookup key object.usage = none := by
      rw [hrepresents.lists.usage.lookup, hentry]
      rfl
    refine ⟨object, ?_, ?_⟩
    · rw [Cache.getItem, bind_run_of_error (itemOf_run_of_none hmissing), hfind]
      rfl
    · rw [LimitedCache.Cache.countRead_of_find_eq_none hfind]
      exact hrepresents
  | some entry =>
    have hfind : model.find key = some entry.value := by rw [LimitedCache.Cache.find, hentry]; rfl
    have hcount : AList.lookup key object.usage = some entry.usage := by
      rw [hrepresents.lists.usage.lookup, hentry]
      rfl
    have hvalue : AList.lookup key object.cache = some entry.value :=
      (hrepresents.lookup_cache key).trans hfind
    have hnodup := hrepresents.lists.cache.nodup
    have hmem := List.mem_of_find?_eq_some hentry
    have hentryKey : entry.key = key := by simpa using List.find?_some hentry
    refine ⟨{ object with usage := Dict.assign key (entry.usage + 1) object.usage }, ?_, ?_⟩
    · have hread : (itemOf cache key).run
          { object with usage := Dict.assign key (entry.usage + 1) object.usage } =
          (.ok entry.value,
            { object with usage := Dict.assign key (entry.usage + 1) object.usage }) :=
        itemOf_run_of_some hvalue
      rw [Cache.getItem, bind_run_of_ok (itemOf_run_of_some hcount),
        bind_run_of_ok (modify_run _ _), hread, hfind]
      rfl
    · refine ⟨⟨hrepresents.lists.cache.map ?_ ?_, hrepresents.lists.usage.assign_map ?_ ?_ ?_⟩, ?_,
        hrepresents.maxSize_eq, hrepresents.chopSize_eq⟩
      · exact fun other ↦ by split_ifs <;> rfl
      · exact fun other ↦ by split_ifs <;> rfl
      · exact Option.isSome_of_eq_some hcount
      · exact fun other ↦ by split_ifs <;> rfl
      · intro other hother
        split_ifs with hkey
        · -- keys are distinct, so the count that was read is the count of this entry
          rw [List.inj_on_of_nodup_map hnodup hother hmem (hkey.trans hentryKey.symm)]
        · rfl
      · rw [LimitedCache.Cache.length_countRead]
        exact hrepresents.size_eq

/-! ### Making room -/

/-- Deleting a key that is listed deletes its entry. -/
theorem Lists.delItems {entries : List (Entry κ ν)} (hlists : Lists entries object) {key : κ}
    (hmem : key ∈ entries.map Entry.key) :
    ∃ cache usage, (delItems key).run object =
        (.ok (), { object with cache := cache, usage := usage }) ∧
      Lists (entries.filter fun entry ↦ entry.key ≠ key)
        { object with cache := cache, usage := usage } := by
  obtain ⟨entry, hentry⟩ : ∃ entry, entries.find? (fun entry ↦ entry.key = key) = some entry := by
    obtain ⟨entry, hentry, hkey⟩ := List.mem_map.mp hmem
    exact Option.isSome_iff_exists.mp (List.find?_isSome.mpr ⟨entry, hentry, decide_eq_true hkey⟩)
  have hvalue : AList.lookup key object.cache = some entry.value := by
    rw [hlists.cache.lookup, hentry]
    rfl
  have hcount : (itemOf Cache.usage key).run { object with cache := AList.erase key object.cache } =
      (.ok entry.usage, { object with cache := AList.erase key object.cache }) := by
    apply itemOf_run_of_some
    rw [hlists.usage.lookup, hentry]
    rfl
  refine ⟨AList.erase key object.cache, AList.erase key object.usage, ?_,
    hlists.cache.erase key, hlists.usage.erase key⟩
  rw [Cache.delItems, bind_run_of_ok (itemOf_run_of_some hvalue), bind_run_of_ok (modify_run _ _),
    bind_run_of_ok hcount, modify_run]

/-- Deleting distinct keys that are listed deletes their entries. -/
theorem Lists.forEach_delItems {entries : List (Entry κ ν)} (hlists : Lists entries object)
    {keys : List κ} (hnodup : keys.Nodup) (hsubset : keys ⊆ entries.map Entry.key) :
    ∃ cache usage, (forEach Cache.delItems keys).run object =
        (.ok (), { object with cache := cache, usage := usage }) ∧
      Lists (entries.filter fun entry ↦ entry.key ∉ keys)
        { object with cache := cache, usage := usage } := by
  induction keys generalizing entries object with
  | nil =>
    refine ⟨object.cache, object.usage, rfl, ?_⟩
    rw [List.filter_eq_self.mpr fun entry _ ↦ decide_eq_true List.not_mem_nil]
    exact hlists
  | cons key rest ih =>
    obtain ⟨hunlisted, hrestNodup⟩ := List.nodup_cons.mp hnodup
    obtain ⟨cache, usage, hrun, hdeleted⟩ := hlists.delItems (hsubset List.mem_cons_self)
    have hrest : rest ⊆ (entries.filter fun entry ↦ entry.key ≠ key).map Entry.key := by
      intro other hother
      obtain ⟨entry, hentry, rfl⟩ := List.mem_map.mp (hsubset (List.mem_cons_of_mem key hother))
      have hne : entry.key ≠ key := fun heq ↦ hunlisted (heq ▸ hother)
      exact List.mem_map_of_mem (List.mem_filter.mpr ⟨hentry, decide_eq_true hne⟩)
    obtain ⟨lastCache, lastUsage, hrestRun, hlast⟩ := ih hdeleted hrestNodup hrest
    refine ⟨lastCache, lastUsage, ?_, ?_⟩
    · rw [forEach_cons, bind_run_of_ok hrun, hrestRun]
    · rw [List.filter_filter] at hlast
      have hfilter : (entries.filter fun entry ↦ entry.key ∉ key :: rest) =
          entries.filter fun entry ↦
            decide (entry.key ∉ rest) && decide (entry.key ≠ key) := by
        refine List.filter_congr fun entry _ ↦ ?_
        rw [Bool.eq_iff_iff]
        simp only [List.mem_cons, not_or, ne_eq, Bool.and_eq_true, decide_eq_true_eq]
        exact and_comm
      rw [hfilter]
      exact ⟨hlast.cache, hlast.usage⟩

/-- The keys to drop are those that the list of entries drops. -/
theorem Represents.take_usageKeys (hrepresents : Represents object model) :
    object.usageKeys.take object.chopSize = model.usageKeys := by
  have hkeys : object.usage.items.map Prod.fst = model.entries.map Entry.key := by
    rw [hrepresents.lists.usage, List.map_map]
    rfl
  have hcount : ∀ entry ∈ model.entries,
      (AList.lookup entry.key object.usage).getD 0 = entry.usage := by
    intro entry hmem
    have hitem : (entry.key, entry.usage) ∈ object.usage.items := by
      rw [hrepresents.lists.usage]
      exact List.mem_map_of_mem hmem
    rw [Dict.lookup_eq_find?_items,
      (Dict.find?_map_snd_eq_some_iff object.usage.nodup_map_fst_items).mpr hitem]
    rfl
  rw [usageKeys, hkeys, LastMatch.sortByKey, LimitedCache.Cache.usageKeys, List.map_take,
    hrepresents.chopSize_eq]
  congr 1
  refine (List.map_insertionSort _ _ Entry.key model.entries fun entry hmem other hother ↦ ?_).symm
  rw [hcount entry hmem, hcount other hother]

/-- A cache is chopped as the list of entries is, if it may have an entry at all. -/
theorem Represents.chop (hrepresents : Represents object model) (hmaxSize : 1 ≤ model.maxSize) :
    ∃ after, chop.run object = (.ok (), after) ∧ Represents after model.chop := by
  have hfull : (object.maxSize : ℤ) ≤ object.size ↔ model.maxSize ≤ model.entries.length := by
    rw [hrepresents.size_eq, hrepresents.maxSize_eq, Nat.cast_le]
  have hnodup := hrepresents.lists.cache.nodup
  by_cases hchop : model.maxSize ≤ model.entries.length
  · obtain ⟨cache, usage, hrun, hlists⟩ := hrepresents.lists.forEach_delItems
      (LimitedCache.Cache.nodup_usageKeys hnodup) model.usageKeys_subset
    have hlength : ((model.chop.entries.length : ℕ) : ℤ) =
        model.entries.length - model.chopSize := by
      rw [LimitedCache.Cache.length_chop hnodup, if_pos hchop,
        Nat.cast_sub ((LimitedCache.Cache.chopSize_le hmaxSize).trans hchop)]
    refine ⟨{ object with
      size := object.size - object.chopSize, cache := cache, usage := usage }, ?_, ?_⟩
    · rw [Cache.chop, bind_run_of_ok (get_run object), runIf_of_true _ (hfull.mpr hchop),
        hrepresents.take_usageKeys, bind_run_of_ok hrun, modify_run]
    · have hentries : model.chop =
          { model with entries := model.entries.filter fun entry ↦ entry.key ∉ model.usageKeys } :=
        if_pos hchop
      refine ⟨?_, ?_, ?_, ?_⟩
      · rw [hentries]
        exact ⟨hlists.cache, hlists.usage⟩
      · rw [hlength, hrepresents.size_eq, hrepresents.chopSize_eq]
      · rw [LimitedCache.Cache.maxSize_chop]
        exact hrepresents.maxSize_eq
      · rw [hentries]
        exact hrepresents.chopSize_eq
  · refine ⟨object, ?_, ?_⟩
    · rw [Cache.chop, bind_run_of_ok (get_run object),
        runIf_of_false _ (mt hfull.mp hchop), pure_run]
    · rw [LimitedCache.Cache.chop, if_neg hchop]
      exact hrepresents

/-! ### Stores and deletions -/

/-- A new key is a new entry, in both dictionaries and in the size. -/
theorem Represents.put_of_none (hrepresents : Represents object model) {key : κ}
    (hmissing : model.find key = none) (value : ν) :
    Represents { object with
      size := object.size + 1
      usage := Dict.assign key 0 object.usage
      cache := Dict.assign key value object.cache } (model.put key value) := by
  have hentries : model.put key value =
      { model with entries := model.entries ++ [⟨key, value, 0⟩] } := by
    rw [LimitedCache.Cache.put, hmissing]
    rfl
  have hcache : AList.lookup key object.cache = none :=
    (hrepresents.lookup_cache key).trans hmissing
  have husage : AList.lookup key object.usage = none := by
    rw [← Option.not_isSome_iff_eq_none, hrepresents.isSome_lookup_usage, hmissing]
    exact Bool.false_ne_true
  rw [hentries]
  refine ⟨⟨hrepresents.lists.cache.assign_append hcache rfl,
    hrepresents.lists.usage.assign_append husage rfl⟩, ?_, hrepresents.maxSize_eq,
    hrepresents.chopSize_eq⟩
  rw [List.length_append, hrepresents.size_eq]
  rfl

/-- A value stored under a key that is there changes its entry. -/
theorem Represents.put_of_some (hrepresents : Represents object model) {key : κ}
    (hfound : (model.find key).isSome) (value : ν) :
    Represents { object with cache := Dict.assign key value object.cache }
      (model.put key value) := by
  have hentries : model.put key value =
      { model with entries := model.entries.map fun entry ↦
          if entry.key = key then { entry with value := value } else entry } :=
    if_pos hfound
  have hcached : (AList.lookup key object.cache).isSome := by
    rw [hrepresents.lookup_cache]
    exact hfound
  rw [hentries]
  refine ⟨⟨hrepresents.lists.cache.assign_map hcached (fun entry ↦ by split_ifs <;> rfl)
      fun entry _ ↦ by split_ifs <;> rfl,
    hrepresents.lists.usage.map (fun entry ↦ by split_ifs <;> rfl)
      fun entry ↦ by split_ifs <;> rfl⟩, ?_, hrepresents.maxSize_eq, hrepresents.chopSize_eq⟩
  rw [List.length_map]
  exact hrepresents.size_eq

/-- A store keeps the value as the list of entries does. -/
theorem Represents.setItem (hrepresents : Represents object model) (hmaxSize : 1 ≤ model.maxSize)
    (key : κ) (value : ν) :
    ∃ after, (setItem key value).run object = (.ok (), after) ∧
      Represents after (model.chop.put key value) := by
  obtain ⟨chopped, hchop, hroom⟩ := hrepresents.chop hmaxSize
  rw [Cache.setItem, bind_run_of_ok hchop, bind_run_of_ok (get_run chopped),
    hroom.lookup_cache]
  cases hfind : model.chop.find key with
  | none =>
    refine ⟨_, ?_, hroom.put_of_none hfind value⟩
    rw [runIf_of_true _ Option.isNone_none, bind_run_of_ok (modify_run _ _), modify_run]
  | some found =>
    refine ⟨_, ?_, hroom.put_of_some (Option.isSome_of_eq_some hfind) value⟩
    rw [Option.isNone_some, runIf_of_false _ Bool.false_ne_true, bind_run_of_ok (pure_run _ _),
      modify_run]

/-- A deletion deletes the entry, or raises where there is none. -/
theorem Represents.delItem (hrepresents : Represents object model) (key : κ) :
    ∃ after, (delItem key).run object =
        (if (model.find key).isSome then .ok () else .error (.keyError key), after) ∧
      Represents after (LimitedCache.Cache.remove key model) := by
  cases hfind : model.find key with
  | none =>
    have hmissing : AList.lookup key object.cache = none :=
      (hrepresents.lookup_cache key).trans hfind
    have hrun : (Cache.delItems key).run object = (.error (.keyError key), object) := by
      rw [Cache.delItems, bind_run_of_error (itemOf_run_of_none hmissing)]
    refine ⟨object, ?_, ?_⟩
    · rw [Cache.delItem, bind_run_of_error hrun]
      rfl
    · rw [LimitedCache.Cache.remove_of_find_eq_none hfind]
      exact hrepresents
  | some value =>
    have hnodup := hrepresents.lists.cache.nodup
    have hfound : (model.find key).isSome := Option.isSome_of_eq_some hfind
    obtain ⟨cache, usage, hrun, hlists⟩ :=
      hrepresents.lists.delItems (LimitedCache.Cache.mem_keys_of_isSome_find hfound)
    refine ⟨{ object with size := object.size - 1, cache := cache, usage := usage }, ?_,
      ⟨hlists.cache, hlists.usage⟩, ?_, hrepresents.maxSize_eq, hrepresents.chopSize_eq⟩
    · rw [Cache.delItem, bind_run_of_ok hrun, modify_run]
      rfl
    · have hlength := LimitedCache.Cache.length_remove hnodup hfound
      rw [hrepresents.size_eq, ← hlength, Nat.cast_succ, add_sub_cancel_right]

end Cache

/-! ### Runs -/

open Cache

/-- The calls of a cache that change it. -/
inductive Call (κ ν : Type)
  | getItem (key : κ)
  | setItem (key : κ) (value : ν)
  | delItem (key : κ)
  deriving DecidableEq, Repr

variable {κ ν : Type} [DecidableEq κ]

/-- The cache after a call, whether that raises or not. -/
def step (object : Cache κ ν) : Call κ ν → Cache κ ν
  | .getItem key => ((getItem key).run object).2
  | .setItem key value => ((setItem key value).run object).2
  | .delItem key => ((delItem key).run object).2

/-- What a call does to the list of entries. -/
def listStep (model : LimitedCache.Cache κ ν) : Call κ ν → LimitedCache.Cache κ ν
  | .getItem key => model.countRead key
  | .setItem key value => model.chop.put key value
  | .delItem key => model.remove key

/-- What was stored last under a key after one more call. -/
def storedAfter (key : κ) (last : Option ν) : Call κ ν → Option ν
  | .getItem _ => last
  | .setItem stored value => if key = stored then some value else last
  | .delItem deleted => if key = deleted then none else last

/-- The last value stored under a key, if it was not deleted after that. -/
def lastStored (key : κ) (calls : List (Call κ ν)) : Option ν :=
  calls.foldl (storedAfter key) none

/-- A cache after some calls: the two dictionaries are as large as it counts and no larger than it
may be, a lookup gives the last value stored or raises `KeyError`, and a store does not raise and
the lookup after it gives the value stored. -/
structure Truthful (maxSize : ℕ) (calls : List (Call κ ν)) (object : Cache κ ν) : Prop where
  size_eq_cache : object.size = object.cache.items.length
  size_eq_usage : object.size = object.usage.items.length
  size_le : object.size ≤ maxSize
  getItem_run : ∀ key, ((getItem key).run object).1 = .error (.keyError key) ∨
    ∃ value, lastStored key calls = some value ∧ ((getItem key).run object).1 = .ok value
  setItem_run : ∀ key value, ((setItem key value).run object).1 = .ok () ∧
    ((getItem key).run ((setItem key value).run object).2).1 = .ok value

variable {object : Cache κ ν} {model : LimitedCache.Cache κ ν}

/-- Every call does to the dictionaries what it does to the list of entries. -/
theorem represents_step (hrepresents : Represents object model) (hmaxSize : 1 ≤ model.maxSize)
    (call : Call κ ν) : Represents (step object call) (listStep model call) := by
  cases call with
  | getItem key =>
    obtain ⟨after, hrun, hafter⟩ := hrepresents.getItem key
    rw [step, hrun]
    exact hafter
  | setItem key value =>
    obtain ⟨after, hrun, hafter⟩ := hrepresents.setItem hmaxSize key value
    rw [step, hrun]
    exact hafter
  | delItem key =>
    obtain ⟨after, hrun, hafter⟩ := hrepresents.delItem key
    rw [step, hrun]
    exact hafter

/-- A call keeps the limit of the list of entries. -/
@[simp] theorem maxSize_listStep (model : LimitedCache.Cache κ ν) (call : Call κ ν) :
    (listStep model call).maxSize = model.maxSize := by
  cases call with
  | getItem key => rfl
  | setItem key value =>
    exact (LimitedCache.Cache.maxSize_put _ _).trans LimitedCache.Cache.maxSize_chop
  | delItem key => rfl

/-- A call keeps the list of entries within its limit. -/
theorem length_listStep_le (hdistinct : (model.entries.map LimitedCache.Entry.key).Nodup)
    (hmaxSize : 1 ≤ model.maxSize) (hfits : model.entries.length ≤ model.maxSize)
    (call : Call κ ν) : (listStep model call).entries.length ≤ model.maxSize := by
  cases call with
  | getItem key => exact (LimitedCache.Cache.length_countRead key).trans_le hfits
  | setItem key value =>
    exact LimitedCache.Cache.length_chop_put_le hdistinct hmaxSize hfits key value
  | delItem key => exact (List.length_filter_le _ _).trans hfits

theorem lastStored_append (key : κ) (calls : List (Call κ ν)) (call : Call κ ν) :
    lastStored key (calls ++ [call]) = storedAfter key (lastStored key calls) call :=
  List.foldl_append

/-- What is found in the list of entries after a call was stored last. -/
theorem storedAfter_of_find_listStep {last : κ → Option ν}
    (hbefore : ∀ key value, model.find key = some value → last key = some value)
    (call : Call κ ν) (key : κ) (value : ν) (hfind : (listStep model call).find key = some value) :
    storedAfter key (last key) call = some value := by
  cases call with
  | getItem read =>
    rw [listStep, LimitedCache.Cache.find_countRead] at hfind
    exact hbefore key value hfind
  | setItem stored new =>
    rw [listStep, LimitedCache.Cache.find_put, LimitedCache.Cache.find_chop] at hfind
    rw [storedAfter]
    split_ifs at hfind ⊢ with hkey
    · exact hfind
    · exact hbefore key value hfind
  | delItem deleted =>
    rw [listStep, LimitedCache.Cache.find_remove] at hfind
    rw [storedAfter]
    split_ifs at hfind ⊢ with hkey
    exact hbefore key value hfind

/-- After any calls the dictionaries of a cache are one list of entries, within the limit, in which
only what was stored last is found. -/
theorem exists_represents_foldl {maxSize : ℕ} (hmaxSize : 1 ≤ maxSize) (calls : List (Call κ ν)) :
    ∃ model, Represents (calls.foldl step (init maxSize)) model ∧ model.maxSize = maxSize ∧
      model.entries.length ≤ maxSize ∧
      ∀ key value, model.find key = some value → lastStored key calls = some value := by
  induction calls using List.reverseRecOn with
  | nil =>
    refine ⟨LimitedCache.Cache.init maxSize, represents_init maxSize, rfl, Nat.zero_le _,
      fun key value hfind ↦ ?_⟩
    rw [LimitedCache.Cache.find_init] at hfind
    cases hfind
  | append_singleton calls call ih =>
    obtain ⟨model, hrepresents, hlimit, hfits, hstored⟩ := ih
    rw [← hlimit] at hmaxSize hfits
    refine ⟨listStep model call, ?_, (maxSize_listStep model call).trans hlimit, ?_, ?_⟩
    · rw [List.foldl_append]
      exact represents_step hrepresents hmaxSize call
    · rw [← hlimit]
      exact length_listStep_le hrepresents.lists.cache.nodup hmaxSize hfits call
    · intro key value hfind
      rw [lastStored_append]
      exact storedAfter_of_find_listStep hstored call key value hfind

/-- Whatever is called on a new cache that may have an entry at all, it stays bounded and
truthful. -/
theorem truthful_foldl {maxSize : ℕ} (hmaxSize : 1 ≤ maxSize) (calls : List (Call κ ν)) :
    Truthful maxSize calls (calls.foldl step (init maxSize)) := by
  obtain ⟨model, hrepresents, hlimit, hfits, hstored⟩ := exists_represents_foldl hmaxSize calls
  refine ⟨?_, ?_, ?_, fun key ↦ ?_, fun key value ↦ ?_⟩
  · rw [hrepresents.size_eq, hrepresents.lists.cache, List.length_map]
  · rw [hrepresents.size_eq, hrepresents.lists.usage, List.length_map]
  · rw [hrepresents.size_eq]
    exact Nat.cast_le.mpr hfits
  · obtain ⟨after, hrun, -⟩ := hrepresents.getItem key
    rw [hrun]
    cases hfind : model.find key with
    | none => exact Or.inl rfl
    | some value => exact Or.inr ⟨value, hstored key value hfind, rfl⟩
  · obtain ⟨after, hrun, hafter⟩ := hrepresents.setItem (hlimit.symm ▸ hmaxSize) key value
    obtain ⟨last, hread, -⟩ := hafter.getItem key
    rw [hrun]
    refine ⟨rfl, ?_⟩
    rw [hread, LimitedCache.Cache.find_put, if_pos rfl]
    rfl

/-- A full cache of two entries in which the second one was read. -/
def sampleCalls : List (Call ℕ ℕ) :=
  [.setItem 1 10, .setItem 2 20, .getItem 2, .setItem 2 21, .setItem 3 30]

theorem truthful_foldl_sampleCalls :
    Truthful 2 sampleCalls (sampleCalls.foldl step (init 2)) :=
  truthful_foldl one_le_two sampleCalls

end Pysnmp.CacheDictionaries
