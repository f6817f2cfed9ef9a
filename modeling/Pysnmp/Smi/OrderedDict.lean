import Pysnmp.Foundation.Bisect
import Pysnmp.Foundation.Dict
import Pysnmp.Foundation.Effect
import Pysnmp.Foundation.LastMatch
import Pysnmp.Smi.Indices

/-!
# The dictionary behind the object identifiers in order

`OrderedDict` and `OidOrderedDict` of `smi/indices.py` as they are kept: a dictionary, the list of
its keys, a flag that says that the list is out of order, the lengths of the keys as they were when
it was last sorted, and the tuples the keys sort by. Every operation that changes the keys raises
the flag, and every one that reads them in order sorts first if it is raised.

`represents_history`: after any operations the object represents the map of `Smi.Indices` that the
operations describe. From it, `isOrderedMap_history`: the keys in order, the next key and the
lengths of the keys are those of the keys that are live.
-/

set_option autoImplicit false
set_option relaxedAutoImplicit false

namespace Pysnmp.Smi.OrderedDict

open Foundation Foundation.Effect Proto

/-- The object; `keysLens` is an attribute only once the keys have been sorted. -/
structure DictState (ν : Type) where
  items : Dict Oid ν
  keyList : List Oid
  dirty : Bool
  keysLens : Option (List ℕ)
  keysCache : Dict Oid Oid

/-- How an operation fails. -/
inductive DictError
  | keyError (key : Oid)
  | attributeError
  deriving DecidableEq, Repr

/-- Methods of the object. -/
abbrev DictOp (ν α : Type) := Effect (DictState ν) DictError α

variable {ν : Type}

/-- A new object, made without arguments. -/
def DictState.new : DictState ν where
  items := ∅
  keyList := []
  dirty := true
  keysLens := none
  keysCache := ∅

/-- What a key sorts by: the cached tuple, or the key itself. -/
def DictState.sortingKey (dict : DictState ν) (key : Oid) : Oid :=
  (dict.keysCache.lookup key).getD key

/-- `self[key]`. -/
def DictState.getItem (dict : DictState ν) (key : Oid) : Except DictError ν :=
  match dict.items.lookup key with
  | none => .error (.keyError key)
  | some value => .ok value

/-! ### Methods that change the keys -/

/-- `OrderedDict.__setitem__`. -/
def baseSetItem (key : Oid) (value : ν) : DictOp ν Unit := do
  let dict ← get
  runIf (key ∉ dict.items) (modify fun dict ↦
    { dict with keyList := dict.keyList ++ [key], dirty := true })
  modify fun dict ↦ { dict with items := dict.items.insert key value }

/-- `__setitem__`. -/
def setItem (key : Oid) (value : ν) : DictOp ν Unit := do
  baseSetItem key value
  let dict ← get
  runIf (key ∉ dict.keysCache) (modify fun dict ↦
    { dict with keysCache := dict.keysCache.insert key key })

/-- `OrderedDict.__delitem__`. -/
def baseDelItem (key : Oid) : DictOp ν Unit := do
  let dict ← get
  runIf (key ∈ dict.items) (modify fun dict ↦
    { dict with keyList := dict.keyList.erase key, dirty := true })
  if key ∈ dict.items then
    modify fun dict ↦ { dict with items := dict.items.erase key }
  else
    raise (.keyError key)

/-- `__delitem__`. -/
def delItem (key : Oid) : DictOp ν Unit := do
  baseDelItem key
  let dict ← get
  runIf (key ∈ dict.keysCache) (modify fun dict ↦
    { dict with keysCache := dict.keysCache.erase key })

/-- `clear`: the tuples the keys sort by are kept. -/
def clear : DictOp ν Unit :=
  modify fun dict ↦ { dict with items := ∅, keyList := [], dirty := true }

/-- `update`, with the pairs of the argument. -/
def update (pairs : List (Oid × ν)) : DictOp ν Unit :=
  forEach (fun pair : Oid × ν ↦ setItem pair.1 pair.2) pairs

/-! ### Methods that read the keys in order -/

/-- `__order`. -/
def order : DictOp ν Unit :=
  modify fun dict ↦
    let keyList := LastMatch.sortByKey dict.sortingKey dict.keyList
    { dict with keyList, keysLens := some (OidOrderedDict.lengthsOf keyList), dirty := false }

/-- Sort if the flag is raised. -/
def orderIfDirty : DictOp ν Unit := do
  let dict ← get
  runIf (dict.dirty = true) order

/-- `keys`, and what iteration goes through. -/
def keys : DictOp ν (List Oid) := do
  orderIfDirty
  gets DictState.keyList

/-- `values`. -/
def values : DictOp ν (List ν) := do
  orderIfDirty
  let dict ← get
  liftExcept (dict.keyList.mapM dict.getItem)

/-- `items`. -/
def items : DictOp ν (List (Oid × ν)) := do
  orderIfDirty
  let dict ← get
  liftExcept (dict.keyList.mapM fun key ↦ (dict.getItem key).map fun value ↦ (key, value))

/-- `nextKey`. -/
def nextKey (key : Oid) : DictOp ν Oid := do
  orderIfDirty
  let dict ← get
  match dict.keyList[Bisect.bisect dict.sortingKey dict.keyList (dict.sortingKey key)]? with
  | some next => pure next
  | none => raise (.keyError key)

/-- `getKeysLens`. -/
def getKeysLens : DictOp ν (List ℕ) := do
  orderIfDirty
  match ← gets DictState.keysLens with
  | some lens => pure lens
  | none => raise .attributeError

/-! ### What the object represents -/

/-- The object represents a map in order: it holds the same entries, the keys are listed once each,
what they sort by is themselves, and where the flag is not raised the keys are in order and the
lengths are theirs. -/
structure Represents (dict : DictState ν) (map : OidOrderedDict ν) : Prop where
  items : ∀ key, dict.items.lookup key = map.get? key
  nodup : dict.keyList.Nodup
  mem_keyList : ∀ key, key ∈ dict.keyList ↔ (map.get? key).isSome
  keysCache : ∀ key sorting, dict.keysCache.lookup key = some sorting → sorting = key
  ordered : dict.dirty = false →
    dict.keyList = map.keys ∧ dict.keysLens = some map.getKeysLens

/-- The object represents the map, and its keys are sorted. -/
structure RepresentsInOrder (dict : DictState ν) (map : OidOrderedDict ν) : Prop
    extends Represents dict map where
  clean : dict.dirty = false

section Represents

variable {dict after : DictState ν} {map : OidOrderedDict ν} {key : Oid} {value : ν}

/-- A new dictionary represents the empty map. -/
theorem represents_new : Represents (DictState.new : DictState ν) ∅ where
  items := fun _ ↦ rfl
  nodup := List.nodup_nil
  mem_keyList := fun _ ↦ iff_of_false List.not_mem_nil Bool.false_ne_true
  keysCache := nofun
  ordered := nofun

/-- A key is there if it has a value. -/
theorem Represents.mem_items (hdict : Represents dict map) :
    key ∈ dict.items ↔ (map.get? key).isSome := by
  rw [← hdict.items, AList.lookup_isSome]

theorem Represents.sortingKey (hdict : Represents dict map) (key : Oid) :
    dict.sortingKey key = key := by
  unfold DictState.sortingKey
  cases hcached : dict.keysCache.lookup key with
  | none => rfl
  | some sorting => exact hdict.keysCache key sorting hcached

/-- A key is looked up as in the map. -/
theorem Represents.getItem (hdict : Represents dict map) (hkey : map.get? key = some value) :
    dict.getItem key = .ok value := by
  rw [DictState.getItem, hdict.items, hkey]

/-- The keys sorted are the keys of the map. -/
theorem Represents.sortByKey_keyList (hdict : Represents dict map) :
    LastMatch.sortByKey dict.sortingKey dict.keyList = map.keys := by
  have hle : (LastMatch.sortByKey dict.sortingKey dict.keyList).Pairwise (· ≤ ·) := by
    rw [funext hdict.sortingKey]
    exact List.pairwise_insertionSort (· ≤ ·) dict.keyList
  have hnodup : (LastMatch.sortByKey dict.sortingKey dict.keyList).Nodup :=
    (List.perm_insertionSort _ _).nodup_iff.mpr hdict.nodup
  have hlt : (LastMatch.sortByKey dict.sortingKey dict.keyList).Pairwise (· < ·) :=
    (hle.and hnodup).imp fun hboth ↦ lt_of_le_of_ne hboth.1 hboth.2
  refine hlt.eq_of_mem_iff map.keys_sorted fun key ↦ ?_
  rw [LastMatch.mem_sortByKey, hdict.mem_keyList, SortedMap.mem_keys]

end Represents

/-! ### Reading the keys in order -/

section Reading

variable {map : OidOrderedDict ν}

/-- The object as it is sorted. -/
theorem Represents.order_run {dict : DictState ν} (hdict : Represents dict map) :
    ∃ after, order.run dict = (.ok (), after) ∧ RepresentsInOrder after map := by
  refine ⟨_, rfl, ⟨⟨hdict.items, ?_, ?_, hdict.keysCache, fun _ ↦ ?_⟩, rfl⟩⟩
  · exact (List.perm_insertionSort _ _).nodup_iff.mpr hdict.nodup
  · intro key
    rw [LastMatch.mem_sortByKey]
    exact hdict.mem_keyList key
  · dsimp only
    rw [hdict.sortByKey_keyList, ← OidOrderedDict.getKeysLens]
    exact ⟨rfl, rfl⟩

theorem Represents.orderIfDirty_run {dict : DictState ν} (hdict : Represents dict map) :
    ∃ after, orderIfDirty.run dict = (.ok (), after) ∧ RepresentsInOrder after map := by
  unfold orderIfDirty
  rw [bind_run_of_ok (get_run dict)]
  by_cases hdirty : dict.dirty = true
  · rw [runIf_of_true _ hdirty]
    exact hdict.order_run
  · rw [runIf_of_false _ hdirty]
    exact ⟨dict, rfl, hdict, Bool.eq_false_of_not_eq_true hdirty⟩

/-- A method that sorts first has the result that its rest has on sorted keys. -/
theorem yields_orderIfDirty_bind {α : Type} {next : DictOp ν α} {result : Except DictError α}
    (hnext : ∀ dict, RepresentsInOrder dict map → next.run dict = (result, dict)) :
    Yields (Represents · map) (orderIfDirty >>= fun _ ↦ next) result := by
  intro dict hdict
  obtain ⟨after, hrun, hafter⟩ := hdict.orderIfDirty_run
  exact ⟨after, hafter.toRepresents, (bind_run_of_ok hrun).trans (hnext after hafter)⟩

/-- The keys come in order. -/
theorem yields_keys : Yields (Represents · map) keys (.ok map.keys) := by
  refine yields_orderIfDirty_bind fun dict hdict ↦ ?_
  rw [gets_run, (hdict.ordered hdict.clean).1]

/-- Reading the entry of every key of the map. -/
theorem mapM_keys {α : Type} (read : Oid → Except DictError α) (image : Oid × ν → α)
    (hread : ∀ key value, map.get? key = some value → read key = .ok (image (key, value))) :
    map.keys.mapM read = .ok (map.entries.map image) := by
  have hentries : ∀ entries : List (Oid × ν), (∀ entry ∈ entries, entry ∈ map.entries) →
      (entries.map Prod.fst).mapM read = .ok (entries.map image) := by
    intro entries hmem
    induction entries with
    | nil => rfl
    | cons entry entries ih =>
      have hentry :=
        hread entry.1 entry.2 (SortedMap.get?_eq_some_iff.mpr (hmem _ List.mem_cons_self))
      rw [List.map_cons, List.mapM_cons, hentry,
        ih fun other hother ↦ hmem other (List.mem_cons_of_mem _ hother)]
      rfl
  exact hentries map.entries fun _ hentry ↦ hentry

/-- The values come in the order of their keys. -/
theorem yields_values : Yields (Represents · map) values (.ok map.values) := by
  refine yields_orderIfDirty_bind fun dict hdict ↦ ?_
  rw [bind_run_of_ok (get_run dict), liftExcept_run, (hdict.ordered hdict.clean).1,
    mapM_keys dict.getItem Prod.snd fun key value hkey ↦ hdict.getItem hkey]
  rfl

/-- The entries come in order. -/
theorem yields_items : Yields (Represents · map) items (.ok map.entries) := by
  refine yields_orderIfDirty_bind fun dict hdict ↦ ?_
  rw [bind_run_of_ok (get_run dict), liftExcept_run, (hdict.ordered hdict.clean).1,
    mapM_keys _ id fun key value hkey ↦ by rw [hdict.getItem hkey]; rfl, List.map_id]

/-- Bisection finds the next entry of the map. -/
theorem yields_nextKey (key : Oid) :
    Yields (Represents · map) (nextKey key)
      (match map.next? key with
        | some entry => .ok entry.1
        | none => .error (.keyError key)) := by
  refine yields_orderIfDirty_bind fun dict hdict ↦ ?_
  have hsorting : dict.sortingKey = id := funext hdict.sortingKey
  have hsorted : map.keys.Pairwise fun first second ↦ id first ≤ id second :=
    map.keys_sorted.imp le_of_lt
  have hplace : map.keys[Bisect.bisect id map.keys key]? = (map.next? key).map Prod.fst := by
    rw [Bisect.getElem?_bisect hsorted, SortedMap.keys, List.find?_map]
    rfl
  rw [bind_run_of_ok (get_run dict), (hdict.ordered hdict.clean).1, hsorting, id_eq, hplace]
  cases map.next? key with
  | none => rfl
  | some entry => rfl

/-- The lengths of the keys come longest first. -/
theorem yields_getKeysLens : Yields (Represents · map) getKeysLens (.ok map.getKeysLens) := by
  refine yields_orderIfDirty_bind fun dict hdict ↦ ?_
  rw [bind_run_of_ok (gets_run _ _), (hdict.ordered hdict.clean).2]
  rfl

end Reading

/-! ### Changing the keys -/

section Changing

variable {dict : DictState ν} {map : OidOrderedDict ν}

/-- What the tuples to sort by may be replaced with. -/
theorem Represents.of_keysCache {keysCache : Dict Oid Oid} (hdict : Represents dict map)
    (hcache : ∀ key sorting, keysCache.lookup key = some sorting → sorting = key) :
    Represents { dict with keysCache } map :=
  { hdict with keysCache := hcache }

/-- Assigning inserts, whether the key is new or not. -/
theorem Represents.baseSetItem_run (hdict : Represents dict map) (key : Oid) (value : ν) :
    ∃ after, (baseSetItem key value).run dict = (.ok (), after) ∧
      Represents after (map.insert key value) := by
  unfold baseSetItem
  rw [bind_run_of_ok (get_run dict)]
  have hget : ∀ other, (map.insert key value).get? other =
      if other = key then some value else map.get? other := by
    intro other
    rw [SortedMap.get?_insert_eq_update, Function.update_apply]
  by_cases hnew : key ∉ dict.items
  · rw [runIf_of_true _ hnew, bind_run_of_ok (modify_run _ _)]
    have hmissing : key ∉ dict.keyList := by
      rwa [hdict.mem_keyList, ← hdict.mem_items]
    refine ⟨_, rfl, ⟨fun other ↦ ?_, ?_, fun other ↦ ?_, hdict.keysCache, nofun⟩⟩
    · dsimp only
      rw [Dict.lookup_insert_ite, hget, hdict.items]
    · exact List.nodup_append'.mpr ⟨hdict.nodup, List.nodup_singleton _,
        List.disjoint_singleton.mpr hmissing⟩
    · rw [List.mem_append, List.mem_singleton, hget, hdict.mem_keyList]
      split_ifs with hother
      · simp [hother]
      · simp [hother]
  · rw [runIf_of_false _ hnew]
    have hlisted : (map.get? key).isSome := hdict.mem_items.mp (not_not.mp hnew)
    have hkeys : (map.insert key value).keys = map.keys := by
      refine (map.insert key value).keys_sorted.eq_of_mem_iff map.keys_sorted fun other ↦ ?_
      rw [SortedMap.mem_keys, SortedMap.mem_keys, hget]
      split_ifs with hother
      · simp [hother, hlisted]
      · exact Iff.rfl
    refine ⟨_, rfl, ⟨fun other ↦ ?_, hdict.nodup, fun other ↦ ?_, hdict.keysCache, fun hclean ↦ ?_⟩⟩
    · dsimp only
      rw [Dict.lookup_insert_ite, hget, hdict.items]
    · rw [hdict.mem_keyList, ← SortedMap.mem_keys, ← SortedMap.mem_keys, hkeys]
    · rw [OidOrderedDict.getKeysLens, hkeys]
      exact hdict.ordered hclean

theorem Represents.setItem_run (hdict : Represents dict map) (key : Oid) (value : ν) :
    ∃ after, (setItem key value).run dict = (.ok (), after) ∧
      Represents after (map.insert key value) := by
  obtain ⟨middle, hrun, hmiddle⟩ := hdict.baseSetItem_run key value
  unfold setItem
  rw [bind_run_of_ok hrun, bind_run_of_ok (get_run middle)]
  by_cases hcached : key ∉ middle.keysCache
  · rw [runIf_of_true _ hcached]
    refine ⟨_, rfl, hmiddle.of_keysCache fun other sorting hsorting ↦ ?_⟩
    rw [Dict.lookup_insert_ite] at hsorting
    split_ifs at hsorting with hother
    · rw [hother, Option.some.inj hsorting]
    · exact hmiddle.keysCache other sorting hsorting
  · rw [runIf_of_false _ hcached]
    exact ⟨middle, rfl, hmiddle⟩

/-- Deleting a key takes it away. -/
theorem Represents.baseDelItem_run_of_mem (hdict : Represents dict map) {key : Oid}
    (hkey : (map.get? key).isSome) :
    ∃ after, (baseDelItem key).run dict = (.ok (), after) ∧ Represents after (map.erase key) := by
  have hmem : key ∈ dict.items := hdict.mem_items.mpr hkey
  unfold baseDelItem
  rw [bind_run_of_ok (get_run dict), runIf_of_true _ hmem, bind_run_of_ok (modify_run _ _),
    if_pos hmem]
  have hget : ∀ other, (map.erase key).get? other =
      if other = key then none else map.get? other := by
    intro other
    rw [SortedMap.get?_erase_eq_update, Function.update_apply]
  refine ⟨_, rfl, ⟨fun other ↦ ?_, hdict.nodup.erase key, fun other ↦ ?_, hdict.keysCache, nofun⟩⟩
  · dsimp only
    rw [Dict.lookup_erase_ite, hget, hdict.items]
  · rw [hdict.nodup.mem_erase_iff, hget, hdict.mem_keyList]
    split_ifs with hother
    · simp [hother]
    · simp [hother]

/-- A key that is there is removed. -/
theorem Represents.delItem_run_of_mem (hdict : Represents dict map) {key : Oid}
    (hkey : (map.get? key).isSome) :
    ∃ after, (delItem key).run dict = (.ok (), after) ∧ Represents after (map.erase key) := by
  obtain ⟨middle, hrun, hmiddle⟩ := hdict.baseDelItem_run_of_mem hkey
  unfold delItem
  rw [bind_run_of_ok hrun, bind_run_of_ok (get_run middle)]
  by_cases hcached : key ∈ middle.keysCache
  · rw [runIf_of_true _ hcached]
    refine ⟨_, rfl, hmiddle.of_keysCache fun other sorting hsorting ↦ ?_⟩
    rw [Dict.lookup_erase_ite] at hsorting
    split_ifs at hsorting
    exact hmiddle.keysCache other sorting hsorting
  · rw [runIf_of_false _ hcached]
    exact ⟨middle, rfl, hmiddle⟩

/-- For a key that is not there `KeyError` is raised, and nothing changes. -/
theorem Represents.delItem_run_of_missing (hdict : Represents dict map) {key : Oid}
    (hkey : map.get? key = none) : (delItem key).run dict = (.error (.keyError key), dict) := by
  have hmissing : key ∉ dict.items := by
    rw [hdict.mem_items, hkey]
    exact Bool.false_ne_true
  have hbase : (baseDelItem key).run dict = (.error (.keyError key), dict) := by
    unfold baseDelItem
    rw [bind_run_of_ok (get_run dict), runIf_of_false _ hmissing, bind_run_of_ok (pure_run _ _),
      if_neg hmissing, raise_run]
  exact bind_run_of_error hbase

/-- Updating inserts one pair after the other. -/
theorem Represents.update_run (hdict : Represents dict map) (pairs : List (Oid × ν)) :
    ∃ after, (update pairs).run dict = (.ok (), after) ∧
      Represents after (pairs.foldl (fun map pair ↦ map.insert pair.1 pair.2) map) := by
  unfold update
  induction pairs generalizing dict map with
  | nil => exact ⟨dict, rfl, hdict⟩
  | cons pair pairs ih =>
    obtain ⟨middle, hrun, hmiddle⟩ := hdict.setItem_run pair.1 pair.2
    obtain ⟨after, hrest, hafter⟩ := ih hmiddle
    exact ⟨after, by rw [forEach_cons, bind_run_of_ok hrun, hrest], hafter⟩

theorem Represents.clear_run (hdict : Represents dict map) :
    ∃ after, (clear : DictOp ν Unit).run dict = (.ok (), after) ∧ Represents after ∅ :=
  ⟨_, rfl, fun _ ↦ rfl, List.nodup_nil, fun _ ↦ iff_of_false List.not_mem_nil Bool.false_ne_true,
    hdict.keysCache, nofun⟩

end Changing

/-! ### Histories -/

/-- A call of a method. -/
inductive Operation (ν : Type)
  | setItem (key : Oid) (value : ν)
  | delItem (key : Oid)
  | clear
  | update (pairs : List (Oid × ν))
  | keys
  | values
  | items
  | nextKey (key : Oid)
  | getKeysLens

/-- The object after a call, whether the method returns or raises. -/
def step (dict : DictState ν) : Operation ν → DictState ν
  | .setItem key value => ((setItem key value).run dict).2
  | .delItem key => ((delItem key).run dict).2
  | .clear => (clear.run dict).2
  | .update pairs => ((update pairs).run dict).2
  | .keys => (keys.run dict).2
  | .values => (values.run dict).2
  | .items => (items.run dict).2
  | .nextKey key => ((nextKey key).run dict).2
  | .getKeysLens => (getKeysLens.run dict).2

/-- What a call means for a map in order. -/
def Operation.apply (map : OidOrderedDict ν) : Operation ν → OidOrderedDict ν
  | .setItem key value => map.insert key value
  | .delItem key => map.erase key
  | .clear => ∅
  | .update pairs => pairs.foldl (fun map pair ↦ map.insert pair.1 pair.2) map
  | _ => map

/-- What a call means for the values of the live keys. -/
def Operation.applyLive (live : Oid → Option ν) : Operation ν → Oid → Option ν
  | .setItem key value => Function.update live key (some value)
  | .delItem key => Function.update live key none
  | .clear => fun _ ↦ none
  | .update pairs => pairs.foldl (fun live pair ↦ Function.update live pair.1 (some pair.2)) live
  | _ => live

/-- The values of the live keys after some calls: what was last set, unless it was deleted. -/
def liveAfter (operations : List (Operation ν)) : Oid → Option ν :=
  operations.foldl Operation.applyLive fun _ ↦ none

theorem represents_of_yields {α : Type} {program : DictOp ν α} {result : Except DictError α}
    {dict : DictState ν} {map : OidOrderedDict ν}
    (hyields : Yields (Represents · map) program result) (hdict : Represents dict map) :
    Represents (program.run dict).2 map := by
  obtain ⟨after, hafter, hrun⟩ := hyields dict hdict
  rw [hrun]
  exact hafter

/-- Every call keeps the dictionary representing its map. -/
theorem represents_step {dict : DictState ν} {map : OidOrderedDict ν} (hdict : Represents dict map)
    (operation : Operation ν) : Represents (step dict operation) (operation.apply map) := by
  cases operation with
  | setItem key value =>
    obtain ⟨after, hrun, hafter⟩ := hdict.setItem_run key value
    rw [step, hrun]
    exact hafter
  | delItem key =>
    cases hkey : map.get? key with
    | none =>
      rw [step, hdict.delItem_run_of_missing hkey, Operation.apply, SortedMap.erase_eq_self hkey]
      exact hdict
    | some value =>
      obtain ⟨after, hrun, hafter⟩ := hdict.delItem_run_of_mem (Option.isSome_of_eq_some hkey)
      rw [step, hrun]
      exact hafter
  | clear =>
    obtain ⟨after, hrun, hafter⟩ := hdict.clear_run
    rw [step, hrun]
    exact hafter
  | update pairs =>
    obtain ⟨after, hrun, hafter⟩ := hdict.update_run pairs
    rw [step, hrun]
    exact hafter
  | keys => exact represents_of_yields yields_keys hdict
  | values => exact represents_of_yields yields_values hdict
  | items => exact represents_of_yields yields_items hdict
  | nextKey key => exact represents_of_yields (yields_nextKey key) hdict
  | getKeysLens => exact represents_of_yields yields_getKeysLens hdict

/-- After any calls the object represents the map in order that the calls describe. -/
theorem represents_history (operations : List (Operation ν)) :
    Represents (operations.foldl step .new) (operations.foldl Operation.apply ∅) := by
  suffices hgeneral : ∀ (dict : DictState ν) (map : OidOrderedDict ν), Represents dict map →
      Represents (operations.foldl step dict) (operations.foldl Operation.apply map) from
    hgeneral .new ∅ represents_new
  induction operations with
  | nil => exact fun dict map hdict ↦ hdict
  | cons operation operations ih =>
    exact fun dict map hdict ↦ ih _ _ (represents_step hdict operation)

/-- What a key has after a call does not depend on the order. -/
theorem get?_apply (map : OidOrderedDict ν) (operation : Operation ν) :
    (operation.apply map).get? = operation.applyLive map.get? := by
  cases operation with
  | setItem key value => exact SortedMap.get?_insert_eq_update map key value
  | delItem key => exact SortedMap.get?_erase_eq_update map key
  | update pairs =>
    simp only [Operation.apply, Operation.applyLive]
    induction pairs generalizing map with
    | nil => rfl
    | cons pair pairs ih =>
      rw [List.foldl_cons, List.foldl_cons, ih, SortedMap.get?_insert_eq_update]
  | _ => rfl

/-- The map holds the live keys. -/
theorem get?_history (operations : List (Operation ν)) :
    (operations.foldl Operation.apply (∅ : OidOrderedDict ν)).get? = liveAfter operations := by
  suffices hgeneral : ∀ map : OidOrderedDict ν, (operations.foldl Operation.apply map).get? =
      operations.foldl Operation.applyLive map.get? from
    hgeneral ∅
  induction operations with
  | nil => exact fun map ↦ rfl
  | cons operation operations ih =>
    intro map
    rw [List.foldl_cons, List.foldl_cons, ih, get?_apply]

/-- The object answers as a map in order whose live keys have these values: its keys are the live
ones in strictly increasing order, the next key is the least live one that is greater, and the
lengths are those of the live keys from the longest down. -/
structure IsOrderedMap (dict : DictState ν) (live : Oid → Option ν) : Prop where
  keys : ∃ listed, (keys.run dict).1 = .ok listed ∧ listed.Pairwise (· < ·) ∧
    ∀ key, key ∈ listed ↔ (live key).isSome
  nextKey_of_greater : ∀ key, (∃ other, (live other).isSome ∧ key < other) →
    ∃ next, ((nextKey key).run dict).1 = .ok next ∧
      IsLeast {other | (live other).isSome ∧ key < other} next
  nextKey_of_none : ∀ key, (¬ ∃ other, (live other).isSome ∧ key < other) →
    ((nextKey key).run dict).1 = .error (.keyError key)
  getKeysLens : ∃ lens, (getKeysLens.run dict).1 = .ok lens ∧ lens.Pairwise (· > ·) ∧
    ∀ length, length ∈ lens ↔ ∃ key : Oid, (live key).isSome ∧ key.length = length

theorem result_of_yields {α : Type} {program : DictOp ν α} {result : Except DictError α}
    {dict : DictState ν} {map : OidOrderedDict ν}
    (hyields : Yields (Represents · map) program result) (hdict : Represents dict map) :
    (program.run dict).1 = result := by
  obtain ⟨after, -, hrun⟩ := hyields dict hdict
  rw [hrun]

theorem getKeysLens_pairwise (map : OidOrderedDict ν) : map.getKeysLens.Pairwise (· > ·) := by
  have hnodup : map.getKeysLens.Nodup :=
    (List.perm_insertionSort _ _).nodup_iff.mpr (List.nodup_dedup _)
  exact ((OidOrderedDict.getKeysLens_sorted map).and hnodup).imp fun hboth ↦
    lt_of_le_of_ne hboth.1 hboth.2.symm

/-- An object that represents a map answers as that map. -/
theorem Represents.isOrderedMap {dict : DictState ν} {map : OidOrderedDict ν}
    (hdict : Represents dict map) : IsOrderedMap dict map.get? where
  keys := ⟨map.keys, result_of_yields yields_keys hdict, map.keys_sorted,
    fun _ ↦ SortedMap.mem_keys⟩
  nextKey_of_greater := by
    rintro key ⟨other, hother, hgreater⟩
    have hnext := result_of_yields (yields_nextKey key) hdict
    cases hentry : map.next? key with
    | none => exact absurd hgreater (SortedMap.next?_eq_none_iff.mp hentry other hother).not_gt
    | some entry =>
      rw [hentry] at hnext
      exact ⟨entry.1, hnext, SortedMap.isLeast_of_next?_eq_some hentry⟩
  nextKey_of_none := by
    intro key hnone
    have hnext := result_of_yields (yields_nextKey key) hdict
    have hlast : map.next? key = none := SortedMap.next?_eq_none_iff.mpr fun other hother ↦
      le_of_not_gt fun hgreater ↦ hnone ⟨other, hother, hgreater⟩
    rwa [hlast] at hnext
  getKeysLens := by
    refine ⟨map.getKeysLens, result_of_yields yields_getKeysLens hdict,
      getKeysLens_pairwise map, fun length ↦ ?_⟩
    simp only [OidOrderedDict.mem_getKeysLens, SortedMap.isSome_get?_iff]
    exact ⟨fun ⟨key, value, hmem, hlength⟩ ↦ ⟨key, ⟨value, hmem⟩, hlength⟩,
      fun ⟨key, ⟨value, hmem⟩, hlength⟩ ↦ ⟨key, value, hmem, hlength⟩⟩

/-- After any calls, lookups among them, the object is a map in order of the live keys. -/
theorem isOrderedMap_history (operations : List (Operation ν)) :
    IsOrderedMap (operations.foldl step .new) (liveAfter operations) := by
  rw [← get?_history]
  exact (represents_history operations).isOrderedMap

end Pysnmp.Smi.OrderedDict
