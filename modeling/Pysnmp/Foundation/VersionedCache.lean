import Pysnmp.Foundation.Effect

/-!
# Maps cached against a version

A table that changes rarely is read into a map once, and the map is kept with the version the table
had. `refresh` is how such a cache is used: it rebuilds the map when the table has another version,
row by row and in place, and hands it out. Reading a row may raise, and then the map stays half
built under the old version.

`build` is the map of a table without any cache. A cache is `Coherent` with a table when, at the
table's version, its map is the one the table builds: a coherent cache cannot be told from an empty
one (`refresh_fst`) and stays coherent (`coherent_refresh`). `Coherent.of_change` is the condition
under which a change of the table keeps a cache coherent: a higher version, or the same rows.
`replace` builds the map aside, which makes no difference to whoever asks for it.
-/

set_option autoImplicit false
set_option relaxedAutoImplicit false

namespace Pysnmp.Foundation

open Effect

/-- A map, and the version of the table it was built from. -/
structure VersionedCache (Map : Type) where
  version : ℤ
  map : Map

/-- A table as a reader finds it: its version, and for each row in turn the row or the exception
that reading it raises. -/
structure VersionedTable (ε Row : Type) where
  version : ℤ
  rows : List (Except ε Row)

/-- How a map is put together from rows. -/
structure Assembly (Row Map : Type) where
  empty : Map
  add : Row → Map → Map
  finish : Map → Map

namespace VersionedCache

variable {ε Row Map : Type} (assembly : Assembly Row Map) (table : VersionedTable ε Row)

/-- Add the rows of a table to a map, until one raises. -/
def addRows (map : Map) : List (Except ε Row) → Except ε Map
  | [] => .ok map
  | .ok row :: rows => addRows (assembly.add row map) rows
  | .error exception :: _ => .error exception

/-- The map of a table. -/
def build : Except ε Map :=
  (addRows assembly assembly.empty table.rows).map assembly.finish

/-- Read one row into the cached map. -/
def readRow (reading : Except ε Row) : Effect (VersionedCache Map) ε Unit := do
  let row ← liftExcept reading
  modify fun cache ↦ { cache with map := assembly.add row cache.map }

/-- Rebuild the map if the table has another version, and hand it out. -/
def refresh : Effect (VersionedCache Map) ε Map := do
  let version ← gets VersionedCache.version
  if version ≠ table.version then
    modify fun cache ↦ { cache with map := assembly.empty }
    forEach (readRow assembly) table.rows
    modify fun cache ↦ { version := table.version, map := assembly.finish cache.map }
  gets VersionedCache.map

/-- Build the map aside if the table has another version, put it in the place of the cached one, and
hand it out. A row that raises leaves the cache as it was. -/
def replace : Effect (VersionedCache Map) ε Map := do
  let version ← gets VersionedCache.version
  if version ≠ table.version then
    let map ← liftExcept (build assembly table)
    modify fun _ ↦ { version := table.version, map := map }
  gets VersionedCache.map

/-- At the table's version, the cached map is the table's. -/
def Coherent (cache : VersionedCache Map) : Prop :=
  cache.version = table.version → build assembly table = .ok cache.map

/-- The cache is coherent with the table, and not ahead of it. -/
structure Sound (cache : VersionedCache Map) : Prop where
  coherent : Coherent assembly table cache
  notAhead : cache.version ≤ table.version

/-- The rows are added to the cached map, as far as they can be read, and its version is left
alone. -/
theorem forEach_readRow_run (rows : List (Except ε Row)) (cache : VersionedCache Map) :
    ∃ built, (forEach (readRow assembly) rows).run cache =
        ((addRows assembly cache.map rows).map fun _ ↦ (), ⟨cache.version, built⟩) ∧
      ∀ map, addRows assembly cache.map rows = .ok map → map = built := by
  induction rows generalizing cache with
  | nil => exact ⟨cache.map, rfl, fun map hmap ↦ (Except.ok.inj hmap).symm⟩
  | cons reading rows ih =>
    cases reading with
    | error exception => exact ⟨cache.map, rfl, fun map hmap ↦ by cases hmap⟩
    | ok row =>
      obtain ⟨built, hrun, hbuilt⟩ := ih { cache with map := assembly.add row cache.map }
      have hread : (readRow assembly (.ok row) : Effect (VersionedCache Map) ε Unit).run cache =
          (.ok (), { cache with map := assembly.add row cache.map }) := rfl
      exact ⟨built, by rw [forEach_cons, bind_run_of_ok hread, hrun, addRows], hbuilt⟩

/-- Handed out by a cache of another version: the table's map, kept if it could be built. -/
theorem refresh_run_of_ne {cache : VersionedCache Map} (hversion : cache.version ≠ table.version) :
    ∃ after, (refresh assembly table).run cache = (build assembly table, after) ∧
      (build assembly table = .ok after.map ∧ after.version = table.version ∨
        after.version = cache.version) := by
  obtain ⟨built, hrun, hbuilt⟩ :=
    forEach_readRow_run assembly table.rows { cache with map := assembly.empty }
  rw [refresh, bind_run_of_ok (gets_run _ _), if_pos hversion, bind_run_of_ok (modify_run _ _)]
  cases hadd : addRows assembly assembly.empty table.rows with
  | error exception =>
    rw [hadd] at hrun
    rw [bind_run_of_error hrun, build, hadd]
    exact ⟨_, rfl, Or.inr rfl⟩
  | ok map =>
    rw [hadd] at hrun
    obtain rfl : map = built := hbuilt map hadd
    rw [bind_run_of_ok hrun, build, hadd]
    exact ⟨_, rfl, Or.inl ⟨rfl, rfl⟩⟩

theorem refresh_run_of_eq {cache : VersionedCache Map} (hversion : cache.version = table.version) :
    (refresh assembly table : Effect (VersionedCache Map) ε Map).run cache =
      (.ok cache.map, cache) := by
  rw [refresh, bind_run_of_ok (gets_run _ _), if_neg (not_not.mpr hversion)]
  rfl

variable {assembly table}

/-- A coherent cache hands out what an empty one would. -/
theorem refresh_fst {cache : VersionedCache Map} (hcoherent : Coherent assembly table cache) :
    ((refresh assembly table).run cache).1 = build assembly table := by
  by_cases hversion : cache.version = table.version
  · rw [refresh_run_of_eq assembly table hversion, hcoherent hversion]
  · obtain ⟨after, hrun, -⟩ := refresh_run_of_ne assembly table hversion
    rw [hrun]

/-- A coherent cache stays coherent, also when a row could not be read. -/
theorem coherent_refresh {cache : VersionedCache Map} (hcoherent : Coherent assembly table cache) :
    Coherent assembly table ((refresh assembly table).run cache).2 := by
  by_cases hversion : cache.version = table.version
  · rwa [refresh_run_of_eq assembly table hversion]
  · obtain ⟨after, hrun, ⟨hmap, -⟩ | hkept⟩ := refresh_run_of_ne assembly table hversion
    · rw [hrun]
      exact fun _ ↦ hmap
    · rw [hrun]
      exact fun heq ↦ absurd (hkept.symm.trans heq) hversion

/-- A cache that is not ahead of its table does not get ahead of it. -/
theorem refresh_version_le {cache : VersionedCache Map} (hversion : cache.version ≤ table.version) :
    ((refresh assembly table).run cache).2.version ≤ table.version := by
  by_cases heq : cache.version = table.version
  · rwa [refresh_run_of_eq assembly table heq]
  · obtain ⟨after, hrun, ⟨-, hrebuilt⟩ | hkept⟩ := refresh_run_of_ne assembly table heq
    · rw [hrun, hrebuilt]
    · rwa [hrun, hkept]

/-- A sound cache hands out the map of the table, and stays sound. -/
theorem yields_refresh :
    Yields (Sound assembly table) (refresh assembly table) (build assembly table) :=
  fun _ hsound ↦ ⟨_, ⟨coherent_refresh hsound.coherent, refresh_version_le hsound.notAhead⟩,
    Prod.ext (refresh_fst hsound.coherent) rfl⟩

/-! ### Maps built aside -/

/-- What `replace` leaves in a cache of another version. -/
theorem replace_run_of_ne {cache : VersionedCache Map} (hversion : cache.version ≠ table.version) :
    (replace assembly table).run cache =
      (build assembly table, match build assembly table with
        | .error _ => cache
        | .ok map => ⟨table.version, map⟩) := by
  rw [replace, bind_run_of_ok (gets_run _ _), if_pos hversion]
  cases hbuild : build assembly table with
  | error exception => rfl
  | ok map => rfl

theorem replace_run_of_eq {cache : VersionedCache Map} (hversion : cache.version = table.version) :
    (replace assembly table : Effect (VersionedCache Map) ε Map).run cache =
      (.ok cache.map, cache) := by
  rw [replace, bind_run_of_ok (gets_run _ _), if_neg (not_not.mpr hversion)]
  rfl

/-- Built aside, the map that a sound cache hands out is the same. -/
theorem yields_replace :
    Yields (Sound assembly table) (replace assembly table) (build assembly table) := by
  intro cache hsound
  by_cases hversion : cache.version = table.version
  · rw [replace_run_of_eq hversion, hsound.coherent hversion]
    exact ⟨cache, hsound, rfl⟩
  · rw [replace_run_of_ne hversion]
    cases hbuild : build assembly table with
    | error exception => exact ⟨cache, hsound, rfl⟩
    | ok map => exact ⟨_, ⟨fun _ ↦ hbuild, le_rfl⟩, rfl⟩

/-! ### Changes of the table -/

/-- A change of the table keeps a cache coherent that is not ahead of it, when a cache at the
table's version would notice it or the rows are as they were. -/
theorem Coherent.of_change {changed : VersionedTable ε Row} {cache : VersionedCache Map}
    (hcoherent : Coherent assembly table cache) (hahead : cache.version ≤ table.version)
    (hle : table.version ≤ changed.version)
    (hchanged : cache.version = table.version →
      table.version < changed.version ∨ changed.rows = table.rows) :
    Coherent assembly changed cache := by
  intro heq
  have hversion : cache.version = table.version := hahead.antisymm (hle.trans heq.ge)
  rcases hchanged hversion with hlt | hrows
  · exact absurd (hversion.symm.trans heq) hlt.ne
  · rw [build, hrows]
    exact hcoherent hversion

/-- A cache sees a change that raises the version. -/
theorem Sound.of_lt {changed : VersionedTable ε Row} {cache : VersionedCache Map}
    (hsound : Sound assembly table cache) (hlater : table.version < changed.version) :
    Sound assembly changed cache :=
  have hbehind : cache.version < changed.version := hsound.notAhead.trans_lt hlater
  ⟨fun heq ↦ absurd heq hbehind.ne, hbehind.le⟩

/-- A cache of the version -1 is sound with any table that has been loaded. -/
theorem sound_of_initialVersion (map : Map) (hversion : 0 ≤ table.version) :
    Sound assembly table ⟨-1, map⟩ :=
  have hbehind : (-1 : ℤ) < table.version := neg_one_lt_zero.trans_le hversion
  ⟨fun heq ↦ absurd heq hbehind.ne, hbehind.le⟩

/-! ### Maps built from rows that can be read -/

theorem addRows_map_ok (map : Map) (rows : List Row) :
    addRows assembly map (rows.map (Except.ok : Row → Except ε Row)) =
      .ok (rows.foldl (fun map row ↦ assembly.add row map) map) := by
  induction rows generalizing map with
  | nil => rfl
  | cons row rows ih => rw [List.map_cons, addRows, ih, List.foldl_cons]

/-- Rows are added to a map when each of them can be read. -/
theorem addRows_eq_ok_iff {map built : Map} {rows : List (Except ε Row)} :
    addRows assembly map rows = .ok built ↔
      ∃ readings : List Row, rows = readings.map .ok ∧
        readings.foldl (fun map row ↦ assembly.add row map) map = built := by
  constructor
  · intro hadd
    induction rows generalizing map with
    | nil => exact ⟨[], rfl, Except.ok.inj hadd⟩
    | cons reading rows ih =>
      cases reading with
      | error exception => cases hadd
      | ok row =>
        obtain ⟨readings, rfl, hbuilt⟩ := ih hadd
        exact ⟨row :: readings, rfl, hbuilt⟩
  · rintro ⟨readings, rfl, rfl⟩
    exact addRows_map_ok map readings

theorem exists_addRows_eq_error {exception : ε} {rows : List (Except ε Row)}
    (hmem : .error exception ∈ rows) (map : Map) :
    ∃ raised, .error raised ∈ rows ∧ addRows assembly map rows = .error raised := by
  induction rows generalizing map with
  | nil => exact absurd hmem List.not_mem_nil
  | cons reading rows ih =>
    cases reading with
    | error raised => exact ⟨raised, List.mem_cons_self, rfl⟩
    | ok row =>
      have hrest : .error exception ∈ rows := by simpa using hmem
      obtain ⟨raised, hraised, herror⟩ := ih hrest (assembly.add row map)
      exact ⟨raised, List.mem_cons_of_mem _ hraised, herror⟩

/-- A row that cannot be read keeps a table from having a map. -/
theorem exists_build_eq_error {exception : ε} (hmem : .error exception ∈ table.rows) :
    ∃ raised, .error raised ∈ table.rows ∧ build assembly table = .error raised := by
  obtain ⟨raised, hraised, herror⟩ := exists_addRows_eq_error hmem assembly.empty
  exact ⟨raised, hraised, by rw [build, herror]; rfl⟩

/-- A table has a map when each of its rows can be read. -/
theorem build_eq_ok_iff {built : Map} :
    build assembly table = .ok built ↔
      ∃ readings : List Row, table.rows = readings.map .ok ∧
        assembly.finish (readings.foldl (fun map row ↦ assembly.add row map) assembly.empty) =
          built := by
  rw [build]
  cases hadd : addRows assembly assembly.empty table.rows with
  | error exception =>
    simp only [Except.map, reduceCtorEq, false_iff, not_exists, not_and]
    intro readings hrows
    rw [hrows, addRows_map_ok] at hadd
    cases hadd
  | ok map =>
    obtain ⟨readings, hrows, hmap⟩ := addRows_eq_ok_iff.mp hadd
    simp only [Except.map, Except.ok.injEq, hrows]
    constructor
    · intro hfinish
      exact ⟨readings, rfl, hmap.symm ▸ hfinish⟩
    · rintro ⟨others, hothers, hfinish⟩
      rw [← hmap, List.map_injective_iff.mpr (fun _ _ ↦ Except.ok.inj) hothers]
      exact hfinish

theorem exists_build_iff :
    (∃ map, build assembly table = .ok map) ↔
      ∀ reading ∈ table.rows, reading ∈ Set.range (Except.ok : Row → Except ε Row) := by
  have hrange : table.rows ∈ Set.range (List.map (Except.ok : Row → Except ε Row)) ↔
      ∀ reading ∈ table.rows, reading ∈ Set.range (Except.ok : Row → Except ε Row) := by
    rw [Set.range_list_map]
    exact Iff.rfl
  rw [← hrange]
  constructor
  · rintro ⟨map, hbuild⟩
    obtain ⟨readings, hrows, -⟩ := build_eq_ok_iff.mp hbuild
    exact ⟨readings, hrows.symm⟩
  · rintro ⟨readings, hrows⟩
    exact ⟨_, build_eq_ok_iff.mpr ⟨readings, hrows.symm, rfl⟩⟩

/-- A dictionary filled row by row under distinct keys holds the value of each row, and what it
held before under the other keys. -/
theorem foldl_update_eq_some_iff {κ ν : Type} [DecidableEq κ] {key : Row → κ} {value : Row → ν}
    {rows : List Row} (hdistinct : rows.Pairwise fun first second ↦ key first ≠ key second)
    (dict : κ → Option ν) (index : κ) (entry : ν) :
    rows.foldl (fun dict row ↦ Function.update dict (key row) (some (value row))) dict index =
        some entry ↔
      (∃ row ∈ rows, key row = index ∧ value row = entry) ∨
        dict index = some entry ∧ ∀ row ∈ rows, key row ≠ index := by
  induction rows generalizing dict with
  | nil => simp
  | cons head rows ih =>
    obtain ⟨hhead, hrows⟩ := List.pairwise_cons.mp hdistinct
    rw [List.foldl_cons, ih hrows]
    by_cases hindex : key head = index
    · subst hindex
      have hother : ∀ row ∈ rows, key row ≠ key head := fun row hrow ↦ (hhead row hrow).symm
      simp only [Function.update_self, Option.some.injEq, List.exists_mem_cons_iff, true_and,
        List.forall_mem_cons, ne_eq, not_true_eq_false, false_and, and_false, or_false]
      constructor
      · rintro (⟨row, hrow, heq, -⟩ | ⟨heq, -⟩)
        · exact absurd heq (hother row hrow)
        · exact Or.inl heq
      · rintro (heq | ⟨row, hrow, heq, -⟩)
        · exact Or.inr ⟨heq, hother⟩
        · exact absurd heq (hother row hrow)
    · simp only [Function.update_of_ne (Ne.symm hindex), List.exists_mem_cons_iff, hindex,
        false_and, false_or, List.forall_mem_cons, ne_eq, not_false_eq_true, true_and]

end VersionedCache

end Pysnmp.Foundation
