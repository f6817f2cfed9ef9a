import Pysnmp.Proto.Acmod.AccessDecision

/-!
# The contents of the four tables

`VacmContents` is a content of the tables: their rows in the order of their instances, with distinct
indices. A row has a cell in every column at most, and a cell may have no value yet, as the status
of a row has that the first SET of another of its columns creates. Reading such a row raises
(`AccessEntry.isReadable_iff`, `FamilyEntry.isReadable_iff`).

`VacmTables` are the rows as they are read. What the tables mean is stated in terms of these:
`Selects` is the access row that applies to a group, the greatest in `preference` of those that fit
the request, and `Decides` the family that decides about a name, the one with the most
sub-identifiers of those that match it and among these the greatest. `Granted` puts the four tables
together.

The last part computes the maps the code builds from such rows.
-/

set_option autoImplicit false
set_option relaxedAutoImplicit false

namespace Pysnmp.Proto.Acmod.TableContents

open Foundation Foundation.VersionedCache Rfc3415

/-! ### Rows as they are read -/

/-- A row of `vacmAccessTable` with its status, 1 when it is active. -/
structure AccessTableRow extends AccessRow where
  vacmAccessStatus : ℕ
  vacmGroupName_ne : vacmGroupName ≠ []

/-- The index of an access row. -/
def accessIndex (row : AccessRow) : Octets × Octets × ℕ × ℕ :=
  (row.vacmGroupName, row.vacmAccessContextPrefix, row.vacmAccessSecurityModel,
    row.vacmAccessSecurityLevel)

/-- The instance identifier of a row of `vacmViewTreeFamilyTable`: its view name and its subtree,
each after its length. -/
def viewInstId (viewName : Octets) (subtree : Oid) : Oid :=
  viewName.length :: viewName.map UInt8.toNat ++ subtree.length :: subtree

/-- The instance identifier of a family. -/
def familyInstId (family : ViewTreeFamily) : Oid :=
  viewInstId family.vacmViewTreeFamilyViewName family.vacmViewTreeFamilySubtree

/-- The rows of the four tables. -/
structure VacmTables where
  contexts : List Octets
  securityToGroup : List SecurityToGroupRow
  access : List AccessTableRow
  viewTreeFamilies : List ViewTreeFamily
  securityToGroup_index : securityToGroup.Pairwise fun first second ↦
    (first.vacmSecurityModel, first.vacmSecurityName) ≠
      (second.vacmSecurityModel, second.vacmSecurityName)
  access_index : access.Pairwise fun first second ↦
    accessIndex first.toAccessRow ≠ accessIndex second.toAccessRow
  viewTreeFamilies_instId : viewTreeFamilies.Pairwise fun first second ↦
    familyInstId first < familyInstId second
  viewName_ne : ∀ family ∈ viewTreeFamilies, family.vacmViewTreeFamilyViewName ≠ []

/-- What reading an access row gives: nothing, when it is not active. -/
def AccessTableRow.reading (row : AccessTableRow) : Option AccessRow :=
  if row.vacmAccessStatus = 1 then some row.toAccessRow else none

namespace VacmTables

/-- The active access rows. -/
def activeRows (tables : VacmTables) : List AccessRow :=
  tables.access.filterMap AccessTableRow.reading

/-- The families of a view. -/
def families (tables : VacmTables) (viewName : Octets) : List ViewTreeFamily :=
  tables.viewTreeFamilies.filter fun family ↦ family.vacmViewTreeFamilyViewName = viewName

end VacmTables

/-! ### Contents -/

/-- A cell that a row is asked for: its value, a syntax without a value, or no such instance. -/
inductive Cell (α : Type)
  | value (value : α)
  | unset
  | missing
  deriving DecidableEq, Repr

/-- `getNode(...).syntax`. -/
def Cell.syntax {α : Type} : Cell α → Except VacmError (Option α)
  | .value held => .ok (some held)
  | .unset => .ok none
  | .missing => .error .noSuchInstance

/-- A row of `vacmAccessTable`. The cells of its index hold the index, and the status is there,
since it is the column that is walked. -/
structure AccessEntry where
  vacmGroupName : Octets
  vacmAccessContextPrefix : Octets
  vacmAccessSecurityModel : ℕ
  vacmAccessSecurityLevel : ℕ
  vacmAccessContextMatch : Cell ContextMatch
  vacmAccessReadViewName : Cell Octets
  vacmAccessWriteViewName : Cell Octets
  vacmAccessNotifyViewName : Cell Octets
  vacmAccessStatus : Option ℕ
  vacmGroupName_ne : vacmGroupName ≠ []

/-- A row of `vacmViewTreeFamilyTable`; the cells of its index hold the index. -/
structure FamilyEntry where
  vacmViewTreeFamilyViewName : Octets
  vacmViewTreeFamilySubtree : Oid
  vacmViewTreeFamilyMask : Cell Octets
  included : Cell Bool
  vacmViewTreeFamilyViewName_ne : vacmViewTreeFamilyViewName ≠ []

namespace AccessEntry

/-- Read an access row: nothing, when it is not active. -/
def reading (entry : AccessEntry) : Except VacmError (Option AccessRow) := do
  let status ← valueOf entry.vacmAccessStatus
  if status ≠ 1 then .ok none
  else do
    let contextMatch ← entry.vacmAccessContextMatch.syntax
    let readViewName ← entry.vacmAccessReadViewName.syntax
    let writeViewName ← entry.vacmAccessWriteViewName.syntax
    let notifyViewName ← entry.vacmAccessNotifyViewName.syntax
    let contextMatch ← valueOf contextMatch
    .ok (some
      { vacmGroupName := entry.vacmGroupName
        vacmAccessContextPrefix := entry.vacmAccessContextPrefix
        vacmAccessSecurityModel := entry.vacmAccessSecurityModel
        vacmAccessSecurityLevel := entry.vacmAccessSecurityLevel
        vacmAccessContextMatch := contextMatch
        vacmAccessReadViewName := readViewName
        vacmAccessWriteViewName := writeViewName
        vacmAccessNotifyViewName := notifyViewName })

/-- The status has a value, and if the row is active, so has the kind of context match, and the
three views have cells. -/
def IsReadable (entry : AccessEntry) : Prop :=
  entry.vacmAccessStatus ≠ none ∧ (entry.vacmAccessStatus = some 1 →
    (∃ contextMatch, entry.vacmAccessContextMatch = .value contextMatch) ∧
      entry.vacmAccessReadViewName ≠ .missing ∧ entry.vacmAccessWriteViewName ≠ .missing ∧
        entry.vacmAccessNotifyViewName ≠ .missing)

/-- An access entry is readable where reading it gives a row. -/
theorem isReadable_iff {entry : AccessEntry} :
    entry.IsReadable ↔ ∃ row, entry.reading = .ok row := by
  obtain ⟨_, _, _, _, contextMatch, readName, writeName, notifyName, status, _⟩ := entry
  cases status with
  | none => simp [IsReadable, reading, valueOf, bind, Except.bind]
  | some status =>
    by_cases hactive : status = 1
    · cases contextMatch <;> cases readName <;> cases writeName <;> cases notifyName <;>
        simp [IsReadable, reading, valueOf, Cell.syntax, bind, Except.bind, hactive]
    · simp [IsReadable, reading, valueOf, bind, Except.bind, hactive]

/-- What keeps a row from being read denies nothing. -/
theorem reading_ne_statusInformation (entry : AccessEntry) (errorIndication : ErrorIndication) :
    entry.reading ≠ .error (.statusInformation errorIndication) := by
  obtain ⟨_, _, _, _, contextMatch, readName, writeName, notifyName, status, _⟩ := entry
  cases status with
  | none => simp [reading, valueOf, bind, Except.bind]
  | some status =>
    by_cases hactive : status = 1
    · cases contextMatch <;> cases readName <;> cases writeName <;> cases notifyName <;>
        simp [reading, valueOf, Cell.syntax, bind, Except.bind, hactive]
    · simp [reading, valueOf, bind, Except.bind, hactive]

/-- The index of a row that is read is that of the entry. -/
theorem index_of_reading {entry : AccessEntry} {row : AccessRow}
    (hreading : entry.reading = .ok (some row)) :
    accessIndex row = (entry.vacmGroupName, entry.vacmAccessContextPrefix,
      entry.vacmAccessSecurityModel, entry.vacmAccessSecurityLevel) := by
  obtain ⟨_, _, _, _, contextMatch, readName, writeName, notifyName, status, _⟩ := entry
  cases status with
  | none => simp [reading, valueOf, bind, Except.bind] at hreading
  | some status =>
    by_cases hactive : status = 1
    · cases contextMatch <;> cases readName <;> cases writeName <;> cases notifyName <;>
        simp [reading, valueOf, Cell.syntax, bind, Except.bind, hactive] at hreading <;>
        rw [← hreading, accessIndex]
    · simp [reading, valueOf, bind, Except.bind, hactive] at hreading

/-- The row, if it is active and can be read. -/
def tableRow (entry : AccessEntry) : Option AccessTableRow :=
  match hreading : entry.reading with
  | .ok (some row) => some
      { toAccessRow := row
        vacmAccessStatus := 1
        vacmGroupName_ne := by
          rw [(Prod.mk.inj (index_of_reading hreading)).1]
          exact entry.vacmGroupName_ne }
  | _ => none

/-- A readable entry is read the same with its cells filled in. -/
theorem tableRow_bind_reading {entry : AccessEntry} {reading : Option AccessRow}
    (hreading : entry.reading = .ok reading) :
    entry.tableRow.bind AccessTableRow.reading = reading := by
  unfold tableRow
  split
  · next row hrow =>
    rw [hreading] at hrow
    rw [Except.ok.inj hrow]
    rfl
  · next hnone =>
    cases reading with
    | none => rfl
    | some row => exact absurd hreading (hnone row)

/-- An entry keeps its index with its cells filled in. -/
theorem index_of_mem_tableRow {entry : AccessEntry} {row : AccessTableRow}
    (hrow : entry.tableRow = some row) :
    accessIndex row.toAccessRow = (entry.vacmGroupName, entry.vacmAccessContextPrefix,
      entry.vacmAccessSecurityModel, entry.vacmAccessSecurityLevel) := by
  unfold tableRow at hrow
  split at hrow
  · next found hreading =>
    rw [← Option.some.inj hrow]
    exact index_of_reading hreading
  · cases hrow

end AccessEntry

namespace FamilyEntry

/-- Read a family: the mask and the type need a value. -/
def reading (entry : FamilyEntry) : Except VacmError ViewTreeFamily := do
  let mask ← entry.vacmViewTreeFamilyMask.syntax
  let mode ← entry.included.syntax
  let mask ← valueOf mask
  let included ← valueOf mode
  .ok
    { vacmViewTreeFamilyViewName := entry.vacmViewTreeFamilyViewName
      vacmViewTreeFamilySubtree := entry.vacmViewTreeFamilySubtree
      vacmViewTreeFamilyMask := mask
      included := included }

/-- The mask and the type have a value. -/
def IsReadable (entry : FamilyEntry) : Prop :=
  (∃ mask, entry.vacmViewTreeFamilyMask = .value mask) ∧
    ∃ included, entry.included = .value included

/-- A family is readable where reading it gives one. -/
theorem isReadable_iff {entry : FamilyEntry} :
    entry.IsReadable ↔ ∃ family, entry.reading = .ok family := by
  obtain ⟨_, _, mask, included, _⟩ := entry
  cases mask <;> cases included <;>
    simp [IsReadable, reading, valueOf, Cell.syntax, bind, Except.bind]

/-- A family is never refused with an error indication. -/
theorem reading_ne_statusInformation (entry : FamilyEntry) (errorIndication : ErrorIndication) :
    entry.reading ≠ .error (.statusInformation errorIndication) := by
  obtain ⟨_, _, mask, included, _⟩ := entry
  cases mask <;> cases included <;> simp [reading, valueOf, Cell.syntax, bind, Except.bind]

/-- The index of a family that is read is that of the entry. -/
theorem index_of_reading {entry : FamilyEntry} {family : ViewTreeFamily}
    (hreading : entry.reading = .ok family) :
    family.vacmViewTreeFamilyViewName = entry.vacmViewTreeFamilyViewName ∧
      family.vacmViewTreeFamilySubtree = entry.vacmViewTreeFamilySubtree := by
  obtain ⟨_, _, mask, included, _⟩ := entry
  cases mask <;> cases included <;>
    simp [reading, valueOf, Cell.syntax, bind, Except.bind] at hreading
  simp [← hreading]

/-- The family, if it can be read. -/
def family (entry : FamilyEntry) : Option ViewTreeFamily :=
  entry.reading.toOption

/-- An entry is a family where reading it gives one. -/
theorem family_eq_some_iff {entry : FamilyEntry} {family : ViewTreeFamily} :
    entry.family = some family ↔ entry.reading = .ok family := by
  rw [FamilyEntry.family]
  cases entry.reading <;> simp [Except.toOption]

end FamilyEntry

/-- A content of the four tables. -/
structure VacmContents where
  contexts : List Octets
  securityToGroup : List SecurityToGroupRow
  access : List AccessEntry
  viewTreeFamilies : List FamilyEntry
  securityToGroup_index : securityToGroup.Pairwise fun first second ↦
    (first.vacmSecurityModel, first.vacmSecurityName) ≠
      (second.vacmSecurityModel, second.vacmSecurityName)
  access_index : access.Pairwise fun first second ↦
    (first.vacmGroupName, first.vacmAccessContextPrefix, first.vacmAccessSecurityModel,
        first.vacmAccessSecurityLevel) ≠
      (second.vacmGroupName, second.vacmAccessContextPrefix, second.vacmAccessSecurityModel,
        second.vacmAccessSecurityLevel)
  viewTreeFamilies_instId : viewTreeFamilies.Pairwise fun first second ↦
    viewInstId first.vacmViewTreeFamilyViewName first.vacmViewTreeFamilySubtree <
      viewInstId second.vacmViewTreeFamilyViewName second.vacmViewTreeFamilySubtree

namespace VacmContents

variable (contents : VacmContents)

/-- The tables as a check reads them, at the given branch versions. -/
def source (versions : Fin 4 → ℤ) : VacmSource where
  contexts := ⟨versions 0, contents.contexts.map .ok⟩
  securityToGroup := ⟨versions 1, contents.securityToGroup.map .ok⟩
  access := ⟨versions 2, contents.access.map AccessEntry.reading⟩
  viewTreeFamilies := ⟨versions 3, contents.viewTreeFamilies.map FamilyEntry.reading⟩

/-- The rows that can be read. -/
def tables : VacmTables where
  contexts := contents.contexts
  securityToGroup := contents.securityToGroup
  access := contents.access.filterMap AccessEntry.tableRow
  viewTreeFamilies := contents.viewTreeFamilies.filterMap FamilyEntry.family
  securityToGroup_index := contents.securityToGroup_index
  access_index := by
    refine contents.access_index.filterMap _ fun first second hindex row hrow other hother ↦ ?_
    rw [AccessEntry.index_of_mem_tableRow hrow, AccessEntry.index_of_mem_tableRow hother]
    exact hindex
  viewTreeFamilies_instId := by
    refine contents.viewTreeFamilies_instId.filterMap _ fun first second hlt row hrow other
      hother ↦ ?_
    obtain ⟨hname, hsubtree⟩ :=
      FamilyEntry.index_of_reading (FamilyEntry.family_eq_some_iff.mp hrow)
    obtain ⟨hotherName, hotherSubtree⟩ :=
      FamilyEntry.index_of_reading (FamilyEntry.family_eq_some_iff.mp hother)
    rw [familyInstId, familyInstId, hname, hsubtree, hotherName, hotherSubtree]
    exact hlt
  viewName_ne := by
    intro family hmem
    obtain ⟨entry, -, hreading⟩ := List.mem_filterMap.mp hmem
    rw [(FamilyEntry.index_of_reading (FamilyEntry.family_eq_some_iff.mp hreading)).1]
    exact entry.vacmViewTreeFamilyViewName_ne

end VacmContents

/-! ### What the tables mean -/

/-- An access row fits a request of a group: its context is the requested one, or a prefix of it
where the row says so, its model is the requested one or any, its level is not higher. -/
structure Fits (request : AccessRequest) (groupName : Octets) (row : AccessRow) : Prop where
  group : row.vacmGroupName = groupName
  context : match row.vacmAccessContextMatch with
    | .exactMatch => row.vacmAccessContextPrefix = request.contextName
    | .prefixMatch => row.vacmAccessContextPrefix <+: request.contextName
  model : row.vacmAccessSecurityModel = request.securityModel ∨ row.vacmAccessSecurityModel = 0
  level : row.vacmAccessSecurityLevel ≤ request.securityLevel

/-- The preference of an access row for a request. -/
def rowPreference (request : AccessRequest) (row : AccessRow) : Bool ×ₗ Bool ×ₗ ℕ ×ₗ ℕ :=
  preference request row.vacmAccessContextPrefix row.vacmAccessSecurityModel
    row.vacmAccessSecurityLevel

/-- The access row selected for a group: active, fitting, and preferred to the others that are. -/
structure Selects (tables : VacmTables) (request : AccessRequest) (groupName : Octets)
    (row : AccessRow) : Prop where
  mem : row ∈ tables.activeRows
  fits : Fits request groupName row
  preferred : ∀ other ∈ tables.activeRows, Fits request groupName other →
    rowPreference request other ≤ rowPreference request row

/-- The context is known, and the row of the security name has this for a group name. -/
def ReachesGroup (tables : VacmTables) (request : AccessRequest) (groupName : Option Octets) :
    Prop :=
  request.contextName ∈ tables.contexts ∧
    ⟨request.securityModel, request.securityName, groupName⟩ ∈ tables.securityToGroup

/-- The checks of the first three tables lead to a row that has this for a view name. -/
def ReachesView (tables : VacmTables) (request : AccessRequest) (viewName : Option Octets) :
    Prop :=
  ∃ groupName, ReachesGroup tables request (some groupName) ∧
    ∃ row, Selects tables request groupName row ∧ row.viewName request.viewType = viewName

/-- The mask bit of a position of the subtree; a mask that is too short is extended with ones. -/
def maskBit (mask : Octets) (position : ℕ) : Bool :=
  match mask[position / 8]? with
  | none => true
  | some octet => octet.toNat.testBit (7 - position % 8)

/-- A family matches a name that has as many sub-identifiers and agrees with its subtree wherever
the mask has a one. -/
def familyMatches (name : Oid) (family : ViewTreeFamily) : Bool :=
  let subtree := family.vacmViewTreeFamilySubtree
  decide (subtree.length ≤ name.length) &&
    (List.range subtree.length).all fun position ↦
      !maskBit family.vacmViewTreeFamilyMask position || name[position]? == subtree[position]?

/-- The order in which matching families are preferred: more sub-identifiers, then the greater
subtree. -/
def familyRank (family : ViewTreeFamily) : ℕ ×ₗ Oid :=
  toLex (family.vacmViewTreeFamilySubtree.length, family.vacmViewTreeFamilySubtree)

/-- The family that decides about a name. -/
def Decides (tables : VacmTables) (viewName : Octets) (name : Oid) (family : ViewTreeFamily) :
    Prop :=
  LastMatch.IsGreatestMatch familyRank (familyMatches name) (tables.families viewName) family

/-- The four tables grant the request. -/
def Granted (tables : VacmTables) (request : AccessRequest) : Prop :=
  ∃ viewName ≠ [], ReachesView tables request (some viewName) ∧
    ∃ family, Decides tables viewName request.variableName family ∧ family.included = true

/-! ### The maps the code builds -/

section Maps

variable (contents : VacmContents) (versions : Fin 4 → ℤ)

/-- The map of contexts holds the names of the context table. -/
theorem build_contexts :
    ∃ contextMap, build contextAssembly (contents.source versions).contexts = .ok contextMap ∧
      ∀ name, contextMap name = true ↔ name ∈ contents.contexts := by
  refine ⟨_, by rw [build, VacmContents.source, addRows_map_ok]; rfl, fun name ↦ ?_⟩
  suffices hfold : ∀ contextMap : Octets → Bool,
      contents.contexts.foldl (fun contextMap name ↦ Function.update contextMap name true)
          contextMap name = true ↔
        name ∈ contents.contexts ∨ contextMap name = true from
    (hfold fun _ ↦ false).trans (or_iff_left Bool.false_ne_true)
  induction contents.contexts with
  | nil => simp
  | cons head rest ih =>
    intro contextMap
    rw [List.foldl_cons, ih, List.mem_cons]
    by_cases hname : name = head
    · simp [hname]
    · simp [hname]

/-- The map of groups holds the rows of the group table. -/
theorem build_securityToGroup :
    ∃ groupNameMap, build groupNameAssembly (contents.source versions).securityToGroup =
        .ok groupNameMap ∧
      ∀ securityModel securityName groupName,
        groupNameMap (securityModel, securityName) = some groupName ↔
          ⟨securityModel, securityName, groupName⟩ ∈ contents.securityToGroup := by
  refine ⟨_, by rw [build, VacmContents.source, addRows_map_ok]; rfl, fun model name group ↦ ?_⟩
  refine (foldl_update_eq_some_iff contents.securityToGroup_index _ _ _).trans ?_
  constructor
  · rintro (⟨row, hrow, hindex, rfl⟩ | ⟨hempty, -⟩)
    · obtain ⟨rfl, rfl⟩ := Prod.mk.inj hindex
      exact hrow
    · cases hempty
  · exact fun hrow ↦ Or.inl ⟨_, hrow, rfl, rfl⟩

/-- Rows that can all be read are read to what they hold. -/
theorem map_reading_eq {entries : List FamilyEntry}
    (hreadable : ∀ entry ∈ entries, entry.IsReadable) :
    entries.map FamilyEntry.reading = (entries.filterMap FamilyEntry.family).map .ok := by
  induction entries with
  | nil => rfl
  | cons entry entries ih =>
    obtain ⟨family, hreading⟩ := FamilyEntry.isReadable_iff.mp (hreadable entry List.mem_cons_self)
    have hrest := ih fun other hother ↦ hreadable other (List.mem_cons_of_mem _ hother)
    have hfamily := FamilyEntry.family_eq_some_iff.mpr hreading
    rw [List.map_cons, hrest, List.filterMap_cons_some hfamily, List.map_cons, hreading]

/-- With families that can all be read, the view tree map. -/
theorem build_viewTreeFamilies
    (hreadable : ∀ entry ∈ contents.viewTreeFamilies, entry.IsReadable) :
    ∃ viewTreeMap, build viewTreeAssembly (contents.source versions).viewTreeFamilies =
        .ok viewTreeMap ∧
      ∀ viewName, viewTreeMap viewName =
        if contents.tables.families viewName = [] then none
        else some (LastMatch.sortByKey
          (fun entry : ViewTreeEntry ↦ toLex (entry.subtree.length, entry.subtree))
          ((contents.tables.families viewName).map ViewTreeFamily.entry)) := by
  refine ⟨_, by rw [build, VacmContents.source, map_reading_eq hreadable, addRows_map_ok]; rfl,
    fun viewName ↦ ?_⟩
  rw [← show contents.tables.viewTreeFamilies = contents.viewTreeFamilies.filterMap
    FamilyEntry.family from rfl]
  generalize contents.tables = tables
  suffices hfold : ∀ viewTreeMap : Octets → Option (List ViewTreeEntry),
      tables.viewTreeFamilies.foldl (fun map family ↦ viewTreeAssembly.add family map)
          viewTreeMap viewName =
        if tables.families viewName = [] then viewTreeMap viewName
        else some ((viewTreeMap viewName).getD [] ++
          (tables.families viewName).map ViewTreeFamily.entry) by
    change Option.map _ (tables.viewTreeFamilies.foldl
      (fun map family ↦ viewTreeAssembly.add family map) viewTreeAssembly.empty viewName) = _
    rw [hfold]
    split_ifs <;> rfl
  unfold VacmTables.families
  induction tables.viewTreeFamilies with
  | nil => intro viewTreeMap; rfl
  | cons head rest ih =>
    intro viewTreeMap
    rw [List.foldl_cons, ih]
    by_cases hname : head.vacmViewTreeFamilyViewName = viewName
    · subst hname
      rw [List.filter_cons_of_pos (by simp)]
      by_cases hrest : rest.filter (fun family ↦
        family.vacmViewTreeFamilyViewName = head.vacmViewTreeFamilyViewName) = []
      · simp [hrest, viewTreeAssembly]
      · simp [hrest, viewTreeAssembly]
    · rw [List.filter_cons_of_neg (by simpa using hname)]
      simp [viewTreeAssembly, Function.update_of_ne (Ne.symm hname)]

/-- The keys and views that a row adds to the access map. -/
def accessPairs (row : AccessRow) : List (AccessKey × Option Octets) :=
  [ViewType.read, .write, .notify].map fun viewType ↦ (row.key viewType, row.viewName viewType)

/-- An access row gives one pair for each type of view. -/
theorem mem_accessPairs {row : AccessRow} {key : AccessKey} {viewName : Option Octets} :
    (key, viewName) ∈ accessPairs row ↔
      ∃ viewType, row.key viewType = key ∧ row.viewName viewType = viewName := by
  simp only [accessPairs, List.mem_map, Prod.mk.injEq]
  constructor
  · rintro ⟨viewType, -, hpair⟩
    exact ⟨viewType, hpair⟩
  · rintro ⟨viewType, hpair⟩
    exact ⟨viewType, by cases viewType <;> simp, hpair⟩

/-- Insert a list of keys and views in turn. -/
def insertPairs (accessMap : AccessMap) (pairs : List (AccessKey × Option Octets)) : AccessMap :=
  pairs.foldl (fun accessMap pair ↦ accessMap.insert pair.1 pair.2) accessMap

/-- Filling the access map by insertion, seen through its lookup. -/
theorem lookup_insertPairs (pairs : List (AccessKey × Option Octets)) (accessMap : AccessMap) :
    (fun key ↦ (insertPairs accessMap pairs).lookup key) =
      pairs.foldl
        (fun (dict : AccessKey → Option (Option Octets)) pair ↦
          Function.update dict pair.1 (some pair.2))
        fun key ↦ accessMap.lookup key := by
  induction pairs generalizing accessMap with
  | nil => rfl
  | cons pair pairs ih =>
    rw [insertPairs, List.foldl_cons, List.foldl_cons, ← insertPairs, ih]
    congr 1
    funext key
    by_cases hkey : key = pair.1
    · subst hkey
      rw [AList.lookup_insert, Function.update_self]
    · rw [AList.lookup_insert_ne hkey, Function.update_of_ne hkey]

/-- Adding the rows one after the other inserts their pairs. -/
theorem foldl_addAccessEntry {rows : List AccessRow} (hgroup : ∀ row ∈ rows, row.vacmGroupName ≠ [])
    (accessMap : AccessMap) :
    rows.foldl (fun accessMap row ↦ addAccessEntry row accessMap) accessMap =
      insertPairs accessMap (rows.flatMap accessPairs) := by
  induction rows generalizing accessMap with
  | nil => rfl
  | cons row rows ih =>
    rw [List.foldl_cons, List.flatMap_cons, insertPairs, List.foldl_append, ← insertPairs,
      ih fun other hother ↦ hgroup other (List.mem_cons_of_mem _ hother), addAccessEntry,
      if_neg (hgroup row List.mem_cons_self)]
    rfl

/-- Only active entries are added. -/
theorem mem_activeRows {tables : VacmTables} {row : AccessRow} :
    row ∈ tables.activeRows ↔
      ∃ entry ∈ tables.access, entry.vacmAccessStatus = 1 ∧ entry.toAccessRow = row := by
  simp [VacmTables.activeRows, AccessTableRow.reading, List.mem_filterMap]

/-- Active rows differ in their index. -/
theorem activeRows_index (tables : VacmTables) :
    tables.activeRows.Pairwise fun first second ↦ accessIndex first ≠ accessIndex second := by
  refine tables.access_index.filterMap _ fun first second hindex row hrow other hother ↦ ?_
  simp only [AccessTableRow.reading, Option.ite_none_right_eq_some, Option.some.injEq]
    at hrow hother
  rwa [← hrow.2, ← hother.2]

/-- No two pairs of the active rows have the same key. -/
theorem accessPairs_keys (tables : VacmTables) :
    (tables.activeRows.flatMap accessPairs).Pairwise fun first second ↦ first.1 ≠ second.1 := by
  refine List.pairwise_flatMap.mpr ⟨fun row _ ↦ ?_, ?_⟩
  · simp [accessPairs, AccessRow.key]
  · refine (activeRows_index tables).imp fun hindex pair hpair other hother heq ↦ hindex ?_
    obtain ⟨viewType, hkey, -⟩ := mem_accessPairs.mp hpair
    obtain ⟨otherType, hotherKey, -⟩ := mem_accessPairs.mp hother
    rw [← hkey, ← hotherKey, AccessRow.key, AccessRow.key, AccessKey.mk.injEq] at heq
    obtain ⟨hgroup, -, -, hcontext, hmodel, hlevel⟩ := heq
    simp only [accessIndex, hgroup, hcontext, hmodel, hlevel]

/-- An active row has a group name. -/
theorem activeRows_vacmGroupName_ne {tables : VacmTables} {row : AccessRow}
    (hrow : row ∈ tables.activeRows) : row.vacmGroupName ≠ [] := by
  obtain ⟨entry, -, -, rfl⟩ := mem_activeRows.mp hrow
  exact entry.vacmGroupName_ne

/-- The access map that the active rows are remembered in. -/
def VacmTables.accessMap (tables : VacmTables) : AccessMap :=
  tables.activeRows.foldl (fun accessMap row ↦ addAccessEntry row accessMap) ∅

/-- The map holds the views of the active rows under their keys. -/
theorem lookup_accessMap (tables : VacmTables) (key : AccessKey) (viewName : Option Octets) :
    tables.accessMap.lookup key = some viewName ↔
      ∃ row ∈ tables.activeRows, ∃ viewType, row.key viewType = key ∧
        row.viewName viewType = viewName := by
  rw [VacmTables.accessMap, foldl_addAccessEntry fun _ ↦ activeRows_vacmGroupName_ne]
  refine (iff_of_eq (congrArg (· = some viewName)
    (congrFun (lookup_insertPairs _ ∅) key))).trans ?_
  refine (foldl_update_eq_some_iff (accessPairs_keys tables) _ _ _).trans ?_
  simp only [AList.lookup_empty, reduceCtorEq, false_and, or_false]
  constructor
  · rintro ⟨⟨_, _⟩, hpair, rfl, rfl⟩
    obtain ⟨row, hrow, hpair⟩ := List.mem_flatMap.mp hpair
    exact ⟨row, hrow, mem_accessPairs.mp hpair⟩
  · rintro ⟨row, hrow, hpair⟩
    exact ⟨(key, viewName), List.mem_flatMap.mpr ⟨row, hrow, mem_accessPairs.mpr hpair⟩, rfl, rfl⟩

/-- With access rows that can all be read, the access map. -/
theorem build_access (hreadable : ∀ entry ∈ contents.access, entry.IsReadable) :
    build accessAssembly (contents.source versions).access = .ok contents.tables.accessMap := by
  suffices hadd : ∀ accessMap : AccessMap,
      addRows accessAssembly accessMap (contents.access.map AccessEntry.reading) =
        .ok (((contents.access.filterMap AccessEntry.tableRow).filterMap
          AccessTableRow.reading).foldl (fun accessMap row ↦ addAccessEntry row accessMap)
            accessMap) by
    rw [build, VacmContents.source, hadd]
    rfl
  revert hreadable
  induction contents.access with
  | nil => exact fun _ _ ↦ rfl
  | cons entry entries ih =>
    intro hreadable accessMap
    obtain ⟨row, hreading⟩ := AccessEntry.isReadable_iff.mp (hreadable entry List.mem_cons_self)
    have hbind := AccessEntry.tableRow_bind_reading hreading
    have hrest := ih (fun other hother ↦ hreadable other (List.mem_cons_of_mem _ hother))
      (accessAssembly.add row accessMap)
    rw [List.map_cons, hreading, addRows, hrest, List.filterMap_filterMap, List.filterMap_filterMap]
    simp only [List.filterMap_cons, hbind]
    cases row <;> rfl

/-- A row that cannot be read keeps the access map from being built. -/
theorem build_access_eq_error (hreadable : ¬ ∀ entry ∈ contents.access, entry.IsReadable) :
    ∃ exception, build accessAssembly (contents.source versions).access = .error exception ∧
      ∀ errorIndication, exception ≠ .statusInformation errorIndication := by
  push Not at hreadable
  obtain ⟨entry, hentry, hunreadable⟩ := hreadable
  cases hreading : entry.reading with
  | ok row => exact absurd (AccessEntry.isReadable_iff.mpr ⟨row, hreading⟩) hunreadable
  | error exception =>
    have hrow : .error exception ∈ (contents.source versions).access.rows :=
      List.mem_map.mpr ⟨entry, hentry, hreading⟩
    obtain ⟨raised, hmem, herror⟩ :
        ∃ raised, .error raised ∈ (contents.source versions).access.rows ∧
        build accessAssembly (contents.source versions).access = .error raised :=
      exists_build_eq_error hrow
    obtain ⟨other, -, hother⟩ := List.mem_map.mp hmem
    refine ⟨raised, herror, fun errorIndication heq ↦ ?_⟩
    exact other.reading_ne_statusInformation errorIndication (heq ▸ hother)

/-- A family that cannot be read keeps the view tree map from being built. -/
theorem build_viewTreeFamilies_eq_error
    (hreadable : ¬ ∀ entry ∈ contents.viewTreeFamilies, entry.IsReadable) :
    ∃ exception, build viewTreeAssembly (contents.source versions).viewTreeFamilies =
        .error exception ∧
      ∀ errorIndication, exception ≠ .statusInformation errorIndication := by
  push Not at hreadable
  obtain ⟨entry, hentry, hunreadable⟩ := hreadable
  cases hreading : entry.reading with
  | ok family => exact absurd (FamilyEntry.isReadable_iff.mpr ⟨family, hreading⟩) hunreadable
  | error exception =>
    have hrow : .error exception ∈ (contents.source versions).viewTreeFamilies.rows :=
      List.mem_map.mpr ⟨entry, hentry, hreading⟩
    obtain ⟨raised, hmem, herror⟩ : ∃ raised,
        .error raised ∈ (contents.source versions).viewTreeFamilies.rows ∧
          build viewTreeAssembly (contents.source versions).viewTreeFamilies = .error raised :=
      exists_build_eq_error hrow
    obtain ⟨other, -, hother⟩ := List.mem_map.mp hmem
    refine ⟨raised, herror, fun errorIndication heq ↦ ?_⟩
    exact other.reading_ne_statusInformation errorIndication (heq ▸ hother)

end Maps

end Pysnmp.Proto.Acmod.TableContents
