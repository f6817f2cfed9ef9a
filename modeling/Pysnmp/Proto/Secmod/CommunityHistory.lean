import Pysnmp.Foundation.Run
import Pysnmp.Proto.Secmod.CommunityDecision

/-!
# Lookups over a history of writes

A history is a sequence of SETs of the three tables and of lookups by one model object. A written
cell raises the branch version of its column, and a row that is created or destroyed that of every
column (`ConceptualTable.change`). A lookup is to find what a new model object would
(`AnswersAsFresh`).

Each map joins several columns and watches one. A history in which every SET of a map's table that
its cache would miss leaves the table as it was read, and in which a lookup of a security name never
rebuilds the map of the target parameters while a security name has two models, has that property
(`everyStep_answersAsFresh`).
-/

set_option autoImplicit false
set_option relaxedAutoImplicit false

namespace Pysnmp.Proto.Secmod.CommunityHistory

open Foundation Foundation.Effect Foundation.VersionedCache Rfc2576 CommunityDecision

/-! ### Writing the tables -/

/-- A value for a column of `snmpTargetAddrTable`. -/
inductive TargetAddrCell
  | snmpTargetAddrTDomain (value : Oid)
  | snmpTargetAddrTAddress (value : Octets)
  | snmpTargetAddrTagList (value : Octets)
  deriving DecidableEq, Repr

/-- A value for a column of `snmpTargetParamsTable`. -/
inductive TargetParamsCell
  | snmpTargetParamsSecurityName (value : Octets)
  | snmpTargetParamsSecurityModel (value : ℤ)
  deriving DecidableEq, Repr

/-- A value for a column of `snmpCommunityTable`. -/
inductive CommunityCell
  | snmpCommunityName (value : Octets)
  | snmpCommunitySecurityName (value : Octets)
  | snmpCommunityContextEngineID (value : Octets)
  | snmpCommunityContextName (value : Octets)
  | snmpCommunityTransportTag (value : Octets)
  deriving DecidableEq, Repr

/-- The cells of a table: the column of each, and how it is put into a row. -/
structure Layout (Column Cell Row : Type) where
  column : Cell → Column
  put : Cell → Row → Row

def targetAddrLayout : Layout TargetAddrColumn TargetAddrCell TargetAddrRow where
  column
    | .snmpTargetAddrTDomain _ => .snmpTargetAddrTDomain
    | .snmpTargetAddrTAddress _ => .snmpTargetAddrTAddress
    | .snmpTargetAddrTagList _ => .snmpTargetAddrTagList
  put
    | .snmpTargetAddrTDomain value, row => { row with snmpTargetAddrTDomain := some value }
    | .snmpTargetAddrTAddress value, row => { row with snmpTargetAddrTAddress := some value }
    | .snmpTargetAddrTagList value, row => { row with snmpTargetAddrTagList := some value }

def targetParamsLayout : Layout TargetParamsColumn TargetParamsCell TargetParamsRow where
  column
    | .snmpTargetParamsSecurityName _ => .snmpTargetParamsSecurityName
    | .snmpTargetParamsSecurityModel _ => .snmpTargetParamsSecurityModel
  put
    | .snmpTargetParamsSecurityName value, row =>
      { row with snmpTargetParamsSecurityName := some value }
    | .snmpTargetParamsSecurityModel value, row =>
      { row with snmpTargetParamsSecurityModel := some value }

def communityLayout : Layout CommunityColumn CommunityCell CommunityRow where
  column
    | .snmpCommunityName _ => .snmpCommunityName
    | .snmpCommunitySecurityName _ => .snmpCommunitySecurityName
    | .snmpCommunityContextEngineID _ => .snmpCommunityContextEngineID
    | .snmpCommunityContextName _ => .snmpCommunityContextName
    | .snmpCommunityTransportTag _ => .snmpCommunityTransportTag
  put
    | .snmpCommunityName value, row => { row with snmpCommunityName := some value }
    | .snmpCommunitySecurityName value, row => { row with snmpCommunitySecurityName := some value }
    | .snmpCommunityContextEngineID value, row =>
      { row with snmpCommunityContextEngineID := some value }
    | .snmpCommunityContextName value, row => { row with snmpCommunityContextName := some value }
    | .snmpCommunityTransportTag value, row => { row with snmpCommunityTransportTag := some value }

/-- What a binding of a SET does to a table: it writes a cell of a row, creates a row, with the
values its columns start from, or destroys one. -/
inductive RowChange (Cell Row : Type)
  | write (index : Oid) (cell : Cell)
  | create (index : Oid) (row : Row)
  | destroy (index : Oid)
  deriving DecidableEq, Repr

section Change

variable {Column Cell Row Reading : Type} [DecidableEq Column] (layout : Layout Column Cell Row)

/-- Put a cell into the row with an index. -/
def putCell (rows : SortedMap Oid Row) (index : Oid) (cell : Cell) : SortedMap Oid Row :=
  match rows.get? index with
  | none => rows
  | some row => rows.insert index (layout.put cell row)

/-- The change of a table. `MibTableColumn.writeCleanup` counts a written cell twice, itself and as
a scalar. -/
def change (table : ConceptualTable Column Row) :
    RowChange Cell Row → ConceptualTable Column Row
  | .write index cell =>
    { rows := putCell layout table.rows index cell
      branchVersionId := Function.update table.branchVersionId (layout.column cell)
        (table.branchVersionId (layout.column cell) + 2) }
  | .create index row =>
    { rows := table.rows.insert index row
      branchVersionId := fun column ↦ table.branchVersionId column + 1 }
  | .destroy index =>
    { rows := table.rows.erase index
      branchVersionId := fun column ↦ table.branchVersionId column + 1 }

/-- The changes a SET makes to a table. -/
def changes (table : ConceptualTable Column Row) (rowChanges : List (RowChange Cell Row)) :
    ConceptualTable Column Row :=
  rowChanges.foldl (change layout) table

/-- Whether a change raises the branch version of a column. -/
def raises (column : Column) : RowChange Cell Row → Bool
  | .write _ cell => layout.column cell == column
  | .create _ _ => true
  | .destroy _ => true

/-- A cache at the version of a table does not miss a SET: the SET raises the version it watches, or
leaves the rows as they are read. -/
def IsSeen {Map : Type} (cache : VersionedCache Map) (table : ConceptualTable Column Row)
    (column : Column) (readRow : Row → Except CommunityError Reading)
    (rowChanges : List (RowChange Cell Row)) : Prop :=
  cache.version = table.branchVersionId column →
    rowChanges.any (raises layout column) ∨
      (changes layout table rowChanges).rows.values.map readRow = table.rows.values.map readRow

variable {layout} {table : ConceptualTable Column Row} {column : Column}

theorem branchVersionId_le_change (rowChange : RowChange Cell Row) :
    table.branchVersionId column ≤ (change layout table rowChange).branchVersionId column := by
  cases rowChange with
  | write index cell =>
    by_cases hcolumn : column = layout.column cell
    · subst hcolumn
      simp [change]
    · simp [change, Function.update_of_ne hcolumn]
  | create index row => simp [change]
  | destroy index => simp [change]

theorem branchVersionId_lt_change {rowChange : RowChange Cell Row}
    (hraises : raises layout column rowChange = true) :
    table.branchVersionId column < (change layout table rowChange).branchVersionId column := by
  cases rowChange with
  | write index cell =>
    obtain rfl : layout.column cell = column := beq_iff_eq.mp hraises
    simp [change]
  | create index row => simp [change]
  | destroy index => simp [change]

/-- No SET lowers a version, and a SET one of whose changes raises it does. -/
theorem branchVersionId_changes (layout : Layout Column Cell Row)
    (table : ConceptualTable Column Row) (column : Column)
    (rowChanges : List (RowChange Cell Row)) :
    table.branchVersionId column ≤ (changes layout table rowChanges).branchVersionId column ∧
      (rowChanges.any (raises layout column) = true → table.branchVersionId column <
        (changes layout table rowChanges).branchVersionId column) := by
  induction rowChanges generalizing table with
  | nil => exact ⟨le_rfl, fun hany ↦ by simp at hany⟩
  | cons rowChange rowChanges ih =>
    obtain ⟨hle, hlt⟩ := ih (change layout table rowChange)
    rw [changes, List.foldl_cons, ← changes]
    refine ⟨(branchVersionId_le_change rowChange).trans hle, fun hany ↦ ?_⟩
    rw [List.any_cons, Bool.or_eq_true] at hany
    rcases hany with hhead | htail
    · exact (branchVersionId_lt_change hhead).trans_le hle
    · exact (branchVersionId_le_change rowChange).trans_lt (hlt htail)

/-- A cache that does not miss a SET stays coherent. -/
theorem coherent_changes {Map : Type} {assembly : Assembly Reading Map}
    {cache : VersionedCache Map} {readRow : Row → Except CommunityError Reading}
    {rowChanges : List (RowChange Cell Row)}
    (hcoherent : VersionedCache.Coherent assembly (table.watch column readRow) cache)
    (hahead : cache.version ≤ (table.watch column readRow).version)
    (hseen : IsSeen layout cache table column readRow rowChanges) :
    VersionedCache.Coherent assembly ((changes layout table rowChanges).watch column readRow)
      cache := by
  obtain ⟨hle, hlt⟩ := branchVersionId_changes layout table column rowChanges
  refine hcoherent.of_change hahead (Int.ofNat_le.mpr hle) fun hversion ↦ ?_
  exact (hseen hversion).imp (fun hany ↦ Int.ofNat_lt.mpr (hlt hany)) id

theorem version_le_changes {readRow : Row → Except CommunityError Reading}
    (rowChanges : List (RowChange Cell Row)) :
    (table.watch column readRow).version ≤
      ((changes layout table rowChanges).watch column readRow).version :=
  Int.ofNat_le.mpr (branchVersionId_changes layout table column rowChanges).1

end Change

/-! ### Histories -/

/-- What one SET changes. -/
structure SetRequest where
  targetAddrs : List (RowChange TargetAddrCell TargetAddrRow)
  targetParams : List (RowChange TargetParamsCell TargetParamsRow)
  communities : List (RowChange CommunityCell CommunityRow)

/-- The tables after a SET. -/
def SetRequest.apply (request : SetRequest) (tables : CommunityTables) : CommunityTables where
  snmpTargetAddrTable := changes targetAddrLayout tables.snmpTargetAddrTable request.targetAddrs
  snmpTargetParamsTable :=
    changes targetParamsLayout tables.snmpTargetParamsTable request.targetParams
  snmpCommunityTable := changes communityLayout tables.snmpCommunityTable request.communities

/-- A step of a history. -/
inductive Event
  | set (request : SetRequest)
  | sec2com (entry : SecurityEntry)
  | com2sec (communityName : Octets) (transportInformation : TransportInformation)

/-- The tables and the model object. -/
structure State where
  tables : CommunityTables
  model : SnmpV1SecurityModel

variable (interpreter : Interpreter) (securityModelID : ℤ)

/-- One step of a history. -/
def step (state : State) : Event → State
  | .set request => { state with tables := request.apply state.tables }
  | .sec2com entry => { state with model := ((sec2com state.tables entry).run state.model).2 }
  | .com2sec communityName transportInformation =>
    { state with model := ((com2sec interpreter state.tables securityModelID communityName
        transportInformation).run state.model).2 }

/-- A lookup finds what a new model object finds in the same tables. -/
def AnswersAsFresh (state : State) : Event → Prop
  | .set _ => True
  | .sec2com entry =>
    ((sec2com state.tables entry).run state.model).1 =
      ((sec2com state.tables entry).run .initial).1
  | .com2sec communityName transportInformation =>
    ((com2sec interpreter state.tables securityModelID communityName transportInformation).run
        state.model).1 =
      ((com2sec interpreter state.tables securityModelID communityName transportInformation).run
        .initial).1

/-- None of the four caches misses a SET. -/
structure MissesNone (state : State) (request : SetRequest) : Prop where
  transportToTagMap : IsSeen targetAddrLayout state.model.transportToTagMap
    state.tables.snmpTargetAddrTable .snmpTargetAddrTAddress (readTargetAddr interpreter)
    request.targetAddrs
  nameToModelMap : IsSeen targetParamsLayout state.model.nameToModelMap
    state.tables.snmpTargetParamsTable .snmpTargetParamsSecurityName .ok request.targetParams
  communityMaps : IsSeen communityLayout state.model.communityMaps
    state.tables.snmpCommunityTable .snmpCommunityName .ok request.communities
  securityMap : IsSeen communityLayout state.model.securityMap
    state.tables.snmpCommunityTable .snmpCommunityName .ok request.communities

/-- A step after which every cache still says what the tables do. -/
def IsTracked (state : State) : Event → Prop
  | .set request => MissesNone interpreter state request
  | .sec2com _ => IsHarmless state.tables state.model
  | .com2sec _ _ => True

/-- The model object is coherent with the tables and ahead of none. -/
structure Sound (state : State) : Prop where
  coherent : Coherent interpreter state.tables state.model
  notAhead : NotAhead interpreter state.tables state.model

variable {interpreter securityModelID}

theorem sound_initial (tables : CommunityTables) : Sound interpreter ⟨tables, .initial⟩ :=
  ⟨coherent_initial, notAhead_initial⟩

theorem Sound.of_kept {state : State} {model : SnmpV1SecurityModel}
    (hsound : Sound interpreter state) (hkept : Kept interpreter state.tables state.model model) :
    Sound interpreter { state with model } :=
  ⟨hkept.1 hsound.coherent, hkept.2 hsound.notAhead⟩

/-- A SET that no cache misses. -/
theorem sound_set {state : State} {request : SetRequest} (hsound : Sound interpreter state)
    (hmisses : MissesNone interpreter state request) :
    Sound interpreter { state with tables := request.apply state.tables } where
  coherent :=
    { transportToTagMap := coherent_changes hsound.coherent.transportToTagMap
        hsound.notAhead.transportToTagMap hmisses.transportToTagMap
      nameToModelMap := coherent_changes hsound.coherent.nameToModelMap
        hsound.notAhead.nameToModelMap hmisses.nameToModelMap
      communityMaps := coherent_changes hsound.coherent.communityMaps
        hsound.notAhead.communityMaps hmisses.communityMaps
      securityMap := coherent_changes hsound.coherent.securityMap
        hsound.notAhead.securityMap hmisses.securityMap }
  notAhead :=
    { transportToTagMap := hsound.notAhead.transportToTagMap.trans (version_le_changes _)
      nameToModelMap := hsound.notAhead.nameToModelMap.trans (version_le_changes _)
      communityMaps := hsound.notAhead.communityMaps.trans (version_le_changes _)
      securityMap := hsound.notAhead.securityMap.trans (version_le_changes _) }

theorem sound_step {state : State} {event : Event} (hsound : Sound interpreter state)
    (htracked : IsTracked interpreter state event) :
    Sound interpreter (step interpreter securityModelID state event) := by
  cases event with
  | set request => exact sound_set hsound htracked
  | sec2com entry => exact hsound.of_kept (kept_sec2com entry htracked)
  | com2sec communityName transportInformation => exact hsound.of_kept (kept_com2sec _ _ _ _)

/-- With sound caches a lookup finds what the tables say, and so does a new model object. -/
theorem answersAsFresh_of_sound {state : State} (event : Event)
    (hsound : Sound interpreter state) :
    AnswersAsFresh interpreter securityModelID state event := by
  cases event with
  | set request => trivial
  | sec2com entry =>
    exact (sec2com_fst entry hsound.coherent.securityMap).trans
      (sec2com_fst entry coherent_of_initialVersion).symm
  | com2sec communityName transportInformation =>
    exact (com2sec_fst _ _ _ hsound.coherent).trans (com2sec_fst _ _ _ coherent_initial).symm

/-- In a history whose steps are all tracked, every lookup finds what a new model object finds. -/
theorem everyStep_answersAsFresh {tables : CommunityTables} {events : List Event}
    (htracked : EveryStep (step interpreter securityModelID) (IsTracked interpreter)
      ⟨tables, .initial⟩ events) :
    EveryStep (step interpreter securityModelID) (AnswersAsFresh interpreter securityModelID)
      ⟨tables, .initial⟩ events :=
  htracked.of_invariant (Sound interpreter) (sound_initial tables) fun _ _ hsound htracked ↦
    ⟨answersAsFresh_of_sound _ hsound, sound_step hsound htracked⟩

/-! ### Two histories -/

/-- A community that stands for either of two security names. The target parameters give the second
name, and two security models for it. -/
def twoModelTables : CommunityTables where
  snmpTargetAddrTable := ⟨∅, fun _ ↦ 0⟩
  snmpTargetParamsTable :=
    ⟨⟨[([1], ⟨some [122], some 1⟩), ([2], ⟨some [122], some 2⟩)], by decide⟩, fun _ ↦ 2⟩
  snmpCommunityTable :=
    ⟨⟨[([1], ⟨some [112], some [97], some [], some [], some []⟩),
      ([2], ⟨some [112], some [122], some [], some [], some []⟩)], by decide⟩, fun _ ↦ 2⟩

/-- A source that no target address lists. -/
def localhost : TransportInformation :=
  (snmpUDPDomain, .inet "127.0.0.1" 161)

/-- One of the two models is taken away, and an address is given a tag in the SET that sets it. -/
def trackedEvents : List Event :=
  [.com2sec [112] localhost,
    .set ⟨[.create [1] ⟨none, none, some []⟩], [.destroy [2]], []⟩,
    .set ⟨[.write [1] (.snmpTargetAddrTDomain snmpUDPDomain),
      .write [1] (.snmpTargetAddrTAddress [127, 0, 0, 1, 0, 161]),
      .write [1] (.snmpTargetAddrTagList [116])], [], []⟩,
    .sec2com ⟨[97], [], []⟩, .com2sec [112] localhost]

theorem everyStep_answersAsFresh_trackedEvents :
    EveryStep (step .inOrder 1) (AnswersAsFresh .inOrder 1) ⟨twoModelTables, .initial⟩
      trackedEvents :=
  everyStep_answersAsFresh
    ⟨trivial, ⟨fun _ ↦ Or.inl rfl, fun _ ↦ Or.inl rfl, fun _ ↦ Or.inr rfl, fun _ ↦ Or.inr rfl⟩,
      ⟨fun _ ↦ Or.inl rfl, fun _ ↦ Or.inr rfl, fun _ ↦ Or.inr rfl, fun _ ↦ Or.inr rfl⟩,
      Or.inr (by decide), trivial, trivial⟩

/-- After a message has been sent, the community stands for the other security name. -/
theorem not_everyStep_answersAsFresh_twoModelTables :
    ¬ ∀ (interpreter : Interpreter) (securityModelID : ℤ) (tables : CommunityTables)
        (events : List Event),
      EveryStep (step interpreter securityModelID) (AnswersAsFresh interpreter securityModelID)
        ⟨tables, .initial⟩ events := by
  intro hall
  obtain ⟨-, hfresh, -⟩ :=
    hall .inOrder 1 twoModelTables [.sec2com ⟨[97], [], []⟩, .com2sec [112] localhost]
  have hafter : ((com2sec .inOrder twoModelTables 1 [112] localhost).run
      ((sec2com twoModelTables ⟨[97], [], []⟩).run .initial).2).1 = .ok ⟨[97], [], []⟩ := rfl
  have hinitial : ((com2sec .inOrder twoModelTables 1 [112] localhost).run .initial).1 =
      .ok ⟨[122], [], []⟩ := rfl
  have heq := hafter.symm.trans (hfresh.trans hinitial)
  cases heq

end Pysnmp.Proto.Secmod.CommunityHistory
