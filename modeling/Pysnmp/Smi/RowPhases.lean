import Pysnmp.Smi.AtomicSet

/-!
# A binding of a row, in all columns

When the column of a binding asks for a row operation, the row carries it out at the same instance
identifier in its other columns. A phase of a write is described here by what it makes of the slot
that each column keeps under the identifier: `write_of_rowOp` for a binding that asks for a row
operation, `write_of_plain` for one that does not. Nothing that the columns keep under other
identifiers changes, and nothing outside the row (`SameOutside`).

The rows are those of a `StatusTable`, whose status column is the only one that asks for row
operations by its values, and which no other row augments. They are written without an access
function, as the engine's own configuration writes them.
-/

set_option autoImplicit false
set_option relaxedAutoImplicit false

namespace Pysnmp.Smi.RowPhases

open Foundation Foundation.Effect FlipFlopFsm ColumnWrite WriteVars
open Proto (Oid)
open InstanceWrite (mibError)
open RowWrite (ColumnAction onColumn manageColumns announceManagementEvent shareFate delegate
  checkColumn)
open AtomicSet (IsWritePhase)

/-! ### Tables and rows -/

/-- The columns of a row definition. -/
def columns (row : MibTableRow) : List ManagedObject :=
  row.columns.entries.map Prod.snd

/-- A conceptual row whose instances come and go with its status column. -/
structure StatusTable where
  row : MibTableRow
  status : ManagedObject
  keyed : ∀ entry ∈ row.columns.entries, entry.1 = entry.2.name
  below : ∀ column ∈ columns row, ∃ arc, column.name = row.name ++ [arc]
  row_name_ne : row.name ≠ []
  status_mem : status ∈ columns row
  status_kind : status.syntaxClass.kind = .rowStatus
  status_clone : ∀ state ∈ [0, 1, 4, 6], status.syntaxClass.clone (.integer state) =
    some (.integer state)
  status_default : status.syntaxClass.default = ⟨none⟩
  plain : ∀ column ∈ columns row, column ≠ status → column.syntaxClass.kind = .plain
  alone : row.augmentingRows = []

/-- The identifier of a row of the table, with the values of the indices that it spells. -/
structure RowIndex (tree : MibTree) (table : StatusTable) where
  instId : Oid
  indexVals : List (Oid × Value)
  key : Oid
  instId_ne : instId ≠ []
  decodes : RowWrite.indexValues table.row.indexNames instId [] = .ok (indexVals, [])
  registered : ∀ column ∈ columns table.row,
    tree.getBranch (column.name ++ instId) = some (key, .row table.row)
  covered : ∀ column ∈ columns table.row,
    table.row.columns.getBranch (column.name ++ instId) = some (column.name, column)
  accepted : ∀ column ∈ columns table.row, ∀ value,
    indexVals.reverse.lookup column.name = some value → (column.syntaxClass.clone value).isSome
  status_free : indexVals.reverse.lookup table.status.name = none

variable {tree : MibTree} {table : StatusTable} {index : RowIndex tree table}

/-- The name of the instance of a column. -/
def RowIndex.instName (index : RowIndex tree table) (column : ManagedObject) : Oid :=
  column.name ++ index.instId

/-- The value of the index that a column holds, if it is one of the indices. -/
def RowIndex.value? (index : RowIndex tree table) (column : ManagedObject) : Option Value :=
  index.indexVals.reverse.lookup column.name

/-- What a column keeps under the identifier. -/
def RowIndex.slot (index : RowIndex tree table) (state : MibState) (column : ManagedObject) :
    Slot :=
  (state (.column column.name)).slot (index.instName column)

namespace StatusTable

theorem columns_sorted (table : StatusTable) :
    (columns table.row).Pairwise fun first second ↦ first.name < second.name := by
  rw [columns, List.pairwise_map]
  refine table.row.columns.sorted.imp_of_mem fun {first second} hfirst hsecond hlt ↦ ?_
  rwa [← table.keyed first hfirst, ← table.keyed second hsecond]

/-- Columns are told apart by their names. -/
theorem eq_of_name_eq {column other : ManagedObject} (hcolumn : column ∈ columns table.row)
    (hother : other ∈ columns table.row) (hname : column.name = other.name) : column = other := by
  obtain ⟨entry, hentry, rfl⟩ := List.mem_map.mp hcolumn
  obtain ⟨second, hsecond, rfl⟩ := List.mem_map.mp hother
  have hkey : (entry.1, second.2) ∈ table.row.columns.entries := by
    rw [table.keyed entry hentry, hname, ← table.keyed second hsecond]
    exact hsecond
  exact table.row.columns.eq_of_mem_of_mem hentry hkey

end StatusTable

namespace RowIndex

theorem instName_ne (index : RowIndex tree table) (column : ManagedObject) :
    index.instName column ≠ column.name :=
  fun heq ↦ index.instId_ne (List.append_right_eq_self.mp heq)

theorem instName_ne_rootName (index : RowIndex tree table) {column : ManagedObject}
    (hcolumn : column ∈ columns table.row) : index.instName column ≠ rootName := by
  intro heq
  obtain ⟨arc, harc⟩ := table.below column hcolumn
  have hlength := congrArg List.length heq
  have hrow := List.length_pos_of_ne_nil table.row_name_ne
  simp only [instName, harc, rootName, List.length_append, List.length_singleton] at hlength
  omega

theorem instName_ne_rowName (index : RowIndex tree table) {column : ManagedObject}
    (hcolumn : column ∈ columns table.row) : index.instName column ≠ table.row.name := by
  intro heq
  obtain ⟨arc, harc⟩ := table.below column hcolumn
  have hlength := congrArg List.length heq
  simp only [instName, harc, List.length_append, List.length_singleton] at hlength
  omega

theorem getBranch_tree (index : RowIndex tree table) {column : ManagedObject}
    (hcolumn : column ∈ columns table.row) :
    tree.getBranch (index.instName column) = some (index.key, .row table.row) :=
  index.registered column hcolumn

theorem getBranch_columns (index : RowIndex tree table) {column : ManagedObject}
    (hcolumn : column ∈ columns table.row) :
    table.row.columns.getBranch (index.instName column) = some (column.name, column) :=
  index.covered column hcolumn

/-- The name of an instance is taken apart into the column and the identifier. -/
theorem instName_split (index : RowIndex tree table) {column : ManagedObject}
    (hcolumn : column ∈ columns table.row) :
    (index.instName column).take (table.row.name.length + 1) = column.name ∧
      (index.instName column).drop (table.row.name.length + 1) = index.instId := by
  obtain ⟨arc, harc⟩ := table.below column hcolumn
  have hlength : column.name.length = table.row.name.length + 1 := by simp [harc]
  rw [instName, ← hlength]
  exact ⟨List.take_left, List.drop_left⟩

end RowIndex

/-! ### One column -/

theorem slot_setSlot_self (state : ObjectState) (name : Oid) (slot : Slot) :
    (state.setSlot name slot).slot name = slot := by
  obtain ⟨⟨object, created, destroyed, rowOpWanted⟩, branchVersionId⟩ := slot
  unfold ObjectState.slot ObjectState.setSlot
  dsimp only
  rw [Function.update_self, Function.update_self, Function.update_self]
  cases object with
  | none => simp only [SortedMap.get?_erase_self]
  | some object => simp only [SortedMap.get?_insert_self]

theorem entry_setSlot_of_ne (state : ObjectState) {name other : Oid} (slot : Slot)
    (hother : other ≠ name) :
    ((state.setSlot name slot).slot other).toEntry = (state.slot other).toEntry := by
  unfold ObjectState.slot ObjectState.setSlot
  dsimp only
  rw [Function.update_of_ne hother, Function.update_of_ne hother, Function.update_of_ne hother]
  cases slot.object with
  | none => simp only [SortedMap.get?_erase_of_ne _ hother]
  | some object => simp only [SortedMap.get?_insert_of_ne _ _ hother]

/-- What is kept outside the row is as it was. -/
structure SameOutside (index : RowIndex tree table) (before after : MibState) : Prop where
  entry : ∀ id name, (∃ column ∈ columns table.row,
    id = .column column.name ∧ name = index.instName column) ∨
      ((after id).slot name).toEntry = ((before id).slot name).toEntry
  version : ∀ id, (∃ column ∈ columns table.row, id = .column column.name) ∨ after id = before id

namespace SameOutside

variable {before between after : MibState}

theorem refl (index : RowIndex tree table) (state : MibState) : SameOutside index state state :=
  ⟨fun _ _ ↦ Or.inr rfl, fun _ ↦ Or.inr rfl⟩

theorem trans (hfirst : SameOutside index before between)
    (hsecond : SameOutside index between after) : SameOutside index before after where
  entry := fun id name ↦ by
    rcases hfirst.entry id name with hrow | hentry
    · exact Or.inl hrow
    · exact (hsecond.entry id name).imp_right fun hafter ↦ hafter.trans hentry
  version := fun id ↦ by
    rcases hfirst.version id with hrow | hsame
    · exact Or.inl hrow
    · exact (hsecond.version id).imp_right fun hafter ↦ hafter.trans hsame

end SameOutside

/-- A program on one column leaves the other columns and everything else alone. -/
theorem onColumn_run {column : ManagedObject} (hcolumn : column ∈ columns table.row)
    {program : Effect Slot MibException Unit} {state : MibState} {slot : Slot}
    {result : Except MibException Unit}
    (hprogram : program.run (index.slot state column) = (result, slot)) :
    ∃ after, (onColumn column (index.instName column) program).run state = (result, after) ∧
      index.slot after column = slot ∧
      (∀ other ∈ columns table.row, other ≠ column →
        index.slot after other = index.slot state other) ∧
      SameOutside index state after := by
  refine ⟨Function.update state (.column column.name)
      ((state (.column column.name)).setSlot (index.instName column) slot), ?_, ?_, ?_, ?_, ?_⟩
  · rw [onColumn, focus_run]
    rw [RowIndex.slot] at hprogram
    rw [hprogram]
  · rw [RowIndex.slot, Function.update_self, slot_setSlot_self]
  · intro other hother hne
    have hid : (ObjectId.column other.name) ≠ .column column.name := fun heq ↦
      hne (table.eq_of_name_eq hother hcolumn (ObjectId.column.inj heq))
    rw [RowIndex.slot, RowIndex.slot, Function.update_of_ne hid]
  · intro id name
    by_cases hid : id = .column column.name
    · subst hid
      by_cases hname : name = index.instName column
      · exact Or.inl ⟨column, hcolumn, rfl, hname⟩
      · rw [Function.update_self, entry_setSlot_of_ne _ _ hname]
        exact Or.inr rfl
    · rw [Function.update_of_ne hid]
      exact Or.inr rfl
  · intro id
    by_cases hid : id = .column column.name
    · exact Or.inl ⟨column, hcolumn, hid⟩
    · exact Or.inr (Function.update_of_ne hid ..)

/-! ### The other columns -/

/-- The context of a binding without an access function. -/
def context (idx : ℕ) : Context :=
  ⟨idx, none, none⟩

/-- What a row operation does in a column. -/
def part (action : ColumnAction) (index : RowIndex tree table) (idx : ℕ)
    (column : ManagedObject) : Effect Slot MibException Unit :=
  action column (context idx) (index.instName column) (index.value? column)

/-- What a row operation does with one entry of the columns. -/
def manageColumn (action : ColumnAction) (index : RowIndex tree table) (idx : ℕ)
    (excluded : Oid) (entry : Oid × ManagedObject) : Effect MibState MibException Unit :=
  if entry.1 = excluded then
    pure ()
  else
    match index.indexVals.reverse.lookup entry.1 with
    | some syntaxObj => onColumn entry.2 (entry.1 ++ index.instId)
        (action entry.2 { context idx with acFun := none } (entry.1 ++ index.instId)
          (some syntaxObj))
    | none => onColumn entry.2 (entry.1 ++ index.instId)
        (action entry.2 (context idx) (entry.1 ++ index.instId) none)

theorem manageColumn_eq {action : ColumnAction} {idx : ℕ} {excluded column : ManagedObject}
    (hcolumn : column ∈ columns table.row) (hexcluded : excluded ∈ columns table.row)
    (hne : column ≠ excluded) :
    manageColumn action index idx excluded.name (column.name, column) =
      onColumn column (index.instName column) (part action index idx column) := by
  have hname : column.name ≠ excluded.name := fun heq ↦
    hne (table.eq_of_name_eq hcolumn hexcluded heq)
  rw [manageColumn, if_neg hname, part, RowIndex.value?]
  cases index.indexVals.reverse.lookup column.name <;> rfl

/-- An operation in some of the columns, each of which does its part. -/
theorem forEach_manageColumn_run {action : ColumnAction} {idx : ℕ} {excluded : ManagedObject}
    (hexcluded : excluded ∈ columns table.row) (next : ManagedObject → Slot)
    {entries : List (Oid × ManagedObject)} {state : MibState}
    (hsublist : entries.Sublist table.row.columns.entries)
    (hpart : ∀ column ∈ entries.map Prod.snd, column ≠ excluded →
      (part action index idx column).run (index.slot state column) = (.ok (), next column)) :
    ∃ after, (forEach (manageColumn action index idx excluded.name) entries).run state =
        (.ok (), after) ∧
      (∀ column ∈ entries.map Prod.snd, column ≠ excluded →
        index.slot after column = next column) ∧
      (∀ column ∈ columns table.row, column ∉ entries.map Prod.snd ∨ column = excluded →
        index.slot after column = index.slot state column) ∧
      SameOutside index state after := by
  induction entries generalizing state with
  | nil => exact ⟨state, rfl, nofun, fun _ _ _ ↦ rfl, SameOutside.refl _ _⟩
  | cons entry entries ih =>
    have hmem : entry ∈ table.row.columns.entries := hsublist.subset List.mem_cons_self
    have hcolumn : entry.2 ∈ columns table.row := List.mem_map_of_mem hmem
    have hrest : entries.Sublist table.row.columns.entries :=
      (List.sublist_cons_self _ _).trans hsublist
    -- the columns of the list differ
    have hfresh : entry.2 ∉ entries.map Prod.snd := by
      intro hagain
      have hsorted := (table.columns_sorted.sublist (hsublist.map Prod.snd))
      rw [List.map_cons, List.pairwise_cons] at hsorted
      exact lt_irrefl _ (hsorted.1 _ hagain)
    have hentry : entry = (entry.2.name, entry.2) := Prod.ext (table.keyed entry hmem) rfl
    by_cases hname : entry.2 = excluded
    · obtain ⟨after, hrun, hnext, hsame, houtside⟩ := ih hrest fun column hlater ↦
        hpart column (List.mem_cons_of_mem _ hlater)
      refine ⟨after, ?_, fun column hlater hne ↦ ?_, fun column hother hskipped ↦ ?_, houtside⟩
      · have hskip : manageColumn action index idx excluded.name entry = pure () := by
          rw [hentry, hname]
          exact if_pos rfl
        rw [forEach_cons, hskip, pure_bind]
        exact hrun
      · rcases List.mem_cons.mp hlater with rfl | hlater
        · exact absurd hname hne
        · exact hnext column hlater hne
      · refine hsame column hother (hskipped.imp_left fun hnot hlater ↦ hnot ?_)
        exact List.mem_cons_of_mem _ hlater
    · obtain ⟨between, hfirst, hslot, hother, hbefore⟩ := onColumn_run hcolumn
        (hpart entry.2 List.mem_cons_self hname)
      have hlaterPart : ∀ column ∈ entries.map Prod.snd, column ≠ excluded →
          (part action index idx column).run (index.slot between column) =
            (.ok (), next column) := by
        intro column hlater hne
        obtain ⟨found, hfound, rfl⟩ := List.mem_map.mp hlater
        rw [hother found.2 (List.mem_map_of_mem (hrest.subset hfound)) fun heq ↦
          hfresh (heq ▸ hlater)]
        exact hpart found.2 (List.mem_cons_of_mem _ hlater) hne
      obtain ⟨after, hrun, hnext, hsame, houtside⟩ := ih hrest hlaterPart
      refine ⟨after, ?_, fun column hlater hne ↦ ?_, fun column hmemColumn hskipped ↦ ?_,
        hbefore.trans houtside⟩
      · rw [forEach_cons, hentry, manageColumn_eq hcolumn hexcluded hname, bind_run_of_ok hfirst]
        exact hrun
      · rcases List.mem_cons.mp hlater with rfl | hlater
        · rw [hsame entry.2 hcolumn (Or.inl hfresh), hslot]
        · exact hnext column hlater hne
      · have hapart : column ≠ entry.2 := by
          rintro rfl
          exact hskipped.elim (fun hnot ↦ hnot List.mem_cons_self) hname
        rw [hsame column hmemColumn (hskipped.imp_left fun hnot hlater ↦
          hnot (List.mem_cons_of_mem _ hlater)), hother column hmemColumn hapart]

/-- A row operation in the columns other than the one that asks for it. -/
theorem shareFate_run {action : ColumnAction} {idx : ℕ} {asking : ManagedObject}
    (hasking : asking ∈ columns table.row) (next : ManagedObject → Slot) {state : MibState}
    (hpart : ∀ column ∈ columns table.row, column ≠ asking →
      (part action index idx column).run (index.slot state column) = (.ok (), next column)) :
    ∃ after, (shareFate tree action table.row (index.instName asking) (context idx)).run state =
        (.ok (), after) ∧
      index.slot after asking = index.slot state asking ∧
      (∀ column ∈ columns table.row, column ≠ asking → index.slot after column = next column) ∧
      SameOutside index state after := by
  obtain ⟨after, hrun, hnext, hsame, houtside⟩ :=
    forEach_manageColumn_run hasking next (List.Sublist.refl _) hpart
  refine ⟨after, ?_, hsame asking hasking (Or.inr rfl), hnext, houtside⟩
  obtain ⟨htake, hdrop⟩ := index.instName_split hasking
  have hmanage : (manageColumns action table.row asking.name index.instId (context idx)).run state =
      (.ok (), after) := by
    rw [manageColumns, index.decodes, bind_run_of_ok (liftExcept_run _ _)]
    exact hrun
  rw [shareFate, htake, hdrop, bind_run_of_ok hmanage, announceManagementEvent, hdrop,
    index.decodes, bind_run_of_ok (liftExcept_run _ _)]
  dsimp only
  rw [if_neg (not_not.mpr rfl), table.alone]
  split_ifs <;> rfl

/-! ### A binding -/

/-- The two row operations. -/
inductive Operation
  | creation
  | destruction
  deriving DecidableEq, Repr

/-- What a column raises to ask for the operation. -/
def Operation.kind : Operation → SmiErrorKind
  | .creation => .rowCreationWanted
  | .destruction => .rowDestructionWanted

/-- The phases of the operation in another column. -/
def Operation.action (operation : Operation) (subAction : SubAction) : ColumnAction :=
  fun column context name value ↦
    match operation with
    | .creation => create column context name value subAction
    | .destruction => destroy column context name value subAction

/-- The status that says that a row has been made active. -/
def isActive (error : SmiError) : Bool :=
  error.syntaxDetail == some ⟨some (.integer 1)⟩

section Binding

variable {column : ManagedObject} {idx : ℕ} {value : Value} {subAction : SubAction}
  {state : MibState}

/-- A binding whose column asks for a row operation. -/
theorem delegate_of_rowOp (hcolumn : column ∈ columns table.row) {operation : Operation}
    {error : SmiError} {own : Slot} (next : ManagedObject → Slot)
    (hkind : error.kind = operation.kind)
    (hown : (ColumnWrite.write column (context idx) (index.instName column) (some value)
      subAction).run (index.slot state column) = (.error (.smi error), own))
    (hpart : ∀ other ∈ columns table.row, other ≠ column →
      (part (operation.action subAction) index idx other).run (index.slot state other) =
        (.ok (), next other)) :
    ∃ after, (delegate tree table.row (context idx) (index.instName column) (some value)
        subAction).run state =
          (.ok (operation == .creation && isActive error), after) ∧
      index.slot after column = own ∧
      (∀ other ∈ columns table.row, other ≠ column → index.slot after other = next other) ∧
      SameOutside index state after := by
  obtain ⟨between, hrun, hslot, hother, hbefore⟩ := onColumn_run hcolumn hown
  have hpartBetween : ∀ other ∈ columns table.row, other ≠ column →
      (part (operation.action subAction) index idx other).run (index.slot between other) =
        (.ok (), next other) := by
    intro other hmem hne
    rw [hother other hmem hne]
    exact hpart other hmem hne
  obtain ⟨after, hshare, hsame, hnext, hafter⟩ := shareFate_run hcolumn next hpartBetween
  refine ⟨after, ?_, hsame.trans hslot, hnext, hbefore.trans hafter⟩
  rw [delegate, index.getBranch_columns hcolumn]
  refine (handle_run_of_error (bind_run_of_error hrun)).trans ?_
  dsimp only
  cases operation with
  | creation =>
    rw [if_pos (show error.kind = .rowCreationWanted from hkind)]
    exact bind_run_of_ok hshare
  | destruction =>
    have hdestruction : error.kind = .rowDestructionWanted := hkind
    rw [if_neg (by simp [hdestruction]), if_pos hdestruction]
    exact bind_run_of_ok hshare

/-- A binding whose column asks for nothing. -/
theorem delegate_of_plain (hcolumn : column ∈ columns table.row) {own : Slot}
    (hown : (ColumnWrite.write column (context idx) (index.instName column) (some value)
      subAction).run (index.slot state column) = (.ok (), own)) :
    ∃ after, (delegate tree table.row (context idx) (index.instName column) (some value)
        subAction).run state = (.ok false, after) ∧
      index.slot after column = own ∧
      (∀ other ∈ columns table.row, other ≠ column →
        index.slot after other = index.slot state other) ∧
      SameOutside index state after := by
  obtain ⟨after, hrun, hafter⟩ := onColumn_run hcolumn hown
  refine ⟨after, ?_, hafter⟩
  rw [delegate, index.getBranch_columns hcolumn]
  exact handle_run_of_ok (bind_run_of_ok hrun)

/-- A write of an instance of the row is a write of the row. -/
theorem write_eq (index : RowIndex tree table) (hcolumn : column ∈ columns table.row) :
    write tree (context idx) (index.instName column) (some value) subAction =
      RowWrite.write tree table.row (context idx) (index.instName column) (some value)
        subAction := by
  have hbranch : branchWrite tree (context idx) (index.instName column) (some value) subAction =
      RowWrite.write tree table.row (context idx) (index.instName column) (some value)
        subAction := by
    rw [branchWrite, index.getBranch_tree hcolumn]
  cases subAction with
  | test => exact (if_neg (index.instName_ne_rootName hcolumn)).trans hbranch
  | _ => exact hbranch

/-- The column is optional, or what it keeps has a value. -/
def IsFilled (column : ManagedObject) (slot : Slot) : Prop :=
  column.optional = true ∨ ∃ object, slot.object = some object ∧ object.isValue = .ok true

theorem checkColumn_run (index : RowIndex tree table)
    (hfilled : IsFilled column (index.slot state column)) :
    (checkColumn column index.instId).run state = (.ok (), state) := by
  rw [checkColumn]
  by_cases hoptional : column.optional = true
  · rw [if_pos hoptional]
    rfl
  · obtain ⟨object, hobject, hvalue⟩ := hfilled.resolve_left hoptional
    have hfound : (state (.column column.name)).vars.get? (column.name ++ index.instId) =
        some object := hobject
    rw [if_neg hoptional, bind_run_of_ok (get_run state), if_neg index.instId_ne, hfound]
    dsimp only
    rw [hvalue, bind_run_of_ok (liftExcept_run _ _)]
    rfl

theorem forEach_checkColumn_run (index : RowIndex tree table)
    {entries : List (Oid × ManagedObject)}
    (hfilled : ∀ entry ∈ entries, IsFilled entry.2 (index.slot state entry.2)) :
    (forEach (fun entry : Oid × ManagedObject ↦ checkColumn entry.2 index.instId) entries).run
      state = (.ok (), state) := by
  induction entries with
  | nil => rfl
  | cons entry entries ih =>
    rw [forEach_cons, bind_run_of_ok (checkColumn_run index (hfilled entry List.mem_cons_self))]
    exact ih fun later hlater ↦ hfilled later (List.mem_cons_of_mem _ hlater)

/-- What the columns keep under the identifier is as described. -/
def Describes (index : RowIndex tree table) (describes : ManagedObject → Slot → Prop)
    (state : MibState) : Prop :=
  ∀ column ∈ columns table.row, describes column (index.slot state column)

/-- A phase of a binding that asks for a row operation. A commit that makes the row active has
filled the columns. -/
theorem write_of_rowOp (hcolumn : column ∈ columns table.row) (operation : Operation)
    (error : SmiError) (describes : ManagedObject → Slot → Prop)
    (hkind : error.kind = operation.kind)
    (hown : ∃ own, (ColumnWrite.write column (context idx) (index.instName column) (some value)
        subAction).run (index.slot state column) = (.error (.smi error), own) ∧
      describes column own)
    (hpart : ∀ other ∈ columns table.row, other ≠ column → ∃ slot,
      (part (operation.action subAction) index idx other).run (index.slot state other) =
        (.ok (), slot) ∧ describes other slot)
    (hfilled : subAction = .commit → operation = .creation → isActive error = true →
      ∀ other ∈ columns table.row, ∀ slot, describes other slot → IsFilled other slot) :
    ∃ after, (write tree (context idx) (index.instName column) (some value) subAction).run state =
        (.ok (), after) ∧
      Describes index describes after ∧ SameOutside index state after := by
  obtain ⟨own, hown, hdescribes⟩ := hown
  obtain ⟨after, hrun, hslot, hnext, houtside⟩ := delegate_of_rowOp hcolumn
    (fun other ↦ ((part (operation.action subAction) index idx other).run
      (index.slot state other)).2) hkind hown fun other hother hne ↦ by
        obtain ⟨slot, hslot, -⟩ := hpart other hother hne
        rw [hslot]
  have hafter : Describes index describes after := by
    intro other hother
    by_cases hne : other = column
    · rw [hne, hslot]
      exact hdescribes
    · obtain ⟨slot, hpartRun, hpartSlot⟩ := hpart other hother hne
      rw [hnext other hother hne, hpartRun]
      exact hpartSlot
  refine ⟨after, ?_, hafter, houtside⟩
  rw [write_eq index hcolumn]
  cases subAction with
  | commit =>
    show (RowWrite.writeCommit _ _ _ _ _).run state = _
    rw [RowWrite.writeCommit, bind_run_of_ok hrun, (index.instName_split hcolumn).2]
    split_ifs with hactive
    · obtain ⟨hcreation, hmade⟩ := Bool.and_eq_true_iff.mp hactive
      refine forEach_checkColumn_run index fun entry hentry ↦ ?_
      have hmem : entry.2 ∈ columns table.row := List.mem_map_of_mem hentry
      exact hfilled rfl (beq_iff_eq.mp hcreation) hmade entry.2 hmem _ (hafter entry.2 hmem)
    · rfl
  | _ => exact bind_run_of_ok hrun

/-- A phase of a binding that asks for nothing. -/
theorem write_of_plain (hcolumn : column ∈ columns table.row) {own : Slot}
    (hown : (ColumnWrite.write column (context idx) (index.instName column) (some value)
      subAction).run (index.slot state column) = (.ok (), own)) :
    ∃ after, (write tree (context idx) (index.instName column) (some value) subAction).run state =
        (.ok (), after) ∧
      index.slot after column = own ∧
      (∀ other ∈ columns table.row, other ≠ column →
        index.slot after other = index.slot state other) ∧
      SameOutside index state after := by
  obtain ⟨after, hrun, hafter⟩ := delegate_of_plain hcolumn hown
  refine ⟨after, ?_, hafter⟩
  rw [write_eq index hcolumn]
  cases subAction with
  | commit =>
    show (RowWrite.writeCommit _ _ _ _ _).run state = _
    rw [RowWrite.writeCommit, bind_run_of_ok hrun]
    rfl
  | _ => exact bind_run_of_ok hrun

/-- A binding whose column raises what asks for no row operation. -/
theorem write_of_error (hcolumn : column ∈ columns table.row) {error : SmiError} {own : Slot}
    (hcreation : error.kind ≠ .rowCreationWanted)
    (hdestruction : error.kind ≠ .rowDestructionWanted)
    (hown : (ColumnWrite.write column (context idx) (index.instName column) (some value)
      subAction).run (index.slot state column) = (.error (.smi error), own)) :
    ∃ after, (write tree (context idx) (index.instName column) (some value) subAction).run state =
        (.error (.smi error), after) ∧
      index.slot after column = own ∧
      (∀ other ∈ columns table.row, other ≠ column →
        index.slot after other = index.slot state other) ∧
      SameOutside index state after := by
  obtain ⟨after, hrun, hafter⟩ := onColumn_run hcolumn hown
  refine ⟨after, ?_, hafter⟩
  have hdelegate : (delegate tree table.row (context idx) (index.instName column) (some value)
      subAction).run state = (.error (.smi error), after) := by
    rw [delegate, index.getBranch_columns hcolumn]
    refine (handle_run_of_error (bind_run_of_error hrun)).trans ?_
    dsimp only
    rw [if_neg hcreation, if_neg hdestruction]
    rfl
  rw [write_eq index hcolumn]
  cases subAction with
  | commit =>
    show (RowWrite.writeCommit _ _ _ _ _).run state = _
    rw [RowWrite.writeCommit, bind_run_of_error hdelegate]
  | _ => exact bind_run_of_error hdelegate

/-- A phase of a binding that asks for nothing, described before and after. -/
theorem write_step_of_plain (hcolumn : column ∈ columns table.row)
    {before : ManagedObject → Slot → Prop} (describes : ManagedObject → Slot → Prop)
    (hstate : Describes index before state)
    (hown : ∃ own, (ColumnWrite.write column (context idx) (index.instName column) (some value)
        subAction).run (index.slot state column) = (.ok (), own) ∧ describes column own)
    (hother : ∀ other ∈ columns table.row, other ≠ column → ∀ slot, before other slot →
      describes other slot) :
    ∃ after, (write tree (context idx) (index.instName column) (some value) subAction).run state =
        (.ok (), after) ∧
      Describes index describes after ∧ SameOutside index state after := by
  obtain ⟨own, hrun, hdescribes⟩ := hown
  obtain ⟨after, hwrite, hslot, hothers, houtside⟩ := write_of_plain hcolumn hrun
  refine ⟨after, hwrite, fun other hmem ↦ ?_, houtside⟩
  by_cases hne : other = column
  · rw [hne, hslot]
    exact hdescribes
  · rw [hothers other hmem hne]
    exact hother other hmem hne _ (hstate other hmem)

/-- A phase of a binding that fails, described before and after. -/
theorem write_step_of_error (hcolumn : column ∈ columns table.row) {error : SmiError}
    {before : ManagedObject → Slot → Prop} (describes : ManagedObject → Slot → Prop)
    (hcreation : error.kind ≠ .rowCreationWanted)
    (hdestruction : error.kind ≠ .rowDestructionWanted) (hstate : Describes index before state)
    (hown : ∃ own, (ColumnWrite.write column (context idx) (index.instName column) (some value)
        subAction).run (index.slot state column) = (.error (.smi error), own) ∧
      describes column own)
    (hother : ∀ other ∈ columns table.row, other ≠ column → ∀ slot, before other slot →
      describes other slot) :
    ∃ after, (write tree (context idx) (index.instName column) (some value) subAction).run state =
        (.error (.smi error), after) ∧
      Describes index describes after ∧ SameOutside index state after := by
  obtain ⟨own, hrun, hdescribes⟩ := hown
  obtain ⟨after, hwrite, hslot, hothers, houtside⟩ :=
    write_of_error hcolumn hcreation hdestruction hrun
  refine ⟨after, hwrite, fun other hmem ↦ ?_, houtside⟩
  by_cases hne : other = column
  · rw [hne, hslot]
    exact hdescribes
  · rw [hothers other hmem hne]
    exact hother other hmem hne _ (hstate other hmem)

end Binding

/-! ### A phase over the bindings of a row -/

/-- A binding of a row: a column, and the value for its instance. -/
abbrev Binding := ManagedObject × Value

/-- The bindings as a request carries them. -/
def varBinds (index : RowIndex tree table) (bindings : List Binding) : List VarBind :=
  bindings.map fun binding ↦ (index.instName binding.1, binding.2)

section Phase

variable {phase : FsmState} {subAction : SubAction} {bindings : List Binding} {state : MibState}
  (describes : List Binding → ManagedObject → Slot → Prop)

/-- What a binding does in a phase, described by those that have had their turn. -/
def Steps (index : RowIndex tree table) (subAction : SubAction) (bindings : List Binding) : Prop :=
  ∀ idx done binding rest state, bindings = done ++ binding :: rest →
    Describes index (describes done) state →
    ∃ after, (write tree (context idx) (index.instName binding.1) (some binding.2)
        subAction).run state = (.ok (), after) ∧
      Describes index (describes (done ++ [binding])) after ∧ SameOutside index state after

/-- The bindings of a phase have their turns, and leave the rest of the request to its own. -/
theorem exists_runPhase_append (hphase : IsWritePhase none tree phase subAction)
    (hsteps : Steps describes index subAction bindings)
    (hstate : Describes index (describes []) state) :
    ∃ between, (∀ rest,
        (runPhase (writeHandlers none tree phase) 0 (varBinds index (bindings ++ rest))).run state =
          (runPhase (writeHandlers none tree phase) bindings.length (varBinds index rest)).run
            between) ∧
      Describes index (describes bindings) between ∧ SameOutside index state between := by
  suffices hgeneral : ∀ later done state, bindings = done ++ later →
      Describes index (describes done) state →
      ∃ between, (∀ rest,
          (runPhase (writeHandlers none tree phase) done.length
              (varBinds index (later ++ rest))).run state =
            (runPhase (writeHandlers none tree phase) bindings.length (varBinds index rest)).run
              between) ∧
        Describes index (describes bindings) between ∧ SameOutside index state between from
    hgeneral bindings [] state rfl hstate
  intro later
  induction later with
  | nil =>
    intro done state hsplit hstate
    rw [List.append_nil] at hsplit
    subst hsplit
    exact ⟨state, fun _ ↦ rfl, hstate, SameOutside.refl _ _⟩
  | cons binding later ih =>
    intro done state hsplit hstate
    obtain ⟨next, hrun, hnext, hfirst⟩ := hsteps done.length done binding later state hsplit hstate
    obtain ⟨between, hrest, hbetween, hlater⟩ := ih (done ++ [binding]) next
      (by rw [hsplit, List.append_assoc, List.singleton_append]) hnext
    refine ⟨between, fun rest ↦ ?_, hbetween, hfirst.trans hlater⟩
    have hhandler : (writeHandlers none tree phase done.length
        (index.instName binding.1, binding.2)).run state = (.ok none, next) := by
      rw [hphase]
      exact bind_run_of_ok hrun
    rw [List.cons_append, varBinds, List.map_cons, runPhase_cons_of_none hhandler]
    rw [List.length_append, List.length_singleton] at hrest
    exact hrest rest

/-- A phase in which every binding does its part. -/
theorem runPhase_bindings (hphase : IsWritePhase none tree phase subAction)
    (hsteps : Steps describes index subAction bindings)
    (hstate : Describes index (describes []) state) :
    ∃ after, (runPhase (writeHandlers none tree phase) 0 (varBinds index bindings)).run state =
        (.ok ([], none), after) ∧
      Describes index (describes bindings) after ∧ SameOutside index state after := by
  obtain ⟨after, hrun, hafter⟩ := exists_runPhase_append describes hphase hsteps hstate
  refine ⟨after, ?_, hafter⟩
  have hall := hrun []
  rw [List.append_nil] at hall
  exact hall

/-- A phase whose last binding is of another kind. -/
theorem runPhase_bindings_concat (hphase : IsWritePhase none tree phase subAction)
    (hsteps : Steps describes index subAction bindings)
    (hstate : Describes index (describes []) state) (last : Binding)
    (lastly : ManagedObject → Slot → Prop)
    (hlast : ∀ state, Describes index (describes bindings) state →
      ∃ after, (write tree (context bindings.length) (index.instName last.1) (some last.2)
          subAction).run state = (.ok (), after) ∧
        Describes index lastly after ∧ SameOutside index state after) :
    ∃ after, (runPhase (writeHandlers none tree phase) 0
        (varBinds index (bindings ++ [last]))).run state = (.ok ([], none), after) ∧
      Describes index lastly after ∧ SameOutside index state after := by
  obtain ⟨between, hrun, hbetween, hfirst⟩ := exists_runPhase_append describes hphase hsteps hstate
  obtain ⟨after, hwrite, hafter, hsecond⟩ := hlast between hbetween
  refine ⟨after, ?_, hafter, hfirst.trans hsecond⟩
  have hhandler : (writeHandlers none tree phase bindings.length
      (index.instName last.1, last.2)).run between = (.ok none, after) := by
    rw [hphase]
    exact bind_run_of_ok hwrite
  rw [hrun, varBinds, List.map_singleton, runPhase_cons_of_none hhandler]
  rfl

/-- A phase that a binding ends. -/
theorem runPhase_bindings_of_error (hphase : IsWritePhase none tree phase subAction)
    (hsteps : Steps describes index subAction bindings)
    (hstate : Describes index (describes []) state) {failing : Binding} {error : SmiError}
    (lastly : ManagedObject → Slot → Prop)
    (hfailing : ∀ state, Describes index (describes bindings) state →
      ∃ after, (write tree (context bindings.length) (index.instName failing.1) (some failing.2)
          subAction).run state = (.error (.smi error), after) ∧
        Describes index lastly after ∧ SameOutside index state after) (rest : List Binding) :
    ∃ after, (runPhase (writeHandlers none tree phase) 0
        (varBinds index (bindings ++ failing :: rest))).run state =
          (.ok ([], some error), after) ∧
      Describes index lastly after ∧ SameOutside index state after := by
  obtain ⟨between, hrun, hbetween, hfirst⟩ := exists_runPhase_append describes hphase hsteps hstate
  obtain ⟨after, hwrite, hafter, hsecond⟩ := hfailing between hbetween
  refine ⟨after, ?_, hafter, hfirst.trans hsecond⟩
  have hhandler : (writeHandlers none tree phase bindings.length
      (index.instName failing.1, failing.2)).run between = (.error (.smi error), after) := by
    rw [hphase]
    exact bind_run_of_error hwrite
  rw [hrun, varBinds, List.map_cons, runPhase_cons_of_error hhandler]

end Phase

end Pysnmp.Smi.RowPhases
