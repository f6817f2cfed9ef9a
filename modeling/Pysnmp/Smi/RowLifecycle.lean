import Pysnmp.Foundation.Refinement
import Pysnmp.Smi.ReadVars
import Pysnmp.Smi.RowChange

/-!
# The life of conceptual rows

A table whose rows come and go with their status column holds, for each identifier, nothing or the
objects of a row in all its columns (`Contents`). A SET of one row is one step on these contents
(`transact`): its first binding that is refused is what it raises, and otherwise the row is created,
changed, made active or destroyed as a whole; a GET reads the contents. Over any history of both the
tree answers as the contents do, the columns agree on which rows there are, no other object is
touched, and the version of a column has grown wherever one of its cells is another
(`respond_serve_rows`).

A row that is destroyed without being there is created: a new instance of the status takes the state
`notExists` without asking for anything, and the other columns have their defaults. Such a row is
there to a reader until it is destroyed again or made active.
-/

set_option autoImplicit false
set_option relaxedAutoImplicit false

namespace Pysnmp.Smi.RowLifecycle

open Foundation FlipFlopFsm ColumnWrite WriteVars RowPhases RowCreation RowChange
open Proto (Oid)
open InstanceWrite (mibError)

variable {tree : MibTree} {table : StatusTable}

/-! ### The abstract machine -/

/-- The objects of a row, by its columns. -/
abbrev Cells := ManagedObject → Syntax

/-- The rows that there are, by their identifiers. -/
abbrev Contents := Oid → Option Cells

/-- What a request does with the status of its row. -/
inductive StatusOrder
  | keep
  | createAndGo
  | destroy
  deriving DecidableEq, Repr

/-- A SET of one row: values for plain columns, and what to do with the status. A row is created
with the values of the indices that its identifier spells, and with values for the columns that need
one. -/
structure Request (tree : MibTree) (table : StatusTable) where
  index : RowIndex tree table
  assignments : List Binding
  order : StatusOrder
  mem : ∀ binding ∈ assignments, binding.1 ∈ columns table.row
  plain : ∀ binding ∈ assignments, binding.1 ≠ table.status
  distinct : (assignments.map fun binding ↦ binding.1.name).Nodup
  agrees : ∀ binding ∈ assignments, ∀ value, index.value? binding.1 = some value →
    firstObject binding.1 (some binding.2) = firstObject binding.1 (some value)
  some_binding : order = .keep → assignments ≠ []
  alone : order = .destroy → assignments = []
  identified : order = .createAndGo → ∀ column ∈ columns table.row,
    (index.value? column).isSome → IsBound assignments column
  filled : order = .createAndGo → ∀ column ∈ columns table.row, column ≠ table.status →
    column.optional = true ∨ IsBound assignments column ∨
      column.syntaxClass.default.isValue = true

/-- The bindings of a request; the status comes last. -/
def Request.bindings (request : Request tree table) : List Binding :=
  match request.order with
  | .keep => request.assignments
  | .createAndGo => withStatus table request.assignments (.integer 4)
  | .destroy => withStatus table request.assignments (.integer 6)

/-- `MibInstrumController.writeVars` of a request. -/
def perform (state : MibState) (request : Request tree table) :
    Except MibException (List (Oid × ReadValue)) × MibState :=
  (writeVars none tree (varBinds request.index request.bindings)).run state

/-- The row refuses the value of a binding. -/
def isRefused (present : Option Cells) (binding : Binding) : Bool :=
  match present with
  | none => (firstObject binding.1 (some binding.2)).isNone
  | some cells => decide
    (InstanceWrite.setSyntax binding.1.syntaxClass (cells binding.1) binding.2 = .refused)

/-- What a binding is answered before anything is written. -/
def proposed (request : Request tree table) (present : Option Cells) (idx : ℕ)
    (binding : Binding) : Except MibException Unit :=
  if isRefused present binding then
    .error (mibError .wrongValue (context idx) (request.index.instName binding.1))
  else
    .ok ()

/-- The row after a request that is not refused. -/
def outcome (request : Request tree table) (present : Option Cells) : Option Cells :=
  match present with
  | none => some (target request.index request.bindings)
  | some cells =>
    match request.order with
    | .destroy => none
    | _ => some (rewritten request.index request.bindings cells)

/-- What a reader sees of a column. -/
def seen (next : Option Cells) (column : ManagedObject) : ReadValue :=
  match next with
  | none => .noSuchInstance
  | some cells => .value (some (cells column))

/-- A SET takes place as a whole or not at all. -/
def transact (contents : Contents) (request : Request tree table) :
    Except MibException (List (Oid × ReadValue)) × Contents :=
  match eachFrom (proposed request (contents request.index.instId)) 0 request.bindings with
  | .error exception => (.error exception, contents)
  | .ok _ =>
    let next := outcome request (contents request.index.instId)
    (.ok (request.bindings.map fun binding ↦
      (request.index.instName binding.1, seen next binding.1)),
      Function.update contents request.index.instId next)

/-- A column of a row. -/
structure CellName (tree : MibTree) (table : StatusTable) where
  index : RowIndex tree table
  column : ManagedObject
  mem : column ∈ columns table.row

def CellName.name (cell : CellName tree table) : Oid :=
  cell.index.instName cell.column

/-- What a manager sends. -/
inductive Command (tree : MibTree) (table : StatusTable)
  | set (request : Request tree table)
  | get (cells : List (CellName tree table))

/-- `MibInstrumController.writeVars` and `MibInstrumController.readVars`. -/
def serve (state : MibState) :
    Command tree table → Except MibException (List (Oid × ReadValue)) × MibState
  | .set request => perform state request
  | .get cells => (ReadVars.readVars none tree (cells.map CellName.name)).run state

/-- A cell is read: its row may not be there, and without a value it refuses the GET. -/
def readCell (contents : Contents) (idx : ℕ) (cell : CellName tree table) :
    Except MibException (Oid × ReadValue) :=
  match contents cell.index.instId with
  | none => .ok (cell.name, .noSuchInstance)
  | some cells =>
    if (cells cell.column).isValue then
      .ok (cell.name, .value (some (cells cell.column)))
    else
      .error (mibError .noSuchInstance (context idx) cell.name)

/-- The contents answer: a GET with the cells, up to the first that refuses. -/
def answer (contents : Contents) :
    Command tree table → Except MibException (List (Oid × ReadValue)) × Contents
  | .set request => transact contents request
  | .get cells => (eachFrom (readCell contents) 0 cells, contents)

/-! ### The status column -/

section Status

variable {present : Syntax}

/-- A status column takes `notExists`, `active`, `createAndGo` and `destroy`. -/
theorem clone_state (table : StatusTable) {state : ℤ} (hstate : state ∈ [0, 1, 4, 6]) :
    table.status.syntaxClass.clone (.integer state) = some (.integer state) :=
  table.status_clone state (by simpa using hstate)

/-- A value set in a status column goes through the state table of the row. -/
theorem setSyntax_status (present : Syntax) (value : Value) :
    InstanceWrite.setSyntax table.status.syntaxClass present value =
      InstanceWrite.setRowStatus table.status.syntaxClass present value := by
  rw [InstanceWrite.setSyntax, table.status_kind]

/-- A row that does not exist by its status is created by `createAndGo`. -/
theorem setSyntax_createAndGo (hpresent : InstanceWrite.rowState present = some 0) :
    InstanceWrite.setSyntax table.status.syntaxClass present (.integer 4) =
      .rowCreation ⟨some (.integer 1)⟩ := by
  rw [setSyntax_status, InstanceWrite.setRowStatus, clone_state table (by simp), hpresent]
  simp only [Option.bind_some, InstanceWrite.rowState, InstanceWrite.stateMatrix]
  rw [clone_state table (by simp)]

/-- A row that is active is not created. -/
theorem setSyntax_createAndGo_of_active (hpresent : InstanceWrite.rowState present = some 1) :
    InstanceWrite.setSyntax table.status.syntaxClass present (.integer 4) = .refused := by
  rw [setSyntax_status, InstanceWrite.setRowStatus, clone_state table (by simp), hpresent]
  simp only [Option.bind_some, InstanceWrite.rowState, InstanceWrite.stateMatrix]
  rw [clone_state table (by simp)]

/-- A row that is there is destroyed, whatever its status. -/
theorem setSyntax_destroy (hpresent : InstanceWrite.rowState present = some 0 ∨
    InstanceWrite.rowState present = some 1) :
    InstanceWrite.setSyntax table.status.syntaxClass present (.integer 6) =
      .rowDestruction ⟨some (.integer 0)⟩ := by
  rw [setSyntax_status, InstanceWrite.setRowStatus, clone_state table (by simp)]
  rcases hpresent with hpresent | hpresent <;> rw [hpresent] <;>
    simp only [Option.bind_some, InstanceWrite.rowState, InstanceWrite.stateMatrix] <;>
    rw [clone_state table (by simp)]

/-- A status column that was just made says that there is no row. -/
theorem rowState_default (table : StatusTable) :
    InstanceWrite.rowState table.status.syntaxClass.default = some 0 := by
  rw [table.status_default]
  rfl

/-- `createAndGo` makes an active row at once. -/
theorem firstObject_createAndGo (table : StatusTable) :
    firstObject table.status (some (.integer 4)) = some ⟨some (.integer 1)⟩ := by
  rw [firstObject, setSyntax_createAndGo (rowState_default table)]

/-- `destroy` leaves a row that is to go. -/
theorem firstObject_destroy (table : StatusTable) :
    firstObject table.status (some (.integer 6)) = some ⟨some (.integer 0)⟩ := by
  rw [firstObject, setSyntax_destroy (Or.inl (rowState_default table))]

end Status

/-! ### The bindings of a request -/

namespace Request

variable {request : Request tree table} {binding failing : Binding} {done rest : List Binding}

/-- A request that leaves the status alone carries its assignments only. -/
theorem bindings_of_keep (horder : request.order = .keep) :
    request.bindings = request.assignments := by
  simp only [bindings, horder]

/-- A request that creates a row carries `createAndGo` among its assignments. -/
theorem bindings_of_createAndGo (horder : request.order = .createAndGo) :
    request.bindings = withStatus table request.assignments (.integer 4) := by
  simp only [bindings, horder]

/-- A row is destroyed by its status alone. -/
theorem bindings_of_destroy (horder : request.order = .destroy) :
    request.bindings = [(table.status, .integer 6)] := by
  simp only [bindings, horder, request.alone horder, withStatus, List.nil_append]

/-- A request carries its assignments, and at most one of the two row operations. -/
theorem mem_bindings (hmem : binding ∈ request.bindings) : binding ∈ request.assignments ∨
    binding = (table.status, .integer 4) ∨ binding = (table.status, .integer 6) := by
  cases horder : request.order with
  | keep => exact Or.inl (by rwa [bindings_of_keep horder] at hmem)
  | createAndGo =>
    rw [bindings_of_createAndGo horder, withStatus] at hmem
    exact (List.mem_append.mp hmem).imp_right fun hlast ↦ Or.inl (List.mem_singleton.mp hlast)
  | destroy =>
    rw [bindings_of_destroy horder] at hmem
    exact Or.inr (Or.inr (List.mem_singleton.mp hmem))

/-- Every binding of a request is for a column of the row. -/
theorem bindings_mem (hmem : binding ∈ request.bindings) : binding.1 ∈ columns table.row := by
  rcases mem_bindings hmem with hassignment | rfl | rfl
  · exact request.mem binding hassignment
  · exact table.status_mem
  · exact table.status_mem

/-- A request carries at least one binding. -/
theorem bindings_ne_nil (request : Request tree table) : request.bindings ≠ [] := by
  cases horder : request.order with
  | keep =>
    rw [bindings_of_keep horder]
    exact request.some_binding horder
  | createAndGo =>
    rw [bindings_of_createAndGo horder, withStatus]
    simp
  | destroy =>
    rw [bindings_of_destroy horder]
    simp

/-- No two bindings of a request are for the same column. -/
theorem bindings_distinct (request : Request tree table) :
    (request.bindings.map fun binding ↦ binding.1.name).Nodup := by
  cases horder : request.order with
  | keep =>
    rw [bindings_of_keep horder]
    exact request.distinct
  | createAndGo =>
    have hfresh : ∀ binding ∈ request.assignments, binding.1.name ≠ table.status.name :=
      fun binding hmem hname ↦ request.plain binding hmem
        (table.eq_of_name_eq (request.mem binding hmem) table.status_mem hname)
    rw [bindings_of_createAndGo horder, withStatus, List.map_append, List.nodup_append]
    refine ⟨request.distinct, by simp, fun first hfirst second hsecond ↦ ?_⟩
    obtain ⟨binding, hmem, rfl⟩ := List.mem_map.mp hfirst
    rw [List.map_singleton, List.mem_singleton] at hsecond
    rw [hsecond]
    exact hfresh binding hmem
  | destroy =>
    rw [bindings_of_destroy horder]
    simp

/-- A column that is an index of the row is given the value that the index has. -/
theorem bindings_agrees (hmem : binding ∈ request.bindings) {value : Value}
    (hvalue : request.index.value? binding.1 = some value) :
    firstObject binding.1 (some binding.2) = firstObject binding.1 (some value) := by
  rcases mem_bindings hmem with hassignment | rfl | rfl
  · exact request.agrees binding hassignment value hvalue
  · exact absurd (hvalue.symm.trans request.index.status_free) (by simp)
  · exact absurd (hvalue.symm.trans request.index.status_free) (by simp)

/-- Bindings that a new row takes are accepted. -/
theorem accepted (hsublist : done.Sublist request.bindings)
    (htaken : ∀ binding ∈ done, (firstObject binding.1 (some binding.2)).isSome) :
    Accepted request.index done where
  mem := fun _ hmem ↦ bindings_mem (hsublist.subset hmem)
  distinct := request.bindings_distinct.sublist (hsublist.map _)
  taken := htaken
  agrees := fun _ hmem _ hvalue ↦ bindings_agrees (hsublist.subset hmem) hvalue

/-- Only the last binding can be for the status. -/
theorem mem_assignments_of_split (hsplit : request.bindings = done ++ failing :: rest)
    (hmem : binding ∈ done) : binding ∈ request.assignments := by
  have hprior : done <+: request.bindings := ⟨failing :: rest, hsplit.symm⟩
  cases horder : request.order with
  | keep =>
    rw [← bindings_of_keep horder]
    exact hprior.subset hmem
  | createAndGo =>
    have hall := bindings_of_createAndGo horder
    have hlength := congrArg List.length (hall.symm.trans hsplit)
    simp only [withStatus, List.length_append, List.length_cons, List.length_nil] at hlength
    refine (List.prefix_of_prefix_length_le hprior ⟨_, hall.symm⟩ (by omega)).subset hmem
  | destroy =>
    have hlength := congrArg List.length ((bindings_of_destroy horder).symm.trans hsplit)
    simp only [List.length_append, List.length_cons, List.length_nil] at hlength
    obtain rfl := List.length_eq_zero_iff.mp (show done.length = 0 by omega)
    cases hmem

end Request

/-! ### The tree and its contents -/

/-- The values that an identifier spells, and where the row is registered, are determined by it. -/
theorem eq_of_instId_eq {index other : RowIndex tree table} (hid : index.instId = other.instId) :
    index = other := by
  obtain ⟨instId, indexVals, key, _, hdecodes, hregistered, _, _, _⟩ := index
  obtain ⟨otherId, otherVals, otherKey, _, hother, hregisteredOther, _, _, _⟩ := other
  obtain rfl : instId = otherId := hid
  obtain ⟨rfl, -⟩ := Prod.mk.inj (Except.ok.inj (hdecodes.symm.trans hother))
  have hkey := (hregistered _ table.status_mem).symm.trans (hregisteredOther _ table.status_mem)
  obtain ⟨rfl, -⟩ := Prod.mk.inj (Option.some.inj hkey)
  rfl

/-- A row is active, or does not exist by its status; its other columns have values or are as a new
row has them. -/
structure IsProper (table : StatusTable) (cells : Cells) : Prop where
  status : InstanceWrite.rowState (cells table.status) = some 0 ∨
    InstanceWrite.rowState (cells table.status) = some 1
  filled : ∀ column ∈ columns table.row, column ≠ table.status →
    (cells column).isValue = true ∨ cells column = column.syntaxClass.default

/-- The columns keep nothing under the identifier, or all of them keep their cell. -/
def Rests (index : RowIndex tree table) (present : Option Cells) (state : MibState) : Prop :=
  match present with
  | none => Describes index (fun _ ↦ IsMissing) state
  | some cells => IsProper table cells ∧ Describes index (IsHeld index cells) state

/-- The tree keeps the rows that the contents have, and no others. -/
def Serves (tree : MibTree) (table : StatusTable) (contents : Contents) (state : MibState) : Prop :=
  ∀ index : RowIndex tree table, Rests index (contents index.instId) state

/-- The version of a column goes up, and has gone up where a cell of it is another. -/
def Grown (table : StatusTable) (contents next : Contents) (before after : MibState) : Prop :=
  ∀ column ∈ columns table.row, versionOf before column.name ≤ versionOf after column.name ∧
    ∀ instId, (contents instId).map (· column) ≠ (next instId).map (· column) →
      versionOf before column.name < versionOf after column.name

/-- The objects that are not columns of the table are as they were. -/
def Untouched (table : StatusTable) (before after : MibState) : Prop :=
  ∀ id, (∀ column ∈ columns table.row, id ≠ .column column.name) → after id = before id

/-- What the columns keep under an identifier is all there is to a row. -/
theorem Rests.of_entry {index : RowIndex tree table} {present : Option Cells}
    {before after : MibState} (hrests : Rests index present before)
    (hentry : ∀ column ∈ columns table.row,
      (index.slot after column).toEntry = (index.slot before column).toEntry) :
    Rests index present after := by
  cases present with
  | none =>
    intro column hcolumn
    exact (hentry column hcolumn).trans (hrests column hcolumn)
  | some cells =>
    refine ⟨hrests.1, fun column hcolumn ↦ ?_⟩
    obtain ⟨⟨old, new, hobject⟩, hcreated, hdestroyed, hwanted⟩ := hrests.2 column hcolumn
    have hsame := hentry column hcolumn
    exact ⟨⟨old, new, (congrArg Entry.object hsame).trans hobject⟩,
      (congrArg Entry.created hsame).trans hcreated,
      (congrArg Entry.destroyed hsame).trans hdestroyed,
      (congrArg Entry.rowOpWanted hsame).trans hwanted⟩

/-- Nothing has to happen for a table to have grown. -/
theorem Grown.refl (table : StatusTable) (contents : Contents) (state : MibState) :
    Grown table contents contents state state :=
  fun _ _ ↦ ⟨le_rfl, fun _ hne ↦ absurd rfl hne⟩

/-- Growth goes on from where it stopped. -/
theorem Grown.trans {contents middle next : Contents} {before between after : MibState}
    (hfirst : Grown table contents middle before between)
    (hsecond : Grown table middle next between after) :
    Grown table contents next before after := by
  intro column hcolumn
  obtain ⟨hle, hlt⟩ := hfirst column hcolumn
  obtain ⟨hle', hlt'⟩ := hsecond column hcolumn
  refine ⟨hle.trans hle', fun instId hne ↦ ?_⟩
  by_cases hmiddle : (contents instId).map (· column) = (middle instId).map (· column)
  · exact lt_of_le_of_lt hle (hlt' instId (hmiddle ▸ hne))
  · exact lt_of_lt_of_le (hlt instId hmiddle) hle'

/-! ### A SET of one row -/

/-- What a SET of a row comes to. -/
structure Moved (index : RowIndex tree table) (present next : Option Cells)
    (before after : MibState) : Prop where
  rests : Rests index next after
  version_le : ∀ column ∈ columns table.row,
    versionOf before column.name ≤ versionOf after column.name
  version_lt : ∀ column ∈ columns table.row, present.map (· column) ≠ next.map (· column) →
    versionOf before column.name < versionOf after column.name
  outside : SameOutside index before after

section Row

variable {request : Request tree table} {cells : Cells} {present : Option Cells}
  {state : MibState} {binding : Binding} {bindings : List Binding} {column : ManagedObject}

/-- What a column of a new row has is a value or its default. -/
theorem target_isValue_or_default {index : RowIndex tree table}
    (hcolumn : column ∈ columns table.row) (bindings : List Binding) :
    (target index bindings column).isValue = true ∨
      target index bindings column = column.syntaxClass.default := by
  unfold target
  cases hgiven : given index bindings column with
  | none => exact Or.inr rfl
  | some value =>
    cases hfirst : firstObject column (some value) with
    | none => exact Or.inr rfl
    | some next => exact Or.inl (isValue_firstObject hcolumn hfirst)

/-- What is made of the status: nothing, an active row, or one that does not exist. -/
theorem rowState_target (haccepted : Accepted request.index request.bindings) :
    InstanceWrite.rowState (target request.index request.bindings table.status) = some 0 ∨
      InstanceWrite.rowState (target request.index request.bindings table.status) = some 1 := by
  cases horder : request.order with
  | keep =>
    have hfree : ¬ IsBound request.bindings table.status := by
      intro hbound
      obtain ⟨binding, hmem, heq⟩ := exists_of_isBound haccepted.mem table.status_mem hbound
      rw [Request.bindings_of_keep horder] at hmem
      exact request.plain binding hmem heq
    rw [target_of_free hfree request.index.status_free]
    exact Or.inl (rowState_default table)
  | createAndGo =>
    have hmem : (table.status, Value.integer 4) ∈ request.bindings := by
      simp [Request.bindings_of_createAndGo horder, withStatus]
    have htarget := firstObject_binding haccepted hmem
    rw [firstObject_createAndGo] at htarget
    rw [← Option.some.inj htarget]
    exact Or.inr rfl
  | destroy =>
    have hmem : (table.status, Value.integer 6) ∈ request.bindings := by
      simp [Request.bindings_of_destroy horder]
    have htarget := firstObject_binding haccepted hmem
    rw [firstObject_destroy] at htarget
    rw [← Option.some.inj htarget]
    exact Or.inl rfl

/-- A row that an accepted request creates is a proper one. -/
theorem isProper_target (haccepted : Accepted request.index request.bindings) :
    IsProper table (target request.index request.bindings) :=
  ⟨rowState_target haccepted, fun _ hcolumn _ ↦ target_isValue_or_default hcolumn _⟩

/-- A row stays proper when an accepted request writes to it. -/
theorem isProper_rewritten (haccepted : Accepted request.index request.bindings)
    (hproper : IsProper table cells) :
    IsProper table (rewritten request.index request.bindings cells) := by
  constructor
  · unfold rewritten
    split
    · exact rowState_target haccepted
    · exact hproper.status
  · intro column hcolumn hne
    unfold rewritten
    split
    · exact target_isValue_or_default hcolumn _
    · exact hproper.filled column hcolumn hne

/-- A value that a proper row takes is one that a new row takes. -/
theorem isSome_firstObject_of_taken (hmem : binding ∈ request.bindings)
    (htaken : isRefused present binding = false) :
    (firstObject binding.1 (some binding.2)).isSome := by
  rcases Request.mem_bindings hmem with hassignment | rfl | rfl
  · cases present with
    | none => simpa [isRefused] using htaken
    | some cells =>
      have hkind := table.plain _ (request.mem _ hassignment) (request.plain _ hassignment)
      rw [isRefused, setSyntax_of_plain hkind] at htaken
      cases hfirst : firstObject binding.1 (some binding.2) with
      | none => simp [hfirst] at htaken
      | some next => rfl
  · rw [firstObject_createAndGo]
    rfl
  · rw [firstObject_destroy]
    rfl

/-- A binding that passes the test was not one the row refuses. -/
theorem proposed_eq_ok {idx : ℕ} {rval : Unit}
    (hok : proposed request present idx binding = .ok rval) :
    isRefused present binding = false := by
  unfold proposed at hok
  split at hok
  · cases hok
  · simpa using ‹¬ isRefused present binding = true›

/-- A binding is refused in the test with the name of its instance. -/
theorem proposed_eq_error {idx : ℕ} {exception : MibException}
    (herror : proposed request present idx binding = .error exception) :
    isRefused present binding = true ∧
      exception = mibError .wrongValue (context idx) (request.index.instName binding.1) := by
  unfold proposed at herror
  split at herror
  · exact ⟨‹_›, (Except.error.inj herror).symm⟩
  · cases herror

/-- A SET with a binding that is refused raises what the first of them does, and leaves the row as
it is. -/
theorem perform_run_of_refused {exception : MibException}
    (herror : eachFrom (proposed request present) 0 request.bindings = .error exception)
    (hrests : Rests request.index present state) :
    ∃ after, perform state request = (.error exception, after) ∧
      Moved request.index present present state after := by
  obtain ⟨done, failing, rest, hsplit, hdone, hfailing⟩ := exists_of_eachFrom_eq_error herror
  obtain ⟨hrefused, rfl⟩ := proposed_eq_error hfailing
  rw [Nat.zero_add]
  have hsublist : done.Sublist request.bindings := hsplit ▸ List.sublist_append_left _ _
  have haccepted : Accepted request.index done := Request.accepted hsublist fun binding hmem ↦ by
    obtain ⟨position, rval, hok⟩ := hdone binding hmem
    exact isSome_firstObject_of_taken (hsublist.subset hmem) (proposed_eq_ok hok)
  have hmem : ∀ binding ∈ done ++ failing :: rest, binding.1 ∈ columns table.row :=
    fun binding hbinding ↦ Request.bindings_mem (hsplit ▸ hbinding)
  cases present with
  | none =>
    obtain ⟨after, hrun, hafter, houtside⟩ := writeVars_run_of_missing_refused haccepted hmem
      (hsplit ▸ request.bindings_distinct) (by simpa [isRefused] using hrefused) hrests
    rw [← hsplit] at hrun
    exact ⟨after, hrun, fun column hcolumn ↦ (hafter column hcolumn).1,
      fun column hcolumn ↦ (hafter column hcolumn).2, fun _ _ hne ↦ absurd rfl hne, houtside⟩
  | some cells =>
    obtain ⟨after, hrun, hafter, houtside⟩ := writeVars_run_of_held_refused haccepted
      (fun binding hbinding ↦ request.plain _ (Request.mem_assignments_of_split hsplit hbinding))
      hmem (by simpa [isRefused] using hrefused) hrests.2
    rw [← hsplit] at hrun
    exact ⟨after, hrun, ⟨hrests.1, fun column hcolumn ↦ (hafter column hcolumn).1⟩,
      fun column hcolumn ↦ (hafter column hcolumn).2, fun _ _ hne ↦ absurd rfl hne, houtside⟩

/-- A SET of a row that is not there creates it. -/
theorem perform_run_of_missing (haccepted : Accepted request.index request.bindings)
    (hrests : Rests request.index none state) :
    ∃ after, perform state request = (.ok (request.bindings.map fun binding ↦
        (request.index.instName binding.1, seen (outcome request none) binding.1)), after) ∧
      Moved request.index none (outcome request none) state after := by
  obtain ⟨after, hrun, hafter, houtside⟩ :=
    writeVars_run_of_missing haccepted request.bindings_ne_nil hrests
  exact ⟨after, hrun, ⟨isProper_target haccepted, fun column hcolumn ↦ (hafter column hcolumn).1⟩,
    fun column hcolumn ↦ (hafter column hcolumn).2.le,
    fun column hcolumn _ ↦ (hafter column hcolumn).2, houtside⟩

/-- The columns that are bound are shown with what they have been given. -/
theorem seen_rewritten (request : Request tree table) (cells : Cells) :
    (request.bindings.map fun binding ↦ (request.index.instName binding.1,
      seen (some (rewritten request.index request.bindings cells)) binding.1)) =
      request.bindings.map fun binding ↦ (request.index.instName binding.1,
        .value (some (target request.index request.bindings binding.1))) := by
  refine List.map_congr_left fun binding hmem ↦ ?_
  rw [seen, rewritten, if_pos (isBound_of_mem hmem)]

/-- A SET of plain columns of a row that is there changes these. -/
theorem perform_run_of_kept (horder : request.order = .keep)
    (haccepted : Accepted request.index request.bindings)
    (hrests : Rests request.index (some cells) state) :
    ∃ after, perform state request = (.ok (request.bindings.map fun binding ↦
        (request.index.instName binding.1, seen (outcome request (some cells)) binding.1)), after) ∧
      Moved request.index (some cells) (outcome request (some cells)) state after := by
  have hnext : outcome request (some cells) =
      some (rewritten request.index request.bindings cells) := by
    simp only [outcome, horder]
  obtain ⟨after, hrun, hafter, houtside⟩ := writeVars_run_of_held haccepted
    (fun binding hmem ↦ request.plain binding (Request.bindings_of_keep horder ▸ hmem)) hrests.2
  rw [hnext, seen_rewritten]
  refine ⟨after, hrun, ⟨isProper_rewritten haccepted hrests.1, fun column hcolumn ↦
    (hafter column hcolumn).1⟩, fun column hcolumn ↦ (hafter column hcolumn).2.1,
    fun column hcolumn hne ↦ (hafter column hcolumn).2.2 ?_, houtside⟩
  -- a cell that is another has been written
  by_contra hfree
  exact hne (by simp [rewritten, hfree])

/-- `createAndGo` where the row does not exist by its status makes it active. -/
theorem perform_run_of_activated (horder : request.order = .createAndGo)
    (haccepted : Accepted request.index request.bindings)
    (hstatus : isRefused (some cells) (table.status, .integer 4) = false)
    (hrests : Rests request.index (some cells) state) :
    ∃ after, perform state request = (.ok (request.bindings.map fun binding ↦
        (request.index.instName binding.1, seen (outcome request (some cells)) binding.1)), after) ∧
      Moved request.index (some cells) (outcome request (some cells)) state after := by
  have hnext : outcome request (some cells) =
      some (rewritten request.index request.bindings cells) := by
    simp only [outcome, horder]
  have hbindings := Request.bindings_of_createAndGo horder
  have hlast : (table.status, Value.integer 4) ∈ request.bindings := by
    simp [hbindings, withStatus]
  have htarget := firstObject_binding haccepted hlast
  have hset : InstanceWrite.setSyntax table.status.syntaxClass (cells table.status) (.integer 4) =
      .rowCreation (target request.index request.bindings table.status) := by
    rcases hrests.1.status with hpresent | hpresent
    · rw [setSyntax_createAndGo hpresent]
      rw [firstObject_createAndGo] at htarget
      rw [← Option.some.inj htarget]
    · simp [isRefused, setSyntax_createAndGo_of_active hpresent] at hstatus
  have hfilled : ∀ column ∈ columns table.row, column.optional = true ∨
      (rewritten request.index request.bindings cells column).isValue = true := by
    intro column hcolumn
    by_cases hbound : IsBound request.bindings column
    · obtain ⟨binding, hmem, rfl⟩ := exists_of_isBound haccepted.mem hcolumn hbound
      rw [rewritten, if_pos hbound]
      exact Or.inr (isValue_firstObject hcolumn (firstObject_binding haccepted hmem))
    · have hne : column ≠ table.status := fun heq ↦ hbound (heq ▸ isBound_of_mem hlast)
      rw [rewritten, if_neg hbound]
      rcases request.filled horder column hcolumn hne with hoptional | hassigned | hdefault
      · exact Or.inl hoptional
      · rw [hbindings, isBound_withStatus_of_ne hcolumn hne] at hbound
        exact absurd hassigned hbound
      · rcases hrests.1.filled column hcolumn hne with hvalue | heq
        · exact Or.inr hvalue
        · exact Or.inr (heq ▸ hdefault)
  rw [hnext, seen_rewritten]
  rw [hbindings] at haccepted hset hfilled
  obtain ⟨after, hrun, hafter, houtside⟩ := writeVars_run_of_activated haccepted request.plain hset
    (request.identified horder) hfilled hrests.2
  rw [← hbindings] at hrun hafter haccepted
  exact ⟨after, hrun, ⟨isProper_rewritten haccepted hrests.1, fun column hcolumn ↦
    (hafter column hcolumn).1⟩, fun column hcolumn ↦ (hafter column hcolumn).2.le,
    fun column hcolumn _ ↦ (hafter column hcolumn).2, houtside⟩

/-- `destroy` takes a row that is there out of all columns. -/
theorem perform_run_of_destroyed (horder : request.order = .destroy)
    (hrests : Rests request.index (some cells) state) :
    ∃ after, perform state request = (.ok (request.bindings.map fun binding ↦
        (request.index.instName binding.1, seen (outcome request (some cells)) binding.1)), after) ∧
      Moved request.index (some cells) (outcome request (some cells)) state after := by
  have hnext : outcome request (some cells) = none := by
    simp only [outcome, horder]
  obtain ⟨after, hrun, hafter, houtside⟩ :=
    writeVars_run_of_destroyed (setSyntax_destroy hrests.1.status) hrests.2
  rw [hnext, perform, Request.bindings_of_destroy horder]
  exact ⟨after, hrun, fun column hcolumn ↦ (hafter column hcolumn).1,
    fun column hcolumn ↦ (hafter column hcolumn).2.le,
    fun column hcolumn _ ↦ (hafter column hcolumn).2, houtside⟩

/-- A SET whose bindings are all taken brings the row to its outcome. -/
theorem perform_run_of_taken
    (htaken : ∀ binding ∈ request.bindings, isRefused present binding = false)
    (hrests : Rests request.index present state) :
    ∃ after, perform state request = (.ok (request.bindings.map fun binding ↦
        (request.index.instName binding.1, seen (outcome request present) binding.1)), after) ∧
      Moved request.index present (outcome request present) state after := by
  have haccepted : Accepted request.index request.bindings :=
    Request.accepted (List.Sublist.refl _) fun binding hmem ↦
      isSome_firstObject_of_taken hmem (htaken binding hmem)
  cases present with
  | none => exact perform_run_of_missing haccepted hrests
  | some cells =>
    cases horder : request.order with
    | keep => exact perform_run_of_kept horder haccepted hrests
    | createAndGo =>
      have hlast : (table.status, Value.integer 4) ∈ request.bindings := by
        simp [Request.bindings_of_createAndGo horder, withStatus]
      exact perform_run_of_activated horder haccepted (htaken _ hlast) hrests
    | destroy => exact perform_run_of_destroyed horder hrests

end Row

/-! ### Histories -/

section History

variable {contents : Contents} {state : MibState}

/-- A request leaves the other rows of the abstract table alone. -/
theorem transact_of_ne (contents : Contents) (request : Request tree table) {instId : Oid}
    (hne : instId ≠ request.index.instId) :
    (transact contents request).2 instId = contents instId := by
  unfold transact
  split
  · rfl
  · exact Function.update_of_ne hne _ _

/-- A SET of one row is one step of the contents. -/
theorem perform_run (request : Request tree table)
    (hrests : Rests request.index (contents request.index.instId) state) :
    ∃ after, perform state request = ((transact contents request).1, after) ∧
      Moved request.index (contents request.index.instId)
        ((transact contents request).2 request.index.instId) state after := by
  rw [transact]
  cases heach : eachFrom (proposed request (contents request.index.instId)) 0 request.bindings with
  | error exception => exact perform_run_of_refused heach hrests
  | ok rvals =>
    obtain ⟨after, hrun, hmoved⟩ := perform_run_of_taken (fun binding hmem ↦ by
      obtain ⟨position, rval, hok⟩ := exists_of_eachFrom_eq_ok heach hmem
      exact proposed_eq_ok hok) hrests
    refine ⟨after, hrun, ?_⟩
    dsimp only
    rwa [Function.update_self]

/-- The step lemma: the other rows, and all that is not of the table, are left alone. -/
theorem Serves.perform (hserves : Serves tree table contents state)
    (request : Request tree table) :
    (RowLifecycle.perform state request).1 = (transact contents request).1 ∧
      Serves tree table (transact contents request).2 (RowLifecycle.perform state request).2 ∧
      Grown table contents (transact contents request).2 state
        (RowLifecycle.perform state request).2 ∧
      Untouched table state (RowLifecycle.perform state request).2 := by
  obtain ⟨after, hrun, hmoved⟩ := perform_run request (hserves request.index)
  rw [hrun]
  refine ⟨rfl, fun index ↦ ?_, fun column hcolumn ↦ ⟨hmoved.version_le column hcolumn,
    fun instId hne ↦ ?_⟩, fun id hid ↦ ?_⟩
  · by_cases hid : index.instId = request.index.instId
    · rw [eq_of_instId_eq hid]
      exact hmoved.rests
    · rw [transact_of_ne contents request hid]
      refine (hserves index).of_entry fun column hcolumn ↦ ?_
      rcases hmoved.outside.entry (.column column.name) (index.instName column) with
        ⟨other, hother, hcolumns, hname⟩ | hsame
      · obtain rfl := table.eq_of_name_eq hcolumn hother (ObjectId.column.inj hcolumns)
        exact absurd (List.append_cancel_left hname) hid
      · exact hsame
  · by_cases hid : instId = request.index.instId
    · subst hid
      exact hmoved.version_lt column hcolumn hne
    · rw [transact_of_ne contents request hid] at hne
      exact absurd rfl hne
  · rcases hmoved.outside.version id with ⟨column, hcolumn, heq⟩ | hsame
    · exact absurd heq (hid column hcolumn)
    · exact hsame

/-- The test of a read finds the cells of the abstract table. -/
theorem readTest_cell (hserves : Serves tree table contents state) (idx : ℕ)
    (cell : CellName tree table) :
    readTest tree (context idx) state cell.name =
      (readCell contents idx cell).map fun _ ↦ () := by
  have hrests := hserves cell.index
  rw [CellName.name, readTest_instName cell.mem, readCell]
  cases hpresent : contents cell.index.instId with
  | none =>
    rw [hpresent] at hrests
    rw [congrArg Entry.object (hrests cell.column cell.mem)]
    rfl
  | some cells =>
    rw [hpresent] at hrests
    obtain ⟨old, new, hobject⟩ := (hrests.2 cell.column cell.mem).object
    rw [hobject]
    dsimp only
    rw [instanceRead_instanceOf]
    cases (cells cell.column).isValue <;> rfl

/-- A read answers with the cells of the abstract table. -/
theorem readGet_cell (hserves : Serves tree table contents state) (idx : ℕ)
    (cell : CellName tree table) :
    readGet tree (context idx) state cell.name = readCell contents idx cell := by
  have hrests := hserves cell.index
  rw [CellName.name, readGet_instName cell.mem, readCell]
  cases hpresent : contents cell.index.instId with
  | none =>
    rw [hpresent] at hrests
    rw [congrArg Entry.object (hrests cell.column cell.mem)]
    rfl
  | some cells =>
    rw [hpresent] at hrests
    obtain ⟨old, new, hobject⟩ := (hrests.2 cell.column cell.mem).object
    rw [hobject, objectReadGet, instanceRead_instanceOf]
    rfl

/-- A GET reads the contents. -/
theorem Serves.readVars_run (hserves : Serves tree table contents state)
    (cells : List (CellName tree table)) :
    (ReadVars.readVars none tree (cells.map CellName.name)).run state =
      (eachFrom (readCell contents) 0 cells, state) := by
  have htests : eachFrom (fun idx name ↦ readTest tree ⟨idx, none, none⟩ state name) 0
      (cells.map CellName.name) =
        (eachFrom (readCell contents) 0 cells).map (List.map fun _ ↦ ()) :=
    (eachFrom_map_of_eq 0 fun idx cell _ ↦ readTest_cell hserves idx cell).trans
      (eachFrom_map (readCell contents) (fun _ ↦ ()) 0 cells)
  have hgets : eachFrom (fun idx name ↦ readGet tree ⟨idx, none, none⟩ state name) 0
      (cells.map CellName.name) = eachFrom (readCell contents) 0 cells :=
    eachFrom_map_of_eq 0 fun idx cell _ ↦ readGet_cell hserves idx cell
  rw [ReadVars.readVars_run, htests, hgets]
  cases eachFrom (readCell contents) 0 cells <;> rfl

/-- The step lemma of a history. -/
theorem Serves.serve (hserves : Serves tree table contents state) (command : Command tree table) :
    (RowLifecycle.serve state command).1 = (answer contents command).1 ∧
      Serves tree table (answer contents command).2 (RowLifecycle.serve state command).2 ∧
      Grown table contents (answer contents command).2 state
        (RowLifecycle.serve state command).2 ∧
      Untouched table state (RowLifecycle.serve state command).2 := by
  cases command with
  | set request => exact hserves.perform request
  | get cells =>
    rw [RowLifecycle.serve, hserves.readVars_run cells]
    exact ⟨rfl, hserves, Grown.refl table contents state, fun _ _ ↦ rfl⟩

/-- Over any history of SETs and GETs of rows the tree cannot be told from its contents. Each row is
in all columns or in none, and the version of a column tells that a cell of it is another. -/
theorem respond_serve_rows (hserves : Serves tree table contents state)
    (commands : List (Command tree table)) :
    (respond serve state commands).1 = (respond answer contents commands).1 ∧
      Serves tree table (respond answer contents commands).2 (respond serve state commands).2 ∧
      Grown table contents (respond answer contents commands).2 state
        (respond serve state commands).2 ∧
      Untouched table state (respond serve state commands).2 := by
  refine respond_eq_of_related (fun after next ↦ Serves tree table next after ∧
    Grown table contents next state after ∧ Untouched table state after) (fun _ ↦ True) ?_
    ⟨hserves, Grown.refl table contents state, fun _ _ ↦ rfl⟩ fun _ _ ↦ trivial
  rintro after next command - ⟨hnext, hgrown, huntouched⟩
  obtain ⟨hanswer, hserves, hgrownHere, huntouchedHere⟩ := hnext.serve command
  exact ⟨hanswer, hserves, hgrown.trans hgrownHere, fun id hid ↦
    (huntouchedHere id hid).trans (huntouched id hid)⟩

end History

/-! ### `vacmSecurityToGroupTable` -/

def securityModelClass : SyntaxClass where
  kind := .plain
  clone := fun value ↦ (AdvisoryLock.testAndIncrClass.clone value).filter (· ≠ .integer 0)
  default := ⟨none⟩

/-- `SnmpAdminString` of 1 to 32 octets. -/
def adminStringClass : SyntaxClass where
  kind := .plain
  clone := fun value ↦ (AtomicSet.displayStringClass.clone value).filter fun taken ↦
    1 ≤ (RowWrite.asNumbers taken).length ∧ (RowWrite.asNumbers taken).length ≤ 32
  default := ⟨none⟩

/-- `StorageType`, which is `nonVolatile` unless it is set. -/
def storageTypeClass : SyntaxClass where
  kind := .plain
  clone := fun value ↦ if value ∈ [1, 2, 3, 4, 5].map Value.integer then some value else none
  default := ⟨some (.integer 3)⟩

def rowStatusClass : SyntaxClass where
  kind := .rowStatus
  clone := fun value ↦ if value ∈ [0, 1, 2, 3, 4, 5, 6].map Value.integer then some value else none
  default := ⟨none⟩

def vacmSecurityModel : ManagedObject where
  name := [1, 3, 6, 1, 6, 3, 16, 1, 2, 1, 1]
  maxAccess := .notAccessible
  syntaxClass := securityModelClass

def vacmSecurityName : ManagedObject where
  name := [1, 3, 6, 1, 6, 3, 16, 1, 2, 1, 2]
  maxAccess := .notAccessible
  syntaxClass := adminStringClass

def vacmGroupName : ManagedObject where
  name := [1, 3, 6, 1, 6, 3, 16, 1, 2, 1, 3]
  maxAccess := .readCreate
  syntaxClass := adminStringClass

def vacmSecurityToGroupStorageType : ManagedObject where
  name := [1, 3, 6, 1, 6, 3, 16, 1, 2, 1, 4]
  maxAccess := .readCreate
  syntaxClass := storageTypeClass

def vacmSecurityToGroupStatus : ManagedObject where
  name := [1, 3, 6, 1, 6, 3, 16, 1, 2, 1, 5]
  maxAccess := .readCreate
  syntaxClass := rowStatusClass

def vacmSecurityToGroupEntry : MibTableRow where
  name := [1, 3, 6, 1, 6, 3, 16, 1, 2, 1]
  columns :=
    { entries := [(vacmSecurityModel.name, vacmSecurityModel),
        (vacmSecurityName.name, vacmSecurityName), (vacmGroupName.name, vacmGroupName),
        (vacmSecurityToGroupStorageType.name, vacmSecurityToGroupStorageType),
        (vacmSecurityToGroupStatus.name, vacmSecurityToGroupStatus)]
      sorted := by decide }
  indexNames :=
    [{ impliedFlag := false
       name := vacmSecurityModel.name
       indexType := .integer
       clone := fun arcs ↦ .ok (.integer (arcs.headD 0)) },
     { impliedFlag := false
       name := vacmSecurityName.name
       indexType := .octetString none
       clone := fun arcs ↦ .ok (.octetString (arcs.map UInt8.ofNat)) }]
  augmentingRows := []

/-- The columns of `vacmSecurityToGroupTable`, one by one. -/
theorem mem_vacmColumns {column : ManagedObject}
    (hcolumn : column ∈ columns vacmSecurityToGroupEntry) :
    column = vacmSecurityModel ∨ column = vacmSecurityName ∨ column = vacmGroupName ∨
      column = vacmSecurityToGroupStorageType ∨ column = vacmSecurityToGroupStatus := by
  simpa only [columns, vacmSecurityToGroupEntry, List.map_cons, List.map_nil, List.mem_cons,
    List.not_mem_nil, or_false] using hcolumn

def vacmTable : StatusTable where
  row := vacmSecurityToGroupEntry
  status := vacmSecurityToGroupStatus
  keyed := by decide
  below := fun column hcolumn ↦ by
    rcases mem_vacmColumns hcolumn with rfl | rfl | rfl | rfl | rfl <;> exact ⟨_, rfl⟩
  row_name_ne := by decide
  status_mem := by simp [columns, vacmSecurityToGroupEntry]
  status_kind := rfl
  status_clone := by decide
  status_default := rfl
  plain := fun column hcolumn hne ↦ by
    rcases mem_vacmColumns hcolumn with rfl | rfl | rfl | rfl | rfl
    · rfl
    · rfl
    · rfl
    · rfl
    · exact absurd rfl hne
  alone := rfl

def vacmTree : MibTree :=
  (∅ : MibTree).insert vacmSecurityToGroupEntry.name (.row vacmSecurityToGroupEntry)

/-- The security name `a` of the User-based Security Model. -/
def vacmIndex : RowIndex vacmTree vacmTable where
  instId := [3, 1, 97]
  indexVals := [(vacmSecurityModel.name, .integer 3), (vacmSecurityName.name, .octetString [97])]
  key := vacmSecurityToGroupEntry.name
  instId_ne := by decide
  decodes := rfl
  registered := fun column hcolumn ↦ by
    rcases mem_vacmColumns hcolumn with rfl | rfl | rfl | rfl | rfl <;> rfl
  covered := fun column hcolumn ↦ by
    rcases mem_vacmColumns hcolumn with rfl | rfl | rfl | rfl | rfl <;> rfl
  accepted := fun column hcolumn value hvalue ↦ by
    rcases mem_vacmColumns hcolumn with rfl | rfl | rfl | rfl | rfl
    · obtain rfl := Option.some.inj hvalue
      rfl
    · obtain rfl := Option.some.inj hvalue
      rfl
    · cases (show none = some value from hvalue)
    · cases (show none = some value from hvalue)
    · cases (show none = some value from hvalue)
  status_free := rfl

/-- `addVacmGroup` destroys the row first. -/
def destroyRequest : Request vacmTree vacmTable where
  index := vacmIndex
  assignments := []
  order := .destroy
  mem := by simp
  plain := by simp
  distinct := by simp
  agrees := by simp
  some_binding := by simp
  alone := by simp
  identified := by simp
  filled := by simp

/-- Then `addVacmGroup` creates it, here with the group `g`. -/
def addRequest : Request vacmTree vacmTable where
  index := vacmIndex
  assignments := [(vacmSecurityModel, .integer 3), (vacmSecurityName, .octetString [97]),
    (vacmGroupName, .octetString [103])]
  order := .createAndGo
  mem := by simp [vacmTable, columns, vacmSecurityToGroupEntry]
  plain := fun binding hmem heq ↦ by
    have hnames : ∀ binding ∈ [(vacmSecurityModel, Value.integer 3),
        (vacmSecurityName, .octetString [97]), (vacmGroupName, .octetString [103])],
        binding.1.name ≠ vacmSecurityToGroupStatus.name := by decide
    exact hnames binding hmem (congrArg ManagedObject.name heq)
  distinct := by decide
  agrees := fun binding hmem value hvalue ↦ by
    simp only [List.mem_cons, List.not_mem_nil, or_false] at hmem
    rcases hmem with rfl | rfl | rfl
    · obtain rfl := Option.some.inj hvalue
      rfl
    · obtain rfl := Option.some.inj hvalue
      rfl
    · cases (show none = some value from hvalue)
  some_binding := by simp
  alone := by simp
  identified := fun _ ↦ by decide
  filled := fun _ column hcolumn hne ↦ by
    rcases mem_vacmColumns hcolumn with rfl | rfl | rfl | rfl | rfl
    · exact Or.inr (Or.inl (by decide))
    · exact Or.inr (Or.inl (by decide))
    · exact Or.inr (Or.inl (by decide))
    · exact Or.inr (Or.inr rfl)
    · exact absurd rfl hne

def groupCell : CellName vacmTree vacmTable where
  index := vacmIndex
  column := vacmGroupName
  mem := by simp [vacmTable, columns, vacmSecurityToGroupEntry]

def storageCell : CellName vacmTree vacmTable where
  index := vacmIndex
  column := vacmSecurityToGroupStorageType
  mem := by simp [vacmTable, columns, vacmSecurityToGroupEntry]

/-- A group is added and read, added once more, and taken away. -/
def sampleHistory : List (Command vacmTree vacmTable) :=
  [.set destroyRequest, .get [groupCell], .set addRequest, .get [groupCell, storageCell],
    .set addRequest, .set destroyRequest, .get [groupCell]]

/-- The row that is destroyed without being there does not exist by its status, so it can be made
active; it is not created a second time. -/
theorem respond_serve_rows_sample :
    (respond serve (fun _ ↦ ObjectState.initial) sampleHistory).1 =
      [.ok [(vacmIndex.instName vacmSecurityToGroupStatus, .value (some ⟨some (.integer 0)⟩))],
        .error (mibError .noSuchInstance (context 0) groupCell.name),
        .ok [(vacmIndex.instName vacmSecurityModel, .value (some ⟨some (.integer 3)⟩)),
          (vacmIndex.instName vacmSecurityName, .value (some ⟨some (.octetString [97])⟩)),
          (groupCell.name, .value (some ⟨some (.octetString [103])⟩)),
          (vacmIndex.instName vacmSecurityToGroupStatus, .value (some ⟨some (.integer 1)⟩))],
        .ok [(groupCell.name, .value (some ⟨some (.octetString [103])⟩)),
          (storageCell.name, .value (some ⟨some (.integer 3)⟩))],
        .error (mibError .wrongValue (context 3) (vacmIndex.instName vacmSecurityToGroupStatus)),
        .ok [(vacmIndex.instName vacmSecurityToGroupStatus, .noSuchInstance)],
        .ok [(groupCell.name, .noSuchInstance)]] ∧
      Serves vacmTree vacmTable (respond answer (fun _ ↦ none) sampleHistory).2
        (respond serve (fun _ ↦ ObjectState.initial) sampleHistory).2 := by
  have hserves : Serves vacmTree vacmTable (fun _ ↦ none) fun _ ↦ ObjectState.initial :=
    fun _ _ _ ↦ rfl
  obtain ⟨hanswers, hlast, -⟩ := respond_serve_rows hserves sampleHistory
  exact ⟨hanswers.trans (by decide +kernel), hlast⟩

end Pysnmp.Smi.RowLifecycle
