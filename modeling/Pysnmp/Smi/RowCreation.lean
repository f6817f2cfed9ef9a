import Pysnmp.Smi.RowPhases

/-!
# The creation of a conceptual row

A SET that names an instance of a row that does not exist asks for the row to be created. The test
of its first binding makes an instance in every column, the commit puts them in place, and the
cleanup ends what the columns keep of the SET; each later binding passes through the other columns
again and finds their part done. What comes of it does not depend on the order of the bindings: each
column has the object of its binding, of the index it is, or its default
(`writeVars_run_of_missing`). A value that is refused leaves nothing of the row in any column
(`writeVars_run_of_missing_refused`).

A row status asks for what its value says only where it is written into an instance. A new instance
takes the state that the transition leads to, without asking for anything: `destroy` creates the row
that it does not find, in state `notExists`.
-/

set_option autoImplicit false
set_option relaxedAutoImplicit false

namespace Pysnmp.Smi.RowCreation

open Foundation Foundation.Effect FlipFlopFsm ColumnWrite WriteVars RowPhases
open Proto (Oid)
open InstanceWrite (mibError)
open RowWrite (ColumnAction)
open AtomicSet (isWritePhase_test isWritePhase_commit isWritePhase_cleanup reads_run_of_origExc
  reads_run_of_answers)

variable {tree : MibTree} {table : StatusTable}

/-! ### An instance in its column -/

/-- An instance of a column, with the objects that a SET in progress keeps. -/
def instanceOf (index : RowIndex tree table) (column : ManagedObject) (object : Syntax)
    (old : Option Syntax) (new : Option (Option Syntax)) : MibScalarInstance where
  name := index.instName column
  syntaxClass := column.syntaxClass
  syntaxObj := some object
  oldSyntax := old
  newSyntax := new

/-- The object that a new instance of a column takes from a value, if it does not refuse it. -/
def firstObject (column : ManagedObject) (value : Option Value) : Option Syntax :=
  match value with
  | none => some column.syntaxClass.default
  | some value =>
    match InstanceWrite.setSyntax column.syntaxClass column.syntaxClass.default value with
    | .taken next => some next
    | .rowCreation next => some next
    | .rowDestruction next => some next
    | .refused => none

section Column

variable {index : RowIndex tree table} {column : ManagedObject} {idx : ℕ} {value : Option Value}
  {object next : Syntax} {old : Option Syntax} {slot : Slot}

/-- A column makes its new instance with the default of its syntax. -/
theorem protoInstance_eq (index : RowIndex tree table) (column : ManagedObject) :
    protoInstance column (index.instName column) =
      instanceOf index column column.syntaxClass.default none none := by
  rw [protoInstance, instanceOf, RowIndex.instName, List.drop_left]

/-- The test of a creation prepares the object the new instance will have. -/
theorem instanceCreateTest_run (hfirst : firstObject column value = some next) :
    (InstanceWrite.createTest (context idx) (index.instName column) value).run
        (instanceOf index column column.syntaxClass.default old none) =
      (.ok (), instanceOf index column column.syntaxClass.default old (some (some next))) := by
  rw [InstanceWrite.createTest, bind_run_of_ok (get_run _)]
  rw [if_pos (show index.instName column = (instanceOf index column _ old none).name from rfl)]
  unfold InstanceWrite.setValue firstObject at *
  cases value with
  | none =>
    obtain rfl := Option.some.inj hfirst
    rfl
  | some value =>
    dsimp only [instanceOf] at hfirst ⊢
    cases hset : InstanceWrite.setSyntax column.syntaxClass column.syntaxClass.default value with
    | refused =>
      rw [hset] at hfirst
      cases hfirst
    | taken taken =>
      rw [hset] at hfirst
      obtain rfl := Option.some.inj hfirst
      rfl
    | rowCreation taken =>
      rw [hset] at hfirst
      obtain rfl := Option.some.inj hfirst
      rfl
    | rowDestruction taken =>
      rw [hset] at hfirst
      obtain rfl := Option.some.inj hfirst
      rfl

/-- The test of a creation makes the instance, unless it has been made and no value is given. -/
theorem createTest_run (hfirst : firstObject column value = some next) :
    (createTest column (context idx) (index.instName column) value).run slot =
      (.ok (), if value.isNone && slot.created.isSome then slot else
        { slot with created := some (some (instanceOf index column column.syntaxClass.default none
            (some (some next)))) }) := by
  rw [createTest, if_neg (index.instName_ne column)]
  rw [show checkAccess _ .noCreation .write (context idx) (index.instName column) = .ok () from rfl,
    bind_run_of_ok (liftExcept_run _ _), bind_run_of_ok (get_run slot)]
  split_ifs with hmade
  · rfl
  · rw [bind_run_of_ok (modify_run _ _), protoInstance_eq, onCreated, focus_run,
      instanceCreateTest_run hfirst]

/-- A value that is refused leaves an instance that has been made for nothing. -/
theorem createTest_run_of_refused {value : Value}
    (hrefused : firstObject column (some value) = none) :
    (createTest column (context idx) (index.instName column) (some value)).run slot =
      (.error (mibError .wrongValue (context idx) (index.instName column)), { slot with
        created :=
          some (some (instanceOf index column column.syntaxClass.default none none)) }) := by
  have hinstance : (InstanceWrite.createTest (context idx) (index.instName column)
        (some value)).run (instanceOf index column column.syntaxClass.default none none) =
      (.error (mibError .wrongValue (context idx) (index.instName column)),
        instanceOf index column column.syntaxClass.default none none) := by
    rw [InstanceWrite.createTest, bind_run_of_ok (get_run _)]
    rw [if_pos (show index.instName column = (instanceOf index column _ none none).name from rfl)]
    unfold InstanceWrite.setValue firstObject at *
    dsimp only [instanceOf] at hrefused ⊢
    cases hset : InstanceWrite.setSyntax column.syntaxClass column.syntaxClass.default value with
    | refused => rfl
    | _ =>
      rw [hset] at hrefused
      cases hrefused
  rw [createTest, if_neg (index.instName_ne column)]
  rw [show checkAccess _ .noCreation .write (context idx) (index.instName column) = .ok () from rfl,
    bind_run_of_ok (liftExcept_run _ _), bind_run_of_ok (get_run slot)]
  rw [if_neg (by simp)]
  rw [bind_run_of_ok (modify_run _ _), protoInstance_eq, onCreated, focus_run, hinstance]

/-- The first commit of a creation puts the instance in its place. -/
theorem createCommit_run_of_new (hobject : slot.object = none)
    (hcreated : slot.created = some (some (instanceOf index column object none
      (some (some next))))) :
    (createCommit (context idx) (index.instName column) value).run slot =
      (.ok (), { slot with
        object := some (if value.isSome
          then instanceOf index column next (some object) (some (some next))
          else instanceOf index column object none (some (some next)))
        created := some none }) := by
  obtain ⟨⟨slotObject, created, destroyed, rowOpWanted⟩, branchVersionId⟩ := slot
  dsimp only at hobject hcreated
  subst hobject hcreated
  cases value <;> rfl

/-- A later commit of the creation finds the instance in its place. -/
theorem createCommit_run_of_placed
    (hobject : slot.object = some (instanceOf index column object old (some (some next))))
    (hcreated : slot.created.isSome = true) :
    (createCommit (context idx) (index.instName column) value).run slot =
      (.ok (), { slot with
        object := some (if value.isSome
          then instanceOf index column next (old <|> some object) (some (some next))
          else instanceOf index column object old (some (some next))) }) := by
  rw [createCommit, bind_run_of_ok (get_run slot), hobject]
  dsimp only
  rw [if_pos hcreated, AdvisoryLock.onObject_run hobject rfl]
  cases value <;> rfl

/-- The cleanup of a creation drops what has been created. -/
theorem createCleanup_run_of_created (hcreated : slot.created.isSome = true) :
    (createCleanup (context idx) (index.instName column) value).run slot =
      (.ok (), { slot with created := none, branchVersionId := slot.branchVersionId + 1 }) := by
  obtain ⟨⟨slotObject, created, destroyed, rowOpWanted⟩, branchVersionId⟩ := slot
  obtain ⟨made, rfl⟩ := Option.isSome_iff_exists.mp hcreated
  cases made with
  | none => rfl
  | some made => cases value <;> rfl

/-- A later cleanup of the creation finds nothing to drop. -/
theorem createCleanup_run_of_placed {new : Option (Option Syntax)}
    (hobject : slot.object = some (instanceOf index column object old new))
    (hcreated : slot.created = none) :
    (createCleanup (context idx) (index.instName column) value).run slot =
      (.ok (), { slot with
        object := some (if value.isSome then instanceOf index column object none (some none)
          else instanceOf index column object old new)
        branchVersionId := slot.branchVersionId + 1 }) := by
  obtain ⟨⟨slotObject, created, destroyed, rowOpWanted⟩, branchVersionId⟩ := slot
  dsimp only at hobject hcreated
  subst hobject hcreated
  cases value <;> rfl

/-- Where there is no instance the cleanup of a creation drops whatever has been created. -/
theorem createCleanup_run_of_missing (hobject : slot.object = none) :
    (createCleanup (context idx) (index.instName column) value).run slot =
      (.ok (), { slot with created := none, branchVersionId := slot.branchVersionId + 1 }) := by
  obtain ⟨⟨slotObject, created, destroyed, rowOpWanted⟩, branchVersionId⟩ := slot
  dsimp only at hobject
  subst hobject
  rcases created with _ | _ | made
  · rfl
  · rfl
  · cases value <;> rfl

end Column

/-! ### The reads after a write -/

section Reads

variable {index : RowIndex tree table} {column : ManagedObject} {idx : ℕ} {state : MibState}
  {object : Syntax} {old : Option Syntax} {new : Option (Option Syntax)}

/-- There is no instance, or one with an object. -/
def IsReadable (index : RowIndex tree table) (column : ManagedObject) (slot : Slot) : Prop :=
  slot.object = none ∨
    ∃ object old new, slot.object = some (instanceOf index column object old new)

/-- What a read of a column answers. -/
def shown (slot : Slot) : ReadValue :=
  match slot.object with
  | none => .noSuchInstance
  | some object => .value object.syntaxObj

/-- An instance answers a read only once it has a value. -/
theorem instanceRead_instanceOf {α : Type} (answer : MibScalarInstance → α) :
    instanceRead answer (context idx) (index.instName column)
        (instanceOf index column object old new) =
      if object.isValue then .ok (answer (instanceOf index column object old new))
      else .error (mibError .noSuchInstance (context idx) (index.instName column)) := by
  rw [instanceRead, if_pos (show index.instName column = (instanceOf index column object old
    new).name from rfl)]
  rfl

/-- The test of a read looks at the cell alone. -/
theorem readTest_instName (hcolumn : column ∈ columns table.row) :
    readTest tree (context idx) state (index.instName column) =
      match (index.slot state column).object with
      | none => .ok ()
      | some found =>
        instanceRead (fun _ ↦ ()) (context idx) (index.instName column) found := by
  rw [readTest, if_neg (index.instName_ne_rootName hcolumn), index.getBranch_tree hcolumn]
  dsimp only
  rw [if_neg (index.instName_ne_rowName hcolumn), index.getBranch_columns hcolumn]
  dsimp only
  simp only [objectReadTest, if_neg (index.instName_ne column)]
  rfl

/-- A read looks at the cell alone. -/
theorem readGet_instName (hcolumn : column ∈ columns table.row) :
    readGet tree (context idx) state (index.instName column) =
      objectReadGet (index.slot state column).object (context idx) (index.instName column) := by
  rw [readGet, index.getBranch_tree hcolumn]
  dsimp only
  rw [index.getBranch_columns hcolumn]
  rfl

variable {bindings : List Binding}

/-- After an error the reads change nothing, and the error is what is raised. -/
theorem reads_run_of_raised (hmem : ∀ binding ∈ bindings, binding.1 ∈ columns table.row)
    (hreadable : Describes index (IsReadable index) state) (turns : ℕ) (error : SmiError) :
    (flipFlopLoop fsmWriteVar (writeHandlers none tree) (varBinds index bindings) (turns + 3)
        .writeCleanup .ok (some error) []).run state = (.error (.smi error), state) := by
  refine reads_run_of_origExc (fun idx varBind hvarBind raised ↦ ?_)
    (fun idx varBind hvarBind raised ↦ ?_) turns error
  · obtain ⟨binding, hbinding, rfl⟩ := List.mem_map.mp hvarBind
    refine (readTest_instName (hmem binding hbinding)).trans_ne ?_
    rcases hreadable binding.1 (hmem binding hbinding) with hobject | ⟨object, old, new, hobject⟩
    · simp [hobject]
    · rw [hobject]
      dsimp only
      rw [instanceRead_instanceOf]
      cases hvalue : object.isValue <;> simp [mibError]
  · obtain ⟨binding, hbinding, rfl⟩ := List.mem_map.mp hvarBind
    refine (readGet_instName (hmem binding hbinding)).trans_ne ?_
    rcases hreadable binding.1 (hmem binding hbinding) with hobject | ⟨object, old, new, hobject⟩
    · simp [hobject, objectReadGet]
    · rw [hobject, objectReadGet, instanceRead_instanceOf]
      cases hvalue : object.isValue <;> simp [mibError]

/-- After a write the reads answer what the columns keep. -/
theorem reads_run_of_written (hmem : ∀ binding ∈ bindings, binding.1 ∈ columns table.row)
    (hreadable : ∀ binding ∈ bindings, (index.slot state binding.1).object = none ∨
      ∃ object old new, (index.slot state binding.1).object =
        some (instanceOf index binding.1 object old new) ∧ object.isValue = true) (turns : ℕ) :
    (flipFlopLoop fsmWriteVar (writeHandlers none tree) (varBinds index bindings) (turns + 3)
        .writeCleanup .ok none []).run state =
      (.ok (bindings.map fun binding ↦
        (index.instName binding.1, shown (index.slot state binding.1))), state) := by
  refine reads_run_of_answers (fun idx binding hbinding ↦ ?_) (fun idx binding hbinding ↦ ?_) turns
  · refine (readTest_instName (hmem binding hbinding)).trans ?_
    rcases hreadable binding hbinding with hobject | ⟨object, old, new, hobject, hvalue⟩
    · rw [hobject]
    · rw [hobject]
      dsimp only
      rw [instanceRead_instanceOf, if_pos hvalue]
  · refine (readGet_instName (hmem binding hbinding)).trans ?_
    rw [shown]
    rcases hreadable binding hbinding with hobject | ⟨object, old, new, hobject, hvalue⟩
    · rw [hobject]
      rfl
    · rw [hobject, objectReadGet, instanceRead_instanceOf, if_pos hvalue]
      rfl

end Reads

/-! ### The column that asks -/

section Asking

variable {index : RowIndex tree table} {column : ManagedObject} {idx : ℕ} {value : Value}
  {object next : Syntax} {old : Option Syntax} {slot after : Slot}

/-- The operation asked of the row is raised, and stays recorded. -/
theorem raiseRowOp_run_of_some {operation : RowOperation}
    (hwanted : slot.rowOpWanted = some operation) :
    raiseRowOp.run slot = (.error (RowOperation.exception operation), slot) := by
  rw [raiseRowOp, bind_run_of_ok (get_run slot), hwanted]
  rfl

/-- The operation asked of the row is raised for the last time. -/
theorem dropRowOp_run_of_some {operation : RowOperation}
    (hwanted : slot.rowOpWanted = some operation) :
    dropRowOp.run slot =
      (.error (RowOperation.exception operation), { slot with rowOpWanted := none }) := by
  rw [dropRowOp, bind_run_of_ok (get_run slot), hwanted]
  rfl

/-- A column without an instance at the index refuses the write. -/
theorem scalarWriteTest_run_of_missing (hobject : slot.object = none) :
    (ColumnWrite.scalarWriteTest column (context idx) (index.instName column)
        (some value)).run slot =
      (.error (mibError .noSuchInstance (context idx) (index.instName column)), slot) := by
  rw [ColumnWrite.scalarWriteTest, if_neg (index.instName_ne column),
    show checkAccess _ .notWritable .write (context idx) (index.instName column) = .ok () from rfl,
    bind_run_of_ok (liftExcept_run _ _), onObject, bind_run_of_ok (get_run slot), hobject]
  rfl

/-- A write under a name without an instance asks for the row to be created. -/
theorem writeTest_run_of_missing (hobject : slot.object = none)
    (hfirst : firstObject column (some value) = some next) :
    (ColumnWrite.write column (context idx) (index.instName column) (some value) .test).run slot =
      (.error (.smi { kind := .rowCreationWanted }), { slot with
        created := some (some (instanceOf index column column.syntaxClass.default none
          (some (some next))))
        rowOpWanted := some (.creationWanted none) }) := by
  have hcreate : (do
        wantRowOp (some (.creationWanted none))
        createTest column (context idx) (index.instName column) (some value)).run slot =
      (.ok (), { slot with
        created := some (some (instanceOf index column column.syntaxClass.default none
          (some (some next))))
        rowOpWanted := some (.creationWanted none) }) :=
    (bind_run_of_ok (modify_run _ _)).trans (createTest_run hfirst)
  show (writeTest column (context idx) (index.instName column) (some value)).run _ = _
  rw [writeTest, bind_run_of_ok ((handle_run_of_error (scalarWriteTest_run_of_missing
    hobject)).trans hcreate)]
  exact raiseRowOp_run_of_some (show _ = some (RowOperation.creationWanted none) from rfl)

/-- The value may be refused after the creation has been asked for. -/
theorem writeTest_run_of_missing_refused (hobject : slot.object = none)
    (hrefused : firstObject column (some value) = none) :
    (ColumnWrite.write column (context idx) (index.instName column) (some value) .test).run slot =
      (.error (mibError .wrongValue (context idx) (index.instName column)), { slot with
        created := some (some (instanceOf index column column.syntaxClass.default none none))
        rowOpWanted := some (.creationWanted none) }) := by
  have hcreate : (do
        wantRowOp (some (.creationWanted none))
        createTest column (context idx) (index.instName column) (some value)).run slot =
      (.error (mibError .wrongValue (context idx) (index.instName column)), { slot with
        created := some (some (instanceOf index column column.syntaxClass.default none none))
        rowOpWanted := some (.creationWanted none) }) :=
    (bind_run_of_ok (modify_run _ _)).trans (createTest_run_of_refused hrefused)
  show (writeTest column (context idx) (index.instName column) (some value)).run _ = _
  rw [writeTest, bind_run_of_error ((handle_run_of_error (scalarWriteTest_run_of_missing
    hobject)).trans hcreate)]

/-- The cleanup of a binding without an instance that has asked for nothing. -/
theorem writeCleanup_run_of_missing (hobject : slot.object = none)
    (hwanted : slot.rowOpWanted = none) :
    (ColumnWrite.write column (context idx) (index.instName column) (some value) .cleanup).run
        slot =
      (.error (mibError .noSuchInstance (context idx) (index.instName column)), { slot with
        branchVersionId := slot.branchVersionId + 1 + 1 }) := by
  obtain ⟨⟨slotObject, created, destroyed, rowOpWanted⟩, branchVersionId⟩ := slot
  dsimp only at hobject hwanted
  subst hobject hwanted
  rfl

/-- The phases of the operation that a binding has asked for, in its own column. -/
def asked (operation : RowOperation) (subAction : SubAction) : ColumnAction :=
  fun column context name value ↦
    match operation with
    | .creationWanted _ => create column context name value subAction
    | .destructionWanted => destroy column context name value subAction

/-- A write goes the way the recorded operation says. -/
theorem delegateWrite_run_of_wanted {operation : RowOperation} {subAction : SubAction}
    (hwanted : slot.rowOpWanted = some operation) :
    (delegateWrite column (context idx) (index.instName column) (some value) subAction).run slot =
      (asked operation subAction column (context idx) (index.instName column)
        (some value)).run slot := by
  rw [delegateWrite, bind_run_of_ok (get_run slot), hwanted]
  cases operation <;> rfl

/-- The phases after the test are those of the operation that has been asked for. -/
theorem writeCommit_run_of_wanted {operation : RowOperation}
    (hwanted : slot.rowOpWanted = some operation)
    (hrun : (asked operation .commit column (context idx) (index.instName column)
      (some value)).run slot = (.ok (), after))
    (hafter : after.rowOpWanted = some operation) :
    (ColumnWrite.write column (context idx) (index.instName column) (some value) .commit).run slot =
      (.error (RowOperation.exception operation), after) := by
  show (writeCommit column (context idx) (index.instName column) (some value)).run _ = _
  rw [writeCommit, bind_run_of_ok ((delegateWrite_run_of_wanted hwanted).trans hrun)]
  exact raiseRowOp_run_of_some hafter

/-- The cleanup counts a version, and then goes the way the recorded operation says. -/
theorem writeCleanup_run_of_wanted {operation : RowOperation}
    (hwanted : slot.rowOpWanted = some operation)
    (hrun : (asked operation .cleanup column (context idx) (index.instName column)
      (some value)).run { slot with branchVersionId := slot.branchVersionId + 1 } =
        (.ok (), after))
    (hafter : after.rowOpWanted = some operation) :
    (ColumnWrite.write column (context idx) (index.instName column) (some value) .cleanup).run
        slot =
      (.error (RowOperation.exception operation), { after with rowOpWanted := none }) := by
  let bumped : Slot := { slot with branchVersionId := slot.branchVersionId + 1 }
  have hbumped : bumped.rowOpWanted = some operation := hwanted
  show (writeCleanup column (context idx) (index.instName column) (some value)).run _ = _
  rw [writeCleanup, bumpVersion, bind_run_of_ok (modify_run _ _),
    bind_run_of_ok ((delegateWrite_run_of_wanted hbumped).trans hrun)]
  exact dropRowOp_run_of_some hafter

end Asking

/-! ### The creation of a row -/

/-- The value that a column is given: by a binding, or as an index. -/
def given (index : RowIndex tree table) (bindings : List Binding) (column : ManagedObject) :
    Option Value :=
  ((bindings.find? fun binding ↦ binding.1.name = column.name).map Prod.snd).or
    (index.value? column)

/-- The object that the instance of a column has in a new row. -/
def target (index : RowIndex tree table) (bindings : List Binding) (column : ManagedObject) :
    Syntax :=
  (firstObject column (given index bindings column)).getD column.syntaxClass.default

/-- The column has a binding. -/
def IsBound (bindings : List Binding) (column : ManagedObject) : Prop :=
  column.name ∈ bindings.map fun binding ↦ binding.1.name

instance (bindings : List Binding) (column : ManagedObject) : Decidable (IsBound bindings column) :=
  inferInstanceAs (Decidable (_ ∈ _))

/-- Bindings of different columns with values that a new row accepts, and that agree with the
identifier where they are for an index. -/
structure Accepted (index : RowIndex tree table) (bindings : List Binding) : Prop where
  mem : ∀ binding ∈ bindings, binding.1 ∈ columns table.row
  distinct : (bindings.map fun binding ↦ binding.1.name).Nodup
  taken : ∀ binding ∈ bindings, (firstObject binding.1 (some binding.2)).isSome
  agrees : ∀ binding ∈ bindings, ∀ value, index.value? binding.1 = some value →
    firstObject binding.1 (some binding.2) = firstObject binding.1 (some value)

section Creation

variable {index : RowIndex tree table} {bindings done rest : List Binding} {binding : Binding}
  {column : ManagedObject}

/-- Fewer of the accepted bindings are accepted too. -/
theorem Accepted.sublist (haccepted : Accepted index bindings)
    (hsublist : done.Sublist bindings) : Accepted index done where
  mem := fun binding hmem ↦ haccepted.mem binding (hsublist.subset hmem)
  distinct := haccepted.distinct.sublist (hsublist.map _)
  taken := fun binding hmem ↦ haccepted.taken binding (hsublist.subset hmem)
  agrees := fun binding hmem ↦ haccepted.agrees binding (hsublist.subset hmem)

/-- A plain column takes what its class makes of a value. -/
theorem firstObject_of_plain (hkind : column.syntaxClass.kind = .plain) (value : Value) :
    firstObject column (some value) = (column.syntaxClass.clone value).map fun object ↦
      ⟨some object⟩ := by
  rw [firstObject, InstanceWrite.setSyntax, hkind]
  dsimp only
  cases column.syntaxClass.clone value <;> rfl

/-- The columns of indices take the values of the indices. -/
theorem isSome_firstObject_value? (hcolumn : column ∈ columns table.row) :
    (firstObject column (index.value? column)).isSome := by
  cases hvalue : index.value? column with
  | none => rfl
  | some value =>
    have hne : column ≠ table.status := by
      rintro rfl
      exact absurd (hvalue.symm.trans index.status_free) nofun
    rw [firstObject_of_plain (table.plain column hcolumn hne), Option.isSome_map]
    exact index.accepted column hcolumn value hvalue

/-- A column that is bound is given the value of its binding. -/
theorem given_of_bound (haccepted : Accepted index bindings) (hmem : binding ∈ bindings) :
    given index bindings binding.1 = some binding.2 := by
  have hfind : bindings.find? (fun other ↦ other.1.name = binding.1.name) = some binding := by
    cases hfound : bindings.find? (fun other ↦ decide (other.1.name = binding.1.name)) with
    | none => exact absurd (List.find?_eq_none.mp hfound binding hmem) (by simp)
    | some other =>
      have hname : other.1.name = binding.1.name := by simpa using List.find?_some hfound
      rw [List.inj_on_of_nodup_map haccepted.distinct (List.mem_of_find?_eq_some hfound) hmem hname]
  rw [given, hfind]
  rfl

/-- A column that is not bound is given what the index says of it, if anything. -/
theorem given_of_not_bound (hfree : ¬ IsBound bindings column) :
    given index bindings column = index.value? column := by
  have hfind : bindings.find? (fun other ↦ other.1.name = column.name) = none := by
    refine List.find?_eq_none.mpr fun other hother hname ↦ hfree ?_
    exact List.mem_map.mpr ⟨other, hother, of_decide_eq_true hname⟩
  rw [given, hfind]
  rfl

/-- A bound column has a binding of its own. -/
theorem exists_of_isBound (hmem : ∀ binding ∈ bindings, binding.1 ∈ columns table.row)
    (hcolumn : column ∈ columns table.row) (hbound : IsBound bindings column) :
    ∃ binding ∈ bindings, binding.1 = column := by
  obtain ⟨binding, hbinding, hname⟩ := List.mem_map.mp hbound
  exact ⟨binding, hbinding, table.eq_of_name_eq (hmem binding hbinding) hcolumn hname⟩

/-- Each column has an object in the new row. -/
theorem firstObject_given (haccepted : Accepted index bindings)
    (hcolumn : column ∈ columns table.row) :
    firstObject column (given index bindings column) = some (target index bindings column) := by
  have hsome : (firstObject column (given index bindings column)).isSome := by
    by_cases hbound : IsBound bindings column
    · obtain ⟨binding, hmem, rfl⟩ := exists_of_isBound haccepted.mem hcolumn hbound
      rw [given_of_bound haccepted hmem]
      exact haccepted.taken binding hmem
    · rw [given_of_not_bound hbound]
      exact isSome_firstObject_value? hcolumn
  obtain ⟨object, hobject⟩ := Option.isSome_iff_exists.mp hsome
  rw [target, hobject]
  rfl

/-- A binding makes the object that the row is to have in its column. -/
theorem firstObject_binding (haccepted : Accepted index bindings) (hmem : binding ∈ bindings) :
    firstObject binding.1 (some binding.2) = some (target index bindings binding.1) := by
  rw [← firstObject_given haccepted (haccepted.mem binding hmem), given_of_bound haccepted hmem]

/-- An index column has the value of the index, whether it is bound or not. -/
theorem firstObject_index (haccepted : Accepted index bindings)
    (hcolumn : column ∈ columns table.row) {value : Value}
    (hvalue : index.value? column = some value) :
    firstObject column (some value) = some (target index bindings column) := by
  rw [← firstObject_given haccepted hcolumn]
  by_cases hbound : IsBound bindings column
  · obtain ⟨binding, hmem, rfl⟩ := exists_of_isBound haccepted.mem hcolumn hbound
    rw [given_of_bound haccepted hmem, haccepted.agrees binding hmem value hvalue]
  · rw [given_of_not_bound hbound, hvalue]

/-- A column that is given no value has its default. -/
theorem target_of_free (hfree : ¬ IsBound bindings column) (hvalue : index.value? column = none) :
    target index bindings column = column.syntaxClass.default := by
  rw [target, given_of_not_bound hfree, hvalue]
  rfl

/-- One more binding binds one more column. -/
theorem isBound_append : IsBound (done ++ [binding]) column ↔
    IsBound done column ∨ column.name = binding.1.name := by
  rw [IsBound, List.map_append, List.mem_append, List.map_singleton, List.mem_singleton]
  rfl

/-- A binding does not change what the other columns are given. -/
theorem target_append (hne : column.name ≠ binding.1.name) :
    target index (done ++ [binding]) column = target index done column := by
  have hgiven : given index (done ++ [binding]) column = given index done column := by
    rw [given, given, List.find?_append]
    have hlast : [binding].find? (fun other ↦ decide (other.1.name = column.name)) = none := by
      simp [hne.symm]
    rw [hlast, Option.or_none]
  rw [target, target, hgiven]

/-- The bindings of a prefix do not name the column of the next one. -/
theorem not_isBound_of_split (hdistinct : (bindings.map fun binding ↦ binding.1.name).Nodup)
    (hsplit : bindings = done ++ binding :: rest) : ¬ IsBound done binding.1 := by
  rw [hsplit, List.map_append, List.map_cons] at hdistinct
  exact fun hbound ↦ (List.nodup_append.mp hdistinct).2.2 _ hbound _ List.mem_cons_self rfl

/-! ### The test of a creation -/

/-- What a column keeps in the test of a creation. -/
def testedSlot (index : RowIndex tree table) (version : Oid → ℕ) (done : List Binding)
    (column : ManagedObject) : Slot where
  object := none
  created := if done.isEmpty then none else
    some (some (instanceOf index column column.syntaxClass.default none
      (some (some (target index done column)))))
  destroyed := none
  rowOpWanted := if IsBound done column then some (.creationWanted none) else none
  branchVersionId := version column.name

/-- The test of one binding of a creation. -/
theorem test_step (haccepted : Accepted index bindings) (version : Oid → ℕ) (idx : ℕ)
    (hsplit : bindings = done ++ binding :: rest) {state : MibState}
    (hstate : Describes index (fun column slot ↦ slot = testedSlot index version done column)
      state) :
    ∃ after, (write tree (context idx) (index.instName binding.1) (some binding.2)
        .test).run state = (.ok (), after) ∧
      Describes index (fun column slot ↦
        slot = testedSlot index version (done ++ [binding]) column) after ∧
      SameOutside index state after := by
  have hmem : binding ∈ bindings := by simp [hsplit]
  have hcolumn : binding.1 ∈ columns table.row := haccepted.mem binding hmem
  have hprefix : Accepted index (done ++ [binding]) :=
    haccepted.sublist (by rw [hsplit]; simp)
  have hbinding : binding ∈ done ++ [binding] := by simp
  refine write_of_rowOp hcolumn .creation { kind := .rowCreationWanted } _ rfl ?_
    (fun other hother hne ↦ ?_) nofun
  · rw [hstate binding.1 hcolumn]
    refine ⟨_, writeTest_run_of_missing rfl (firstObject_binding hprefix hbinding), ?_⟩
    simp [testedSlot, isBound_append]
  · have hname : other.name ≠ binding.1.name := fun heq ↦
      hne (table.eq_of_name_eq hother hcolumn heq)
    rw [hstate other hother]
    show ∃ slot, (createTest other (context idx) (index.instName other)
      (index.value? other)).run _ = _ ∧ _
    cases hvalue : index.value? other with
    | some value =>
      refine ⟨_, createTest_run (firstObject_index hprefix hother hvalue), ?_⟩
      simp [testedSlot, isBound_append, hname]
    | none =>
      refine ⟨_, createTest_run rfl, ?_⟩
      by_cases hdone : done = []
      · subst hdone
        have htarget : target index [binding] other = other.syntaxClass.default :=
          target_of_free (by simp [IsBound, hname]) hvalue
        simp [testedSlot, IsBound, hname, htarget]
      · simp [testedSlot, isBound_append, hname, target_append hname, hdone]

/-! ### The commit of a creation -/

/-- What a column keeps in the commit of a creation: once the first binding has had its turn its
instance is in place, with the object it is given if that has been committed. -/
def IsCommitted (index : RowIndex tree table) (version : Oid → ℕ) (bindings done : List Binding)
    (column : ManagedObject) (slot : Slot) : Prop :=
  let new : Option (Option Syntax) := some (some (target index bindings column))
  ∃ old, slot =
    { object := if done.isEmpty then none else
        some (instanceOf index column
          (if IsBound done column ∨ (index.value? column).isSome then target index bindings column
            else column.syntaxClass.default) old new)
      created := if done.isEmpty then
          some (some (instanceOf index column column.syntaxClass.default none new))
        else some none
      destroyed := none
      rowOpWanted := if IsBound bindings column then some (.creationWanted none) else none
      branchVersionId := version column.name }

/-- The part of a column in the commit of a binding. -/
theorem createCommit_step {version : Oid → ℕ} {slot : Slot} {value : Option Value} (idx : ℕ)
    (hslot : IsCommitted index version bindings done column slot)
    (hvalue : value.isSome = true ↔
      column.name = binding.1.name ∨ (index.value? column).isSome = true) :
    ∃ next, (createCommit (context idx) (index.instName column) value).run slot = (.ok (), next) ∧
      IsCommitted index version bindings (done ++ [binding]) column next := by
  obtain ⟨old, rfl⟩ := hslot
  by_cases hdone : done = []
  · subst hdone
    refine ⟨_, createCommit_run_of_new rfl rfl, if value.isSome then
      some column.syntaxClass.default else none, ?_⟩
    have hcond : IsBound ([] ++ [binding]) column ∨ (index.value? column).isSome = true ↔
        value.isSome = true := by
      rw [hvalue, isBound_append]
      simp [IsBound]
    simp only [hcond]
    by_cases hsome : value.isSome = true <;> simp [hsome]
  · have hempty : done.isEmpty = false := by simp [hdone]
    simp only [hempty, Bool.false_eq_true, if_false]
    refine ⟨_, createCommit_run_of_placed rfl rfl, if value.isSome then old.or (some
      (if IsBound done column ∨ (index.value? column).isSome then target index bindings column
        else column.syntaxClass.default)) else old, ?_⟩
    have hcond : IsBound (done ++ [binding]) column ∨ (index.value? column).isSome = true ↔
        (IsBound done column ∨ (index.value? column).isSome = true) ∨ value.isSome = true := by
      rw [hvalue, isBound_append]
      tauto
    simp only [hcond]
    by_cases hsome : value.isSome = true <;> simp [hsome]

/-- A committed column still asks for the creation of its row. -/
theorem IsCommitted.rowOpWanted {version : Oid → ℕ} {slot : Slot}
    (hslot : IsCommitted index version bindings done column slot)
    (hbound : IsBound bindings column) : slot.rowOpWanted = some (.creationWanted none) := by
  obtain ⟨old, rfl⟩ := hslot
  exact if_pos hbound

/-- The column of a binding is bound. -/
theorem isBound_of_mem (hmem : binding ∈ bindings) : IsBound bindings binding.1 :=
  List.mem_map_of_mem hmem

/-- The commit of one binding of a creation. -/
theorem commit_step (haccepted : Accepted index bindings) (version : Oid → ℕ) (idx : ℕ)
    (hsplit : bindings = done ++ binding :: rest) {state : MibState}
    (hstate : Describes index (IsCommitted index version bindings done) state) :
    ∃ after, (write tree (context idx) (index.instName binding.1) (some binding.2)
        .commit).run state = (.ok (), after) ∧
      Describes index (IsCommitted index version bindings (done ++ [binding])) after ∧
      SameOutside index state after := by
  have hmem : binding ∈ bindings := by simp [hsplit]
  have hcolumn : binding.1 ∈ columns table.row := haccepted.mem binding hmem
  refine write_of_rowOp hcolumn .creation { kind := .rowCreationWanted } _ rfl ?_
    (fun other hother hne ↦ ?_) nofun
  · have hvalue : (some binding.2).isSome = true ↔ binding.1.name = binding.1.name ∨
        (index.value? binding.1).isSome = true := by
      simp
    obtain ⟨next, hrun, hnext⟩ := createCommit_step idx (hstate binding.1 hcolumn) hvalue
    refine ⟨next, ?_, hnext⟩
    exact writeCommit_run_of_wanted ((hstate binding.1 hcolumn).rowOpWanted (isBound_of_mem hmem))
      hrun (hnext.rowOpWanted (isBound_of_mem hmem))
  · have hname : other.name ≠ binding.1.name := fun heq ↦
      hne (table.eq_of_name_eq hother hcolumn heq)
    exact createCommit_step idx (hstate other hother) (by simp [hname])

/-! ### The cleanup of a creation -/

/-- What a column keeps in the cleanup of a creation. -/
def IsCleaned (index : RowIndex tree table) (version : Oid → ℕ) (bindings done : List Binding)
    (column : ManagedObject) (slot : Slot) : Prop :=
  (∃ old new, slot.object =
    some (instanceOf index column (target index bindings column) old new)) ∧
  slot.created = (if done.isEmpty then some none else none) ∧
  slot.destroyed = none ∧
  slot.rowOpWanted = (if IsBound bindings column ∧ ¬ IsBound done column then
    some (.creationWanted none) else none) ∧
  (done = [] → slot.branchVersionId = version column.name) ∧
  (done ≠ [] → version column.name < slot.branchVersionId)

/-- After the commit each column has what it has been given, or its default. -/
theorem IsCommitted.isCleaned_nil {version : Oid → ℕ} {slot : Slot}
    (hcommitted : IsCommitted index version bindings bindings column slot) (hne : bindings ≠ []) :
    IsCleaned index version bindings [] column slot := by
  obtain ⟨old, hslot⟩ := hcommitted
  have hcell : (if IsBound bindings column ∨ (index.value? column).isSome
      then target index bindings column else column.syntaxClass.default) =
        target index bindings column := by
    split_ifs with hgiven
    · rfl
    · push Not at hgiven
      exact (target_of_free hgiven.1 (Option.not_isSome_iff_eq_none.mp hgiven.2)).symm
  have hempty : bindings.isEmpty = false := by simp [hne]
  have hnone : ¬ IsBound [] column := List.not_mem_nil
  rw [hslot, hcell]
  simp only [hempty]
  exact ⟨⟨old, _, rfl⟩, rfl, rfl, by simp [hnone], fun _ ↦ rfl, fun hnot ↦ absurd rfl hnot⟩

/-- The part of a column in the cleanup of a binding. -/
theorem createCleanup_step {slot : Slot} {value : Option Value} {object : Syntax} (idx : ℕ)
    (hobject : ∃ old new, slot.object = some (instanceOf index column object old new))
    (hcreated : slot.created = some none ∨ slot.created = none) :
    ∃ next, (createCleanup (context idx) (index.instName column) value).run slot =
        (.ok (), next) ∧
      (∃ old new, next.object = some (instanceOf index column object old new)) ∧
      next.created = none ∧ next.destroyed = slot.destroyed ∧
      next.rowOpWanted = slot.rowOpWanted ∧ next.branchVersionId = slot.branchVersionId + 1 := by
  obtain ⟨old, new, hobject⟩ := hobject
  rcases hcreated with hmade | hmade
  · exact ⟨_, createCleanup_run_of_created (by rw [hmade]; rfl), ⟨old, new, hobject⟩, rfl, rfl, rfl,
      rfl⟩
  · refine ⟨_, createCleanup_run_of_placed hobject hmade, ?_, hmade, rfl, rfl, rfl⟩
    cases value with
    | none => exact ⟨old, new, rfl⟩
    | some value => exact ⟨none, some none, rfl⟩

/-- After the cleanup nothing is left of the creation. -/
theorem IsCleaned.created_eq {version : Oid → ℕ} {slot : Slot}
    (hslot : IsCleaned index version bindings done column slot) :
    slot.created = some none ∨ slot.created = none := by
  rw [hslot.2.1]
  exact ite_eq_or_eq _ _ _

/-- The version of a column only grows. -/
theorem IsCleaned.version_le {version : Oid → ℕ} {slot : Slot}
    (hslot : IsCleaned index version bindings done column slot) :
    version column.name ≤ slot.branchVersionId := by
  by_cases hdone : done = []
  · exact (hslot.2.2.2.2.1 hdone).ge
  · exact (hslot.2.2.2.2.2 hdone).le

/-- The cleanup of one binding of a creation. -/
theorem cleanup_step (haccepted : Accepted index bindings) (version : Oid → ℕ) (idx : ℕ)
    (hsplit : bindings = done ++ binding :: rest) {state : MibState}
    (hstate : Describes index (IsCleaned index version bindings done) state) :
    ∃ after, (write tree (context idx) (index.instName binding.1) (some binding.2)
        .cleanup).run state = (.ok (), after) ∧
      Describes index (IsCleaned index version bindings (done ++ [binding])) after ∧
      SameOutside index state after := by
  have hmem : binding ∈ bindings := by simp [hsplit]
  have hcolumn : binding.1 ∈ columns table.row := haccepted.mem binding hmem
  refine write_of_rowOp hcolumn .creation { kind := .rowCreationWanted } _ rfl ?_
    (fun other hother hne ↦ ?_) nofun
  · have hslot := hstate binding.1 hcolumn
    have hwanted : (index.slot state binding.1).rowOpWanted = some (.creationWanted none) := by
      rw [hslot.2.2.2.1,
        if_pos ⟨isBound_of_mem hmem, not_isBound_of_split haccepted.distinct hsplit⟩]
    -- the column counts a change of its own before it cleans up
    let bumped : Slot := { index.slot state binding.1 with
      branchVersionId := (index.slot state binding.1).branchVersionId + 1 }
    obtain ⟨next, hrun, hobject, hcreated, hdestroyed, hrowOp, hnext⟩ :=
      @createCleanup_step tree table index binding.1 bumped (some binding.2) _ idx hslot.1
        hslot.created_eq
    refine ⟨_, writeCleanup_run_of_wanted hwanted hrun (hrowOp.trans hwanted), hobject,
      by simp [hcreated], hdestroyed.trans hslot.2.2.1, ?_, by simp, fun _ ↦ ?_⟩
    · simp [isBound_append]
    · have hle := hslot.version_le
      have hbumped : next.branchVersionId = (index.slot state binding.1).branchVersionId + 1 + 1 :=
        hnext
      show _ < next.branchVersionId
      omega
  · have hname : other.name ≠ binding.1.name := fun heq ↦
      hne (table.eq_of_name_eq hother hcolumn heq)
    have hslot := hstate other hother
    obtain ⟨next, hrun, hobject, hcreated, hdestroyed, hrowOp, hnext⟩ :=
      @createCleanup_step tree table index other _ (index.value? other) _ idx hslot.1
        hslot.created_eq
    refine ⟨next, hrun, hobject, by simp [hcreated], hdestroyed.trans hslot.2.2.1, ?_, by simp,
      fun _ ↦ ?_⟩
    · rw [hrowOp, hslot.2.2.2.1]
      simp [isBound_append, hname]
    · rw [hnext]
      exact Nat.lt_succ_of_le hslot.version_le

/-! ### A SET that creates a row -/

/-- Nothing is kept under the identifier. -/
def IsMissing (slot : Slot) : Prop :=
  slot.toEntry = ⟨none, none, none, none⟩

/-- The column keeps an instance with its cell, and nothing of a SET in progress. -/
structure IsHeld (index : RowIndex tree table) (cells : ManagedObject → Syntax)
    (column : ManagedObject) (slot : Slot) : Prop where
  object : ∃ old new, slot.object = some (instanceOf index column (cells column) old new)
  created : slot.created = none
  destroyed : slot.destroyed = none
  rowOpWanted : slot.rowOpWanted = none

/-- A row status that is not refused has a value. -/
theorem isValue_of_setRowStatus {syntaxClass : SyntaxClass} {current next : Syntax} {value : Value}
    (hset : InstanceWrite.setRowStatus syntaxClass current value ∈
      [.taken next, .rowCreation next, .rowDestruction next]) : next.isValue = true := by
  unfold InstanceWrite.setRowStatus at hset
  split at hset
  · split at hset
    · simp at hset
    · split at hset <;> simp at hset <;> subst hset <;> rfl
  · simp at hset

/-- What a new row takes from a value has a value. -/
theorem isValue_firstObject (hcolumn : column ∈ columns table.row) {value : Value} {next : Syntax}
    (hfirst : firstObject column (some value) = some next) : next.isValue = true := by
  by_cases hstatus : column = table.status
  · rw [firstObject, InstanceWrite.setSyntax, hstatus, table.status_kind] at hfirst
    dsimp only at hfirst
    cases hset : InstanceWrite.setRowStatus table.status.syntaxClass
        table.status.syntaxClass.default value with
    | refused =>
      rw [hset] at hfirst
      cases hfirst
    | _ =>
      rw [hset] at hfirst
      obtain rfl := Option.some.inj hfirst
      refine @isValue_of_setRowStatus table.status.syntaxClass table.status.syntaxClass.default _
        value ?_
      rw [hset]
      simp
  · rw [firstObject_of_plain (table.plain column hcolumn hstatus)] at hfirst
    obtain ⟨object, -, rfl⟩ := Option.map_eq_some_iff.mp hfirst
    rfl

/-- The reads after a write answer the bound columns with what they have been given. -/
theorem reads_run_of_given (haccepted : Accepted index bindings) {state : MibState}
    (hgiven : ∀ binding ∈ bindings, ∃ old new, (index.slot state binding.1).object =
      some (instanceOf index binding.1 (target index bindings binding.1) old new)) (turns : ℕ) :
    (flipFlopLoop fsmWriteVar (writeHandlers none tree) (varBinds index bindings) (turns + 3)
        .writeCleanup .ok none []).run state =
      (.ok (bindings.map fun binding ↦
        (index.instName binding.1, .value (some (target index bindings binding.1)))), state) := by
  refine (reads_run_of_written haccepted.mem (fun binding hmem ↦ ?_) turns).trans ?_
  · obtain ⟨old, new, hobject⟩ := hgiven binding hmem
    exact Or.inr ⟨_, old, new, hobject, isValue_firstObject (haccepted.mem binding hmem)
      (firstObject_binding haccepted hmem)⟩
  · refine congrArg (fun answers ↦ (Except.ok answers, state)) (List.map_congr_left
      fun binding hmem ↦ ?_)
    obtain ⟨old, new, hobject⟩ := hgiven binding hmem
    rw [shown, hobject]
    rfl

/-- Before the first binding is tested the cells of a missing row are as they were. -/
theorem describes_testedSlot_nil {state : MibState}
    (hmissing : Describes index (fun _ ↦ IsMissing) state) :
    Describes index (fun column slot ↦
      slot = testedSlot index (fun name ↦ (state (.column name)).branchVersionId) [] column)
      state := by
  intro column hcolumn
  have hentry : (index.slot state column).toEntry = _ := hmissing column hcolumn
  calc index.slot state column
      = { (index.slot state column).toEntry with
          branchVersionId := (state (.column column.name)).branchVersionId } := rfl
    _ = testedSlot index _ [] column := by rw [hentry]; rfl

/-- A SET of a row that does not exist creates it in all columns, whatever the bindings are. -/
theorem writeVars_run_of_missing (haccepted : Accepted index bindings) (hne : bindings ≠ [])
    {state : MibState} (hmissing : Describes index (fun _ ↦ IsMissing) state) :
    ∃ after, (writeVars none tree (varBinds index bindings)).run state =
        (.ok (bindings.map fun binding ↦
          (index.instName binding.1, .value (some (target index bindings binding.1)))), after) ∧
      Describes index (fun column slot ↦ IsHeld index (target index bindings) column slot ∧
        (index.slot state column).branchVersionId < slot.branchVersionId) after ∧
      SameOutside index state after := by
  let version : Oid → ℕ := fun name ↦ (state (.column name)).branchVersionId
  obtain ⟨tested, htest, htested, hsameTest⟩ := runPhase_bindings _ (isWritePhase_test none tree)
    (fun idx done binding rest state hsplit ↦ test_step haccepted version idx hsplit)
    (describes_testedSlot_nil hmissing)
  have hstaged : Describes index (IsCommitted index version bindings []) tested := by
    intro column hcolumn
    refine ⟨none, (htested column hcolumn).trans ?_⟩
    simp [testedSlot, hne]
  obtain ⟨committed, hcommit, hcommitted, hsameCommit⟩ := runPhase_bindings _
    (isWritePhase_commit none tree)
    (fun idx done binding rest state hsplit ↦ commit_step haccepted version idx hsplit) hstaged
  obtain ⟨after, hcleanup, hcleaned, hsameCleanup⟩ := runPhase_bindings _
    (isWritePhase_cleanup none tree)
    (fun idx done binding rest state hsplit ↦ cleanup_step haccepted version idx hsplit)
    fun column hcolumn ↦ (hcommitted column hcolumn).isCleaned_nil hne
  refine ⟨after, ?_, fun column hcolumn ↦ ?_, (hsameTest.trans hsameCommit).trans hsameCleanup⟩
  · refine (writeVars_run_of_passed htest hcommit hcleanup).trans
      (reads_run_of_given haccepted (fun binding hmem ↦ ?_) 7)
    exact (hcleaned binding.1 (haccepted.mem binding hmem)).1
  · obtain ⟨hobject, hcreated, hdestroyed, hrowOp, -, hversion⟩ := hcleaned column hcolumn
    refine ⟨⟨hobject, by simpa [hne] using hcreated, hdestroyed, by simpa using hrowOp⟩,
      hversion hne⟩

/-! ### A SET that is refused -/

/-- What a column keeps in the cleanup after a binding has been refused: the bindings up to it have
asked for the creation. -/
def IsDropped (version : Oid → ℕ) (wanted done : List Binding) (column : ManagedObject)
    (slot : Slot) : Prop :=
  slot.object = none ∧
  (done ≠ [] → slot.created = none) ∧
  slot.destroyed = none ∧
  slot.rowOpWanted = (if IsBound wanted column ∧ ¬ IsBound done column then
    some (.creationWanted none) else none) ∧
  version column.name ≤ slot.branchVersionId

/-- The cleanup of a binding that has asked for a creation that is not to be. -/
theorem drop_step (hmem : ∀ binding ∈ bindings, binding.1 ∈ columns table.row)
    (hdistinct : (bindings.map fun binding ↦ binding.1.name).Nodup) (version : Oid → ℕ) (idx : ℕ)
    (hsplit : bindings = done ++ binding :: rest) {state : MibState}
    (hstate : Describes index (IsDropped version bindings done) state) :
    ∃ after, (write tree (context idx) (index.instName binding.1) (some binding.2)
        .cleanup).run state = (.ok (), after) ∧
      Describes index (IsDropped version bindings (done ++ [binding])) after ∧
      SameOutside index state after := by
  have hbinding : binding ∈ bindings := by simp [hsplit]
  have hcolumn : binding.1 ∈ columns table.row := hmem binding hbinding
  refine write_of_rowOp hcolumn .creation { kind := .rowCreationWanted } _ rfl ?_
    (fun other hother hne ↦ ?_) nofun
  · obtain ⟨hobject, -, hdestroyed, hrowOp, hversion⟩ := hstate binding.1 hcolumn
    rw [if_pos ⟨isBound_of_mem hbinding, not_isBound_of_split hdistinct hsplit⟩] at hrowOp
    refine ⟨_, writeCleanup_run_of_wanted hrowOp (createCleanup_run_of_missing hobject) hrowOp,
      hobject, fun _ ↦ rfl, hdestroyed, ?_, ?_⟩
    · simp [isBound_append]
    · dsimp only
      omega
  · have hname : other.name ≠ binding.1.name := fun heq ↦
      hne (table.eq_of_name_eq hother hcolumn heq)
    obtain ⟨hobject, -, hdestroyed, hrowOp, hversion⟩ := hstate other hother
    refine ⟨_, createCleanup_run_of_missing hobject, hobject, fun _ ↦ rfl, hdestroyed, ?_, ?_⟩
    · simp [isBound_append, hname, hrowOp]
    · dsimp only
      omega

/-- A cell whose creation was dropped is missing again. -/
theorem IsDropped.isMissing {version : Oid → ℕ} {slot : Slot}
    (hslot : IsDropped version bindings bindings column slot) (hne : bindings ≠ []) :
    IsMissing slot := by
  obtain ⟨⟨object, created, destroyed, rowOpWanted⟩, branchVersionId⟩ := slot
  obtain ⟨hobject, hcreated, hdestroyed, hrowOp, -⟩ := hslot
  dsimp only at hobject hcreated hdestroyed hrowOp
  rw [if_neg fun hboth ↦ hboth.2 hboth.1] at hrowOp
  rw [IsMissing, hobject, hcreated hne, hdestroyed, hrowOp]

/-- The test of the binding that is refused. -/
theorem test_step_refused {failing : Binding} (version : Oid → ℕ)
    (hcolumn : failing.1 ∈ columns table.row)
    (hrefused : firstObject failing.1 (some failing.2) = none) {state : MibState}
    (hstate : Describes index (fun column slot ↦ slot = testedSlot index version done column)
      state) :
    ∃ after, (write tree (context done.length) (index.instName failing.1) (some failing.2)
        .test).run state =
        (.error (mibError .wrongValue (context done.length) (index.instName failing.1)), after) ∧
      Describes index (IsDropped version (done ++ [failing]) []) after ∧
      SameOutside index state after := by
  have hobject : (index.slot state failing.1).object = none := by
    rw [hstate failing.1 hcolumn]
    rfl
  have htest : (ColumnWrite.write failing.1 (context done.length) (index.instName failing.1)
      (some failing.2) .test).run (index.slot state failing.1) = _ :=
    writeTest_run_of_missing_refused hobject hrefused
  refine write_step_of_error hcolumn _ (by simp) (by simp) hstate ⟨_, htest, ?_⟩
    fun other hother hne slot hslot ↦ ?_
  · rw [hstate failing.1 hcolumn]
    exact ⟨rfl, fun hnot ↦ absurd rfl hnot, rfl, by simp [IsBound], le_rfl⟩
  · have hname : other.name ≠ failing.1.name := fun heq ↦
      hne (table.eq_of_name_eq hother hcolumn heq)
    have hnone : ¬ IsBound [] other := List.not_mem_nil
    rw [hslot]
    exact ⟨rfl, fun hnot ↦ absurd rfl hnot, rfl, by simp [testedSlot, isBound_append, hname, hnone],
      le_rfl⟩

/-- The cleanup of a binding that has not been tested. -/
theorem cleanup_step_untested {version : Oid → ℕ} {next : Binding} {state : MibState}
    (hcolumn : next.1 ∈ columns table.row) (hne : done ≠ []) (idx : ℕ)
    (hstate : Describes index (IsDropped version done done) state) :
    ∃ after, (write tree (context idx) (index.instName next.1) (some next.2) .cleanup).run state =
        (.error (mibError .noSuchInstance (context idx) (index.instName next.1)), after) ∧
      Describes index (fun column slot ↦ IsMissing slot ∧
        version column.name ≤ slot.branchVersionId) after ∧ SameOutside index state after := by
  have hmissing := (hstate next.1 hcolumn).isMissing hne
  have hcleanup : (ColumnWrite.write next.1 (context idx) (index.instName next.1) (some next.2)
      .cleanup).run (index.slot state next.1) = _ :=
    writeCleanup_run_of_missing (congrArg Entry.object hmissing)
      (congrArg Entry.rowOpWanted hmissing)
  refine write_step_of_error hcolumn _ (by simp) (by simp) hstate ⟨_, hcleanup, hmissing, ?_⟩
    fun other _ _ slot hslot ↦ ⟨hslot.isMissing hne, hslot.2.2.2.2⟩
  have hle := (hstate next.1 hcolumn).2.2.2.2
  dsimp only
  omega

/-- A SET of a row that does not exist and whose first refused binding is `failing` leaves nothing
of it. -/
theorem writeVars_run_of_missing_refused {failing : Binding} (haccepted : Accepted index done)
    (hmem : ∀ binding ∈ done ++ failing :: rest, binding.1 ∈ columns table.row)
    (hdistinct : ((done ++ failing :: rest).map fun binding ↦ binding.1.name).Nodup)
    (hrefused : firstObject failing.1 (some failing.2) = none)
    {state : MibState} (hmissing : Describes index (fun _ ↦ IsMissing) state) :
    ∃ after, (writeVars none tree (varBinds index (done ++ failing :: rest))).run state =
        (.error (mibError .wrongValue (context done.length) (index.instName failing.1)), after) ∧
      Describes index (fun column slot ↦ IsMissing slot ∧
        (index.slot state column).branchVersionId ≤ slot.branchVersionId) after ∧
      SameOutside index state after := by
  let version : Oid → ℕ := fun name ↦ (state (.column name)).branchVersionId
  have hmemWanted : ∀ binding ∈ done ++ [failing], binding.1 ∈ columns table.row := fun binding h ↦
    hmem binding (by simp at h ⊢; tauto)
  have hdistinctWanted : ((done ++ [failing]).map fun binding ↦ binding.1.name).Nodup :=
    hdistinct.sublist ((by simp : (done ++ [failing]).Sublist (done ++ failing :: rest)).map _)
  have hne : done ++ [failing] ≠ [] := by simp
  obtain ⟨tested, htest, htested, hsameTest⟩ := runPhase_bindings_of_error _
    (isWritePhase_test none tree)
    (fun idx before binding later state hsplit ↦ test_step haccepted version idx hsplit)
    (describes_testedSlot_nil hmissing) _ (fun state hstate ↦
      test_step_refused version (hmem failing (by simp)) hrefused hstate) rest
  have hsteps : Steps (IsDropped version (done ++ [failing])) index .cleanup (done ++ [failing]) :=
    fun idx before binding later state hsplit ↦
      drop_step hmemWanted hdistinctWanted version idx hsplit
  cases rest with
  | nil =>
    obtain ⟨after, hcleanup, hcleaned, hsameCleanup⟩ :=
      runPhase_bindings _ (isWritePhase_cleanup none tree) hsteps htested
    refine ⟨after, ?_, fun column hcolumn ↦ ?_, hsameTest.trans hsameCleanup⟩
    · rw [writeVars_run_of_refused htest hcleanup]
      exact reads_run_of_raised hmem (fun column hcolumn ↦ Or.inl (hcleaned column hcolumn).1) 8 _
    · exact ⟨(hcleaned column hcolumn).isMissing hne, (hcleaned column hcolumn).2.2.2.2⟩
  | cons next later =>
    -- the first binding that has not been tested ends the cleanup
    have hsplit : done ++ failing :: next :: later = (done ++ [failing]) ++ next :: later := by simp
    obtain ⟨after, hcleanup, hcleaned, hsameCleanup⟩ :=
      runPhase_bindings_of_error _ (isWritePhase_cleanup none tree) hsteps htested _
        (fun state hstate ↦ cleanup_step_untested (hmem next (by simp)) hne _ hstate) later
    refine ⟨after, ?_, hcleaned, hsameTest.trans hsameCleanup⟩
    rw [← hsplit] at hcleanup
    rw [writeVars, flipFlopFsm]
    refine (flipFlopLoop_run_of_next rfl (by decide) htest).trans ?_
    refine (flipFlopLoop_run_of_next rfl (by decide) hcleanup).trans ?_
    exact flipFlopLoop_run_of_stop rfl

end Creation

end Pysnmp.Smi.RowCreation
