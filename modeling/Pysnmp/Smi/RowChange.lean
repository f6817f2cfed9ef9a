import Pysnmp.Smi.RowCreation

/-!
# Changing a conceptual row that is there

A SET of plain columns of a row that is there gives each of them its value
(`writeVars_run_of_held`), and the first value that is refused leaves all of them as they are
(`writeVars_run_of_held_refused`). A status that comes last may create the row once more, where the
row does not exist by its status: every column makes an instance that is not to be used, the one
that is there takes the value that has been tested, and the columns have to be filled
(`writeVars_run_of_activated`). A status that destroys the row takes the instances out of all
columns (`writeVars_run_of_destroyed`).
-/

set_option autoImplicit false
set_option relaxedAutoImplicit false

namespace Pysnmp.Smi.RowChange

open Foundation Foundation.Effect FlipFlopFsm ColumnWrite WriteVars RowPhases RowCreation
open Proto (Oid)
open InstanceWrite (mibError)
open AtomicSet (isWritePhase_test isWritePhase_commit isWritePhase_cleanup)

variable {tree : MibTree} {table : StatusTable} {index : RowIndex tree table}

/-! ### A column with an instance -/

section Column

variable {column : ManagedObject} {idx : ℕ} {value : Value} {object next first : Syntax}
  {old : Option Syntax} {new : Option (Option Syntax)} {slot : Slot}

/-- A plain column takes or refuses a value whatever it holds. -/
theorem setSyntax_of_plain (hkind : column.syntaxClass.kind = .plain) (present : Syntax)
    (value : Value) :
    InstanceWrite.setSyntax column.syntaxClass present value =
      match firstObject column (some value) with
      | some next => .taken next
      | none => .refused := by
  rw [firstObject_of_plain hkind, InstanceWrite.setSyntax, hkind]
  dsimp only
  cases column.syntaxClass.clone value <;> rfl

/-- What `setValue` makes of a value, by what the syntax makes of it. -/
theorem setValue_instanceOf (value : Value) :
    InstanceWrite.setValue (instanceOf index column object old new) (some value) (context idx)
        (index.instName column) =
      match InstanceWrite.setSyntax column.syntaxClass object value with
      | .taken next => .ok next
      | .rowCreation next =>
        .error (.smi { kind := .rowCreationWanted, syntaxDetail := some next })
      | .rowDestruction next =>
        .error (.smi { kind := .rowDestructionWanted, syntaxDetail := some next })
      | .refused => .error (mibError .wrongValue (context idx) (index.instName column)) := by
  rfl

/-- The test of a write where there is an instance is up to the instance. -/
theorem scalarWriteTest_run (hobject : slot.object = some (instanceOf index column object old new))
    {result : Except MibException Unit} {last : MibScalarInstance}
    (htest : (InstanceWrite.writeTest (context idx) (index.instName column) (some value)).run
      (instanceOf index column object old new) = (result, last)) :
    (ColumnWrite.scalarWriteTest column (context idx) (index.instName column)
        (some value)).run slot = (result, { slot with object := some last }) := by
  rw [ColumnWrite.scalarWriteTest, if_neg (index.instName_ne column),
    show checkAccess _ .notWritable .write (context idx) (index.instName column) = .ok () from rfl,
    bind_run_of_ok (liftExcept_run _ _)]
  exact AdvisoryLock.onObject_run hobject htest

theorem writeTest_run_of_taken
    (hobject : slot.object = some (instanceOf index column object old new))
    (hwanted : slot.rowOpWanted = none)
    (hset : InstanceWrite.setSyntax column.syntaxClass object value = .taken next) :
    (ColumnWrite.write column (context idx) (index.instName column) (some value) .test).run slot =
      (.ok (), { slot with
        object := some (instanceOf index column object old (some (some next))) }) := by
  have htest : (InstanceWrite.writeTest (context idx) (index.instName column) (some value)).run
      (instanceOf index column object old new) =
      (.ok (), instanceOf index column object old (some (some next))) := by
    rw [InstanceWrite.writeTest, bind_run_of_ok (get_run _)]
    rw [if_pos (show index.instName column = (instanceOf index column _ old new).name from rfl),
      setValue_instanceOf, hset]
    rfl
  show (writeTest column (context idx) (index.instName column) (some value)).run _ = _
  rw [writeTest, bind_run_of_ok (handle_run_of_ok (scalarWriteTest_run hobject htest)), raiseRowOp,
    bind_run_of_ok (get_run _)]
  dsimp only
  rw [hwanted]
  rfl

theorem writeTest_run_of_refused
    (hobject : slot.object = some (instanceOf index column object old new))
    (hset : InstanceWrite.setSyntax column.syntaxClass object value = .refused) :
    (ColumnWrite.write column (context idx) (index.instName column) (some value) .test).run slot =
      (.error (mibError .wrongValue (context idx) (index.instName column)), slot) := by
  have htest : (InstanceWrite.writeTest (context idx) (index.instName column) (some value)).run
      (instanceOf index column object old new) =
      (.error (mibError .wrongValue (context idx) (index.instName column)),
        instanceOf index column object old new) := by
    rw [InstanceWrite.writeTest, bind_run_of_ok (get_run _)]
    rw [if_pos (show index.instName column = (instanceOf index column _ old new).name from rfl),
      setValue_instanceOf, hset]
    rfl
  have hsame : ({ slot with object := some (instanceOf index column object old new) } : Slot) =
      slot := by
    rw [← hobject]
  have hscalar := scalarWriteTest_run hobject htest
  show (writeTest column (context idx) (index.instName column) (some value)).run _ = _
  rw [hsame] at hscalar
  rw [writeTest, bind_run_of_error ((handle_run_of_error hscalar).trans rfl)]
  rfl

/-- A write that asks for a creation where there is an instance: the status is kept for the
commit. -/
theorem writeTest_run_of_creation
    (hobject : slot.object = some (instanceOf index column object old new))
    (hset : InstanceWrite.setSyntax column.syntaxClass object value = .rowCreation next)
    (hfirst : firstObject column (some value) = some first) :
    (ColumnWrite.write column (context idx) (index.instName column) (some value) .test).run slot =
      (.error (.smi { kind := .rowCreationWanted, syntaxDetail := some next }), { slot with
        object := some (instanceOf index column object old (some (some next)))
        created := some (some (instanceOf index column column.syntaxClass.default none
          (some (some first))))
        rowOpWanted := some (.creationWanted (some next)) }) := by
  have htest : (InstanceWrite.writeTest (context idx) (index.instName column) (some value)).run
      (instanceOf index column object old new) =
      (.error (.smi { kind := .rowCreationWanted, syntaxDetail := some next }),
        instanceOf index column object old (some (some next))) := by
    rw [InstanceWrite.writeTest, bind_run_of_ok (get_run _)]
    rw [if_pos (show index.instName column = (instanceOf index column _ old new).name from rfl),
      setValue_instanceOf, hset]
    rfl
  have hcreate : (do
        wantRowOp (some (.creationWanted (some next)))
        createTest column (context idx) (index.instName column) (some value)).run
          { slot with object := some (instanceOf index column object old (some (some next))) } =
      (.ok (), { slot with
        object := some (instanceOf index column object old (some (some next)))
        created := some (some (instanceOf index column column.syntaxClass.default none
          (some (some first))))
        rowOpWanted := some (.creationWanted (some next)) }) :=
    (bind_run_of_ok (modify_run _ _)).trans (createTest_run hfirst)
  show (writeTest column (context idx) (index.instName column) (some value)).run _ = _
  rw [writeTest, bind_run_of_ok ((handle_run_of_error (scalarWriteTest_run hobject htest)).trans
    hcreate)]
  exact raiseRowOp_run_of_some (show _ = some (RowOperation.creationWanted (some next)) from rfl)

/-- The test of a destruction passes over values that are refused. -/
theorem destroyTest_run (asked : Option Value)
    (hobject : slot.object = some (instanceOf index column object old new)) :
    ∃ staged, (destroyTest column (context idx) (index.instName column) asked).run slot =
      (.ok (), { slot with object := some staged }) := by
  have hinstance : ∃ staged,
      (InstanceWrite.destroyTest (context idx) (index.instName column) asked).run
        (instanceOf index column object old new) = (.ok (), staged) := by
    rw [InstanceWrite.destroyTest, bind_run_of_ok (get_run _)]
    rw [if_pos (show index.instName column = (instanceOf index column _ old new).name from rfl)]
    cases asked with
    | none => exact ⟨_, rfl⟩
    | some value =>
      rw [setValue_instanceOf]
      cases InstanceWrite.setSyntax column.syntaxClass object value <;> exact ⟨_, rfl⟩
  obtain ⟨staged, hstaged⟩ := hinstance
  refine ⟨staged, ?_⟩
  rw [destroyTest, if_neg (index.instName_ne column), bind_run_of_ok (get_run slot),
    if_pos (by rw [hobject]; rfl)]
  rw [show checkAccess _ .noAccess .write (context idx) (index.instName column) = .ok () from rfl,
    bind_run_of_ok (liftExcept_run _ _)]
  exact AdvisoryLock.onObject_run hobject hstaged

/-- A write that asks for a destruction. -/
theorem writeTest_run_of_destruction
    (hobject : slot.object = some (instanceOf index column object old new))
    (hset : InstanceWrite.setSyntax column.syntaxClass object value = .rowDestruction next) :
    ∃ staged,
      (ColumnWrite.write column (context idx) (index.instName column) (some value) .test).run
        slot =
      (.error (.smi { kind := .rowDestructionWanted }), { slot with
        object := some staged
        rowOpWanted := some .destructionWanted }) := by
  have htest : (InstanceWrite.writeTest (context idx) (index.instName column) (some value)).run
      (instanceOf index column object old new) =
      (.error (.smi { kind := .rowDestructionWanted, syntaxDetail := some next }),
        instanceOf index column object old (some (some next))) := by
    rw [InstanceWrite.writeTest, bind_run_of_ok (get_run _)]
    rw [if_pos (show index.instName column = (instanceOf index column _ old new).name from rfl),
      setValue_instanceOf, hset]
    rfl
  let asking : Slot := { slot with
    object := some (instanceOf index column object old (some (some next)))
    rowOpWanted := some .destructionWanted }
  obtain ⟨staged, hdestroy⟩ := @destroyTest_run tree table index column idx object old
    (some (some next)) asking (some value) rfl
  refine ⟨staged, ?_⟩
  have hasked : (do
        wantRowOp (some .destructionWanted)
        destroyTest column (context idx) (index.instName column) (some value)).run
          { slot with object := some (instanceOf index column object old (some (some next))) } =
      (.ok (), { asking with object := some staged }) :=
    (bind_run_of_ok (modify_run _ _)).trans hdestroy
  show (writeTest column (context idx) (index.instName column) (some value)).run _ = _
  rw [writeTest, bind_run_of_ok ((handle_run_of_error (scalarWriteTest_run hobject htest)).trans
    hasked)]
  exact raiseRowOp_run_of_some (show _ = some RowOperation.destructionWanted from rfl)

theorem writeCommit_run_of_staged
    (hobject : slot.object = some (instanceOf index column object old (some (some next))))
    (hwanted : slot.rowOpWanted = none) :
    (ColumnWrite.write column (context idx) (index.instName column) (some value) .commit).run slot =
      (.ok (), { slot with
        object :=
          some (instanceOf index column next (old <|> some object) (some (some next))) }) := by
  obtain ⟨⟨slotObject, created, destroyed, rowOpWanted⟩, branchVersionId⟩ := slot
  dsimp only at hobject hwanted
  subst hobject hwanted
  rfl

theorem writeCleanup_run_of_held
    (hobject : slot.object = some (instanceOf index column object old new))
    (hwanted : slot.rowOpWanted = none) :
    (ColumnWrite.write column (context idx) (index.instName column) (some value) .cleanup).run
        slot =
      (.ok (), { slot with
        object := some (instanceOf index column object none (some none))
        branchVersionId := slot.branchVersionId + 1 + 1 }) := by
  obtain ⟨⟨slotObject, created, destroyed, rowOpWanted⟩, branchVersionId⟩ := slot
  dsimp only at hobject hwanted
  subst hobject hwanted
  rfl

/-- A later commit of a creation, without a value, changes nothing. -/
theorem createCommit_run_of_unvalued (hobject : slot.object.isSome = true)
    (hcreated : slot.created.isSome = true) :
    (createCommit (context idx) (index.instName column) none).run slot = (.ok (), slot) := by
  obtain ⟨⟨slotObject, created, destroyed, rowOpWanted⟩, branchVersionId⟩ := slot
  obtain ⟨found, rfl⟩ := Option.isSome_iff_exists.mp hobject
  obtain ⟨made, rfl⟩ := Option.isSome_iff_exists.mp hcreated
  rfl

end Column

/-! ### The bindings of plain columns -/

/-- The cells of a row after a SET. -/
def rewritten (index : RowIndex tree table) (bindings : List Binding)
    (cells : ManagedObject → Syntax) (column : ManagedObject) : Syntax :=
  if IsBound bindings column then target index bindings column else cells column

/-- A bound column of a rewritten row has what it has been given. -/
theorem object_of_mem {cells : ManagedObject → Syntax} {bindings : List Binding}
    {binding : Binding} {slot : Slot}
    (hheld : IsHeld index (rewritten index bindings cells) binding.1 slot)
    (hmem : binding ∈ bindings) : ∃ old new, slot.object =
      some (instanceOf index binding.1 (target index bindings binding.1) old new) := by
  obtain ⟨old, new, hobject⟩ := hheld.object
  rw [rewritten, if_pos (isBound_of_mem hmem)] at hobject
  exact ⟨old, new, hobject⟩

section Plain

variable {version : Oid → ℕ} {cells : ManagedObject → Syntax}
  {isMade : Bool}
  {wanted : ManagedObject → Option RowOperation} {all tested written done rest : List Binding}
  {binding : Binding} {column : ManagedObject} {slot : Slot} {state : MibState}

/-- What a column keeps of a row that is there, in the test and the commit of a SET: the bindings of
`all` that have been tested have a value ready, and those that have been written have taken it. -/
def IsStaged (index : RowIndex tree table) (version : Oid → ℕ) (cells : ManagedObject → Syntax)
    (isMade : Bool) (wanted : ManagedObject → Option RowOperation)
    (all tested written : List Binding) (column : ManagedObject) (slot : Slot) : Prop :=
  ∃ old new created,
    slot = { object := some (instanceOf index column
               (if IsBound written column then target index all column else cells column) old new)
             created := created
             destroyed := none
             rowOpWanted := wanted column
             branchVersionId := version column.name } ∧
      created.isSome = isMade ∧
      (IsBound tested column → new = some (some (target index all column)))

/-- A binding that is accepted is taken by its plain column. -/
theorem setSyntax_of_accepted (haccepted : Accepted index all) (hmem : binding ∈ all)
    (hplain : binding.1 ≠ table.status) (present : Syntax) :
    InstanceWrite.setSyntax binding.1.syntaxClass present binding.2 =
      .taken (target index all binding.1) := by
  rw [setSyntax_of_plain (table.plain binding.1 (haccepted.mem binding hmem) hplain),
    firstObject_binding haccepted hmem]

theorem mem_of_split (hsplit : all = done ++ binding :: rest) : binding ∈ all := by
  simp [hsplit]

/-- The test of a plain binding. -/
theorem plain_test_step (haccepted : Accepted index all) (hmem : binding ∈ all)
    (hplain : binding.1 ≠ table.status) (hwanted : wanted binding.1 = none) (idx : ℕ)
    (hstate : Describes index (IsStaged index version cells isMade wanted all done []) state) :
    ∃ after, (write tree (context idx) (index.instName binding.1) (some binding.2)
        .test).run state = (.ok (), after) ∧
      Describes index (IsStaged index version cells isMade wanted all (done ++ [binding]) [])
        after ∧
      SameOutside index state after := by
  have hcolumn : binding.1 ∈ columns table.row := haccepted.mem binding hmem
  refine write_step_of_plain hcolumn _ hstate ?_ fun other hother hne slot hslot ↦ ?_
  · obtain ⟨old, new, created, hslot, hmade, -⟩ := hstate binding.1 hcolumn
    rw [hslot]
    exact ⟨_, writeTest_run_of_taken rfl hwanted (setSyntax_of_accepted haccepted hmem hplain _),
      old, _, created, rfl, hmade, fun _ ↦ rfl⟩
  · have hname : other.name ≠ binding.1.name := fun heq ↦
      hne (table.eq_of_name_eq hother hcolumn heq)
    obtain ⟨old, new, created, hslot, hmade, hnew⟩ := hslot
    refine ⟨old, new, created, hslot, hmade, fun hbound ↦ hnew ?_⟩
    simpa [isBound_append, hname] using hbound

/-- The commit of a plain binding. -/
theorem plain_commit_step (haccepted : Accepted index all) (hmem : binding ∈ all)
    (htested : binding ∈ tested) (hwanted : wanted binding.1 = none) (idx : ℕ)
    (hstate : Describes index (IsStaged index version cells isMade wanted all tested done) state) :
    ∃ after, (write tree (context idx) (index.instName binding.1) (some binding.2)
        .commit).run state = (.ok (), after) ∧
      Describes index (IsStaged index version cells isMade wanted all tested (done ++ [binding]))
        after ∧
      SameOutside index state after := by
  have hcolumn : binding.1 ∈ columns table.row := haccepted.mem binding hmem
  refine write_step_of_plain hcolumn _ hstate ?_ fun other hother hne slot hslot ↦ ?_
  · obtain ⟨old, new, created, hslot, hmade, hnew⟩ := hstate binding.1 hcolumn
    obtain rfl := hnew (isBound_of_mem htested)
    rw [hslot]
    have hcell : (if IsBound (done ++ [binding]) binding.1 then target index all binding.1
        else cells binding.1) = target index all binding.1 :=
      if_pos (isBound_append.mpr (Or.inr rfl))
    refine ⟨_, writeCommit_run_of_staged rfl hwanted, ?_⟩
    rw [IsStaged, hcell]
    exact ⟨_, _, created, rfl, hmade, fun _ ↦ rfl⟩
  · have hname : other.name ≠ binding.1.name := fun heq ↦
      hne (table.eq_of_name_eq hother hcolumn heq)
    obtain ⟨old, new, created, hslot, hmade, hnew⟩ := hslot
    refine ⟨old, new, created, ?_, hmade, hnew⟩
    simp only [isBound_append, hname, or_false]
    exact hslot

/-- What a column keeps of a row that is there, in the cleanup of a SET. -/
def IsSettled (index : RowIndex tree table) (version : Oid → ℕ) (cells : ManagedObject → Syntax)
    (isMade : Bool) (wanted : ManagedObject → Option RowOperation) (done : List Binding)
    (column : ManagedObject) (slot : Slot) : Prop :=
  ∃ old new created branchVersionId,
    slot = { object := some (instanceOf index column (cells column) old new)
             created := created
             destroyed := none
             rowOpWanted := wanted column
             branchVersionId := branchVersionId } ∧
      created.isSome = isMade ∧
      version column.name ≤ branchVersionId ∧
      (IsBound done column → version column.name < branchVersionId)

/-- The cleanup of a binding that asks for nothing. -/
theorem plain_cleanup_step (hcolumn : binding.1 ∈ columns table.row)
    (hwanted : wanted binding.1 = none) (idx : ℕ)
    (hstate : Describes index (IsSettled index version cells isMade wanted done) state) :
    ∃ after, (write tree (context idx) (index.instName binding.1) (some binding.2)
        .cleanup).run state = (.ok (), after) ∧
      Describes index (IsSettled index version cells isMade wanted (done ++ [binding])) after ∧
      SameOutside index state after := by
  refine write_step_of_plain hcolumn _ hstate ?_ fun other hother hne slot hslot ↦ ?_
  · obtain ⟨old, new, created, branchVersionId, hslot, hmade, hle, -⟩ := hstate binding.1 hcolumn
    rw [hslot]
    exact ⟨_, writeCleanup_run_of_held rfl hwanted, none, some none, created,
      branchVersionId + 1 + 1, rfl, hmade, by omega, fun _ ↦ by omega⟩
  · have hname : other.name ≠ binding.1.name := fun heq ↦
      hne (table.eq_of_name_eq hother hcolumn heq)
    obtain ⟨old, new, created, branchVersionId, hslot, hmade, hle, hlt⟩ := hslot
    refine ⟨old, new, created, branchVersionId, hslot, hmade, hle, fun hbound ↦ hlt ?_⟩
    simpa [isBound_append, hname] using hbound

/-- What is staged is settled when the cleanup begins. -/
theorem IsStaged.settled
    (hslot : IsStaged index version cells isMade wanted all tested written column slot) :
    IsSettled index version (fun column ↦ if IsBound written column then target index all column
      else cells column) isMade wanted [] column slot := by
  obtain ⟨old, new, created, hslot, hmade, -⟩ := hslot
  exact ⟨old, new, created, version column.name, hslot, hmade, le_rfl,
    fun hbound ↦ absurd hbound List.not_mem_nil⟩

theorem IsStaged.settled_nil
    (hslot : IsStaged index version cells isMade wanted all tested [] column slot) :
    IsSettled index version cells isMade wanted [] column slot := by
  obtain ⟨old, new, created, hslot, hmade, -⟩ := hslot
  rw [if_neg (show ¬ IsBound [] column from List.not_mem_nil)] at hslot
  exact ⟨old, new, created, version column.name, hslot, hmade, le_rfl,
    fun hbound ↦ absurd hbound List.not_mem_nil⟩

/-- What is settled is at rest, once nothing is asked for. -/
theorem IsSettled.held
    (hslot : IsSettled index version cells false (fun _ ↦ none) done column slot) :
    IsHeld index cells column slot ∧ version column.name ≤ slot.branchVersionId ∧
      (IsBound done column → version column.name < slot.branchVersionId) := by
  obtain ⟨old, new, created, branchVersionId, rfl, hmade, hle, hlt⟩ := hslot
  exact ⟨⟨⟨old, new, rfl⟩, Option.not_isSome_iff_eq_none.mp (by simp [hmade]), rfl, rfl⟩, hle, hlt⟩

end Plain

/-! ### A SET of plain columns -/

section Sets

variable {cells : ManagedObject → Syntax} {bindings done rest : List Binding} {binding : Binding}
  {state : MibState}

/-- The version of the column of a name. -/
def versionOf (state : MibState) (name : Oid) : ℕ :=
  (state (.column name)).branchVersionId

/-- A SET begins with the row at rest. -/
theorem describes_isStaged_nil (hheld : Describes index (IsHeld index cells) state)
    (all : List Binding) :
    Describes index (IsStaged index (versionOf state) cells false (fun _ ↦ none) all [] [])
      state := by
  intro column hcolumn
  obtain ⟨⟨old, new, hobject⟩, hcreated, hdestroyed, hwanted⟩ := hheld column hcolumn
  refine ⟨old, new, none, ?_, rfl, fun hbound ↦ absurd hbound List.not_mem_nil⟩
  rw [if_neg (show ¬ IsBound [] column from List.not_mem_nil), ← hobject]
  have hentry : (index.slot state column).toEntry =
      ⟨(index.slot state column).object, none, none, none⟩ := by
    rw [← hcreated, ← hdestroyed, ← hwanted]
  calc index.slot state column
      = { (index.slot state column).toEntry with
          branchVersionId := versionOf state column.name } := rfl
    _ = _ := by rw [hentry]

/-- A SET of plain columns of a row that is there gives them their values. -/
theorem writeVars_run_of_held (haccepted : Accepted index bindings)
    (hplain : ∀ binding ∈ bindings, binding.1 ≠ table.status)
    (hheld : Describes index (IsHeld index cells) state) :
    ∃ after, (writeVars none tree (varBinds index bindings)).run state =
        (.ok (bindings.map fun binding ↦
          (index.instName binding.1, .value (some (target index bindings binding.1)))), after) ∧
      Describes index (fun column slot ↦
        IsHeld index (rewritten index bindings cells) column slot ∧
          versionOf state column.name ≤ slot.branchVersionId ∧
          (IsBound bindings column → versionOf state column.name < slot.branchVersionId)) after ∧
      SameOutside index state after := by
  obtain ⟨first, htest, htested, hsameTest⟩ := runPhase_bindings
    (fun done ↦ IsStaged index (versionOf state) cells false (fun _ ↦ none) bindings done
      []) (isWritePhase_test none tree)
    (fun idx done binding rest state hsplit hstate ↦ plain_test_step haccepted (mem_of_split hsplit)
      (hplain binding (mem_of_split hsplit)) rfl idx hstate)
    (describes_isStaged_nil hheld bindings)
  obtain ⟨second, hcommit, hcommitted, hsameCommit⟩ := runPhase_bindings
    (fun done ↦ IsStaged index (versionOf state) cells false (fun _ ↦ none) bindings
      bindings done) (isWritePhase_commit none tree)
    (fun idx done binding rest state hsplit hstate ↦ plain_commit_step haccepted
      (mem_of_split hsplit) (mem_of_split hsplit) rfl idx hstate) htested
  obtain ⟨after, hcleanup, hcleaned, hsameCleanup⟩ := runPhase_bindings
    (IsSettled index (versionOf state) (rewritten index bindings cells) false
      (fun _ ↦ none)) (isWritePhase_cleanup none tree)
    (fun idx done binding rest state hsplit hstate ↦ plain_cleanup_step
      (haccepted.mem binding (mem_of_split hsplit)) rfl idx hstate)
    fun column hcolumn ↦ (hcommitted column hcolumn).settled
  refine ⟨after, ?_, fun column hcolumn ↦ (hcleaned column hcolumn).held,
    (hsameTest.trans hsameCommit).trans hsameCleanup⟩
  refine (writeVars_run_of_passed htest hcommit hcleanup).trans
    (reads_run_of_given haccepted (fun binding hmem ↦ ?_) 7)
  exact object_of_mem (hcleaned binding.1 (haccepted.mem binding hmem)).held.1 hmem

/-- The test of the binding that is refused. -/
theorem held_test_step_refused {failing : Binding} {version : Oid → ℕ}
    {all tested : List Binding} (hcolumn : failing.1 ∈ columns table.row)
    (hrefused : InstanceWrite.setSyntax failing.1.syntaxClass (cells failing.1) failing.2 =
      .refused) (idx : ℕ)
    (hstate : Describes index (IsStaged index version cells false (fun _ ↦ none) all tested [])
      state) :
    ∃ after, (write tree (context idx) (index.instName failing.1) (some failing.2) .test).run
        state = (.error (mibError .wrongValue (context idx) (index.instName failing.1)), after) ∧
      Describes index (IsSettled index version cells false (fun _ ↦ none) []) after ∧
      SameOutside index state after := by
  obtain ⟨old, new, created, hslot, -, -⟩ := hstate failing.1 hcolumn
  rw [if_neg (show ¬ IsBound [] failing.1 from List.not_mem_nil)] at hslot
  have hrun : (ColumnWrite.write failing.1 (context idx) (index.instName failing.1)
      (some failing.2) .test).run (index.slot state failing.1) = _ :=
    writeTest_run_of_refused (by rw [hslot]) hrefused
  exact write_step_of_error hcolumn _ (by simp) (by simp) hstate
    ⟨_, hrun, (hstate failing.1 hcolumn).settled_nil⟩ fun other _ _ slot hslot ↦ hslot.settled_nil

/-- The first binding that the row refuses ends the SET, which changes nothing. -/
theorem writeVars_run_of_held_refused {failing : Binding} (haccepted : Accepted index done)
    (hplain : ∀ binding ∈ done, binding.1 ≠ table.status)
    (hmem : ∀ binding ∈ done ++ failing :: rest, binding.1 ∈ columns table.row)
    (hrefused : InstanceWrite.setSyntax failing.1.syntaxClass (cells failing.1) failing.2 =
      .refused)
    (hheld : Describes index (IsHeld index cells) state) :
    ∃ after, (writeVars none tree (varBinds index (done ++ failing :: rest))).run state =
        (.error (mibError .wrongValue (context done.length) (index.instName failing.1)), after) ∧
      Describes index (fun column slot ↦ IsHeld index cells column slot ∧
        versionOf state column.name ≤ slot.branchVersionId) after ∧
      SameOutside index state after := by
  have hcolumn : failing.1 ∈ columns table.row := hmem failing (by simp)
  obtain ⟨first, htest, htested, hsameTest⟩ := runPhase_bindings_of_error
    (fun tested ↦ IsStaged index (versionOf state) cells false (fun _ ↦ none) done tested
      []) (isWritePhase_test none tree)
    (fun idx before binding later state hsplit hstate ↦ plain_test_step haccepted
      (mem_of_split hsplit) (hplain binding (mem_of_split hsplit)) rfl idx hstate)
    (describes_isStaged_nil hheld done)
    (IsSettled index (versionOf state) cells false (fun _ ↦ none) [])
    (fun between hbetween ↦ held_test_step_refused hcolumn hrefused _ hbetween) rest
  obtain ⟨after, hcleanup, hcleaned, hsameCleanup⟩ := runPhase_bindings
    (IsSettled index (versionOf state) cells false (fun _ ↦ none))
    (isWritePhase_cleanup none tree)
    (fun idx before binding later state hsplit hstate ↦ plain_cleanup_step
      (hmem binding (mem_of_split hsplit)) rfl idx hstate) htested
  refine ⟨after, ?_, fun column hcolumn ↦ ?_, hsameTest.trans hsameCleanup⟩
  · rw [writeVars_run_of_refused htest hcleanup]
    refine reads_run_of_raised hmem (fun column hcolumn ↦ Or.inr ?_) 8 _
    obtain ⟨old, new, hobject⟩ := (hcleaned column hcolumn).held.1.object
    exact ⟨_, old, new, hobject⟩
  · exact ⟨(hcleaned column hcolumn).held.1, (hcleaned column hcolumn).held.2.1⟩

end Sets

/-! ### A SET that makes a row active -/

section Activation

variable {cells : ManagedObject → Syntax} {bindings : List Binding} {value : Value}
  {column : ManagedObject} {slot : Slot} {state between : MibState} {version : Oid → ℕ}

/-- What the status column has asked for. -/
def askedFor (table : StatusTable) (operation : RowOperation) (column : ManagedObject) :
    Option RowOperation :=
  if column.name = table.status.name then some operation else none

theorem askedFor_status (operation : RowOperation) :
    askedFor table operation table.status = some operation :=
  if_pos rfl

theorem askedFor_of_ne {operation : RowOperation} (hcolumn : column ∈ columns table.row)
    (hne : column ≠ table.status) : askedFor table operation column = none :=
  if_neg fun hname ↦ hne (table.eq_of_name_eq hcolumn table.status_mem hname)

/-- The bindings, and the status as the last one. -/
def withStatus (table : StatusTable) (bindings : List Binding) (value : Value) : List Binding :=
  bindings ++ [(table.status, value)]

theorem isBound_withStatus_of_ne (hcolumn : column ∈ columns table.row)
    (hne : column ≠ table.status) :
    IsBound (withStatus table bindings value) column ↔ IsBound bindings column := by
  rw [withStatus, isBound_append]
  exact or_iff_left fun hname ↦ hne (table.eq_of_name_eq hcolumn table.status_mem hname)

theorem isBound_withStatus_status : IsBound (withStatus table bindings value) table.status := by
  rw [withStatus, isBound_append]
  exact Or.inr rfl

/-- The last binding asks for the creation of a row that is there: every column makes an instance,
which is not to be used. -/
theorem activation_test_step (haccepted : Accepted index (withStatus table bindings value))
    (hset : InstanceWrite.setSyntax table.status.syntaxClass (cells table.status) value =
      .rowCreation (target index (withStatus table bindings value) table.status))
    (hstate : Describes index (IsStaged index version cells false (fun _ ↦ none)
      (withStatus table bindings value) bindings []) between) :
    ∃ after, (write tree (context bindings.length) (index.instName table.status) (some value)
        .test).run between = (.ok (), after) ∧
      Describes index (IsStaged index version cells true
        (askedFor table (.creationWanted
          (some (target index (withStatus table bindings value) table.status))))
        (withStatus table bindings value) (withStatus table bindings value) []) after ∧
      SameOutside index between after := by
  have hmem : (table.status, value) ∈ withStatus table bindings value := by simp [withStatus]
  have hnone (column : ManagedObject) : ¬ IsBound [] column := List.not_mem_nil
  refine write_of_rowOp table.status_mem .creation
    { kind := .rowCreationWanted
      syntaxDetail := some (target index (withStatus table bindings value) table.status) } _ rfl ?_
    (fun other hother hne ↦ ?_) nofun
  · obtain ⟨old, new, created, hslot, -, -⟩ := hstate table.status table.status_mem
    rw [if_neg (hnone _)] at hslot
    rw [hslot]
    refine ⟨_, writeTest_run_of_creation rfl hset (firstObject_binding haccepted hmem), ?_⟩
    rw [IsStaged, if_neg (hnone _), askedFor_status]
    exact ⟨old, _, _, rfl, rfl, fun _ ↦ rfl⟩
  · obtain ⟨old, new, created, hslot, hmade, hnew⟩ := hstate other hother
    obtain ⟨first, hfirst⟩ :=
      Option.isSome_iff_exists.mp (isSome_firstObject_value? hother)
    rw [hslot]
    refine ⟨_, createTest_run hfirst, ?_⟩
    rw [if_neg (by simp [hmade]), IsStaged, askedFor_of_ne hother hne]
    exact ⟨old, new, _, rfl, rfl, fun hbound ↦
      hnew ((isBound_withStatus_of_ne hother hne).mp hbound)⟩

/-- The last commit makes the row active, once its columns are filled. -/
theorem activation_commit_step (haccepted : Accepted index (withStatus table bindings value))
    (hplain : ∀ binding ∈ bindings, binding.1 ≠ table.status)
    (hindex : ∀ column ∈ columns table.row, (index.value? column).isSome →
      IsBound bindings column)
    (hfilled : ∀ column ∈ columns table.row, column.optional = true ∨
      (rewritten index (withStatus table bindings value) cells column).isValue = true)
    (hstate : Describes index (IsStaged index version cells true
      (askedFor table (.creationWanted
        (some (target index (withStatus table bindings value) table.status))))
      (withStatus table bindings value) (withStatus table bindings value) bindings) between) :
    ∃ after, (write tree (context bindings.length) (index.instName table.status) (some value)
        .commit).run between = (.ok (), after) ∧
      Describes index (IsSettled index version
        (rewritten index (withStatus table bindings value) cells) true
        (askedFor table (.creationWanted
          (some (target index (withStatus table bindings value) table.status)))) []) after ∧
      SameOutside index between after := by
  have hunbound : ¬ IsBound bindings table.status := by
    intro hbound
    have hmem : ∀ binding ∈ bindings, binding.1 ∈ columns table.row := fun binding hbinding ↦
      haccepted.mem binding (List.mem_append_left _ hbinding)
    obtain ⟨binding, hbinding, heq⟩ := exists_of_isBound hmem table.status_mem hbound
    exact hplain binding hbinding heq
  refine write_of_rowOp table.status_mem .creation
    { kind := .rowCreationWanted
      syntaxDetail := some (target index (withStatus table bindings value) table.status) } _ rfl ?_
    (fun other hother hne ↦ ?_) fun _ _ _ other hother slot hslot ↦ ?_
  · obtain ⟨old, new, created, hslot, hmade, hnew⟩ := hstate table.status table.status_mem
    obtain rfl := hnew isBound_withStatus_status
    rw [if_neg hunbound, askedFor_status] at hslot
    have hrowOp := congrArg (fun slot : Slot ↦ slot.rowOpWanted) hslot
    have hobject := congrArg (fun slot : Slot ↦ slot.object) hslot
    have hcreated : (index.slot between table.status).created.isSome = true := by
      rw [hslot]
      exact hmade
    refine ⟨_, writeCommit_run_of_wanted hrowOp (createCommit_run_of_placed hobject hcreated)
      hrowOp, ?_⟩
    rw [hslot, IsSettled, rewritten, if_pos isBound_withStatus_status, askedFor_status]
    exact ⟨_, _, created, version table.status.name, rfl, hmade, le_rfl,
      fun hbound ↦ absurd hbound List.not_mem_nil⟩
  · obtain ⟨old, new, created, hslot, hmade, hnew⟩ := hstate other hother
    have hcell : (if IsBound bindings other
        then target index (withStatus table bindings value) other else cells other) =
          rewritten index (withStatus table bindings value) cells other := by
      rw [rewritten, if_congr (isBound_withStatus_of_ne hother hne) rfl rfl]
    rw [hcell] at hslot
    rw [hslot]
    show ∃ slot, (createCommit (context bindings.length) (index.instName other)
      (index.value? other)).run _ = _ ∧ _
    cases hvalue : index.value? other with
    | none =>
      exact ⟨_, createCommit_run_of_unvalued rfl hmade, old, new, created,
        version other.name, rfl, hmade, le_rfl, fun hbound ↦ absurd hbound List.not_mem_nil⟩
    | some value' =>
      have hbound : IsBound (withStatus table bindings value) other :=
        (isBound_withStatus_of_ne hother hne).mpr (hindex other hother (by rw [hvalue]; rfl))
      obtain rfl := hnew hbound
      have hwritten : rewritten index (withStatus table bindings value) cells other =
          target index (withStatus table bindings value) other := if_pos hbound
      refine ⟨_, createCommit_run_of_placed rfl hmade, ?_⟩
      rw [IsSettled, hwritten]
      exact ⟨_, _, created, version other.name, rfl, hmade, le_rfl,
        fun hbound ↦ absurd hbound List.not_mem_nil⟩
  · obtain ⟨old, new, created, branchVersionId, rfl, -⟩ := hslot
    exact (hfilled other hother).imp_right fun hvalue ↦
      ⟨_, rfl, congrArg Except.ok hvalue⟩

/-- The last cleanup drops the instances that have been made. -/
theorem activation_cleanup_step {operation : RowOperation} {syntaxDetail : Option Syntax}
    (hoperation : operation = .creationWanted syntaxDetail)
    (hstate : Describes index (IsSettled index version cells true (askedFor table operation)
      bindings) between) :
    ∃ after, (write tree (context bindings.length) (index.instName table.status) (some value)
        .cleanup).run between = (.ok (), after) ∧
      Describes index (fun column slot ↦ IsHeld index cells column slot ∧
        version column.name < slot.branchVersionId) after ∧
      SameOutside index between after := by
  subst hoperation
  refine write_of_rowOp table.status_mem .creation { kind := .rowCreationWanted, syntaxDetail } _
    rfl ?_ (fun other hother hne ↦ ?_) nofun
  · obtain ⟨old, new, created, branchVersionId, hslot, hmade, hle, -⟩ :=
      hstate table.status table.status_mem
    rw [askedFor_status] at hslot
    have hrowOp := congrArg (fun slot : Slot ↦ slot.rowOpWanted) hslot
    have hcreated : (index.slot between table.status).created.isSome = true := by
      rw [hslot]
      exact hmade
    refine ⟨_, writeCleanup_run_of_wanted hrowOp (createCleanup_run_of_created hcreated) hrowOp,
      ?_⟩
    rw [hslot]
    refine ⟨⟨⟨old, new, rfl⟩, rfl, rfl, rfl⟩, ?_⟩
    dsimp only
    omega
  · obtain ⟨old, new, created, branchVersionId, hslot, hmade, hle, -⟩ := hstate other hother
    rw [askedFor_of_ne hother hne] at hslot
    rw [hslot]
    refine ⟨_, createCleanup_run_of_created hmade, ?_⟩
    refine ⟨⟨⟨old, new, rfl⟩, rfl, rfl, rfl⟩, ?_⟩
    dsimp only
    omega

/-- A SET whose last binding creates a row that is there, and does not exist by its status, gives
the row its values and makes it active. -/
theorem writeVars_run_of_activated (haccepted : Accepted index (withStatus table bindings value))
    (hplain : ∀ binding ∈ bindings, binding.1 ≠ table.status)
    (hset : InstanceWrite.setSyntax table.status.syntaxClass (cells table.status) value =
      .rowCreation (target index (withStatus table bindings value) table.status))
    (hindex : ∀ column ∈ columns table.row, (index.value? column).isSome →
      IsBound bindings column)
    (hfilled : ∀ column ∈ columns table.row, column.optional = true ∨
      (rewritten index (withStatus table bindings value) cells column).isValue = true)
    (hheld : Describes index (IsHeld index cells) state) :
    ∃ after, (writeVars none tree (varBinds index (withStatus table bindings value))).run state =
        (.ok ((withStatus table bindings value).map fun binding ↦ (index.instName binding.1,
          .value (some (target index (withStatus table bindings value) binding.1)))), after) ∧
      Describes index (fun column slot ↦
        IsHeld index (rewritten index (withStatus table bindings value) cells) column slot ∧
          versionOf state column.name < slot.branchVersionId) after ∧
      SameOutside index state after := by
  have hearlier {done rest : List Binding} {binding : Binding}
      (hsplit : bindings = done ++ binding :: rest) :
      binding ∈ bindings ∧ binding ∈ withStatus table bindings value ∧
        binding.1 ∈ columns table.row := by
    have hmem : binding ∈ bindings := by simp [hsplit]
    have hall : binding ∈ withStatus table bindings value := List.mem_append_left _ hmem
    exact ⟨hmem, hall, haccepted.mem binding hall⟩
  obtain ⟨first, htest, htested, hsameTest⟩ := runPhase_bindings_concat
    (fun done ↦ IsStaged index (versionOf state) cells false (fun _ ↦ none)
      (withStatus table bindings value) done []) (isWritePhase_test none tree)
    (fun idx done binding rest state hsplit hstate ↦ plain_test_step haccepted (hearlier hsplit).2.1
      (hplain binding (hearlier hsplit).1) rfl idx hstate)
    (describes_isStaged_nil hheld _) (table.status, value) _
    (fun between hbetween ↦ activation_test_step haccepted hset hbetween)
  obtain ⟨second, hcommit, hcommitted, hsameCommit⟩ := runPhase_bindings_concat
    (fun done ↦ IsStaged index (versionOf state) cells true _ (withStatus table bindings value)
      (withStatus table bindings value) done) (isWritePhase_commit none tree)
    (fun idx done binding rest state hsplit hstate ↦ plain_commit_step haccepted
      (hearlier hsplit).2.1 (hearlier hsplit).2.1
      (askedFor_of_ne (hearlier hsplit).2.2 (hplain binding (hearlier hsplit).1)) idx hstate)
    htested (table.status, value) _ (fun between hbetween ↦
      activation_commit_step haccepted hplain hindex hfilled hbetween)
  obtain ⟨after, hcleanup, hcleaned, hsameCleanup⟩ := runPhase_bindings_concat
    (IsSettled index (versionOf state) (rewritten index (withStatus table bindings value) cells)
      true _) (isWritePhase_cleanup none tree)
    (fun idx done binding rest state hsplit hstate ↦ plain_cleanup_step (hearlier hsplit).2.2
      (askedFor_of_ne (hearlier hsplit).2.2 (hplain binding (hearlier hsplit).1)) idx hstate)
    hcommitted (table.status, value) _ (fun between hbetween ↦
      activation_cleanup_step rfl hbetween)
  refine ⟨after, ?_, hcleaned, (hsameTest.trans hsameCommit).trans hsameCleanup⟩
  refine (writeVars_run_of_passed htest hcommit hcleanup).trans
    (reads_run_of_given haccepted (fun binding hmem ↦ ?_) 7)
  exact object_of_mem (hcleaned binding.1 (haccepted.mem binding hmem)).1 hmem

end Activation

/-! ### A SET that destroys a row -/

section Destruction

variable {cells : ManagedObject → Syntax} {value : Value} {next : Syntax} {state : MibState}
  {version : Oid → ℕ}

/-- What a column keeps in the phases of a destruction. -/
def IsDoomed (table : StatusTable) (version : Oid → ℕ) (isDestroyed : Bool)
    (column : ManagedObject) (slot : Slot) : Prop :=
  ∃ object,
    slot = { object := if isDestroyed then none else some object
             created := none
             destroyed := if isDestroyed then some object else none
             rowOpWanted := askedFor table .destructionWanted column
             branchVersionId := version column.name }

/-- The test of a destruction, in all columns. -/
theorem destruction_test_step
    (hset : InstanceWrite.setSyntax table.status.syntaxClass (cells table.status) value =
      .rowDestruction next) (idx : ℕ)
    (hstate : Describes index (IsStaged index version cells false (fun _ ↦ none) [] [] []) state) :
    ∃ after, (write tree (context idx) (index.instName table.status) (some value) .test).run state =
        (.ok (), after) ∧
      Describes index (IsDoomed table version false) after ∧ SameOutside index state after := by
  have hnone (column : ManagedObject) : ¬ IsBound [] column := List.not_mem_nil
  refine write_of_rowOp table.status_mem .destruction { kind := .rowDestructionWanted } _ rfl ?_
    (fun other hother hne ↦ ?_) nofun
  · obtain ⟨old, new, created, hslot, hmade, -⟩ := hstate table.status table.status_mem
    rw [if_neg (hnone _)] at hslot
    obtain rfl : created = none := Option.not_isSome_iff_eq_none.mp (by simp [hmade])
    obtain ⟨staged, hrun⟩ := writeTest_run_of_destruction
      (congrArg (fun slot : Slot ↦ slot.object) hslot) hset
    refine ⟨_, hrun, staged, ?_⟩
    rw [hslot, askedFor_status]
    rfl
  · obtain ⟨old, new, created, hslot, hmade, -⟩ := hstate other hother
    obtain rfl : created = none := Option.not_isSome_iff_eq_none.mp (by simp [hmade])
    obtain ⟨staged, hrun⟩ := destroyTest_run (index.value? other)
      (congrArg (fun slot : Slot ↦ slot.object) hslot)
    refine ⟨_, hrun, staged, ?_⟩
    rw [hslot, askedFor_of_ne hother hne]
    rfl

/-- The commit takes the instances out of all columns. -/
theorem destruction_commit_step (idx : ℕ)
    (hstate : Describes index (IsDoomed table version false) state) :
    ∃ after, (write tree (context idx) (index.instName table.status) (some value)
        .commit).run state = (.ok (), after) ∧
      Describes index (IsDoomed table version true) after ∧ SameOutside index state after := by
  refine write_of_rowOp table.status_mem .destruction { kind := .rowDestructionWanted } _ rfl ?_
    (fun other hother _ ↦ ?_) nofun
  · obtain ⟨object, hslot⟩ := hstate table.status table.status_mem
    rw [askedFor_status] at hslot
    have hrun : (asked .destructionWanted .commit table.status (context idx)
        (index.instName table.status) (some value)).run (index.slot state table.status) = _ :=
      modify_run _ _
    rw [hslot] at hrun ⊢
    refine ⟨_, writeCommit_run_of_wanted rfl hrun rfl, object, ?_⟩
    rw [askedFor_status]
    rfl
  · obtain ⟨object, hslot⟩ := hstate other hother
    rw [hslot]
    exact ⟨_, modify_run _ _, object, rfl⟩

/-- The cleanup forgets them. -/
theorem destruction_cleanup_step (idx : ℕ)
    (hstate : Describes index (IsDoomed table version true) state) :
    ∃ after, (write tree (context idx) (index.instName table.status) (some value)
        .cleanup).run state = (.ok (), after) ∧
      Describes index (fun column slot ↦ IsMissing slot ∧
        version column.name < slot.branchVersionId) after ∧
      SameOutside index state after := by
  have hcleanup (slot : Slot) : destroyCleanup.run slot =
      (.ok (), { slot with destroyed := none, branchVersionId := slot.branchVersionId + 1 }) := rfl
  refine write_of_rowOp table.status_mem .destruction { kind := .rowDestructionWanted } _ rfl ?_
    (fun other hother hne ↦ ?_) nofun
  · obtain ⟨object, hslot⟩ := hstate table.status table.status_mem
    rw [askedFor_status] at hslot
    have hrowOp := congrArg (fun slot : Slot ↦ slot.rowOpWanted) hslot
    refine ⟨_, writeCleanup_run_of_wanted hrowOp (hcleanup _) hrowOp, ?_⟩
    rw [hslot]
    refine ⟨rfl, ?_⟩
    dsimp only
    omega
  · obtain ⟨object, hslot⟩ := hstate other hother
    rw [askedFor_of_ne hother hne] at hslot
    rw [hslot]
    exact ⟨_, hcleanup _, rfl, Nat.lt_succ_self _⟩

/-- A SET of a status that asks for the destruction of a row that is there removes it from all
columns. -/
theorem writeVars_run_of_destroyed
    (hset : InstanceWrite.setSyntax table.status.syntaxClass (cells table.status) value =
      .rowDestruction next)
    (hheld : Describes index (IsHeld index cells) state) :
    ∃ after, (writeVars none tree (varBinds index [(table.status, value)])).run state =
        (.ok [(index.instName table.status, .noSuchInstance)], after) ∧
      Describes index (fun column slot ↦ IsMissing slot ∧
        versionOf state column.name < slot.branchVersionId) after ∧
      SameOutside index state after := by
  have hstart (describes : List Binding → ManagedObject → Slot → Prop) (subAction : SubAction) :
      Steps describes index subAction [] :=
    fun _ done binding rest _ hsplit ↦ absurd hsplit (by simp)
  obtain ⟨first, htest, htested, hsameTest⟩ := runPhase_bindings_concat
    (fun _ ↦ IsStaged index (versionOf state) cells false (fun _ ↦ none) [] [] [])
    (isWritePhase_test none tree) (hstart _ _) (describes_isStaged_nil hheld [])
    (table.status, value) _ (fun between hbetween ↦ destruction_test_step hset 0 hbetween)
  obtain ⟨second, hcommit, hcommitted, hsameCommit⟩ := runPhase_bindings_concat
    (fun _ ↦ IsDoomed table (versionOf state) false) (isWritePhase_commit none tree) (hstart _ _)
    htested (table.status, value) _ (fun between hbetween ↦ destruction_commit_step 0 hbetween)
  obtain ⟨after, hcleanup, hcleaned, hsameCleanup⟩ := runPhase_bindings_concat
    (fun _ ↦ IsDoomed table (versionOf state) true) (isWritePhase_cleanup none tree) (hstart _ _)
    hcommitted (table.status, value) _ (fun between hbetween ↦ destruction_cleanup_step 0 hbetween)
  refine ⟨after, ?_, hcleaned, (hsameTest.trans hsameCommit).trans hsameCleanup⟩
  have hobject : (index.slot after table.status).object = none :=
    congrArg Entry.object (hcleaned table.status table.status_mem).1
  refine (writeVars_run_of_passed htest hcommit hcleanup).trans ?_
  refine (reads_run_of_written (fun binding hmem ↦ ?_) (fun binding hmem ↦ ?_) 7).trans ?_
  · obtain rfl := List.mem_singleton.mp hmem
    exact table.status_mem
  · obtain rfl := List.mem_singleton.mp hmem
    exact Or.inl hobject
  · rw [List.nil_append, List.map_singleton, shown, hobject]

end Destruction

end Pysnmp.Smi.RowChange
