import Pysnmp.Foundation.Refinement
import Pysnmp.Smi.AdvisoryLock

/-!
# SET as one step

SETs of several instances at a time, of any scalars and columns that are no row statuses. The
phases of the write are computed over a whole request from what they do to one instance
(`runPhase_write`, and `runPhase_write_of_error` where a binding ends the phase); that one binding
leaves the others alone rests on `sameRowOpsBut_write`, which holds of every write.

What a SET is for is `transact`, on nothing but what the instances hold: it is refused for the first
binding that may not be written or whose value is refused, and then changes nothing; otherwise all
bindings are taken, and what they hold then is answered to a manager who may read it. While no
commit fails, the tree cannot be told from that over any history of SETs (`respond_perform`).

A commit can fail in a subclass of an application. The undo that follows goes over all bindings and
gives each instance the object that its commit has kept, but the instances that were not committed
have kept none (`perform_of_commitFailure`).
-/

set_option autoImplicit false
set_option relaxedAutoImplicit false

namespace Pysnmp.Smi.AtomicSet

open Foundation Foundation.Effect FlipFlopFsm ColumnWrite WriteVars ReadVars
open Proto (Octets Oid)
open AdvisoryLock (Lock Stands SameElsewhere Passes instancePhase IsWritable ReturnsOrRefuses)
open InstanceWrite (mibError)

/-! ### What a write does not touch -/

/-- The row operation a binding has asked for is as it was. -/
def SameRowOp (before after : Slot) : Prop :=
  after.rowOpWanted = before.rowOpWanted

instance : Std.Refl SameRowOp :=
  ⟨fun _ ↦ rfl⟩

instance : IsTrans Slot SameRowOp :=
  ⟨fun _ _ _ hfirst hsecond ↦ hsecond.trans hfirst⟩

/-- The row operations asked for under other names are as they were. -/
def SameRowOpsBut (name : Oid) (before after : MibState) : Prop :=
  ∀ id other, other ≠ name → (after id).rowOpWanted other = (before id).rowOpWanted other

instance (name : Oid) : Std.Refl (SameRowOpsBut name) :=
  ⟨fun _ _ _ _ ↦ rfl⟩

instance (name : Oid) : IsTrans MibState (SameRowOpsBut name) :=
  ⟨fun _ _ _ hfirst hsecond id other hother ↦
    (hsecond id other hother).trans (hfirst id other hother)⟩

section RowOps

theorem keeps_anything {σ α : Type} (program : Effect σ MibException α) :
    Keeps (fun _ _ ↦ True) program :=
  fun _ ↦ trivial

variable (column : ManagedObject) (context : Context) (name : Oid) (value : Option Value)

theorem sameRowOp_modify {change : Slot → Slot}
    (hchange : ∀ slot, (change slot).rowOpWanted = slot.rowOpWanted) :
    Keeps SameRowOp (modify change : Effect Slot MibException Unit) :=
  hchange

/-- What an instance does on its own asks for no row operation. -/
theorem sameRowOp_onObject (program : Effect MibScalarInstance MibException Unit) :
    Keeps SameRowOp (onObject context name program) := by
  refine keeps_get.bind fun slot ↦ ?_
  cases slot.object with
  | none => exact keeps_raise _
  | some object =>
    exact (keeps_anything program).focus fun _ _ _ ↦ rfl

theorem sameRowOp_onCreated (object : MibScalarInstance)
    (program : Effect MibScalarInstance MibException Unit) :
    Keeps SameRowOp (onCreated object program) :=
  (keeps_anything program).focus fun _ _ _ ↦ rfl

/-- Creating a cell asks for no row operation. -/
theorem sameRowOp_create (subAction : SubAction) :
    Keeps SameRowOp (create column context name value subAction) := by
  cases subAction with
  | test =>
    refine (keeps_raise _).ite ((keeps_liftExcept _).bind fun _ ↦ keeps_get.bind fun slot ↦ ?_)
    exact (keeps_pure _).ite
      ((sameRowOp_modify fun _ ↦ by rfl).bind fun _ ↦ sameRowOp_onCreated _ _)
  | commit =>
    refine keeps_get.bind fun slot ↦ ?_
    cases slot.object with
    | some object => exact (sameRowOp_onObject _ _ _).ite (keeps_pure _)
    | none =>
      rcases slot.created with _ | _ | object
      · exact keeps_raise _
      · exact keeps_raise _
      · exact (sameRowOp_onCreated _ _).bind fun _ ↦ sameRowOp_modify fun _ ↦ by rfl
  | cleanup =>
    refine (sameRowOp_modify fun _ ↦ by rfl).bind fun _ ↦ keeps_get.bind fun slot ↦ ?_
    rcases slot.created with _ | _ | object
    · exact (sameRowOp_onObject _ _ _).ite (keeps_pure _)
    · exact sameRowOp_modify fun _ ↦ by rfl
    · exact (sameRowOp_onCreated _ _).bind fun _ ↦ sameRowOp_modify fun _ ↦ by rfl
  | undo =>
    refine keeps_get.bind fun slot ↦ ?_
    rcases slot.created with _ | _ | object
    · exact keeps_pure _
    · exact sameRowOp_modify fun _ ↦ by rfl
    · exact (sameRowOp_modify fun _ ↦ by rfl).ite
        ((sameRowOp_modify fun _ ↦ by rfl).bind fun _ ↦ sameRowOp_onObject _ _ _)

/-- Destroying a cell asks for no row operation. -/
theorem sameRowOp_destroy (subAction : SubAction) :
    Keeps SameRowOp (destroy column context name value subAction) := by
  cases subAction with
  | test =>
    refine (keeps_raise _).ite (keeps_get.bind fun slot ↦ ?_)
    exact ((keeps_liftExcept _).bind fun _ ↦ sameRowOp_onObject _ _ _).ite (keeps_pure _)
  | commit =>
    refine sameRowOp_modify fun slot ↦ ?_
    cases slot.object <;> rfl
  | cleanup => exact (sameRowOp_modify fun _ ↦ by rfl).bind fun _ ↦ sameRowOp_modify fun _ ↦ by rfl
  | undo =>
    refine sameRowOp_modify fun slot ↦ ?_
    cases slot.destroyed <;> rfl

variable {column context name value}

/-- What happens under one name of a column leaves the others alone. -/
theorem sameRowOpsBut_onColumn (program : Effect Slot MibException Unit) :
    Keeps (SameRowOpsBut name) (RowWrite.onColumn column name program) := by
  refine (keeps_anything program).focus fun state after _ id other hother ↦ ?_
  by_cases hid : id = .column column.name
  · subst hid
    rw [Function.update_self, ObjectState.setSlot]
    exact Function.update_of_ne hother ..
  · rw [Function.update_of_ne hid]

/-- A creation or destruction under any name asks for nothing. -/
theorem sameRowOpsBut_shared {other : Oid} {program : Effect Slot MibException Unit}
    (hprogram : Keeps SameRowOp program) :
    Keeps (SameRowOpsBut name) (RowWrite.onColumn column other program) := by
  refine Keeps.focus hprogram fun state after hsame id key _ ↦ ?_
  by_cases hid : id = .column column.name
  · subst hid
    rw [Function.update_self, ObjectState.setSlot]
    by_cases hkey : key = other
    · subst hkey
      exact (Function.update_self ..).trans hsame
    · exact Function.update_of_ne hkey ..
  · rw [Function.update_of_ne hid]

/-- An operation of a row in its columns and in the rows that augment it. -/
theorem sameRowOpsBut_shareFate {action : RowWrite.ColumnAction}
    (haction : ∀ column context other value, Keeps SameRowOp (action column context other value))
    (tree : MibTree) (row : MibTableRow) (other : Oid) :
    Keeps (SameRowOpsBut name) (RowWrite.shareFate tree action row other context) := by
  have hmanage (row : MibTableRow) (excludeName nameSuffix : Oid) :
      Keeps (SameRowOpsBut name)
        (RowWrite.manageColumns action row excludeName nameSuffix context) := by
    refine (keeps_liftExcept _).bind fun indices ↦ Keeps.forEach fun entry _ ↦ ?_
    refine (keeps_pure _).ite ?_
    cases indices.1.reverse.lookup entry.1 with
    | none => exact sameRowOpsBut_shared (haction _ _ _ _)
    | some syntaxObj => exact sameRowOpsBut_shared (haction _ _ _ _)
  refine (hmanage _ _ _).bind fun _ ↦ (keeps_liftExcept _).bind fun indices ↦ ?_
  refine (keeps_raise _).ite ((keeps_pure _).ite (Keeps.forEach fun augmenting _ ↦ ?_))
  refine (keeps_liftExcept _).bind fun augmentingRow ↦ (keeps_liftExcept _).bind fun newSuffix ↦ ?_
  exact (keeps_pure _).ite (hmanage _ _ _)

/-- A row asks for an operation under the name of the cell only, in all its columns. -/
theorem sameRowOpsBut_delegate (tree : MibTree) (row : MibTableRow) (subAction : SubAction) :
    Keeps (SameRowOpsBut name) (RowWrite.delegate tree row context name value subAction) := by
  refine Keeps.handle ?_ fun exception ↦ ?_
  · cases row.columns.getBranch name with
    | none => exact keeps_raise _
    | some entry => exact (sameRowOpsBut_onColumn _).bind fun _ ↦ keeps_pure _
  · cases exception with
    | python error => exact keeps_raise _
    | smi error =>
      refine ((sameRowOpsBut_shareFate ?_ _ _ _).bind fun _ ↦ keeps_pure _).ite
        (((sameRowOpsBut_shareFate ?_ _ _ _).bind fun _ ↦ keeps_pure _).ite (keeps_raise _))
      · exact fun _ _ _ _ ↦ sameRowOp_create _ _ _ _ _
      · exact fun _ _ _ _ ↦ sameRowOp_destroy _ _ _ _ _

theorem sameRowOpsBut_checkColumn (nameSuffix : Oid) :
    Keeps (SameRowOpsBut name) (RowWrite.checkColumn column nameSuffix) := by
  have hcheck (isValue : Bool) : Keeps (SameRowOpsBut name)
      (if isValue then pure () else raise (.smi { kind := .inconsistentValue }) :
        Effect MibState MibException Unit) :=
    (keeps_pure _).ite (keeps_raise _)
  refine (keeps_pure _).ite (keeps_get.bind fun state ↦ Keeps.ite ?_ ?_)
  · exact (keeps_pure _).bind hcheck
  · cases (state (.column column.name)).vars.get? (column.name ++ nameSuffix) with
    | none => exact (keeps_raise _).bind hcheck
    | some object => exact (keeps_liftExcept _).bind hcheck

theorem sameRowOpsBut_onScalar (scalar : ManagedObject) {program : Effect Slot MibException Unit}
    (hprogram : Keeps SameRowOp program) :
    Keeps (SameRowOpsBut name) (onScalar scalar context name program) := by
  refine keeps_get.bind fun state ↦ ?_
  cases (state (.scalar scalar.name)).vars.getBranch name with
  | none => exact keeps_raise _
  | some entry =>
    refine Keeps.focus hprogram fun state after hsame id key _ ↦ ?_
    by_cases hid : id = .scalar scalar.name
    · subst hid
      rw [Function.update_self, ObjectState.setSlot]
      by_cases hkey : key = entry.1
      · subst hkey
        exact (Function.update_self ..).trans hsame
      · exact Function.update_of_ne hkey ..
    · rw [Function.update_of_ne hid]

theorem sameRowOpsBut_scalarWrite (scalar : ManagedObject) (subAction : SubAction) :
    Keeps (SameRowOpsBut name) (WriteVars.scalarWrite scalar context name value subAction) := by
  cases subAction with
  | test =>
    exact (keeps_raise _).ite ((keeps_liftExcept _).bind fun _ ↦
      sameRowOpsBut_onScalar _ (sameRowOp_onObject _ _ _))
  | commit => exact sameRowOpsBut_onScalar _ (sameRowOp_onObject _ _ _)
  | cleanup =>
    refine (keeps_modify fun state id other _ ↦ ?_).bind fun _ ↦
      sameRowOpsBut_onScalar _ (sameRowOp_onObject _ _ _)
    by_cases hid : id = .scalar scalar.name
    · subst hid
      rw [Function.update_self]
    · rw [Function.update_of_ne hid]
  | undo => exact sameRowOpsBut_onScalar _ (sameRowOp_onObject _ _ _)

/-- A write asks for a row operation under its own name only, whatever it does to the row. -/
theorem sameRowOpsBut_write (tree : MibTree) (subAction : SubAction) :
    Keeps (SameRowOpsBut name) (write tree context name value subAction) := by
  have hbranch : Keeps (SameRowOpsBut name) (branchWrite tree context name value subAction) := by
    unfold branchWrite
    rcases tree.getBranch name with _ | ⟨key, tableName | row | scalar⟩
    · exact keeps_raise _
    · cases subAction with
      | test => exact (keeps_liftExcept _).ite (keeps_raise _)
      | _ => exact keeps_raise _
    · have hdelegate : Keeps (SameRowOpsBut name)
          (RowWrite.delegate tree row context name value subAction) :=
        sameRowOpsBut_delegate tree row subAction
      cases subAction with
      | commit =>
        refine hdelegate.bind fun rowIsActive ↦ Keeps.ite (Keeps.forEach fun entry _ ↦ ?_)
          (keeps_pure _)
        exact sameRowOpsBut_checkColumn _
      | _ => exact hdelegate.bind fun _ ↦ keeps_pure _
    · exact sameRowOpsBut_scalarWrite scalar subAction
  cases subAction with
  | test => exact (keeps_liftExcept _).ite hbranch
  | _ => exact hbranch

end RowOps

/-! ### Requests -/

/-- A binding of a SET: an instance that can be written, and the value it is to take. -/
structure Assignment (tree : MibTree) where
  lock : Lock tree
  value : Value

/-- A SET of different instances. -/
structure Request (tree : MibTree) where
  acFun : Option AccessFunction
  assignments : List (Assignment tree)
  distinct : (assignments.map fun assignment ↦ assignment.lock.name).Nodup

variable {tree : MibTree}

/-- The binding as the request carries it. -/
def Assignment.varBind (assignment : Assignment tree) : VarBind :=
  (assignment.lock.name, assignment.value)

/-- What the SET answers, and the state after it. -/
def perform (state : MibState) (request : Request tree) :
    Except MibException (List (Oid × ReadValue)) × MibState :=
  (writeVars request.acFun tree (request.assignments.map Assignment.varBind)).run state

/-- An instance lies in one object only. -/
theorem id_eq_of_name_eq {lock other : Lock tree} (hname : lock.name = other.name) :
    lock.id = other.id := by
  have hcovering := lock.covering
  rw [hname, other.covering] at hcovering
  exact (Option.some.inj hcovering).symm

/-! ### What a SET is for -/

/-- What the instances hold, by their names. -/
abbrev Contents := Oid → Syntax

/-- The object an instance takes in place of the present one, if it does not refuse the value. -/
def nextSyntax (syntaxClass : SyntaxClass) (present : Syntax) (value : Value) : Option Syntax :=
  match InstanceWrite.setSyntax syntaxClass present value with
  | .taken next => some next
  | _ => none

section Spec

variable (classes : Oid → SyntaxClass)

/-- The object a binding gives its instance, or why it is refused: for its access, then for its
value. -/
def proposed (contents : Contents) (acFun : Option AccessFunction) (idx : ℕ)
    (assignment : Assignment tree) : Except MibException Syntax := do
  checkAccess true .notWritable .write ⟨idx, acFun, none⟩ assignment.lock.name
  match nextSyntax (classes assignment.lock.name) (contents assignment.lock.name)
      assignment.value with
  | none => .error (mibError .wrongValue ⟨idx, acFun, none⟩ assignment.lock.name)
  | some next => .ok next

/-- The contents in which every binding is taken. -/
def assign (contents : Contents) (assignments : List (Assignment tree)) : Contents := fun name ↦
  match assignments.find? fun assignment ↦ assignment.lock.name = name with
  | none => contents name
  | some assignment =>
    (nextSyntax (classes name) (contents name) assignment.value).getD (contents name)

/-- The answer for a binding that has been taken: its name and what is held then, to a manager who
may read it. -/
def answered (contents : Contents) (acFun : Option AccessFunction) (idx : ℕ)
    (assignment : Assignment tree) : Except MibException (Oid × ReadValue) := do
  checkAccess true .noAccess .read ⟨idx, acFun, none⟩ assignment.lock.name
  .ok (assignment.lock.name, .value (some (contents assignment.lock.name)))

/-- A SET as one step: unless a binding is refused all are taken, and then answered. -/
def transact (contents : Contents) (request : Request tree) :
    Except MibException (List (Oid × ReadValue)) × Contents :=
  match eachFrom (proposed classes contents request.acFun) 0 request.assignments with
  | .error exception => (.error exception, contents)
  | .ok _ =>
    let taken := assign classes contents request.assignments
    (eachFrom (answered taken request.acFun) 0 request.assignments, taken)

end Spec

/-! ### An instance -/

/-- An instance that holds the object, with nothing of a SET in progress. -/
structure Idle (name : Oid) (syntaxClass : SyntaxClass) (present : Syntax)
    (object : MibScalarInstance) : Prop where
  name_eq : object.name = name
  syntaxClass_eq : object.syntaxClass = syntaxClass
  syntaxObj : object.syntaxObj = some present
  oldSyntax : object.oldSyntax = none
  commitFailure : object.commitFailure = none

section Instance

variable {name : Oid} {syntaxClass : SyntaxClass} {present next : Syntax}
  {object : MibScalarInstance} {context : Context} {value : Value}

/-- A syntax that is no row status takes a value or refuses it. -/
theorem setSyntax_eq (hkind : syntaxClass.kind ≠ .rowStatus) :
    InstanceWrite.setSyntax syntaxClass present value =
      match nextSyntax syntaxClass present value with
      | none => .refused
      | some next => .taken next := by
  have hset : InstanceWrite.setSyntax syntaxClass present value = .refused ∨
      ∃ next, InstanceWrite.setSyntax syntaxClass present value = .taken next := by
    unfold InstanceWrite.setSyntax
    cases hclass : syntaxClass.kind with
    | rowStatus => exact absurd hclass hkind
    | plain =>
      dsimp only
      cases syntaxClass.clone value with
      | none => exact Or.inl rfl
      | some object => exact Or.inr ⟨_, rfl⟩
    | testAndIncr =>
      dsimp only
      unfold InstanceWrite.setTestAndIncr
      split
      · split_ifs
        · exact Or.inl rfl
        · split
          · exact Or.inl rfl
          · split
            · exact Or.inl rfl
            · exact Or.inr ⟨_, rfl⟩
      · exact Or.inl rfl
  rcases hset with hrefused | ⟨next, htaken⟩
  · rw [nextSyntax, hrefused]
  · rw [nextSyntax, htaken]

theorem setValue_eq (hidle : Idle name syntaxClass present object)
    (hkind : syntaxClass.kind ≠ .rowStatus) :
    InstanceWrite.setValue object (some value) context name =
      match nextSyntax syntaxClass present value with
      | none => .error (mibError .wrongValue context name)
      | some next => .ok next := by
  unfold InstanceWrite.setValue
  rw [hidle.syntaxObj, hidle.syntaxClass_eq]
  dsimp only
  rw [setSyntax_eq hkind]
  cases nextSyntax syntaxClass present value <;> rfl

/-- The object with the value it is about to take. -/
def staged (object : MibScalarInstance) (next : Syntax) : MibScalarInstance :=
  { object with newSyntax := some (some next) }

theorem Idle.staged (hidle : Idle name syntaxClass present object) :
    Idle name syntaxClass present (staged object next) :=
  ⟨hidle.name_eq, hidle.syntaxClass_eq, hidle.syntaxObj, hidle.oldSyntax, hidle.commitFailure⟩

theorem writeTest_run (hidle : Idle name syntaxClass present object)
    (hkind : syntaxClass.kind ≠ .rowStatus) :
    (InstanceWrite.writeTest context name (some value)).run object =
      match nextSyntax syntaxClass present value with
      | none => (.error (mibError .wrongValue context name), object)
      | some next => (.ok (), staged object next) := by
  rw [InstanceWrite.writeTest, bind_run_of_ok (get_run object), if_pos hidle.name_eq.symm,
    setValue_eq hidle hkind]
  cases nextSyntax syntaxClass present value <;> rfl

/-- The object with the value it has taken, and the one before it kept. -/
def committed (object : MibScalarInstance) (next : Syntax) : MibScalarInstance :=
  { staged object next with syntaxObj := some next, oldSyntax := object.syntaxObj }

theorem writeCommit_run (hidle : Idle name syntaxClass present object) :
    (InstanceWrite.writeCommit context name).run (staged object next) =
      (.ok (), committed object next) := by
  have hfailure : (staged object next).commitFailure = none := hidle.commitFailure
  have hold : (staged object next).oldSyntax = none := hidle.oldSyntax
  rw [InstanceWrite.writeCommit, bind_run_of_ok (get_run _), hfailure]
  show InstanceWrite.commitSyntax.run (staged object next) = _
  rw [InstanceWrite.commitSyntax, bind_run_of_ok (get_run _), bind_run_of_ok (modify_run _ _), hold]
  rfl

/-- The object with nothing of a SET kept. -/
def cleaned (object : MibScalarInstance) : MibScalarInstance :=
  { object with newSyntax := some none, oldSyntax := none }

theorem Idle.cleaned (hidle : Idle name syntaxClass present object) :
    Idle name syntaxClass present (cleaned object) :=
  ⟨hidle.name_eq, hidle.syntaxClass_eq, hidle.syntaxObj, rfl, hidle.commitFailure⟩

theorem Idle.cleaned_committed (hidle : Idle name syntaxClass present object) :
    Idle name syntaxClass next (AtomicSet.cleaned (committed object next)) :=
  ⟨hidle.name_eq, hidle.syntaxClass_eq, rfl, rfl, hidle.commitFailure⟩

end Instance

/-! ### A phase over a request -/

/-- The instances that the bindings do not name are as they were, and so are the row operations
asked for under other names. -/
structure SameApart (assignments : List (Assignment tree)) (before after : MibState) : Prop where
  vars : ∀ id name, (∃ assignment ∈ assignments,
    id = assignment.lock.id ∧ name = assignment.lock.name) ∨
      (after id).vars.get? name = (before id).vars.get? name
  rowOpWanted : ∀ id name, (∀ assignment ∈ assignments, name ≠ assignment.lock.name) →
    (after id).rowOpWanted name = (before id).rowOpWanted name

namespace SameApart

variable {assignments rest : List (Assignment tree)} {before between after : MibState}

theorem refl (assignments : List (Assignment tree)) (state : MibState) :
    SameApart assignments state state :=
  ⟨fun _ _ ↦ Or.inr rfl, fun _ _ _ ↦ rfl⟩

theorem trans (hfirst : SameApart assignments before between)
    (hsecond : SameApart assignments between after) : SameApart assignments before after where
  vars := fun id name ↦ by
    rcases hfirst.vars id name with hnamed | hbetween
    · exact Or.inl hnamed
    · exact (hsecond.vars id name).imp_right fun hafter ↦ hafter.trans hbetween
  rowOpWanted := fun id name hother ↦
    (hsecond.rowOpWanted id name hother).trans (hfirst.rowOpWanted id name hother)

theorem mono (hsame : SameApart assignments before after)
    (hsubset : ∀ assignment ∈ assignments, assignment ∈ rest) : SameApart rest before after where
  vars := fun id name ↦ (hsame.vars id name).imp_left fun ⟨assignment, hmem, hnamed⟩ ↦
    ⟨assignment, hsubset assignment hmem, hnamed⟩
  rowOpWanted := fun id name hother ↦ hsame.rowOpWanted id name fun assignment hmem ↦
    hother assignment (hsubset assignment hmem)

/-- Another instance stands as it stood. -/
theorem stands (hsame : SameApart assignments before after) {lock : Lock tree}
    {object : MibScalarInstance} (hstands : Stands lock before object)
    (hother : ∀ assignment ∈ assignments, lock.name ≠ assignment.lock.name) :
    Stands lock after object where
  found := by
    rcases hsame.vars lock.id lock.name with ⟨assignment, hmem, -, hname⟩ | hvars
    · exact absurd hname (hother assignment hmem)
    · exact hvars.trans hstands.found
  rowOpWanted := (hsame.rowOpWanted lock.id lock.name hother).trans hstands.rowOpWanted

end SameApart

/-- The instance of every binding is there, and is as described. -/
def Holds (describes : Assignment tree → MibScalarInstance → Prop)
    (assignments : List (Assignment tree)) (state : MibState) : Prop :=
  ∀ assignment ∈ assignments, ∃ object,
    Stands assignment.lock state object ∧ describes assignment object

/-- The handlers of a phase of the write. -/
def IsWritePhase (acFun : Option AccessFunction) (tree : MibTree) (phase : FsmState)
    (subAction : SubAction) : Prop :=
  ∀ idx varBind, writeHandlers acFun tree phase idx varBind = do
    write tree ⟨idx, acFun, none⟩ varBind.1 (some varBind.2) subAction
    pure none

theorem isWritePhase_test (acFun : Option AccessFunction) (tree : MibTree) :
    IsWritePhase acFun tree .writeTest .test :=
  fun _ _ ↦ rfl

theorem isWritePhase_commit (acFun : Option AccessFunction) (tree : MibTree) :
    IsWritePhase acFun tree .writeCommit .commit :=
  fun _ _ ↦ rfl

theorem isWritePhase_cleanup (acFun : Option AccessFunction) (tree : MibTree) :
    IsWritePhase acFun tree .writeCleanup .cleanup :=
  fun _ _ ↦ rfl

theorem isWritePhase_undo (acFun : Option AccessFunction) (tree : MibTree) :
    IsWritePhase acFun tree .writeUndo .undo :=
  fun _ _ ↦ rfl

section Phase

variable {acFun : Option AccessFunction} {phase : FsmState} {subAction : SubAction}
  {before : Assignment tree → MibScalarInstance → Prop}
  (after : Assignment tree → MibScalarInstance → Prop)
  {assignments : List (Assignment tree)} {state : MibState}

/-- A weaker description holds of the same instances. -/
theorem Holds.mono {weaker : Assignment tree → MibScalarInstance → Prop}
    (hholds : Holds before assignments state)
    (himp : ∀ assignment ∈ assignments, ∀ object, before assignment object →
      weaker assignment object) : Holds weaker assignments state := by
  intro assignment hmem
  obtain ⟨object, hstands, hbefore⟩ := hholds assignment hmem
  exact ⟨object, hstands, himp assignment hmem object hbefore⟩

/-- Instances that a step does not name stand as they stood. -/
theorem Holds.of_sameApart (hholds : Holds before assignments state)
    {others : List (Assignment tree)} {last : MibState} (hsame : SameApart others state last)
    (hother : ∀ assignment ∈ assignments, ∀ other ∈ others,
      assignment.lock.name ≠ other.lock.name) : Holds before assignments last := by
  intro assignment hmem
  obtain ⟨object, hstands, hbefore⟩ := hholds assignment hmem
  exact ⟨object, hsame.stands hstands (hother assignment hmem), hbefore⟩

/-- What a phase does to one binding, with what it leaves alone. -/
theorem exists_run_of_passes {context : Context} {assignment : Assignment tree}
    {result : Except MibException Unit} {next : MibScalarInstance}
    (hpasses : Passes assignment.lock
      (write tree context assignment.lock.name (some assignment.value) subAction) state result
      next) :
    ∃ last, (write tree context assignment.lock.name (some assignment.value) subAction).run state =
        (result, last) ∧ Stands assignment.lock last next ∧ SameApart [assignment] state last := by
  obtain ⟨last, hrun, hstands, helsewhere⟩ := hpasses
  refine ⟨last, hrun, hstands, fun id name ↦ ?_, fun id name hother ↦ ?_⟩
  · rcases helsewhere id name with ⟨hid, hname⟩ | hvars
    · exact Or.inl ⟨assignment, List.mem_singleton_self _, hid, hname⟩
    · exact Or.inr hvars
  · exact (sameRowOpsBut_write tree subAction).of_run hrun id name
      (hother assignment (List.mem_singleton_self _))

/-- A phase in which every binding does its part. -/
theorem runPhase_write (hphase : IsWritePhase acFun tree phase subAction) (idx : ℕ)
    (hdistinct : (assignments.map fun assignment ↦ assignment.lock.name).Nodup)
    (hstep : ∀ idx, ∀ assignment ∈ assignments, ∀ state object,
      Stands assignment.lock state object → before assignment object →
        ∃ next, Passes assignment.lock (write tree ⟨idx, acFun, none⟩ assignment.lock.name
          (some assignment.value) subAction) state (.ok ()) next ∧ after assignment next)
    (hholds : Holds before assignments state) :
    ∃ last, (runPhase (writeHandlers acFun tree phase) idx
        (assignments.map Assignment.varBind)).run state = (.ok ([], none), last) ∧
      Holds after assignments last ∧ SameApart assignments state last := by
  induction assignments generalizing idx state with
  | nil => exact ⟨state, rfl, nofun, SameApart.refl _ _⟩
  | cons assignment assignments ih =>
    rw [List.map_cons, List.nodup_cons] at hdistinct
    obtain ⟨object, hstands, hbefore⟩ := hholds assignment List.mem_cons_self
    obtain ⟨next, hpasses, hafter⟩ :=
      hstep idx assignment List.mem_cons_self state object hstands hbefore
    obtain ⟨between, hrun, hnext, hsame⟩ := exists_run_of_passes hpasses
    have hother : ∀ other ∈ assignments, other.lock.name ≠ assignment.lock.name :=
      fun other hmem hname ↦ hdistinct.1 (hname ▸ List.mem_map_of_mem hmem)
    have hrest : Holds before assignments between :=
      Holds.of_sameApart (fun other hmem ↦ hholds other (List.mem_cons_of_mem _ hmem)) hsame
        fun other hmem first hfirst ↦ List.mem_singleton.mp hfirst ▸ hother other hmem
    obtain ⟨last, hphaseRun, hlast, hsameRest⟩ := ih (idx + 1) hdistinct.2
      (fun idx other hmem ↦ hstep idx other (List.mem_cons_of_mem _ hmem)) hrest
    refine ⟨last, ?_, ?_, ?_⟩
    · have hhandler : (writeHandlers acFun tree phase idx assignment.varBind).run state =
          (.ok none, between) := by
        rw [hphase]
        exact bind_run_of_ok hrun
      rw [List.map_cons, runPhase_cons_of_none hhandler]
      exact hphaseRun
    · intro other hmem
      rcases List.mem_cons.mp hmem with rfl | hmem
      · exact ⟨next, hsameRest.stands hnext fun other hmem hname ↦ hother other hmem hname.symm,
          hafter⟩
      · exact hlast other hmem
    · refine (hsame.mono fun other hmem ↦ ?_).trans
        (hsameRest.mono fun other hmem ↦ List.mem_cons_of_mem _ hmem)
      exact List.mem_singleton.mp hmem ▸ List.mem_cons_self

/-- A phase that a binding ends: those in front of it have done their part, and those behind it are
as they were. -/
theorem runPhase_write_of_error (hphase : IsWritePhase acFun tree phase subAction) (idx : ℕ)
    {done rest : List (Assignment tree)} {failing : Assignment tree} {error : SmiError}
    (stopped : MibScalarInstance → Prop)
    (hdistinct : ((done ++ failing :: rest).map fun assignment ↦ assignment.lock.name).Nodup)
    (hstep : ∀ idx, ∀ assignment ∈ done, ∀ state object,
      Stands assignment.lock state object → before assignment object →
        ∃ next, Passes assignment.lock (write tree ⟨idx, acFun, none⟩ assignment.lock.name
          (some assignment.value) subAction) state (.ok ()) next ∧ after assignment next)
    (hfail : ∀ state object, Stands failing.lock state object → before failing object →
      ∃ next, Passes failing.lock (write tree ⟨idx + done.length, acFun, none⟩ failing.lock.name
        (some failing.value) subAction) state (.error (.smi error)) next ∧ stopped next)
    (hholds : Holds before (done ++ failing :: rest) state) :
    ∃ last, (runPhase (writeHandlers acFun tree phase) idx
        ((done ++ failing :: rest).map Assignment.varBind)).run state =
          (.ok ([], some error), last) ∧
      Holds after done last ∧ (∃ next, Stands failing.lock last next ∧ stopped next) ∧
      Holds before rest last ∧ SameApart (done ++ failing :: rest) state last := by
  induction done generalizing idx state with
  | nil =>
    rw [List.nil_append, List.map_cons, List.nodup_cons] at hdistinct
    obtain ⟨object, hstands, hbefore⟩ := hholds failing List.mem_cons_self
    obtain ⟨next, hpasses, hstopped⟩ := hfail state object hstands hbefore
    obtain ⟨last, hrun, hnext, hsame⟩ := exists_run_of_passes hpasses
    have hother : ∀ other ∈ rest, other.lock.name ≠ failing.lock.name :=
      fun other hmem hname ↦ hdistinct.1 (hname ▸ List.mem_map_of_mem hmem)
    refine ⟨last, ?_, nofun, ⟨next, hnext, hstopped⟩, ?_, ?_⟩
    · have hhandler : (writeHandlers acFun tree phase idx failing.varBind).run state =
          (.error (.smi error), last) := by
        rw [hphase]
        exact bind_run_of_error hrun
      exact runPhase_cons_of_error hhandler
    · exact Holds.of_sameApart (fun other hmem ↦ hholds other (List.mem_cons_of_mem _ hmem)) hsame
        fun other hmem first hfirst ↦ List.mem_singleton.mp hfirst ▸ hother other hmem
    · exact hsame.mono fun other hmem ↦ List.mem_singleton.mp hmem ▸ List.mem_cons_self
  | cons assignment done ih =>
    rw [List.cons_append, List.map_cons, List.nodup_cons] at hdistinct
    obtain ⟨object, hstands, hbefore⟩ := hholds assignment List.mem_cons_self
    obtain ⟨next, hpasses, hafter⟩ :=
      hstep idx assignment List.mem_cons_self state object hstands hbefore
    obtain ⟨between, hrun, hnext, hsame⟩ := exists_run_of_passes hpasses
    have hother : ∀ other ∈ done ++ failing :: rest, other.lock.name ≠ assignment.lock.name :=
      fun other hmem hname ↦ hdistinct.1 (hname ▸ List.mem_map_of_mem hmem)
    have hrest : Holds before (done ++ failing :: rest) between :=
      Holds.of_sameApart (fun other hmem ↦ hholds other (List.mem_cons_of_mem _ hmem)) hsame
        fun other hmem first hfirst ↦ List.mem_singleton.mp hfirst ▸ hother other hmem
    obtain ⟨last, hphaseRun, hdone, hfailing, hbehind, hsameRest⟩ := ih (idx + 1) hdistinct.2
      (fun idx other hmem ↦ hstep idx other (List.mem_cons_of_mem _ hmem))
      (by rwa [List.length_cons, Nat.add_comm done.length, ← Nat.add_assoc] at hfail) hrest
    refine ⟨last, ?_, ?_, hfailing, hbehind, ?_⟩
    · have hhandler : (writeHandlers acFun tree phase idx assignment.varBind).run state =
          (.ok none, between) := by
        rw [hphase]
        exact bind_run_of_ok hrun
      rw [List.cons_append, List.map_cons, runPhase_cons_of_none hhandler]
      exact hphaseRun
    · intro other hmem
      rcases List.mem_cons.mp hmem with rfl | hmem
      · exact ⟨next, hsameRest.stands hnext fun other hmem hname ↦ hother other hmem hname.symm,
          hafter⟩
      · exact hdone other hmem
    · refine (hsame.mono fun other hmem ↦ ?_).trans
        (hsameRest.mono fun other hmem ↦ List.mem_cons_of_mem _ hmem)
      exact List.mem_singleton.mp hmem ▸ List.mem_cons_self

end Phase

/-! ### Access to write -/

section Denied

open ReadVars

variable {lock : Lock tree} {state : MibState} {object : MibScalarInstance} {context : Context}
  {value : Value} {error : SmiError}

/-- What asking for access raises. -/
theorem kind_of_checkAccess_eq_error {allowed : Bool} {refusal : SmiErrorKind} {kind : AccessKind}
    {name : Oid} {exception : MibException}
    (hdenied : checkAccess allowed refusal kind context name = .error exception) :
    ∃ error, exception = .smi error ∧
      error.kind ∈ [refusal, .authorizationError, .genError, .noAccess] := by
  unfold checkAccess at hdenied
  cases hask : context.acFun with
  | none => simp [hask] at hdenied
  | some acFun =>
    rw [hask] at hdenied
    dsimp only at hdenied
    split_ifs at hdenied
    · cases hverdict : acFun name kind <;> rw [hverdict] at hdenied <;> cases hdenied <;>
        exact ⟨_, rfl, by simp⟩
    · cases hdenied
      exact ⟨_, rfl, by simp⟩

/-- A write that access is not given for is refused in its test, and changes nothing. -/
theorem passes_test_of_denied (hstands : Stands lock state object)
    (hdenied : checkAccess lock.object.maxAccess.isWritable .notWritable .write context lock.name =
      .error (.smi error)) :
    Passes lock (write tree context lock.name (some value) .test) state (.error (.smi error))
      object := by
  obtain ⟨_, heq, hkind⟩ := kind_of_checkAccess_eq_error hdenied
  obtain rfl := MibException.smi.inj heq
  -- a column takes three kinds of errors for a row operation, and these are none of them
  have hmissing : error.kind ≠ .noSuchInstance := fun heq ↦ by simp [heq] at hkind
  have hcreation : error.kind ≠ .rowCreationWanted := fun heq ↦ by simp [heq] at hkind
  have hdestruction : error.kind ≠ .rowDestructionWanted := fun heq ↦ by simp [heq] at hkind
  have hwrite : write tree context lock.name (some value) .test =
      branchWrite tree context lock.name (some value) .test :=
    if_neg lock.name_ne_rootName
  rw [hwrite, branchWrite]
  rcases lock.place with ⟨key, hscalar, hid⟩ | ⟨key, row, branch, hrow, hcolumn, hid⟩
  · rw [hscalar]
    refine ⟨state, ?_, hstands, fun _ _ ↦ Or.inr rfl⟩
    show (WriteVars.scalarWriteTest lock.object context lock.name (some value)).run state = _
    rw [WriteVars.scalarWriteTest, if_neg lock.name_ne, hdenied]
    rfl
  · rw [hrow]
    have hscalar (slot : Slot) :
        (ColumnWrite.scalarWriteTest lock.object context lock.name (some value)).run slot =
          (.error (.smi error), slot) := by
      rw [ColumnWrite.scalarWriteTest, if_neg lock.name_ne, hdenied]
      rfl
    have htest (slot : Slot) : (writeTest lock.object context lock.name (some value)).run slot =
        (.error (.smi error), slot) := by
      refine bind_run_of_error ((handle_run_of_error (hscalar slot)).trans ?_)
      dsimp only
      rw [if_neg hmissing, if_neg hcreation, if_neg hdestruction]
      rfl
    obtain ⟨last, hrun, hlast⟩ := @AdvisoryLock.passes_onSlot tree lock _ _ _ _
      ⟨_, htest _, hstands.found, hstands.rowOpWanted⟩
    refine ⟨last, ?_, hlast⟩
    have hon : (RowWrite.onColumn lock.object lock.name
        (writeTest lock.object context lock.name (some value))).run state =
        (.error (.smi error), last) := by
      rw [← hrun, RowWrite.onColumn, AdvisoryLock.onSlot, hid]
    have hdelegate : (RowWrite.delegate tree row context lock.name (some value) .test).run state =
        (.error (.smi error), last) := by
      rw [RowWrite.delegate, hcolumn]
      refine (handle_run_of_error (bind_run_of_error hon)).trans ?_
      dsimp only
      rw [if_neg hcreation, if_neg hdestruction]
      rfl
    exact bind_run_of_error hdelegate

end Denied

/-! ### A SET -/

/-- The instances that are served stand idle, with the contents. -/
def Serves (served : Lock tree → Prop) (classes : Oid → SyntaxClass) (state : MibState)
    (contents : Contents) : Prop :=
  ∀ lock, served lock → ∃ object, Stands lock state object ∧
    Idle lock.name (classes lock.name) (contents lock.name) object

/-- The instance of a binding is idle, with the contents. -/
def IsIdle (classes : Oid → SyntaxClass) (contents : Contents) (assignment : Assignment tree)
    (object : MibScalarInstance) : Prop :=
  Idle assignment.lock.name (classes assignment.lock.name) (contents assignment.lock.name) object

section Bindings

variable {classes : Oid → SyntaxClass} {contents : Contents} {acFun : Option AccessFunction}
  {idx : ℕ} {assignment : Assignment tree}

/-- An access that the object allows is up to the access function. -/
theorem checkAccess_true_eq_ok_iff {refusal : SmiErrorKind} {kind : AccessKind} {name : Oid} :
    checkAccess true refusal kind ⟨idx, acFun, none⟩ name = .ok () ↔
      ∀ ask ∈ acFun, ask name kind = .permitted := by
  unfold checkAccess
  cases acFun with
  | none => simp
  | some ask => cases hverdict : ask name kind <;> simp [hverdict]

/-- A binding that is not refused: the manager may write the instance, which takes the value. -/
theorem proposed_eq_ok_iff {next : Syntax} :
    proposed classes contents acFun idx assignment = .ok next ↔
      (∀ ask ∈ acFun, ask assignment.lock.name .write = .permitted) ∧
        nextSyntax (classes assignment.lock.name) (contents assignment.lock.name)
          assignment.value = some next := by
  rw [← @checkAccess_true_eq_ok_iff acFun idx .notWritable, proposed]
  cases checkAccess true .notWritable .write ⟨idx, acFun, none⟩ assignment.lock.name with
  | error exception => simp [bind, Except.bind]
  | ok allowed =>
    cases nextSyntax (classes assignment.lock.name) (contents assignment.lock.name)
      assignment.value <;> simp [bind, Except.bind]

/-- Whatever an instance takes has a value. -/
theorem isValue_of_nextSyntax {syntaxClass : SyntaxClass} {present next : Syntax} {value : Value}
    (hkind : syntaxClass.kind ≠ .rowStatus)
    (hnext : nextSyntax syntaxClass present value = some next) : next.isValue = true := by
  have hset := @setSyntax_eq _ present value hkind
  rw [hnext] at hset
  dsimp only at hset
  unfold InstanceWrite.setSyntax at hset
  cases hclass : syntaxClass.kind with
  | rowStatus => exact absurd hclass hkind
  | plain =>
    rw [hclass] at hset
    dsimp only at hset
    split at hset <;> cases hset
    rfl
  | testAndIncr =>
    rw [hclass] at hset
    dsimp only at hset
    unfold InstanceWrite.setTestAndIncr at hset
    repeat' split at hset
    all_goals cases hset
    rfl

end Bindings

/-! ### The reads that follow -/

section Reads

variable {classes : Oid → SyntaxClass} {contents : Contents} {acFun : Option AccessFunction}
  {state : MibState} {lock : Lock tree} {object : MibScalarInstance} {present : Syntax}
  {syntaxClass : SyntaxClass} {context : Context}

theorem isReadable_of_lock (lock : Lock tree) : lock.object.maxAccess.isReadable = true := by
  have hwritable := lock.writable
  cases haccess : lock.object.maxAccess <;> rw [haccess] at hwritable <;>
    first | rfl | cases hwritable

/-- What an instance answers to a read. -/
theorem instanceRead_of_idle {α : Type} (answer : MibScalarInstance → α)
    (hidle : Idle lock.name syntaxClass present object) :
    instanceRead answer context lock.name object =
      if present.isValue then .ok (answer object)
      else .error (mibError .noSuchInstance context lock.name) := by
  rw [instanceRead, if_pos hidle.name_eq.symm, MibScalarInstance.isValue, hidle.syntaxObj]
  rfl

/-- A test of the name asks for access, then for a value. -/
theorem readTest_of_idle (hstands : Stands lock state object)
    (hidle : Idle lock.name syntaxClass present object) :
    readTest tree context state lock.name = (do
      checkAccess true .noAccess .read context lock.name
      if present.isValue then .ok () else .error (mibError .noSuchInstance context lock.name)) := by
  rw [readTest_eq, lock.tested, lock.covering, Option.bind_some, hstands.reached]
  simp only [objectReadTest, if_neg lock.name_ne, isReadable_of_lock lock]
  rw [instanceRead_of_idle _ hidle]

/-- An idle instance answers with its value, and refuses a read without one. -/
theorem readGet_of_idle (hstands : Stands lock state object)
    (hidle : Idle lock.name syntaxClass present object) :
    readGet tree context state lock.name =
      if present.isValue then .ok (lock.name, .value (some present))
      else .error (mibError .noSuchInstance context lock.name) := by
  rw [readGet_eq, lock.covering]
  dsimp only
  rw [hstands.reached, objectReadGet, instanceRead_of_idle _ hidle, hidle.name_eq, hidle.syntaxObj]

theorem readTest_handler_run (idx : ℕ) (varBind : VarBind) :
    (writeHandlers acFun tree .readTest idx varBind).run state =
      ((readTest tree ⟨idx, acFun, none⟩ state varBind.1).map fun _ ↦ none, state) := by
  refine (bind_run_of_ok (get_run state)).trans ?_
  cases readTest tree ⟨idx, acFun, none⟩ state varBind.1 <;> rfl

theorem readGet_handler_run (idx : ℕ) (varBind : VarBind) :
    (writeHandlers acFun tree .readGet idx varBind).run state =
      ((readGet tree ⟨idx, acFun, none⟩ state varBind.1).map some, state) := by
  refine (bind_run_of_ok (get_run state)).trans ?_
  cases readGet tree ⟨idx, acFun, none⟩ state varBind.1 <;> rfl

/-- A phase that reads, where nothing but an `SmiError` is raised for a binding. -/
theorem exists_runPhase_of_reads
    {handler : ℕ → VarBind → Effect MibState MibException (Option (Oid × ReadValue))}
    {step : ℕ → VarBind → Except MibException (Option (Oid × ReadValue))} {varBinds : List VarBind}
    (hhandler : ∀ idx varBind, (handler idx varBind).run state = (step idx varBind, state))
    (hstep : ∀ idx, ∀ varBind ∈ varBinds, ∀ error,
      step idx varBind ≠ .error (.python error)) :
    ∃ rvals exception, (runPhase handler 0 varBinds).run state =
      (.ok (rvals, exception), state) := by
  have hphase := @runPhase_run_of_reads _ _ _ handler state step 0 varBinds hhandler
  rcases heach : eachFrom step 0 varBinds with (error | error) | rvals
  · rw [heach] at hphase
    obtain ⟨rvals, hphase⟩ := hphase
    exact ⟨rvals, some error, hphase⟩
  · obtain ⟨before, varBind, after, hbinds, -, hvarBind⟩ := exists_of_eachFrom_eq_error heach
    exact absurd hvarBind (hstep _ varBind (hbinds ▸ by simp) error)
  · rw [heach] at hphase
    exact ⟨_, none, hphase⟩

/-- After an error the reads change nothing, whatever they answer, and the error is what is
raised. -/
theorem reads_run_of_origExc {varBinds : List VarBind}
    (htests : ∀ idx, ∀ varBind ∈ varBinds, ∀ error,
      readTest tree ⟨idx, acFun, none⟩ state varBind.1 ≠ .error (.python error))
    (hgets : ∀ idx, ∀ varBind ∈ varBinds, ∀ error,
      readGet tree ⟨idx, acFun, none⟩ state varBind.1 ≠ .error (.python error))
    (turns : ℕ) (error : SmiError) :
    (flipFlopLoop fsmWriteVar (writeHandlers acFun tree) varBinds
        (turns + 3) .writeCleanup .ok (some error) []).run state =
      (.error (.smi error), state) := by
  obtain ⟨tests, testError, htest⟩ := exists_runPhase_of_reads
    (@readTest_handler_run tree acFun state) fun idx varBind hmem raised hraised ↦ by
      have hread := htests idx varBind hmem
      cases hresult : readTest tree ⟨idx, acFun, none⟩ state varBind.1 with
      | error exception =>
        rw [hresult] at hraised
        exact hread raised (hresult.trans (congrArg Except.error (Except.error.inj hraised)))
      | ok allowed =>
        rw [hresult] at hraised
        cases hraised
  obtain ⟨answers, getError, hget⟩ := exists_runPhase_of_reads
    (@readGet_handler_run tree acFun state) fun idx varBind hmem raised hraised ↦ by
      have hread := hgets idx varBind hmem
      cases hresult : readGet tree ⟨idx, acFun, none⟩ state varBind.1 with
      | error exception =>
        rw [hresult] at hraised
        exact hread raised (hresult.trans (congrArg Except.error (Except.error.inj hraised)))
      | ok answer =>
        rw [hresult] at hraised
        cases hraised
  rw [flipFlopLoop_run_of_next rfl (by decide) htest]
  cases testError with
  | some testError => exact flipFlopLoop_run_of_stop rfl
  | none =>
    refine (flipFlopLoop_run_of_next rfl (by decide) hget).trans ?_
    cases getError <;> exact flipFlopLoop_run_of_stop rfl

/-- Reads that all succeed give their answers. -/
theorem reads_run_of_answers {γ : Type} {image : γ → VarBind} {items : List γ}
    {answer : γ → Oid × ReadValue}
    (htests : ∀ idx, ∀ item ∈ items,
      readTest tree ⟨idx, acFun, none⟩ state (image item).1 = .ok ())
    (hgets : ∀ idx, ∀ item ∈ items,
      readGet tree ⟨idx, acFun, none⟩ state (image item).1 = .ok (answer item)) (turns : ℕ) :
    (flipFlopLoop fsmWriteVar (writeHandlers acFun tree) (items.map image)
        (turns + 3) .writeCleanup .ok none []).run state =
      (.ok (items.map answer), state) := by
  have htested : eachFrom (fun idx (varBind : VarBind) ↦
        (readTest tree ⟨idx, acFun, none⟩ state varBind.1).map
          fun _ ↦ (none : Option (Oid × ReadValue))) 0 (items.map image) =
      .ok (items.map fun _ ↦ none) := by
    refine (eachFrom_map_of_eq 0 fun idx item hmem ↦ ?_).trans (eachFrom_of_ok 0 fun _ _ _ ↦ rfl)
    rw [htests idx item hmem]
    rfl
  have hgot : eachFrom (fun idx (varBind : VarBind) ↦
        (readGet tree ⟨idx, acFun, none⟩ state varBind.1).map some) 0 (items.map image) =
      .ok (items.map fun item ↦ some (answer item)) := by
    refine (eachFrom_map_of_eq 0 fun idx item hmem ↦ ?_).trans (eachFrom_of_ok 0 fun _ _ _ ↦ rfl)
    rw [hgets idx item hmem]
    rfl
  have htest := @runPhase_run_of_reads _ _ _ _ state _ 0 (items.map image)
    (@readTest_handler_run tree acFun state)
  rw [htested] at htest
  have hget := @runPhase_run_of_reads _ _ _ _ state _ 0 (items.map image)
    (@readGet_handler_run tree acFun state)
  rw [hgot] at hget
  refine (flipFlopLoop_run_of_next rfl (by decide) htest).trans ?_
  refine (flipFlopLoop_run_of_next rfl (by decide) hget).trans ?_
  refine (flipFlopLoop_run_of_stop rfl).trans ?_
  have hnothing : (items.map fun _ ↦ (none : Option (Oid × ReadValue))).flatMap
      Option.toList = [] :=
    List.flatMap_eq_nil_iff.mpr fun result hmem ↦ by
      obtain ⟨_, -, rfl⟩ := List.mem_map.mp hmem
      rfl
  rw [hnothing, List.nil_append, List.nil_append, List.flatMap_map]
  exact congrArg (fun answers ↦ (Except.ok answers, state)) List.map_eq_flatMap.symm

variable {assignments : List (Assignment tree)}

/-- Instances that stand raise nothing but an `SmiError` to a reader. -/
theorem reads_run_of_error (hidle : Holds (IsIdle classes contents) assignments state) (turns : ℕ)
    (error : SmiError) :
    (flipFlopLoop fsmWriteVar (writeHandlers acFun tree) (assignments.map Assignment.varBind)
        (turns + 3) .writeCleanup .ok (some error) []).run state =
      (.error (.smi error), state) := by
  refine reads_run_of_origExc (fun idx varBind hvarBind raised hraised ↦ ?_)
    (fun idx varBind hvarBind raised hraised ↦ ?_) turns error
  · obtain ⟨assignment, hmem, rfl⟩ := List.mem_map.mp hvarBind
    obtain ⟨object, hstands, hidle⟩ := hidle assignment hmem
    rw [show assignment.varBind.1 = assignment.lock.name from rfl,
      readTest_of_idle hstands hidle] at hraised
    cases hcheck : checkAccess true .noAccess .read ⟨idx, acFun, none⟩ assignment.lock.name with
    | error exception =>
      obtain ⟨error, rfl, -⟩ := kind_of_checkAccess_eq_error hcheck
      rw [hcheck] at hraised
      cases hraised
    | ok allowed =>
      rw [hcheck] at hraised
      cases hvalue : (contents assignment.lock.name).isValue <;>
        simp [hvalue, bind, Except.bind, mibError] at hraised
  · obtain ⟨assignment, hmem, rfl⟩ := List.mem_map.mp hvarBind
    obtain ⟨object, hstands, hidle⟩ := hidle assignment hmem
    rw [show assignment.varBind.1 = assignment.lock.name from rfl,
      readGet_of_idle hstands hidle] at hraised
    cases hvalue : (contents assignment.lock.name).isValue <;>
      simp [hvalue, mibError] at hraised

/-- The answers to a manager who may read all instances, or the first refusal. -/
theorem eachFrom_answered (contents : Contents) (acFun : Option AccessFunction) (idx : ℕ)
    (assignments : List (Assignment tree)) :
    eachFrom (answered contents acFun) idx assignments =
      (eachFrom (fun idx (assignment : Assignment tree) ↦
        checkAccess true .noAccess .read ⟨idx, acFun, none⟩ assignment.lock.name) idx
          assignments).map fun _ ↦
        assignments.map fun assignment ↦
          (assignment.lock.name, .value (some (contents assignment.lock.name))) := by
  induction assignments generalizing idx with
  | nil => rfl
  | cons assignment assignments ih =>
    rw [eachFrom, eachFrom, ih, answered]
    cases checkAccess true .noAccess .read ⟨idx, acFun, none⟩ assignment.lock.name with
    | error exception => rfl
    | ok allowed =>
      cases eachFrom (fun idx (assignment : Assignment tree) ↦
        checkAccess true .noAccess .read ⟨idx, acFun, none⟩ assignment.lock.name) (idx + 1)
          assignments <;> rfl

/-- After a SET that was taken the reads give what is held now, to a manager who may read it. -/
theorem reads_run_of_taken (hidle : Holds (IsIdle classes contents) assignments state)
    (hvalues : ∀ assignment ∈ assignments, (contents assignment.lock.name).isValue = true)
    (turns : ℕ) :
    (flipFlopLoop fsmWriteVar (writeHandlers acFun tree) (assignments.map Assignment.varBind)
        (turns + 3) .writeCleanup .ok none []).run state =
      (eachFrom (answered contents acFun) 0 assignments, state) := by
  have htests : eachFrom (fun idx (varBind : VarBind) ↦
        (readTest tree ⟨idx, acFun, none⟩ state varBind.1).map
          fun _ ↦ (none : Option (Oid × ReadValue))) 0 (assignments.map Assignment.varBind) =
      (eachFrom (fun idx (assignment : Assignment tree) ↦
        checkAccess true .noAccess .read ⟨idx, acFun, none⟩ assignment.lock.name) 0
          assignments).map (List.map fun _ ↦ none) := by
    rw [eachFrom_map, eachFrom_map_of_eq]
    intro idx assignment hmem
    obtain ⟨object, hstands, hidle⟩ := hidle assignment hmem
    rw [show assignment.varBind.1 = assignment.lock.name from rfl, readTest_of_idle hstands hidle,
      if_pos (hvalues assignment hmem)]
    cases checkAccess true .noAccess .read ⟨idx, acFun, none⟩ assignment.lock.name <;> rfl
  have htest := @runPhase_run_of_reads _ _ _ _ state _ 0 (assignments.map Assignment.varBind)
    (@readTest_handler_run tree acFun state)
  rw [htests] at htest
  rw [eachFrom_answered]
  rcases hchecks : eachFrom (fun idx (assignment : Assignment tree) ↦
      checkAccess true .noAccess .read ⟨idx, acFun, none⟩ assignment.lock.name) 0 assignments with
    (error | error) | allowed
  · rw [hchecks] at htest
    obtain ⟨rvals, htest⟩ := htest
    exact (flipFlopLoop_run_of_next rfl (by decide) htest).trans (flipFlopLoop_run_of_stop rfl)
  · obtain ⟨before, assignment, after, -, -, hcheck⟩ := exists_of_eachFrom_eq_error hchecks
    obtain ⟨_, hpython, -⟩ := kind_of_checkAccess_eq_error hcheck
    cases hpython
  · rw [hchecks] at htest
    have hgets : eachFrom (fun idx (varBind : VarBind) ↦
          (readGet tree ⟨idx, acFun, none⟩ state varBind.1).map some) 0
        (assignments.map Assignment.varBind) =
        .ok (assignments.map fun assignment ↦
          some (assignment.lock.name, .value (some (contents assignment.lock.name)))) := by
      refine (eachFrom_map_of_eq 0 fun idx assignment hmem ↦ ?_).trans
        (eachFrom_of_ok 0 fun _ _ _ ↦ rfl)
      · obtain ⟨object, hstands, hidle⟩ := hidle assignment hmem
        rw [show assignment.varBind.1 = assignment.lock.name from rfl,
          readGet_of_idle hstands hidle, if_pos (hvalues assignment hmem)]
        rfl
    have hget := @runPhase_run_of_reads _ _ _ _ state _ 0 (assignments.map Assignment.varBind)
      (@readGet_handler_run tree acFun state)
    rw [hgets] at hget
    refine (flipFlopLoop_run_of_next rfl (by decide) htest).trans ?_
    refine (flipFlopLoop_run_of_next rfl (by decide) hget).trans ?_
    refine (flipFlopLoop_run_of_stop rfl).trans ?_
    have hnothing : (allowed.map fun _ ↦ (none : Option (Oid × ReadValue))).flatMap
        Option.toList = [] :=
      List.flatMap_eq_nil_iff.mpr fun result hmem ↦ by
        obtain ⟨_, -, rfl⟩ := List.mem_map.mp hmem
        rfl
    rw [hnothing, List.nil_append, List.nil_append, List.flatMap_map]
    exact congrArg (fun answers ↦ (Except.ok answers, state)) List.map_eq_flatMap.symm

end Reads

/-! ### A SET is one step -/

section Perform

variable {served : Lock tree → Prop} {classes : Oid → SyntaxClass} {contents : Contents}
  {state : MibState} {request : Request tree}

/-- What the access function permits is writable at any index of the request. -/
theorem isWritable_of_permitted {acFun : Option AccessFunction} {lock : Lock tree}
    (hpermitted : ∀ ask ∈ acFun, ask lock.name .write = .permitted) (idx : ℕ) :
    IsWritable lock ⟨idx, acFun, none⟩ := by
  rw [IsWritable, lock.writable]
  exact checkAccess_true_eq_ok_iff.mpr hpermitted

/-- The part of a binding in the test, when it is not refused. -/
theorem passes_test {acFun : Option AccessFunction} {idx : ℕ} {assignment : Assignment tree}
    {object : MibScalarInstance} {next : Syntax}
    (hkind : (classes assignment.lock.name).kind ≠ .rowStatus)
    (hproposed : proposed classes contents acFun idx assignment = .ok next) (position : ℕ)
    (hstands : Stands assignment.lock state object)
    (hidle : IsIdle classes contents assignment object) :
    Passes assignment.lock (write tree ⟨position, acFun, none⟩ assignment.lock.name
      (some assignment.value) .test) state (.ok ()) (staged object next) := by
  obtain ⟨hpermitted, hnext⟩ := proposed_eq_ok_iff.mp hproposed
  refine AdvisoryLock.write_run hstands
    (fun _ ↦ isWritable_of_permitted hpermitted position) ?_ (Or.inl rfl)
  show (InstanceWrite.writeTest _ _ (some assignment.value)).run object = _
  rw [writeTest_run hidle hkind, hnext]

/-- The part of a binding in the test, when it is refused. -/
theorem passes_test_of_refused {acFun : Option AccessFunction} {idx : ℕ}
    {assignment : Assignment tree} {object : MibScalarInstance} {exception : MibException}
    (hkind : (classes assignment.lock.name).kind ≠ .rowStatus)
    (hproposed : proposed classes contents acFun idx assignment = .error exception)
    (hstands : Stands assignment.lock state object)
    (hidle : IsIdle classes contents assignment object) :
    Passes assignment.lock (write tree ⟨idx, acFun, none⟩ assignment.lock.name
      (some assignment.value) .test) state (.error exception) object := by
  rw [proposed] at hproposed
  cases hcheck : checkAccess true .notWritable .write ⟨idx, acFun, none⟩ assignment.lock.name with
  | error denial =>
    rw [hcheck] at hproposed
    obtain rfl : denial = exception := Except.error.inj hproposed
    obtain ⟨error, rfl, -⟩ := kind_of_checkAccess_eq_error hcheck
    exact passes_test_of_denied hstands (by rw [assignment.lock.writable]; exact hcheck)
  | ok allowed =>
    rw [hcheck] at hproposed
    have hpermitted := checkAccess_true_eq_ok_iff.mp hcheck
    cases hnext : nextSyntax (classes assignment.lock.name) (contents assignment.lock.name)
      assignment.value with
    | some next =>
      rw [hnext] at hproposed
      cases hproposed
    | none =>
      rw [hnext] at hproposed
      obtain rfl := Except.error.inj hproposed
      refine AdvisoryLock.write_run hstands (fun _ ↦ isWritable_of_permitted hpermitted idx) ?_
        (Or.inr ⟨_, rfl, nofun, nofun, nofun⟩)
      show (InstanceWrite.writeTest _ _ (some assignment.value)).run object = _
      rw [writeTest_run hidle hkind, hnext]

/-- What is refused is refused with an `SmiError`. -/
theorem exists_smi_of_proposed_eq_error {acFun : Option AccessFunction} {idx : ℕ}
    {assignment : Assignment tree} {exception : MibException}
    (hproposed : proposed classes contents acFun idx assignment = .error exception) :
    ∃ error, exception = .smi error := by
  rw [proposed] at hproposed
  cases hcheck : checkAccess true .notWritable .write ⟨idx, acFun, none⟩ assignment.lock.name with
  | error denial =>
    rw [hcheck] at hproposed
    obtain rfl : denial = exception := Except.error.inj hproposed
    obtain ⟨error, rfl, -⟩ := kind_of_checkAccess_eq_error hcheck
    exact ⟨error, rfl⟩
  | ok allowed =>
    rw [hcheck] at hproposed
    cases hnext : nextSyntax (classes assignment.lock.name) (contents assignment.lock.name)
      assignment.value with
    | some next =>
      rw [hnext] at hproposed
      cases hproposed
    | none =>
      rw [hnext] at hproposed
      exact ⟨_, (Except.error.inj hproposed).symm⟩

/-- The part of a binding in the commit. -/
theorem passes_commit {acFun : Option AccessFunction} {assignment : Assignment tree}
    {object : MibScalarInstance} {next : Syntax} (idx : ℕ)
    (hstands : Stands assignment.lock state (staged object next))
    (hidle : IsIdle classes contents assignment object) :
    Passes assignment.lock (write tree ⟨idx, acFun, none⟩ assignment.lock.name
      (some assignment.value) .commit) state (.ok ()) (committed object next) :=
  AdvisoryLock.write_run hstands nofun (writeCommit_run hidle) (Or.inl rfl)

/-- The part of a binding in the cleanup, also when access to write is not given. -/
theorem passes_cleanup {acFun : Option AccessFunction} {assignment : Assignment tree}
    {object : MibScalarInstance} (idx : ℕ) (hstands : Stands assignment.lock state object) :
    Passes assignment.lock (write tree ⟨idx, acFun, none⟩ assignment.lock.name
      (some assignment.value) .cleanup) state (.ok ()) (cleaned object) :=
  AdvisoryLock.write_run hstands nofun (modify_run _ object) (Or.inl rfl)

/-- The first binding that is refused is what the SET raises, and it changes nothing. -/
theorem perform_of_refused {exception : MibException}
    (hplain : ∀ assignment ∈ request.assignments,
      (classes assignment.lock.name).kind ≠ .rowStatus)
    (hidle : Holds (IsIdle classes contents) request.assignments state)
    (hrefused : eachFrom (proposed classes contents request.acFun) 0 request.assignments =
      .error exception) :
    (perform state request).1 = .error exception ∧
      Holds (IsIdle classes contents) request.assignments (perform state request).2 ∧
      SameApart request.assignments state (perform state request).2 := by
  obtain ⟨done, failing, rest, hassignments, hdone, hfailing⟩ :=
    exists_of_eachFrom_eq_error hrefused
  obtain ⟨error, rfl⟩ := exists_smi_of_proposed_eq_error hfailing
  have hdistinct := request.distinct
  rw [hassignments] at hdistinct hidle hplain
  obtain ⟨tested, htest, hfront, ⟨object, hstands, hobject⟩, hbehind, hsameTest⟩ :=
    runPhase_write_of_error (IsIdle classes contents) (isWritePhase_test request.acFun tree) 0
      (IsIdle classes contents failing) hdistinct
      (fun idx assignment hmem state object hstands hbefore ↦ by
        obtain ⟨position, next, hproposed⟩ := hdone assignment hmem
        exact ⟨_, passes_test (hplain assignment (List.mem_append_left _ hmem)) hproposed idx
          hstands hbefore, hbefore.staged⟩)
      (fun state object hstands hbefore ↦ ⟨object,
        passes_test_of_refused (hplain failing (by simp)) hfailing hstands hbefore, hbefore⟩)
      hidle
  have hholds : Holds (IsIdle classes contents) (done ++ failing :: rest) tested := by
    intro assignment hmem
    rcases List.mem_append.mp hmem with hmem | hmem
    · exact hfront assignment hmem
    · rcases List.mem_cons.mp hmem with rfl | hmem
      · exact ⟨object, hstands, hobject⟩
      · exact hbehind assignment hmem
  obtain ⟨last, hcleanup, hlast, hsameCleanup⟩ :=
    runPhase_write (IsIdle classes contents) (isWritePhase_cleanup request.acFun tree) 0 hdistinct
      (fun idx assignment _ state object hstands hbefore ↦
        ⟨_, passes_cleanup idx hstands, hbefore.cleaned⟩) hholds
  have hrun : perform state request = (.error (.smi error), last) := by
    rw [perform, hassignments, writeVars_run_of_refused htest hcleanup]
    exact reads_run_of_error hlast 8 error
  rw [hrun, hassignments]
  exact ⟨rfl, hlast, hsameTest.trans hsameCleanup⟩

/-- Among different names the contents that are assigned to a name are those of its binding. -/
theorem assign_of_mem {assignments : List (Assignment tree)} {assignment : Assignment tree}
    (hdistinct : (assignments.map fun assignment ↦ assignment.lock.name).Nodup)
    (hmem : assignment ∈ assignments) :
    assign classes contents assignments assignment.lock.name =
      (nextSyntax (classes assignment.lock.name) (contents assignment.lock.name)
        assignment.value).getD (contents assignment.lock.name) := by
  rw [assign]
  cases hfind : assignments.find? fun other ↦ other.lock.name = assignment.lock.name with
  | none =>
    have hnone := List.find?_eq_none.mp hfind assignment hmem
    simp at hnone
  | some found =>
    have hname : found.lock.name = assignment.lock.name := by simpa using List.find?_some hfind
    obtain rfl := List.inj_on_of_nodup_map hdistinct (List.mem_of_find?_eq_some hfind) hmem hname
    rfl

/-- An instance that no binding names keeps its contents. -/
theorem assign_of_not_mem {assignments : List (Assignment tree)} {name : Oid}
    (hother : ∀ assignment ∈ assignments, assignment.lock.name ≠ name) :
    assign classes contents assignments name = contents name := by
  have hfind : assignments.find? (fun assignment ↦ assignment.lock.name = name) = none :=
    List.find?_eq_none.mpr fun assignment hmem ↦ by simpa using hother assignment hmem
  rw [assign, hfind]

/-- A binding of a request that is not refused gives its instance what is assigned. -/
theorem exists_proposed_eq_ok {taken : List Syntax} {assignment : Assignment tree}
    (haccepted : eachFrom (proposed classes contents request.acFun) 0 request.assignments =
      .ok taken) (hmem : assignment ∈ request.assignments) :
    ∃ position, proposed classes contents request.acFun position assignment =
      .ok (assign classes contents request.assignments assignment.lock.name) := by
  obtain ⟨position, next, hproposed⟩ := exists_of_eachFrom_eq_ok haccepted hmem
  refine ⟨position, hproposed.trans (congrArg Except.ok ?_)⟩
  rw [assign_of_mem request.distinct hmem, (proposed_eq_ok_iff.mp hproposed).2, Option.getD_some]

/-- Where no binding is refused the SET takes them all, whatever becomes of the reads. -/
theorem perform_of_accepted {taken : List Syntax}
    (hplain : ∀ assignment ∈ request.assignments,
      (classes assignment.lock.name).kind ≠ .rowStatus)
    (hidle : Holds (IsIdle classes contents) request.assignments state)
    (haccepted : eachFrom (proposed classes contents request.acFun) 0 request.assignments =
      .ok taken) :
    (perform state request).1 = eachFrom (answered (assign classes contents request.assignments)
        request.acFun) 0 request.assignments ∧
      Holds (IsIdle classes (assign classes contents request.assignments)) request.assignments
        (perform state request).2 ∧
      SameApart request.assignments state (perform state request).2 := by
  have hnext (assignment : Assignment tree) (hmem : assignment ∈ request.assignments) :
      ∃ position, proposed classes contents request.acFun position assignment =
        .ok (assign classes contents request.assignments assignment.lock.name) :=
    exists_proposed_eq_ok haccepted hmem
  obtain ⟨first, htest, hstaged, hsameTest⟩ :=
    runPhase_write
      (fun assignment object ↦ ∃ original, IsIdle classes contents assignment original ∧
        object = staged original (assign classes contents request.assignments assignment.lock.name))
      (isWritePhase_test request.acFun tree) 0 request.distinct
      (fun idx assignment hmem state object hstands hbefore ↦ by
        obtain ⟨position, hproposed⟩ := hnext assignment hmem
        exact ⟨_, passes_test (hplain assignment hmem) hproposed idx hstands hbefore, object,
          hbefore, rfl⟩) hidle
  obtain ⟨second, hcommit, hcommitted, hsameCommit⟩ :=
    runPhase_write
      (fun assignment object ↦ ∃ original, IsIdle classes contents assignment original ∧
        object =
          committed original (assign classes contents request.assignments assignment.lock.name))
      (isWritePhase_commit request.acFun tree) 0 request.distinct
      (fun idx assignment _ state object hstands ⟨original, hidle, hobject⟩ ↦
        ⟨_, passes_commit idx (hobject ▸ hstands) hidle, original, hidle, rfl⟩) hstaged
  obtain ⟨last, hcleanup, hlast, hsameCleanup⟩ :=
    runPhase_write (IsIdle classes (assign classes contents request.assignments))
      (isWritePhase_cleanup request.acFun tree) 0 request.distinct
      (fun idx assignment _ state object hstands ⟨original, hidle, hobject⟩ ↦
        ⟨_, passes_cleanup idx hstands, hobject ▸ hidle.cleaned_committed⟩) hcommitted
  have hvalues : ∀ assignment ∈ request.assignments,
      (assign classes contents request.assignments assignment.lock.name).isValue = true := by
    intro assignment hmem
    obtain ⟨position, hproposed⟩ := hnext assignment hmem
    exact isValue_of_nextSyntax (hplain assignment hmem) (proposed_eq_ok_iff.mp hproposed).2
  have hrun : perform state request = (eachFrom
      (answered (assign classes contents request.assignments) request.acFun) 0
        request.assignments, last) := by
    rw [perform, writeVars_run_of_passed htest hcommit hcleanup]
    exact reads_run_of_taken hlast hvalues 7
  rw [hrun]
  exact ⟨rfl, hlast, (hsameTest.trans hsameCommit).trans hsameCleanup⟩

/-- One SET on the tree is one step on what the instances hold. -/
theorem Serves.perform (hserves : Serves served classes state contents)
    (hplain : ∀ lock, served lock → (classes lock.name).kind ≠ .rowStatus)
    (hserved : ∀ assignment ∈ request.assignments, served assignment.lock) :
    (AtomicSet.perform state request).1 = (transact classes contents request).1 ∧
      Serves served classes (AtomicSet.perform state request).2
        (transact classes contents request).2 ∧
      SameApart request.assignments state (AtomicSet.perform state request).2 := by
  have hidle : Holds (IsIdle classes contents) request.assignments state :=
    fun assignment hmem ↦ hserves assignment.lock (hserved assignment hmem)
  have hplain' : ∀ assignment ∈ request.assignments,
      (classes assignment.lock.name).kind ≠ .rowStatus :=
    fun assignment hmem ↦ hplain _ (hserved assignment hmem)
  -- an instance that is served is one of those of the request, or stands as it stood
  have hextend {after : MibState} {next : Contents}
      (hlast : Holds (IsIdle classes next) request.assignments after)
      (hsame : SameApart request.assignments state after)
      (hnext : ∀ name, (∀ assignment ∈ request.assignments, assignment.lock.name ≠ name) →
        next name = contents name) : Serves served classes after next := by
    intro lock hlock
    by_cases hnamed : ∃ assignment ∈ request.assignments, assignment.lock.name = lock.name
    · obtain ⟨assignment, hmem, hname⟩ := hnamed
      obtain ⟨object, hstands, hobject⟩ := hlast assignment hmem
      rw [IsIdle, hname] at hobject
      refine ⟨object, ⟨?_, ?_⟩, hobject⟩
      · rw [← id_eq_of_name_eq hname, ← hname]
        exact hstands.found
      · rw [← id_eq_of_name_eq hname, ← hname]
        exact hstands.rowOpWanted
    · push Not at hnamed
      obtain ⟨object, hstands, hobject⟩ := hserves lock hlock
      refine ⟨object, hsame.stands hstands fun assignment hmem hname ↦
        hnamed assignment hmem hname.symm, ?_⟩
      rwa [hnext lock.name hnamed]
  rw [transact]
  cases hproposed : eachFrom (proposed classes contents request.acFun) 0 request.assignments with
  | error exception =>
    obtain ⟨hanswer, hlast, hsame⟩ := perform_of_refused hplain' hidle hproposed
    exact ⟨hanswer, hextend hlast hsame fun _ _ ↦ rfl, hsame⟩
  | ok taken =>
    obtain ⟨hanswer, hlast, hsame⟩ := perform_of_accepted hplain' hidle hproposed
    exact ⟨hanswer, hextend hlast hsame fun _ ↦ assign_of_not_mem, hsame⟩

/-- Over a history of SETs the tree cannot be told from contents that every SET changes as a whole
or not at all, and instances that no SET names are as they were. -/
theorem respond_perform (hserves : Serves served classes state contents)
    (hplain : ∀ lock, served lock → (classes lock.name).kind ≠ .rowStatus)
    {requests : List (Request tree)}
    (hserved : ∀ request ∈ requests, ∀ assignment ∈ request.assignments, served assignment.lock) :
    (respond AtomicSet.perform state requests).1 =
        (respond (transact classes) contents requests).1 ∧
      Serves served classes (respond AtomicSet.perform state requests).2
        (respond (transact classes) contents requests).2 ∧
      SameApart (requests.flatMap Request.assignments) state
        (respond AtomicSet.perform state requests).2 := by
  refine respond_eq_of_related (fun after next ↦ Serves served classes after next ∧
    SameApart (requests.flatMap Request.assignments) state after) (· ∈ requests) ?_
    ⟨hserves, SameApart.refl _ _⟩ fun _ hmem ↦ hmem
  rintro after next request hmem ⟨hnext, hsame⟩
  obtain ⟨hanswer, hserves, hsameHere⟩ := hnext.perform hplain (hserved request hmem)
  exact ⟨hanswer, hserves, hsame.trans (hsameHere.mono fun assignment hassignment ↦
    List.mem_flatMap.mpr ⟨request, hmem, hassignment⟩)⟩

end Perform

/-! ### A commit that fails -/

section CommitFailure

variable {classes : Oid → SyntaxClass} {contents : Contents} {state : MibState}
  {request : Request tree}

/-- An instance of an application that raises in its commit, otherwise idle. -/
structure IsFailing (name : Oid) (syntaxClass : SyntaxClass) (present : Syntax)
    (failure : CommitFailure) (object : MibScalarInstance) : Prop where
  idle : Idle name syntaxClass present { object with commitFailure := none }
  commitFailure : object.commitFailure = some failure

/-- The kind of error a failing commit raises. -/
def failureKind : CommitFailure → SmiErrorKind
  | .before kind => kind
  | .after kind => kind

/-- What a failing commit leaves of the tested instance. -/
def afterFailure (object : MibScalarInstance) (next : Syntax) : CommitFailure → MibScalarInstance
  | .before _ => staged object next
  | .after _ => committed object next

/-- What an undo restores of the instance whose commit has failed. -/
def restored (present : Syntax) : CommitFailure → Option Syntax
  | .before _ => none
  | .after _ => some present

/-- An instance that will raise in its commit takes the value in the test all the same. -/
theorem writeTest_run_of_failing {name : Oid} {syntaxClass : SyntaxClass} {present next : Syntax}
    {failure : CommitFailure} {object : MibScalarInstance} {context : Context} {value : Value}
    (hkind : syntaxClass.kind ≠ .rowStatus)
    (hfailing : IsFailing name syntaxClass present failure object)
    (hnext : nextSyntax syntaxClass present value = some next) :
    (InstanceWrite.writeTest context name (some value)).run object =
      (.ok (), staged object next) := by
  have hset : InstanceWrite.setValue object (some value) context name = .ok next :=
    (setValue_eq hfailing.idle hkind).trans (by rw [hnext])
  rw [InstanceWrite.writeTest, bind_run_of_ok (get_run object),
    if_pos hfailing.idle.name_eq.symm, hset]
  rfl

/-- It raises then, before or after it has taken the value over. -/
theorem writeCommit_run_of_failing {name : Oid} {syntaxClass : SyntaxClass} {present next : Syntax}
    {failure : CommitFailure} {object : MibScalarInstance} {context : Context}
    (hfailing : IsFailing name syntaxClass present failure object) :
    (InstanceWrite.writeCommit context name).run (staged object next) =
      (.error (mibError (failureKind failure) context name), afterFailure object next failure) := by
  have hfailure : (staged object next).commitFailure = some failure := hfailing.commitFailure
  have hold : (staged object next).oldSyntax = none := hfailing.idle.oldSyntax
  rw [InstanceWrite.writeCommit, bind_run_of_ok (get_run _), hfailure]
  cases failure with
  | before kind => rfl
  | after kind =>
    have hcommit : InstanceWrite.commitSyntax.run (staged object next) =
        (.ok (), committed object next) := by
      rw [InstanceWrite.commitSyntax, bind_run_of_ok (get_run _), bind_run_of_ok (modify_run _ _),
        hold]
      rfl
    exact bind_run_of_ok hcommit

/-- The object with what was kept of it, or with nothing. -/
def undone (object : MibScalarInstance) : MibScalarInstance :=
  { object with syntaxObj := object.oldSyntax, newSyntax := some none, oldSyntax := none }

/-- Undoing a commit restores an idle instance. -/
theorem Idle.undone_committed {name : Oid} {syntaxClass : SyntaxClass} {present next : Syntax}
    {object : MibScalarInstance} (hidle : Idle name syntaxClass present object) :
    Idle name syntaxClass present (undone (committed object next)) :=
  ⟨hidle.name_eq, hidle.syntaxClass_eq, hidle.syntaxObj, rfl, hidle.commitFailure⟩

/-- The part of a binding in the undo. -/
theorem passes_undo {acFun : Option AccessFunction} {assignment : Assignment tree}
    {object : MibScalarInstance} (idx : ℕ) (hstands : Stands assignment.lock state object) :
    Passes assignment.lock (write tree ⟨idx, acFun, none⟩ assignment.lock.name
      (some assignment.value) .undo) state (.ok ()) (undone object) :=
  AdvisoryLock.write_run hstands nofun (modify_run _ object) (Or.inl rfl)

/-- After an undo the reads change nothing, and something is raised. -/
theorem exists_reads_run_of_undone (acFun : Option AccessFunction) (varBinds : List VarBind)
    (state : MibState) (turns : ℕ) (error : SmiError) :
    ∃ raised, (flipFlopLoop fsmWriteVar (writeHandlers acFun tree) varBinds (turns + 3)
        .writeUndo .ok (some error) []).run state = (.error raised, state) := by
  have hread {phase : FsmState} {step : ℕ → VarBind → Except MibException
        (Option (Oid × ReadValue))}
      (hhandler : ∀ idx varBind,
        (writeHandlers acFun tree phase idx varBind).run state = (step idx varBind, state)) :
      (∃ rvals exception, (runPhase (writeHandlers acFun tree phase) 0 varBinds).run state =
          (.ok (rvals, exception), state)) ∨
        ∃ raised, (runPhase (writeHandlers acFun tree phase) 0 varBinds).run state =
          (.error raised, state) := by
    have hphase := @runPhase_run_of_reads _ _ _ _ state step 0 varBinds hhandler
    rcases heach : eachFrom step 0 varBinds with (error | error) | rvals <;>
      rw [heach] at hphase
    · obtain ⟨rvals, hphase⟩ := hphase
      exact Or.inl ⟨rvals, _, hphase⟩
    · exact Or.inr ⟨_, hphase⟩
    · exact Or.inl ⟨_, _, hphase⟩
  rcases hread (@readTest_handler_run tree acFun state) with
    ⟨tests, testError, htest⟩ | ⟨raised, htest⟩
  · rw [flipFlopLoop_run_of_next rfl (by decide) htest]
    cases testError with
    | some testError => exact ⟨_, flipFlopLoop_run_of_stop rfl⟩
    | none =>
      rcases hread (@readGet_handler_run tree acFun state) with
        ⟨answers, getError, hget⟩ | ⟨raised, hget⟩
      · refine ⟨.smi error, (flipFlopLoop_run_of_next rfl (by decide) hget).trans ?_⟩
        cases getError <;> exact flipFlopLoop_run_of_stop rfl
      · exact ⟨raised, flipFlopLoop_run_of_raise rfl (by decide) hget⟩
  · exact ⟨raised, flipFlopLoop_run_of_raise rfl (by decide) htest⟩

variable {done rest : List (Assignment tree)} {failing : Assignment tree}
  {failure : CommitFailure}

/-- What stands under the binding before the SET. -/
def StandsIdleOrFailing (classes : Oid → SyntaxClass) (contents : Contents)
    (failing : Assignment tree) (failure : CommitFailure) (assignment : Assignment tree)
    (object : MibScalarInstance) : Prop :=
  if assignment.lock.name = failing.lock.name then
    IsFailing failing.lock.name (classes failing.lock.name) (contents failing.lock.name) failure
      object
  else
    IsIdle classes contents assignment object

/-- The names in front of a binding, its own and those behind it. -/
theorem names_apart
    (hdistinct : ((done ++ failing :: rest).map fun assignment ↦ assignment.lock.name).Nodup) :
    (∀ assignment ∈ done, assignment.lock.name ≠ failing.lock.name) ∧
      (∀ assignment ∈ rest, assignment.lock.name ≠ failing.lock.name) ∧
      ∀ assignment ∈ done, ∀ other ∈ rest, assignment.lock.name ≠ other.lock.name := by
  rw [List.map_append, List.map_cons, List.nodup_append, List.nodup_cons] at hdistinct
  obtain ⟨-, ⟨hfailing, -⟩, hapart⟩ := hdistinct
  refine ⟨fun assignment hmem ↦ ?_, fun assignment hmem hname ↦ ?_, fun assignment hmem other
    hother ↦ ?_⟩
  · exact hapart _ (List.mem_map_of_mem hmem) _ List.mem_cons_self
  · exact hfailing (hname ▸ List.mem_map_of_mem hmem)
  · exact hapart _ (List.mem_map_of_mem hmem) _
      (List.mem_cons_of_mem _ (List.mem_map_of_mem hother))

/-- What a failed commit leaves of a binding: committed, stopped in its commit, or tested. -/
def IsLeft (classes : Oid → SyntaxClass) (contents next : Contents)
    (done : List (Assignment tree)) (failing : Assignment tree) (failure : CommitFailure)
    (rest : List (Assignment tree)) (assignment : Assignment tree) (object : MibScalarInstance) :
    Prop :=
  (assignment ∈ done ∧ ∃ original, IsIdle classes contents assignment original ∧
    object = committed original (next assignment.lock.name)) ∨
  (assignment = failing ∧ ∃ original, IsFailing failing.lock.name (classes failing.lock.name)
    (contents failing.lock.name) failure original ∧
      object = afterFailure original (next failing.lock.name) failure) ∨
  (assignment ∈ rest ∧ ∃ original, IsIdle classes contents assignment original ∧
    object = staged original (next assignment.lock.name))

/-- The test of a SET whose commit fails. -/
theorem exists_test_of_failing {taken : List Syntax}
    (hfailing : failing ∈ request.assignments)
    (hplain : ∀ assignment ∈ request.assignments,
      (classes assignment.lock.name).kind ≠ .rowStatus)
    (hstanding : Holds (StandsIdleOrFailing classes contents failing failure) request.assignments
      state)
    (haccepted : eachFrom (proposed classes contents request.acFun) 0 request.assignments =
      .ok taken) :
    ∃ tested, (runPhase (writeHandlers request.acFun tree .writeTest) 0
        (request.assignments.map Assignment.varBind)).run state = (.ok ([], none), tested) ∧
      Holds (fun assignment object ↦ ∃ original,
        StandsIdleOrFailing classes contents failing failure assignment original ∧
          object = staged original
            (assign classes contents request.assignments assignment.lock.name))
        request.assignments tested ∧
      SameApart request.assignments state tested := by
  refine runPhase_write _ (isWritePhase_test request.acFun tree) 0 request.distinct
    (fun idx assignment hmem state object hstands hbefore ↦ ?_) hstanding
  obtain ⟨position, hproposed⟩ := exists_proposed_eq_ok haccepted hmem
  refine ⟨_, ?_, object, hbefore, rfl⟩
  by_cases hname : assignment.lock.name = failing.lock.name
  · obtain rfl : assignment = failing :=
      List.inj_on_of_nodup_map request.distinct hmem hfailing hname
    rw [StandsIdleOrFailing, if_pos rfl] at hbefore
    obtain ⟨hpermitted, htakes⟩ := proposed_eq_ok_iff.mp hproposed
    exact AdvisoryLock.write_run hstands (fun _ ↦ isWritable_of_permitted hpermitted idx)
      (writeTest_run_of_failing (hplain assignment hmem) hbefore htakes) (Or.inl rfl)
  · rw [StandsIdleOrFailing, if_neg hname] at hbefore
    exact passes_test (hplain assignment hmem) hproposed idx hstands hbefore

/-- The commit that fails, after the test. -/
theorem exists_commit_of_failing {acFun : Option AccessFunction} {next : Contents}
    {tested : MibState}
    (hdistinct : ((done ++ failing :: rest).map fun assignment ↦ assignment.lock.name).Nodup)
    (hmissing : failureKind failure ≠ .noSuchInstance)
    (hcreation : failureKind failure ≠ .rowCreationWanted)
    (hdestruction : failureKind failure ≠ .rowDestructionWanted)
    (htested : Holds (fun assignment object ↦ ∃ original,
        StandsIdleOrFailing classes contents failing failure assignment original ∧
          object = staged original (next assignment.lock.name))
      (done ++ failing :: rest) tested) :
    ∃ left error, (runPhase (writeHandlers acFun tree .writeCommit) 0
        ((done ++ failing :: rest).map Assignment.varBind)).run tested =
          (.ok ([], some error), left) ∧
      Holds (IsLeft classes contents next done failing failure rest) (done ++ failing :: rest)
        left ∧
      SameApart (done ++ failing :: rest) tested left := by
  obtain ⟨hdone, hrest, -⟩ := names_apart hdistinct
  obtain ⟨left, hcommit, hcommitted, ⟨stopped, hstopped, hstoppedAs⟩, hbehind, hsame⟩ :=
    runPhase_write_of_error (fun assignment object ↦ ∃ original,
        IsIdle classes contents assignment original ∧
          object = committed original (next assignment.lock.name))
      (isWritePhase_commit acFun tree) 0
      (fun object ↦ ∃ original, IsFailing failing.lock.name (classes failing.lock.name)
        (contents failing.lock.name) failure original ∧
          object = afterFailure original (next failing.lock.name) failure)
      hdistinct
      (fun idx assignment hmem state object hstands ⟨original, hstood, hobject⟩ ↦ by
        rw [StandsIdleOrFailing, if_neg (hdone assignment hmem)] at hstood
        exact ⟨_, passes_commit idx (hobject ▸ hstands) hstood, original, hstood, rfl⟩)
      (fun state object hstands ⟨original, hstood, hobject⟩ ↦ by
        rw [StandsIdleOrFailing, if_pos rfl] at hstood
        subst hobject
        exact ⟨_, AdvisoryLock.write_run hstands nofun (writeCommit_run_of_failing hstood)
          (Or.inr ⟨_, rfl, hmissing, hcreation, hdestruction⟩), original, hstood, rfl⟩)
      htested
  refine ⟨left, _, hcommit, fun assignment hmem ↦ ?_, hsame⟩
  rcases List.mem_append.mp hmem with hmem | hmem
  · obtain ⟨object, hstands, hobject⟩ := hcommitted assignment hmem
    exact ⟨object, hstands, Or.inl ⟨hmem, hobject⟩⟩
  · rcases List.mem_cons.mp hmem with rfl | hmem
    · exact ⟨stopped, hstopped, Or.inr (Or.inl ⟨rfl, hstoppedAs⟩)⟩
    · obtain ⟨object, hstands, original, hstood, hobject⟩ := hbehind assignment hmem
      rw [StandsIdleOrFailing, if_neg (hrest assignment hmem)] at hstood
      exact ⟨object, hstands, Or.inr (Or.inr ⟨hmem, original, hstood, hobject⟩)⟩

/-- What an undo makes of what a failed commit has left. -/
theorem undone_of_isLeft {next : Contents} {assignment : Assignment tree}
    {object : MibScalarInstance}
    (hdistinct : ((done ++ failing :: rest).map fun assignment ↦ assignment.lock.name).Nodup)
    (hleft : IsLeft classes contents next done failing failure rest assignment object) :
    (assignment ∈ done → IsIdle classes contents assignment (undone object)) ∧
      (assignment = failing →
        object.oldSyntax = restored (contents failing.lock.name) failure) ∧
      (assignment ∈ rest → object.oldSyntax = none) := by
  obtain ⟨hdone, hrest, hapart⟩ := names_apart hdistinct
  rcases hleft with ⟨hmem, original, hidle, rfl⟩ | ⟨rfl, original, hfailing, rfl⟩ |
    ⟨hmem, original, hidle, rfl⟩
  · refine ⟨fun _ ↦ hidle.undone_committed, fun hname ↦ ?_, fun hother ↦ ?_⟩
    · exact absurd (congrArg (fun assignment ↦ assignment.lock.name) hname) (hdone _ hmem)
    · exact absurd rfl (hapart _ hmem _ hother)
  · refine ⟨fun hmem ↦ absurd rfl (hdone _ hmem), fun _ ↦ ?_, fun hmem ↦ absurd rfl (hrest _ hmem)⟩
    cases failure with
    | before kind => exact hfailing.idle.oldSyntax
    | after kind => exact hfailing.idle.syntaxObj
  · refine ⟨fun hother ↦ absurd rfl (hapart _ hother _ hmem), fun hname ↦ ?_, fun _ ↦
      hidle.oldSyntax⟩
    exact absurd (congrArg (fun assignment ↦ assignment.lock.name) hname) (hrest _ hmem)

/-- A SET whose commit fails raises. What was committed before is put back, also the instance that
raised after its commit, and every instance that was not committed yet is left without an object. -/
theorem perform_of_commitFailure {taken : List Syntax}
    (hassignments : request.assignments = done ++ failing :: rest)
    (hplain : ∀ assignment ∈ request.assignments,
      (classes assignment.lock.name).kind ≠ .rowStatus)
    (hstanding : Holds (StandsIdleOrFailing classes contents failing failure) request.assignments
      state)
    (hmissing : failureKind failure ≠ .noSuchInstance)
    (hcreation : failureKind failure ≠ .rowCreationWanted)
    (hdestruction : failureKind failure ≠ .rowDestructionWanted)
    (haccepted : eachFrom (proposed classes contents request.acFun) 0 request.assignments =
      .ok taken) :
    (∃ raised, (perform state request).1 = .error raised) ∧
      Holds (IsIdle classes contents) done (perform state request).2 ∧
      AdvisoryLock.held (perform state request).2 failing.lock.id failing.lock.name =
        restored (contents failing.lock.name) failure ∧
      (∀ assignment ∈ rest,
        AdvisoryLock.held (perform state request).2 assignment.lock.id assignment.lock.name =
          none) ∧
      SameApart request.assignments state (perform state request).2 := by
  have hdistinct := request.distinct
  obtain ⟨tested, htest, htested, hsameTest⟩ :=
    exists_test_of_failing (by simp [hassignments]) hplain hstanding haccepted
  generalize assign classes contents request.assignments = next at htested
  rw [hassignments] at htest htested hsameTest hdistinct
  obtain ⟨left, error, hcommit, hleft, hsameCommit⟩ :=
    exists_commit_of_failing hdistinct hmissing hcreation hdestruction htested
  obtain ⟨last, hundo, hundone, hsameUndo⟩ :=
    runPhase_write (fun assignment object ↦ ∃ previous,
        IsLeft classes contents next done failing failure rest assignment previous ∧
          object = undone previous) (isWritePhase_undo request.acFun tree) 0 hdistinct
      (fun idx assignment _ state object hstands hbefore ↦
        ⟨_, passes_undo idx hstands, object, hbefore, rfl⟩) hleft
  obtain ⟨raised, hreads⟩ := exists_reads_run_of_undone request.acFun
    ((done ++ failing :: rest).map Assignment.varBind) last 7 error
  have hrun : perform state request = (.error raised, last) := by
    rw [perform, writeVars, flipFlopFsm, hassignments]
    refine (flipFlopLoop_run_of_next rfl (by decide) htest).trans ?_
    refine (flipFlopLoop_run_of_next rfl (by decide) hcommit).trans ?_
    refine (flipFlopLoop_run_of_next rfl (by decide) hundo).trans ?_
    exact hreads
  rw [hrun, hassignments]
  refine ⟨⟨raised, rfl⟩, fun assignment hmem ↦ ?_, ?_, fun assignment hmem ↦ ?_,
    (hsameTest.trans hsameCommit).trans hsameUndo⟩
  · obtain ⟨object, hstands, previous, hprevious, rfl⟩ :=
      hundone assignment (List.mem_append_left _ hmem)
    exact ⟨_, hstands, (undone_of_isLeft hdistinct hprevious).1 hmem⟩
  · obtain ⟨object, hstands, previous, hprevious, rfl⟩ := hundone failing (by simp)
    rw [AdvisoryLock.held, hstands.found]
    exact (undone_of_isLeft hdistinct hprevious).2.1 rfl
  · obtain ⟨object, hstands, previous, hprevious, rfl⟩ :=
      hundone assignment (List.mem_append_right _ (List.mem_cons_of_mem _ hmem))
    rw [AdvisoryLock.held, hstands.found]
    exact (undone_of_isLeft hdistinct hprevious).2.2 hmem

end CommitFailure

/-! ### `snmpSetSerialNo` and `sysContact` -/

/-- `DisplayString` of at most 255 octets. -/
def displayStringClass : SyntaxClass where
  kind := .plain
  clone := fun value ↦
    match value with
    | .octetString octets => if octets.length ≤ 255 then some (.octetString octets) else none
    | _ => none
  default := ⟨none⟩

def sysContact : ManagedObject where
  name := [1, 3, 6, 1, 2, 1, 1, 4]
  maxAccess := .readWrite
  syntaxClass := displayStringClass

def sampleTree : MibTree :=
  AdvisoryLock.sampleTree.insert sysContact.name (.scalar sysContact)

def serialNoLock : Lock sampleTree where
  name := [1, 3, 6, 1, 6, 3, 1, 1, 6, 1, 0]
  id := .scalar AdvisoryLock.snmpSetSerialNo.name
  object := AdvisoryLock.snmpSetSerialNo
  tested := rfl
  covering := rfl
  name_ne := AdvisoryLock.sampleLock.name_ne
  writable := AdvisoryLock.sampleLock.writable

def contactLock : Lock sampleTree where
  name := [1, 3, 6, 1, 2, 1, 1, 4, 0]
  id := .scalar sysContact.name
  object := sysContact
  tested := rfl
  covering := rfl
  name_ne := by decide
  writable := rfl

/-- The serial number 5 and no contact. -/
def sampleContents : Contents := fun name ↦
  if name = contactLock.name then ⟨some (.octetString [])⟩ else ⟨some (.integer 5)⟩

def sampleClasses (name : Oid) : SyntaxClass :=
  if name = contactLock.name then displayStringClass else AdvisoryLock.testAndIncrClass

/-- Both instances stand in their scalars. -/
def sampleState : MibState :=
  Function.update (AdvisoryLock.sampleState 5) contactLock.id
    { ObjectState.initial with
      vars := (∅ : OidOrderedDict MibScalarInstance).insert contactLock.name
        { name := contactLock.name
          syntaxClass := displayStringClass
          syntaxObj := some ⟨some (.octetString [])⟩ } }

/-- A manager that has read the serial number 5 sets the contact. -/
def sampleRequest (contact : Octets) : Request sampleTree where
  acFun := none
  assignments := [⟨contactLock, .octetString contact⟩, ⟨serialNoLock, .integer 5⟩]
  distinct := show [contactLock.name, serialNoLock.name].Nodup by decide

/-- Of two managers that have read 5 the second is refused, and its contact is not set. -/
theorem respond_perform_sample :
    (respond perform sampleState [sampleRequest [97], sampleRequest [98]]).1 =
        [.ok [(contactLock.name, .value (some ⟨some (.octetString [97])⟩)),
            (serialNoLock.name, .value (some ⟨some (.integer 6)⟩))],
          .error (mibError .wrongValue ⟨1, none, none⟩ serialNoLock.name)] ∧
      Serves (fun lock ↦ lock = contactLock ∨ lock = serialNoLock) sampleClasses
        (respond perform sampleState [sampleRequest [97], sampleRequest [98]]).2
        (respond (transact sampleClasses) sampleContents
          [sampleRequest [97], sampleRequest [98]]).2 := by
  have hserves : Serves (fun lock ↦ lock = contactLock ∨ lock = serialNoLock) sampleClasses
      sampleState sampleContents := by
    rintro lock (rfl | rfl)
    · exact ⟨_, ⟨SortedMap.get?_insert_self _ _ _, rfl⟩, ⟨rfl, rfl, rfl, rfl, rfl⟩⟩
    · exact ⟨_, ⟨rfl, rfl⟩, ⟨rfl, rfl, rfl, rfl, rfl⟩⟩
  have hplain : ∀ lock, lock = contactLock ∨ lock = serialNoLock →
      (sampleClasses lock.name).kind ≠ .rowStatus := by
    rintro lock (rfl | rfl) <;> decide
  have hserved : ∀ request ∈ [sampleRequest [97], sampleRequest [98]],
      ∀ assignment ∈ request.assignments,
        assignment.lock = contactLock ∨ assignment.lock = serialNoLock := by
    intro request hrequest assignment hassignment
    have hcontacts : ∃ contact, request = sampleRequest contact := by
      rcases List.mem_pair.mp hrequest with rfl | rfl <;> exact ⟨_, rfl⟩
    obtain ⟨contact, rfl⟩ := hcontacts
    rcases List.mem_pair.mp hassignment with rfl | rfl
    · exact Or.inl rfl
    · exact Or.inr rfl
  obtain ⟨hanswers, hlast, -⟩ := respond_perform hserves hplain hserved
  exact ⟨hanswers.trans (by decide), hlast⟩

/-- The contact belongs to an application that raises after it has committed. -/
def failingState : MibState :=
  Function.update (AdvisoryLock.sampleState 5) contactLock.id
    { ObjectState.initial with
      vars := (∅ : OidOrderedDict MibScalarInstance).insert contactLock.name
        { name := contactLock.name
          syntaxClass := displayStringClass
          syntaxObj := some ⟨some (.octetString [])⟩
          commitFailure := some (.after .genError) } }

/-- The contact is put back, and the serial number behind it is lost. -/
theorem perform_of_commitFailure_sample :
    (∃ raised, (perform failingState (sampleRequest [97])).1 = .error raised) ∧
      AdvisoryLock.held (perform failingState (sampleRequest [97])).2 contactLock.id
        contactLock.name = some ⟨some (.octetString [])⟩ ∧
      AdvisoryLock.held (perform failingState (sampleRequest [97])).2 serialNoLock.id
        serialNoLock.name = none := by
  let contact : Assignment sampleTree := ⟨contactLock, .octetString [97]⟩
  let serialNo : Assignment sampleTree := ⟨serialNoLock, .integer 5⟩
  have hstanding : Holds (StandsIdleOrFailing sampleClasses sampleContents contact
      (.after .genError)) (sampleRequest [97]).assignments failingState := by
    intro assignment hmem
    rcases List.mem_pair.mp hmem with rfl | rfl
    · exact ⟨_, ⟨SortedMap.get?_insert_self _ _ _, rfl⟩, ⟨⟨rfl, rfl, rfl, rfl, rfl⟩, rfl⟩⟩
    · exact ⟨_, ⟨rfl, rfl⟩, ⟨rfl, rfl, rfl, rfl, rfl⟩⟩
  have hplain : ∀ assignment ∈ (sampleRequest [97]).assignments,
      (sampleClasses assignment.lock.name).kind ≠ .rowStatus := by
    intro assignment hmem
    rcases List.mem_pair.mp hmem with rfl | rfl <;> decide
  obtain ⟨hraised, -, hcontact, hserialNo, -⟩ :=
    @perform_of_commitFailure _ _ _ _ (sampleRequest [97]) [] [serialNo] contact (.after .genError)
      [⟨some (.octetString [97])⟩, ⟨some (.integer 6)⟩] rfl hplain hstanding nofun nofun nofun rfl
  exact ⟨hraised, hcontact, hserialNo serialNo (List.mem_singleton_self _)⟩

end Pysnmp.Smi.AtomicSet
