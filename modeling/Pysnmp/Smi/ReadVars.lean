import Mathlib.Data.List.TakeWhile
import Pysnmp.Smi.Successor
import Pysnmp.Smi.WriteVars

/-!
# GET

`MibInstrumController.readVars` runs `readTest` over all the names and then `readGet`. Both descend
the tree on their own: a missing branch is no error to either, but an instance that is found on the
way refuses in both of them a name that is not its own, and any name while it has no value
(`instanceRead`), and a scalar or column refuses its own name whoever asks.

`getAnswer` is what a GET is for: the value of the populated instance of the name, `noSuchInstance`
where an object covers the name without one, and `noSuchObject` elsewhere. `answersGet_iff` says for
which names `readVars` answers so.
-/

set_option autoImplicit false
set_option relaxedAutoImplicit false

namespace Pysnmp.Smi.ReadVars

open Foundation Foundation.Effect Proto FlipFlopFsm IndexMib Successor WriteVars
open InstanceWrite (mibError)

/-- The handlers of the phases of GET; they change nothing. -/
def readHandlers (acFun : Option AccessFunction) (tree : MibTree) (phase : FsmState) (idx : ℕ)
    (name : Oid) : Effect MibState MibException (Option (Oid × ReadValue)) := do
  let state ← get
  match phase with
  | .readTest => do
    liftExcept (readTest tree ⟨idx, acFun, none⟩ state name)
    pure none
  | .readGet => do
    let rval ← liftExcept (readGet tree ⟨idx, acFun, none⟩ state name)
    pure (some rval)
  | _ => pure none

/-- `MibInstrumController.readVars`, for the names of the bindings. -/
def readVars (acFun : Option AccessFunction) (tree : MibTree) (names : List Oid) :
    Effect MibState MibException (List (Oid × ReadValue)) :=
  flipFlopFsm fsmReadVar (readHandlers acFun tree) names

/-! ### What a GET is for -/

/-- The instance has a value. -/
def isPopulated (object : MibScalarInstance) : Bool := object.syntaxObj.any Syntax.isValue

/-- The scalar or column that covers a name. -/
def covering (tree : MibTree) (name : Oid) : Option ObjectId :=
  match tree.getBranch name with
  | some (_, .scalar scalar) => some (.scalar scalar.name)
  | some (_, .row row) => (row.columns.getBranch name).map fun entry ↦ .column entry.2.name
  | _ => none

/-- What a GET answers for a name. -/
def getAnswer (tree : MibTree) (state : MibState) (name : Oid) : Oid × ReadValue :=
  match covering tree name with
  | none => (name, .noSuchObject)
  | some id =>
    match ((state id).vars.get? name).filter isPopulated with
    | none => (name, .noSuchInstance)
    | some object => (name, .value object.syntaxObj)

/-- What the access of a name is asked of: nothing, a node of the tree that has no access at all, or
the scalar or column that covers the name. -/
inductive Tested
  | nothing
  | node
  | object (object : ManagedObject)

/-- What a test of the name comes to. -/
def tested (tree : MibTree) (name : Oid) : Tested :=
  if name = rootName then
    .node
  else
    match tree.getBranch name with
    | none => .nothing
    | some (_, .table tableName) => if name = tableName then .node else .nothing
    | some (_, .scalar scalar) => .object scalar
    | some (_, .row row) =>
      if name = row.name then
        .node
      else
        match row.columns.getBranch name with
        | none => .nothing
        | some (_, column) => .object column

/-- There is an access function, and what is asked is not readable. -/
def isDenied (acFun : Option AccessFunction) (tree : MibTree) (name : Oid) : Bool :=
  acFun.isSome &&
    match tested tree name with
    | .nothing => false
    | .node => true
    | .object object => !object.maxAccess.isReadable

/-- The access function permits the reading of all the names. -/
def Permits (acFun : Option AccessFunction) (names : List Oid) : Prop :=
  ∀ ask ∈ acFun, ∀ name ∈ names, ask name .read = .permitted

/-- A GET of the names gives one answer for each in their order, or is refused for a name whose
access is denied; it changes nothing. -/
def AnswersGet (acFun : Option AccessFunction) (tree : MibTree) (state : MibState)
    (names : List Oid) : Prop :=
  (readVars acFun tree names).run state = (.ok (names.map (getAnswer tree state)), state) ∨
    ∃ idx name, names[idx]? = some name ∧ isDenied acFun tree name ∧
      (readVars acFun tree names).run state =
        (.error (.smi ⟨.noAccess, some idx, some name, none⟩), state)

/-! ### What the code does with a name -/

/-- The instance a read of the name comes to: in a scalar the one whose name begins it, in a column
the one with this name. -/
def reached (state : MibState) (name : Oid) : ObjectId → Option MibScalarInstance
  | .scalar scalarName => ((state (.scalar scalarName)).vars.getBranch name).map Prod.snd
  | .column columnName => (state (.column columnName)).vars.get? name

/-- The instance a read comes to, if any, is the one with this name and has a value. -/
def Clear (found : Option MibScalarInstance) (name : Oid) : Prop :=
  ∀ object ∈ found, object.name = name ∧ isPopulated object

/-- The name is not that of a scalar or column itself, and what a read of it comes to does not stand
in its way. -/
structure IsServed (tree : MibTree) (state : MibState) (name : Oid) : Prop where
  ne_name : ∀ object, tested tree name = .object object → name ≠ object.name
  clear : Clear ((covering tree name).bind (reached state name)) name

theorem readTest_eq (tree : MibTree) (context : Context) (state : MibState) (name : Oid) :
    readTest tree context state name =
      match tested tree name with
      | .nothing => .ok ()
      | .node => nodeAccess .noAccess .read context name
      | .object object =>
        objectReadTest object ((covering tree name).bind (reached state name)) context name := by
  rw [readTest, tested, covering]
  split_ifs with hroot
  · rfl
  · cases tree.getBranch name with
    | none => rfl
    | some entry =>
      obtain ⟨_, node⟩ := entry
      cases node with
      | table tableName =>
        simp only
        split_ifs <;> rfl
      | scalar scalar => rfl
      | row row =>
        simp only
        split_ifs
        · rfl
        · cases row.columns.getBranch name <;> rfl

theorem readGet_eq (tree : MibTree) (context : Context) (state : MibState) (name : Oid) :
    readGet tree context state name =
      match covering tree name with
      | none => .ok (name, .noSuchObject)
      | some id => objectReadGet (reached state name id) context name := by
  rw [readGet, covering]
  cases tree.getBranch name with
  | none => rfl
  | some entry =>
    obtain ⟨_, node⟩ := entry
    cases node with
    | table tableName => rfl
    | scalar scalar => rfl
    | row row =>
      simp only
      cases row.columns.getBranch name <;> rfl

/-- GET is the tests in order and then the answers in order. -/
theorem readVars_run (acFun : Option AccessFunction) (tree : MibTree) (state : MibState)
    (names : List Oid) :
    (readVars acFun tree names).run state =
      ((do
        let _ ← eachFrom (fun idx name ↦ readTest tree ⟨idx, acFun, none⟩ state name) 0 names
        eachFrom (fun idx name ↦ readGet tree ⟨idx, acFun, none⟩ state name) 0 names), state) := by
  have htest : ∀ idx name, (readHandlers acFun tree .readTest idx name).run state =
      ((readTest tree ⟨idx, acFun, none⟩ state name).map fun _ ↦ none, state) := by
    intro idx name
    rw [readHandlers, bind_run_of_ok (get_run state)]
    cases readTest tree ⟨idx, acFun, none⟩ state name <;> rfl
  have hget : ∀ idx name, (readHandlers acFun tree .readGet idx name).run state =
      ((readGet tree ⟨idx, acFun, none⟩ state name).map some, state) := by
    intro idx name
    rw [readHandlers, bind_run_of_ok (get_run state)]
    cases readGet tree ⟨idx, acFun, none⟩ state name <;> rfl
  rw [readVars, flipFlopFsm_fsmReadVar]
  refine (runPhase_orStop_run htest 0 names fun tests ↦ do
    let (answers, error) ← runPhase (readHandlers acFun tree .readGet) 0 names
    orStop error (pure (tests ++ answers))).trans ?_
  rw [eachFrom_map]
  cases eachFrom (fun idx name ↦ readTest tree ⟨idx, acFun, none⟩ state name) 0 names with
  | error exception => rfl
  | ok tests =>
    refine (runPhase_orStop_run hget 0 names fun answers ↦
      pure ((tests.map fun _ ↦ none).flatMap Option.toList ++ answers)).trans ?_
    rw [eachFrom_map]
    cases eachFrom (fun idx name ↦ readGet tree ⟨idx, acFun, none⟩ state name) 0 names with
    | error exception => rfl
    | ok answers =>
      have htests : (tests.map fun _ ↦ (none : Option (Oid × ReadValue))).flatMap Option.toList =
          [] := by
        simp [List.flatMap_eq_nil_iff]
      have hanswers : (answers.map some).flatMap Option.toList = answers := by
        rw [List.flatMap_map]
        exact List.flatMap_singleton' answers
      simp only [Except.map, pure_run, htests, hanswers, List.nil_append]
      rfl

/-! ### One name -/

section OneName

variable {acFun : Option AccessFunction} {tree : MibTree} {state : MibState} {name : Oid} {idx : ℕ}

theorem isPopulated_iff {object : MibScalarInstance} :
    isPopulated object = true ↔ object.isValue = .ok true := by
  rw [isPopulated, MibScalarInstance.isValue]
  cases object.syntaxObj <;> simp

/-- An instance answers for its own name while it has a value, and for nothing else. -/
theorem instanceRead_eq_ok_iff {α : Type} {answer : MibScalarInstance → α} {context : Context}
    {object : MibScalarInstance} {value : α} :
    instanceRead answer context name object = .ok value ↔
      (object.name = name ∧ isPopulated object) ∧ answer object = value := by
  rw [instanceRead, isPopulated_iff]
  simp only [bind, Except.bind]
  split_ifs with hname
  · cases object.isValue with
    | error exception => simp
    | ok hasValue => cases hasValue <;> simp [hname.symm]
  · simp [Ne.symm hname]

theorem name_of_instanceRead_eq_error {α : Type} {answer : MibScalarInstance → α}
    {context : Context} {object : MibScalarInstance} {error : SmiError}
    (herror : instanceRead answer context name object = .error (.smi error)) :
    error.name = some name := by
  rw [instanceRead] at herror
  simp only [bind, Except.bind] at herror
  split_ifs at herror
  · rw [MibScalarInstance.isValue] at herror
    cases hfound : object.syntaxObj with
    | none => simp [hfound] at herror
    | some syntaxObj =>
      rw [hfound] at herror
      simp only [mibError] at herror
      split_ifs at herror
      cases herror
      rfl
  · cases herror
    rfl

/-- Where the access function permits the name, the object's own access decides. -/
theorem checkAccess_of_permits {allowed : Bool}
    (hpermits : ∀ ask ∈ acFun, ask name .read = .permitted) :
    checkAccess allowed .noAccess .read ⟨idx, acFun, none⟩ name =
      if acFun.isSome && !allowed then .error (.smi ⟨.noAccess, some idx, some name, none⟩)
      else .ok () := by
  cases acFun with
  | none => rfl
  | some ask => cases allowed <;> simp [checkAccess, hpermits ask rfl]

theorem covering_of_tested_nothing (hnothing : tested tree name = .nothing) :
    covering tree name = none := by
  rw [tested] at hnothing
  rw [covering]
  split_ifs at hnothing
  cases hbranch : tree.getBranch name with
  | none => rfl
  | some entry =>
    obtain ⟨_, node⟩ := entry
    cases node with
    | table tableName => rfl
    | scalar scalar => simp [hbranch] at hnothing
    | row row =>
      simp only [hbranch] at hnothing
      split_ifs at hnothing
      cases hcolumn : row.columns.getBranch name with
      | none => simp [hcolumn]
      | some column => simp [hcolumn] at hnothing

theorem objectReadTest_eq_ok_iff {object : ManagedObject} {branch : Option MibScalarInstance}
    {context : Context} :
    objectReadTest object branch context name = .ok () ↔
      name ≠ object.name ∧
        checkAccess object.maxAccess.isReadable .noAccess .read context name = .ok () ∧
        Clear branch name := by
  rw [objectReadTest.eq_def, Clear]
  split_ifs with hname
  · simp [hname]
  · simp only [bind, Except.bind]
    cases checkAccess object.maxAccess.isReadable .noAccess .read context name with
    | error exception => simp
    | ok allowed => cases branch <;> simp [hname, instanceRead_eq_ok_iff]

theorem exists_objectReadGet_eq_ok_iff {branch : Option MibScalarInstance} {context : Context} :
    (∃ answer, objectReadGet branch context name = .ok answer) ↔ Clear branch name := by
  rw [Clear]
  cases branch <;> simp [objectReadGet, instanceRead_eq_ok_iff]

theorem readTest_eq_ok_iff (hpermits : ∀ ask ∈ acFun, ask name .read = .permitted) :
    readTest tree ⟨idx, acFun, none⟩ state name = .ok () ↔
      isDenied acFun tree name = false ∧
        ∀ object, tested tree name = .object object →
          name ≠ object.name ∧ Clear ((covering tree name).bind (reached state name)) name := by
  rw [readTest_eq, isDenied]
  cases tested tree name with
  | nothing => simp
  | node =>
    simp only [nodeAccess, checkAccess_of_permits hpermits]
    cases acFun <;> simp
  | object object =>
    simp only [objectReadTest_eq_ok_iff, checkAccess_of_permits hpermits]
    cases acFun <;> cases object.maxAccess.isReadable <;> simp

theorem exists_readGet_eq_ok_iff {context : Context} :
    (∃ answer, readGet tree context state name = .ok answer) ↔
      Clear ((covering tree name).bind (reached state name)) name := by
  rw [readGet_eq]
  cases covering tree name with
  | none => simp [Clear]
  | some id => exact exists_objectReadGet_eq_ok_iff

theorem readTest_of_isServed (hpermits : ∀ ask ∈ acFun, ask name .read = .permitted)
    (hdenied : isDenied acFun tree name = false) (hserved : IsServed tree state name) :
    readTest tree ⟨idx, acFun, none⟩ state name = .ok () :=
  (readTest_eq_ok_iff hpermits).mpr
    ⟨hdenied, fun object hobject ↦ ⟨hserved.ne_name object hobject, hserved.clear⟩⟩

/-- A name both phases pass over without an exception is served. -/
theorem isServed_of_reads {context : Context} {answer : Oid × ReadValue}
    (hpermits : ∀ ask ∈ acFun, ask name .read = .permitted)
    (htest : readTest tree ⟨idx, acFun, none⟩ state name = .ok ())
    (hget : readGet tree context state name = .ok answer) : IsServed tree state name :=
  ⟨fun object hobject ↦ (((readTest_eq_ok_iff hpermits).mp htest).2 object hobject).1,
    exists_readGet_eq_ok_iff.mp ⟨answer, hget⟩⟩

/-- Where an access function is asked, the test alone decides. -/
theorem isServed_of_readTest (hpermits : ∀ ask ∈ acFun, ask name .read = .permitted)
    (hasked : acFun.isSome) (htest : readTest tree ⟨idx, acFun, none⟩ state name = .ok ()) :
    IsServed tree state name := by
  obtain ⟨hdenied, htested⟩ := (readTest_eq_ok_iff hpermits).mp htest
  refine ⟨fun object hobject ↦ (htested object hobject).1, ?_⟩
  cases hcase : tested tree name with
  | nothing => simp [covering_of_tested_nothing hcase, Clear]
  | node => simp [isDenied, hcase, hasked] at hdenied
  | object object => exact (htested object hcase).2

theorem readTest_of_isDenied (hpermits : ∀ ask ∈ acFun, ask name .read = .permitted)
    (hdenied : isDenied acFun tree name = true) :
    readTest tree ⟨idx, acFun, none⟩ state name =
      .error (.smi ⟨.noAccess, some idx, some name, none⟩) := by
  rw [isDenied, Bool.and_eq_true] at hdenied
  rw [readTest_eq]
  cases htested : tested tree name with
  | nothing => simp [htested] at hdenied
  | node => simp [nodeAccess, checkAccess_of_permits hpermits, hdenied.1]
  | object object =>
    simp only [htested, Bool.not_eq_true'] at hdenied
    simp only [objectReadTest.eq_def, checkAccess_of_permits hpermits, hdenied, Bool.not_false,
      Bool.and_self, if_true]
    split_ifs <;> rfl

theorem name_of_readTest_eq_error (hpermits : ∀ ask ∈ acFun, ask name .read = .permitted)
    {error : SmiError}
    (herror : readTest tree ⟨idx, acFun, none⟩ state name = .error (.smi error)) :
    error.name = some name := by
  rw [readTest_eq] at herror
  cases htested : tested tree name with
  | nothing => simp [htested] at herror
  | node =>
    simp only [htested, nodeAccess, checkAccess_of_permits hpermits] at herror
    split_ifs at herror
    cases herror
    rfl
  | object object =>
    simp only [htested, objectReadTest.eq_def, checkAccess_of_permits hpermits] at herror
    split_ifs at herror
    · cases herror
      rfl
    · cases herror
      rfl
    · cases hfound : (covering tree name).bind (reached state name) with
      | none => simp [hfound, bind, Except.bind] at herror
      | some found =>
        simp only [hfound, bind, Except.bind] at herror
        exact name_of_instanceRead_eq_error herror

/-- Where the way is clear, a read comes to the instance with the name, if there is one. -/
theorem reached_of_clear {id : ObjectId}
    (hnamed : ∀ id, ∀ entry ∈ (state id).vars.entries, entry.2.name = entry.1)
    (hclear : Clear (reached state name id) name) :
    reached state name id = (state id).vars.get? name := by
  cases id with
  | column columnName => rfl
  | scalar scalarName =>
    rw [reached] at hclear ⊢
    cases hbranch : (state (.scalar scalarName)).vars.getBranch name with
    | none =>
      refine (SortedMap.get?_eq_none_iff.mpr fun object hmem ↦ ?_).symm
      exact OidOrderedDict.getBranch_eq_none_iff.mp hbranch _ hmem List.prefix_rfl
    | some entry =>
      have hmem := (OidOrderedDict.getBranch_eq_some_iff.mp hbranch).1
      have hname : entry.1 = name := by
        rw [← hnamed _ entry hmem]
        exact (hclear entry.2 (by simp [hbranch])).1
      exact (SortedMap.get?_eq_some_iff.mpr (hname ▸ hmem)).symm

/-- A name that is served gets its answer. -/
theorem readGet_of_isServed {context : Context}
    (hnamed : ∀ id, ∀ entry ∈ (state id).vars.entries, entry.2.name = entry.1)
    (hserved : IsServed tree state name) :
    readGet tree context state name = .ok (getAnswer tree state name) := by
  obtain ⟨-, hclear⟩ := hserved
  rw [readGet_eq, getAnswer]
  cases hcovering : covering tree name with
  | none => rfl
  | some id =>
    rw [hcovering, Option.bind_some] at hclear
    simp only
    rw [← reached_of_clear hnamed hclear]
    cases hreached : reached state name id with
    | none => rfl
    | some object =>
      obtain ⟨hname, hpopulated⟩ := hclear object hreached
      simp only [objectReadGet, Option.filter_some, hpopulated, if_true]
      rw [instanceRead_eq_ok_iff.mpr ⟨⟨hname, hpopulated⟩, rfl⟩, hname]

end OneName

/-! ### All the names -/

section AllNames

variable {acFun : Option AccessFunction} {tree : MibTree} {state : MibState} {names : List Oid}

/-- The names a GET comes to before one whose access is denied. -/
def beforeDenied (acFun : Option AccessFunction) (tree : MibTree) (names : List Oid) : List Oid :=
  names.takeWhile fun name ↦ !isDenied acFun tree name

/-- A GET of names that are all served, up to one that is denied. -/
theorem answersGet_of_isServed
    (hnamed : ∀ id, ∀ entry ∈ (state id).vars.entries, entry.2.name = entry.1)
    (hpermits : Permits acFun names)
    (hserved : ∀ name ∈ beforeDenied acFun tree names, IsServed tree state name) :
    AnswersGet acFun tree state names := by
  have hask : ∀ name ∈ names, ∀ ask ∈ acFun, ask name .read = .permitted :=
    fun name hname ask hask ↦ hpermits ask hask name hname
  have hsplit : beforeDenied acFun tree names ++
      names.dropWhile (fun name ↦ !isDenied acFun tree name) = names :=
    List.takeWhile_append_dropWhile
  have hreads : ∀ idx, ∀ name ∈ beforeDenied acFun tree names,
      readTest tree ⟨idx, acFun, none⟩ state name = .ok () := by
    intro idx name hname
    have hmem : name ∈ names := List.takeWhile_subset _ hname
    have hdenied : isDenied acFun tree name = false := by
      simpa using List.mem_takeWhile_imp hname
    exact readTest_of_isServed (hask name hmem) hdenied (hserved name hname)
  cases hrest : names.dropWhile fun name ↦ !isDenied acFun tree name with
  | nil =>
    rw [hrest, List.append_nil] at hsplit
    rw [hsplit] at hserved hreads
    have hgets : ∀ idx, ∀ name ∈ names,
        readGet tree ⟨idx, acFun, none⟩ state name = .ok (getAnswer tree state name) :=
      fun idx name hname ↦ readGet_of_isServed hnamed (hserved name hname)
    left
    rw [readVars_run, eachFrom_of_ok 0 hreads, eachFrom_of_ok 0 hgets]
    rfl
  | cons denied after =>
    right
    have hdenied : isDenied acFun tree denied = true := by
      have hhead := List.head_dropWhile_not (fun name ↦ !isDenied acFun tree name)
        (by rw [hrest]; exact List.cons_ne_nil denied after)
      simpa [hrest] using hhead
    rw [hrest] at hsplit
    have hmem : denied ∈ names := hsplit ▸ List.mem_append_right _ List.mem_cons_self
    refine ⟨(beforeDenied acFun tree names).length, denied, ?_, hdenied, ?_⟩
    · have hget : (beforeDenied acFun tree names ++ denied :: after)[
          (beforeDenied acFun tree names).length]? = some denied := by simp
      rwa [hsplit] at hget
    · have htests : eachFrom (fun idx name ↦ readTest tree ⟨idx, acFun, none⟩ state name) 0
          (beforeDenied acFun tree names ++ denied :: after) = _ :=
        eachFrom_of_error 0 hreads (readTest_of_isDenied (hask denied hmem) hdenied)
      rw [hsplit, Nat.zero_add] at htests
      rw [readVars_run, htests]
      rfl

/-- A GET that is answered, or refused for a name whose access is denied, comes to names that are
served before that one only. -/
theorem isServed_of_answersGet (hpermits : Permits acFun names)
    (hanswers : AnswersGet acFun tree state names) :
    ∀ name ∈ beforeDenied acFun tree names, IsServed tree state name := by
  have hask : ∀ name ∈ names, ∀ ask ∈ acFun, ask name .read = .permitted :=
    fun name hname ask hask ↦ hpermits ask hask name hname
  intro name hname
  have hmem : name ∈ names := List.takeWhile_subset _ hname
  rcases hanswers with hok | ⟨idx, denied, hdeniedAt, hdenied, herror⟩
  · rw [readVars_run] at hok
    have hruns := (Prod.mk.inj hok).1
    cases htests : eachFrom (fun idx name ↦ readTest tree ⟨idx, acFun, none⟩ state name) 0
      names with
    | error exception =>
      rw [htests] at hruns
      cases hruns
    | ok tests =>
      rw [htests] at hruns
      obtain ⟨_, rval, htest⟩ := exists_of_eachFrom_eq_ok htests hmem
      obtain ⟨_, answer, hget⟩ := exists_of_eachFrom_eq_ok hruns hmem
      exact isServed_of_reads (hask name hmem) htest hget
  · have hasked : acFun.isSome = true := (Bool.and_eq_true_iff.mp hdenied).1
    rw [readVars_run] at herror
    have hruns := (Prod.mk.inj herror).1
    cases htests : eachFrom (fun idx name ↦ readTest tree ⟨idx, acFun, none⟩ state name) 0
      names with
    | ok tests =>
      have hdeniedMem : denied ∈ names := List.mem_of_getElem? hdeniedAt
      obtain ⟨_, rval, htest⟩ := exists_of_eachFrom_eq_ok htests hdeniedMem
      rw [readTest_of_isDenied (hask denied hdeniedMem) hdenied] at htest
      cases htest
    | error exception =>
      rw [htests] at hruns
      obtain rfl := Except.error.inj hruns
      obtain ⟨before, first, after, hsplit, hbefore, hfirst⟩ := exists_of_eachFrom_eq_error htests
      have hfirstMem : first ∈ names := hsplit ▸ List.mem_append_right _ List.mem_cons_self
      obtain rfl : denied = first :=
        Option.some.inj (name_of_readTest_eq_error (hask first hfirstMem) hfirst)
      have hearlier : name ∈ before := by
        rw [beforeDenied, hsplit, List.takeWhile_append] at hname
        split_ifs at hname
        · simpa [hdenied] using hname
        · exact List.takeWhile_subset _ hname
      obtain ⟨_, rval, htest⟩ := hbefore name hearlier
      exact isServed_of_readTest (hask name hmem) hasked htest

end AllNames

/-- A GET whose access function permits the names answers each of them, unless it is refused for one
whose access is denied, exactly when the names it comes to before that one are served. -/
theorem answersGet_iff (acFun : Option AccessFunction) (tree : MibTree) (state : MibState)
    (names : List Oid)
    (hnamed : ∀ id, ∀ entry ∈ (state id).vars.entries, entry.2.name = entry.1)
    (hpermits : Permits acFun names) :
    AnswersGet acFun tree state names ↔
      ∀ name ∈ beforeDenied acFun tree names, IsServed tree state name :=
  ⟨isServed_of_answersGet hpermits, answersGet_of_isServed hnamed hpermits⟩

/-! ### Samples -/

theorem answersGet_iff_sampleModule :
    AnswersGet (some fun _ _ ↦ .permitted) (treeOf sampleModule) (instancesOf sampleModule)
        [[1, 1, 0], [1, 2, 1, 2, 3]] ↔
      ∀ name ∈ beforeDenied (some fun _ _ ↦ .permitted) (treeOf sampleModule)
          [[1, 1, 0], [1, 2, 1, 2, 3]],
        IsServed (treeOf sampleModule) (instancesOf sampleModule) name :=
  answersGet_iff _ _ _ _
    (fun _ _ hentry ↦
      (hosted_indexMib (show indexMib sampleModule = .ok (treeOf sampleModule, _) from rfl)).name_eq
        hentry)
    fun _ hask _ _ ↦ Option.some.inj hask ▸ rfl

/-- The instance without a value in the sample's table, a name below the instance of its scalar, and
the scalar's own name. -/
theorem not_answersGet_sampleModule :
    ¬ AnswersGet none (treeOf sampleModule) (instancesOf sampleModule) [[1, 2, 1, 1, 3]] ∧
      ¬ AnswersGet none (treeOf sampleModule) (instancesOf sampleModule) [[1, 1, 0, 1]] ∧
      ¬ AnswersGet none (treeOf sampleModule) (instancesOf sampleModule) [[1, 1]] := by
  refine ⟨?_, ?_, ?_⟩ <;> rintro (hok | ⟨_, _, -, hdenied, -⟩)
  · have hrun : (readVars none (treeOf sampleModule) [[1, 2, 1, 1, 3]]).run
        (instancesOf sampleModule) =
          (.error (.smi ⟨.noSuchInstance, some 0, some [1, 2, 1, 1, 3], none⟩),
            instancesOf sampleModule) := rfl
    rw [hrun] at hok
    cases (Prod.mk.inj hok).1
  · cases hdenied
  · have hrun : (readVars none (treeOf sampleModule) [[1, 1, 0, 1]]).run
        (instancesOf sampleModule) =
          (.error (.smi ⟨.noSuchInstance, some 0, some [1, 1, 0, 1], none⟩),
            instancesOf sampleModule) := rfl
    rw [hrun] at hok
    cases (Prod.mk.inj hok).1
  · cases hdenied
  · have hrun : (readVars none (treeOf sampleModule) [[1, 1]]).run (instancesOf sampleModule) =
        (.error (.smi ⟨.noAccess, some 0, some [1, 1], none⟩), instancesOf sampleModule) := rfl
    rw [hrun] at hok
    cases (Prod.mk.inj hok).1
  · cases hdenied

end Pysnmp.Smi.ReadVars
