import Pysnmp.Smi.Indices

/-!
# Managed objects

The objects of `SNMPv2-SMI.py` that management operations run over. What does not change while
requests are served is the tree of their definitions: scalars, tables and rows under the root, and
columns under rows (`MibTree`). What changes is kept apart from it under the object it belongs to
(`MibState`): the instances of scalars and columns, and what a SET in progress has staged in a
column.

A syntax object of pyasn1 carries a value or is a schema object without one (`Syntax`). An attribute
that holds such an object can also hold `None`, which is the absence of a `Syntax` here, and
`MibScalarInstance.newSyntax` is an attribute that may not have been assigned at all.
-/

set_option autoImplicit false
set_option relaxedAutoImplicit false

namespace Pysnmp.Smi

open Foundation Proto

/-! ### Values and errors -/

/-- The values of the base types. -/
inductive Value
  | integer (value : ℤ)
  | octetString (value : Octets)
  | objectIdentifier (value : Oid)
  deriving DecidableEq, Repr

/-- A syntax object: with a value, or a schema object without one. -/
structure Syntax where
  value : Option Value
  deriving DecidableEq, Repr

/-- Whether the object carries a value. -/
def Syntax.isValue (object : Syntax) : Bool := object.value.isSome

/-- The classes of errors that are served by the operations. -/
inductive SmiErrorKind
  | smiError
  | genError
  | noAccess
  | notWritable
  | noCreation
  | wrongValue
  | inconsistentValue
  | authorizationError
  | noSuchObject
  | noSuchInstance
  | rowCreationWanted
  | rowDestructionWanted
  deriving DecidableEq, Repr

/-- An `SmiError` with its details, as far as they are set. -/
structure SmiError where
  kind : SmiErrorKind
  idx : Option ℕ := none
  name : Option Oid := none
  syntaxDetail : Option Syntax := none
  deriving DecidableEq, Repr

/-- Exceptions that are no `SmiError` and pass through the operations. -/
inductive PythonError
  | pyAsn1Error
  | valueError
  | attributeError
  | keyError
  | typeError
  | indexError
  | recursionError
  deriving DecidableEq, Repr

/-- What an operation can raise. -/
inductive MibException
  | smi (error : SmiError)
  | python (error : PythonError)
  deriving DecidableEq, Repr

/-- The exception is of this class of `SmiError`. -/
def MibException.isKind (kind : SmiErrorKind) : MibException → Bool
  | .smi error => error.kind == kind
  | .python _ => false

/-! ### Access -/

/-- The `MAX-ACCESS` of an object. -/
inductive MaxAccess
  | notAccessible
  | accessibleForNotify
  | readOnly
  | readWrite
  | readCreate
  deriving DecidableEq, Repr

/-- `readonly`, `readwrite` and `readcreate`. -/
def MaxAccess.isReadable : MaxAccess → Bool
  | readOnly => true
  | readWrite => true
  | readCreate => true
  | _ => false

/-- `readwrite` and `readcreate`. -/
def MaxAccess.isWritable : MaxAccess → Bool
  | readWrite => true
  | readCreate => true
  | _ => false

/-- What an access function is asked for. -/
inductive AccessKind
  | read
  | write
  deriving DecidableEq, Repr

/-- The answer of an access function; it may also raise one of three errors. -/
inductive AccessVerdict
  | permitted
  | refused
  | authorizationError
  | genError
  | noAccessError
  deriving DecidableEq, Repr

/-- An access function on the names of instances. -/
abbrev AccessFunction := Oid → AccessKind → AccessVerdict

/-- What travels with an operation: the position of the binding, the access function, and for
GETNEXT the name the walk started from. -/
structure Context where
  idx : ℕ
  acFun : Option AccessFunction
  oName : Option Oid := none

/-- Ask the access function, raising `refusal` where access is refused or the object's own access
does not allow it. -/
def checkAccess (allowed : Bool) (refusal : SmiErrorKind) (kind : AccessKind) (context : Context)
    (name : Oid) : Except MibException Unit :=
  match context.acFun with
  | none => .ok ()
  | some acFun =>
    if ¬ allowed then
      .error (.smi ⟨refusal, some context.idx, some name, none⟩)
    else
      match acFun name kind with
      | .permitted => .ok ()
      | .refused => .error (.smi ⟨refusal, some context.idx, some name, none⟩)
      | .authorizationError =>
        .error (.smi ⟨.authorizationError, some context.idx, some name, none⟩)
      | .genError => .error (.smi ⟨.genError, some context.idx, some name, none⟩)
      | .noAccessError => .error (.smi ⟨.noAccess, some context.idx, some name, none⟩)

/-- What a read answers for a name: a value, or one of the three markers. -/
inductive ReadValue
  | value (object : Option Syntax)
  | noSuchObject
  | noSuchInstance
  | endOfMib
  deriving DecidableEq, Repr

/-! ### Definitions -/

/-- How a syntax class takes a new value: by converting it, through the row states, or by comparing
it with the present value. -/
inductive SyntaxKind
  | plain
  | rowStatus
  | testAndIncr
  deriving DecidableEq, Repr

/-- A syntax class: `clone` with a value, which can refuse it, and the object its instances start
with. -/
structure SyntaxClass where
  kind : SyntaxKind
  clone : Value → Option Value
  default : Syntax

/-- How the value of an index object is spelled in an instance identifier; some types bring their
own `cloneFromName` and `cloneAsName`, which see the values of the indices before them. -/
inductive IndexType
  | integer
  | ipAddress
  | octetString (fixedLength : Option ℕ)
  | objectIdentifier
  | bits
  | named (cloneFromName : Bool → List Value → Oid → Except MibException (Value × Oid))
      (cloneAsName : Value → Bool → List Value → Except MibException Oid)
  | unknown

/-- An index object of a row: its column, and `clone` of its syntax with sub-identifiers. -/
structure IndexName where
  impliedFlag : Bool
  name : Oid
  indexType : IndexType
  clone : Oid → Except PythonError Value

/-- The definition of a scalar or of a column. -/
structure ManagedObject where
  name : Oid
  maxAccess : MaxAccess
  syntaxClass : SyntaxClass
  optional : Bool := false

/-- The definition of a conceptual row: its columns, the objects that index it, and the names of the
rows that augment it. -/
structure MibTableRow where
  name : Oid
  columns : OidOrderedDict ManagedObject
  indexNames : List IndexName
  augmentingRows : List Oid

/-- What is registered at the root. -/
inductive RootNode
  | table (name : Oid)
  | row (row : MibTableRow)
  | scalar (scalar : ManagedObject)

/-- The subtree is a scalar. -/
def RootNode.isScalar : RootNode → Bool
  | .scalar _ => true
  | _ => false

/-- The subtree is a row. -/
def RootNode.isRow : RootNode → Bool
  | .row _ => true
  | _ => false

/-- The columns below a subtree of the root. -/
def RootNode.columns : RootNode → List (Oid × ManagedObject)
  | .row node => node.columns.entries
  | _ => []

/-- The subtrees registered at the root, under their names. -/
abbrev MibTree := OidOrderedDict RootNode

/-! ### Instances -/

/-- What a subclass of an application raises in its `writeCommit`: instead of committing, or after
it has committed. -/
inductive CommitFailure
  | before (kind : SmiErrorKind)
  | after (kind : SmiErrorKind)
  deriving DecidableEq, Repr

/-- An instance of a scalar or of a column. -/
structure MibScalarInstance where
  name : Oid
  syntaxClass : SyntaxClass
  syntaxObj : Option Syntax
  oldSyntax : Option Syntax := none
  newSyntax : Option (Option Syntax) := none
  commitFailure : Option CommitFailure := none

/-- Whether the instance carries a value; `None` has no `isValue`. -/
def MibScalarInstance.isValue (object : MibScalarInstance) : Except MibException Bool :=
  match object.syntaxObj with
  | none => .error (.python .attributeError)
  | some syntaxObj => .ok syntaxObj.isValue

/-- Whose instances: a scalar's or a column's. -/
inductive ObjectId
  | scalar (name : Oid)
  | column (name : Oid)
  deriving DecidableEq, Repr

/-- The object's own name. -/
def ObjectId.name : ObjectId → Oid
  | scalar name => name
  | column name => name

/-- The row operation a binding has asked for, with the value it gives the status column. -/
inductive RowOperation
  | creationWanted (syntaxDetail : Option Syntax)
  | destructionWanted
  deriving DecidableEq, Repr

/-- What a scalar or a column keeps: its instances, and for a column the instances that a SET in
progress has created or destroyed and the row operations its bindings ask for, all under the names
of instances. A scalar leaves the last three empty. -/
structure ObjectState where
  vars : OidOrderedDict MibScalarInstance
  createdInstances : Oid → Option (Option MibScalarInstance)
  destroyedInstances : Oid → Option MibScalarInstance
  rowOpWanted : Oid → Option RowOperation
  branchVersionId : ℕ

/-- An object without instances and without anything in progress. -/
def ObjectState.initial : ObjectState where
  vars := ∅
  createdInstances := fun _ ↦ none
  destroyedInstances := fun _ ↦ none
  rowOpWanted := fun _ ↦ none
  branchVersionId := 0

/-- What the objects of a tree keep. -/
abbrev MibState := ObjectId → ObjectState

/-- Every instance is kept under its name, which continues the name of its object, and has a syntax
object, with a value or without. -/
structure Hosted (state : MibState) : Prop where
  name_eq : ∀ {id : ObjectId} {name : Oid} {object : MibScalarInstance},
    (name, object) ∈ (state id).vars.entries → object.name = name
  below : ∀ {id : ObjectId} {name : Oid} {object : MibScalarInstance},
    (name, object) ∈ (state id).vars.entries → id.name <+: name
  syntaxObj : ∀ {id : ObjectId} {name : Oid} {object : MibScalarInstance},
    (name, object) ∈ (state id).vars.entries → object.syntaxObj.isSome

end Pysnmp.Smi
