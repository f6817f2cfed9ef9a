import Pysnmp.Smi.ColumnWrite

/-!
# Writing to a row

`MibTableRow` relays the phases of a write to the column the name lies in. When the column asks for
a row operation, the row carries it out in its other columns, at the same instance identifier, and
then in the rows that augment it. For that the identifier is decoded into the values of the indices
(`setFromName`), and in a created row the index columns take them as their values.
-/

set_option autoImplicit false
set_option relaxedAutoImplicit false

namespace Pysnmp.Smi.RowWrite

open Foundation Foundation.Effect Proto ColumnWrite
open InstanceWrite (mibError)

/-! ### Indices -/

/-- The conversion of sub-identifiers to the type of an index. -/
def cloneIndex (index : IndexName) (value rest : Oid) : Except MibException (Value × Oid) :=
  match index.clone value with
  | .ok converted => .ok (converted, rest)
  | .error error => .error (.python error)

/-- `MibTableRow.setFromName`: the value of an index at the head of an identifier, and the rest. -/
def setFromName (index : IndexName) (value : Oid) (parentIndices : List Value) :
    Except MibException (Value × Oid) :=
  match value with
  | [] => .error (.smi { kind := .smiError })
  | first :: others =>
    match index.indexType with
    | .named cloneFromName _ => cloneFromName index.impliedFlag parentIndices value
    | .integer => cloneIndex index [first] others
    | .ipAddress => cloneIndex index (value.take 4) (value.drop 4)
    | .octetString fixedLength =>
      if index.impliedFlag then
        cloneIndex index value []
      else
        match fixedLength with
        | some length => cloneIndex index (value.take length) (value.drop length)
        | none => cloneIndex index (others.take first) (others.drop first)
    | .objectIdentifier =>
      if index.impliedFlag then
        cloneIndex index value []
      else
        cloneIndex index (others.take first) (others.drop first)
    | .bits => cloneIndex index (others.take first) (others.drop first)
    | .unknown => .error (.smi { kind := .smiError })

/-- The sub-identifiers of a value: `asNumbers`, or the tuple of an object identifier. -/
def asNumbers : Value → Oid
  | .integer value => [value.toNat]
  | .octetString value => value.map UInt8.toNat
  | .objectIdentifier value => value

/-- `MibTableRow.getAsName`: the value of an index as a part of an identifier. -/
def getAsName (index : IndexName) (value : Value) (parentIndices : List Value) :
    Except MibException Oid :=
  match index.indexType with
  | .named _ cloneAsName => cloneAsName value index.impliedFlag parentIndices
  | .integer => .ok (asNumbers value)
  | .ipAddress => .ok (asNumbers value)
  | .octetString fixedLength =>
    if index.impliedFlag || fixedLength.isSome then
      .ok (asNumbers value)
    else
      .ok ((asNumbers value).length :: asNumbers value)
  | .objectIdentifier =>
    if index.impliedFlag then
      .ok (asNumbers value)
    else
      .ok ((asNumbers value).length :: asNumbers value)
  | .bits => .ok ((asNumbers value).length :: asNumbers value)
  | .unknown => .error (.smi { kind := .smiError })

/-- The values of the indices of a row, with the names of the index objects, and what is left of the
identifier. -/
def indexValues : List IndexName → Oid → List Value →
    Except MibException (List (Oid × Value) × Oid)
  | [], instId, _ => .ok ([], instId)
  | index :: indexNames, instId, indices => do
    let (syntaxObj, instId) ← setFromName index instId indices
    let (values, rest) ← indexValues indexNames instId (indices ++ [syntaxObj])
    .ok ((index.name, syntaxObj) :: values, rest)

/-- The part of an identifier that one index of a row has in common with the given indices. -/
def indexSuffix (index : IndexName) : List (Oid × Value) → List Value → Except MibException Oid
  | [], _ => .ok []
  | (name, syntaxObj) :: baseIndices, parentIndices => do
    let head ← if name = index.name then getAsName index syntaxObj parentIndices else .ok []
    let rest ← indexSuffix index baseIndices (parentIndices ++ [syntaxObj])
    .ok (head ++ rest)

/-- The identifier in a row of the instances that go with the given indices of another row. -/
def commonSuffix : List IndexName → List (Oid × Value) → Except MibException Oid
  | [], _ => .ok []
  | index :: indexNames, baseIndices => do
    let head ← indexSuffix index baseIndices []
    let rest ← commonSuffix indexNames baseIndices
    .ok (head ++ rest)

/-! ### Fate sharing -/

/-- Run a program under a name of a column. -/
def onColumn (column : ManagedObject) (name : Oid) (program : Effect Slot MibException Unit) :
    Effect MibState MibException Unit :=
  focus (fun state ↦ (state (.column column.name)).slot name)
    (fun slot state ↦ Function.update state (.column column.name)
      ((state (.column column.name)).setSlot name slot))
    program

/-- An operation of a column on a binding. -/
abbrev ColumnAction := ManagedObject → Context → Oid → Option Value → Effect Slot MibException Unit

/-- `MibTableRow.__manageColumns`, which is always called without a value: the index columns take
the values of the indices, and no access function is asked for them. -/
def manageColumns (action : ColumnAction) (row : MibTableRow) (excludeName nameSuffix : Oid)
    (context : Context) : Effect MibState MibException Unit := do
  let (indexVals, _) ← liftExcept (indexValues row.indexNames nameSuffix [])
  forEach (fun entry ↦
    if entry.1 = excludeName then
      pure ()
    else
      match indexVals.reverse.lookup entry.1 with
      | some syntaxObj => onColumn entry.2 (entry.1 ++ nameSuffix)
          (action entry.2 { context with acFun := none } (entry.1 ++ nameSuffix) (some syntaxObj))
      | none => onColumn entry.2 (entry.1 ++ nameSuffix)
          (action entry.2 context (entry.1 ++ nameSuffix) none)) row.columns.entries

/-- `MibTableRow.receiveManagementEvent`. -/
def receiveManagementEvent (action : ColumnAction) (row : MibTableRow)
    (baseIndices : List (Oid × Value)) (context : Context) :
    Effect MibState MibException Unit := do
  let newSuffix ← liftExcept (commonSuffix row.indexNames baseIndices)
  if newSuffix = [] then
    pure ()
  else
    manageColumns action row [] newSuffix context

/-- The row an augmentation names. -/
def augmentingRow (tree : MibTree) (name : Oid) : Except MibException MibTableRow :=
  match tree.get? name with
  | some (.row row) => .ok row
  | _ => .error (.smi { kind := .smiError })

/-- `MibTableRow.announceManagementEvent`: tell the augmenting rows, once the identifier has been
decoded with nothing left over. -/
def announceManagementEvent (tree : MibTree) (action : ColumnAction) (row : MibTableRow)
    (name : Oid) (context : Context) : Effect MibState MibException Unit := do
  let (indices, instId) ← liftExcept (indexValues row.indexNames
    (name.drop (row.name.length + 1)) [])
  if instId ≠ [] then
    raise (.smi { kind := .smiError })
  else do
    let baseIndices := indices.filter fun index ↦ row.name = index.1.dropLast
    if baseIndices = [] then
      pure ()
    else
      forEach (fun augmenting ↦ do
        let augmenting ← liftExcept (augmentingRow tree augmenting)
        receiveManagementEvent action augmenting baseIndices context) row.augmentingRows

/-- Carry an operation out in the other columns of a row and in the rows that augment it. -/
def shareFate (tree : MibTree) (action : ColumnAction) (row : MibTableRow) (name : Oid)
    (context : Context) : Effect MibState MibException Unit := do
  manageColumns action row (name.take (row.name.length + 1)) (name.drop (row.name.length + 1))
    context
  announceManagementEvent tree action row name context

/-- `MibTableRow.__delegate`: the result is whether the row has been made active. -/
def delegate (tree : MibTree) (row : MibTableRow) (context : Context) (name : Oid)
    (value : Option Value) (subAction : SubAction) : Effect MibState MibException Bool :=
  handle
    (match row.columns.getBranch name with
      | none => raise (mibError .noSuchObject context name)
      | some (_, column) => do
        onColumn column name (write column context name value subAction)
        pure false)
    fun exception ↦
      match exception with
      | .smi error =>
        if error.kind = .rowCreationWanted then do
          shareFate tree
            (fun column context name value ↦ create column context name value subAction)
            row name context
          pure (error.syntaxDetail == some ⟨some (.integer 1)⟩)
        else if error.kind = .rowDestructionWanted then do
          shareFate tree
            (fun column context name value ↦ destroy column context name value subAction)
            row name context
          pure false
        else
          raise (.smi error)
      | .python error => raise (.python error)

/-- Whether what stands in a column at an identifier has a value; without an identifier that is the
column itself. -/
def checkColumn (column : ManagedObject) (nameSuffix : Oid) :
    Effect MibState MibException Unit :=
  if column.optional then
    pure ()
  else do
    let state ← get
    let isValue ←
      if nameSuffix = [] then
        pure column.syntaxClass.default.isValue
      else
        match (state (.column column.name)).vars.get? (column.name ++ nameSuffix) with
        | none => raise (.smi { kind := .noSuchInstance, name := some (column.name ++ nameSuffix) })
        | some object => liftExcept object.isValue
    if isValue then
      pure ()
    else
      raise (.smi { kind := .inconsistentValue })

/-- `MibTableRow.writeCommit`: a row that has been made active has values in all columns that are
not optional. -/
def writeCommit (tree : MibTree) (row : MibTableRow) (context : Context) (name : Oid)
    (value : Option Value) : Effect MibState MibException Unit := do
  let rowIsActive ← delegate tree row context name value .commit
  if rowIsActive then
    forEach (fun entry ↦ checkColumn entry.2 (name.drop (row.name.length + 1)))
      row.columns.entries
  else
    pure ()

/-- The phases of a write of a row. -/
def write (tree : MibTree) (row : MibTableRow) (context : Context) (name : Oid)
    (value : Option Value) : SubAction → Effect MibState MibException Unit
  | .commit => writeCommit tree row context name value
  | subAction => do
    let _ ← delegate tree row context name value subAction
    pure ()

end Pysnmp.Smi.RowWrite
