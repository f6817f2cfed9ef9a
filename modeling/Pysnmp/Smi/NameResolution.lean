import Pysnmp.Foundation.LongestPrefix
import Pysnmp.Proto.Messages
import Pysnmp.Smi.IndexDecoding

/-!
# Resolving the names and values of a response

`ObjectIdentity.resolveWithMib` and `ObjectType.resolveWithMib` of `smi/rfc1902.py`, of object
identifiers, over the lookups of `MibViewController` in `smi/view.py`. A view indexes the symbols of
the loaded modules by their object identifiers; where two symbols have the same one, the module that
is indexed last decides. A label ends in the name of a symbol, so that no object identifier is one.

The lookup of a name calls itself once for each number after the longest prefix in the index, and
raises a `RecursionError` where that is more often than the interpreter allows. How often it may do
so depends on the calls that it is made from.

Below a column stands the index of a row. The row reads it, and what it raises as an `SmiError`
leaves the index undecoded; any other exception passes through.
-/

set_option autoImplicit false
set_option relaxedAutoImplicit false

namespace Pysnmp.Smi.NameResolution

open Foundation Foundation.Effect Proto
open IndexEncoding hiding setFromName getAsName readIndices indicesOf instIdOf
  getIndicesFromInstId getInstIdFromIndices
open IndexDecoding
open IndexRoundTrip (Call)

/-! ### Views -/

/-- What a symbol stands for. Objects with a syntax come with what `clone` of the syntax makes of a
value; a row comes with its indices. -/
inductive MibNode
  | column (clone : BindingValue → Except PythonError BindingValue)
  | scalar (clone : BindingValue → Except PythonError BindingValue)
  | row (indexNames : List Index)
  | other

/-- The syntax of a `MibScalar` or a `MibTableColumn`. -/
def MibNode.getSyntax : MibNode → Option (BindingValue → Except PythonError BindingValue)
  | .column clone => some clone
  | .scalar clone => some clone
  | _ => none

/-- A symbol of a loaded module. -/
structure MibSymbol where
  modName : String
  symName : String
  name : Oid
  mibNode : MibNode

/-- The symbols of the loaded modules in the order in which they are indexed; and how often the
interpreter lets `__getOidLabel` call itself, for the name that `resolveWithMib` looks up and for
what `getNodeLocation` does. -/
structure MibView where
  symbols : List MibSymbol
  nameDepth : ℕ
  locationDepth : ℕ

namespace MibView

variable (view : MibView)

/-- The symbol that is indexed under an object identifier: `oidToModIdx` with `oidToLabelIdx`. -/
def symbolAt (oid : Oid) : Option MibSymbol :=
  view.symbols.reverse.find? fun symbol ↦ symbol.name = oid

/-- The object identifier is in the index. -/
def IsLoaded (oid : Oid) : Prop :=
  (view.symbolAt oid).isSome

instance : DecidablePred view.IsLoaded := fun oid ↦
  inferInstanceAs (Decidable ((view.symbolAt oid).isSome = true))

/-- `__getOidLabel`, of an object identifier in reverse: the longest prefix in the index and what
follows it, if there is one. It may call itself so many times. -/
def getOidLabelOfReverse : ℕ → Oid → Except MibException (Option (Oid × Oid))
  | _, [] => .ok none
  | depth, last :: before =>
    if view.IsLoaded (before.reverse ++ [last]) then
      .ok (some (before.reverse ++ [last], []))
    else if before = [] then
      .ok none
    else
      match depth with
      | 0 => .error (.python .recursionError)
      | depth + 1 => do
        let found ← getOidLabelOfReverse depth before
        .ok (found.map fun (oid, suffix) ↦ (oid, suffix ++ [last]))

/-- `__getOidLabel`, of an object identifier. -/
def getOidLabel (depth : ℕ) (nodeName : Oid) : Except MibException (Option (Oid × Oid)) :=
  view.getOidLabelOfReverse depth nodeName.reverse

/-- `getNodeNameByOid`, with the symbol that `getNodeLocation` and `importSymbols` find there. -/
def getNodeNameByOid (depth : ℕ) (nodeName : Oid) : Except MibException (MibSymbol × Oid) := do
  match ← view.getOidLabel depth nodeName with
  | none => .error (.smi { kind := .noSuchObject })
  | some (oid, suffix) =>
    match view.symbolAt oid with
    | none => .error (.python .keyError)
    | some symbol => .ok (symbol, suffix)

/-- `getNodeLocation`, with the symbol. What is no object identifier of the view is looked up as a
description, by its first member, which is none. -/
def getNodeLocation (nodeName : Oid) : Except MibException MibSymbol :=
  match view.getNodeNameByOid view.locationDepth nodeName with
  | .ok (symbol, _) => .ok symbol
  | .error (.python error) => .error (.python error)
  | .error (.smi error) =>
    if nodeName = [] then .error (.python .indexError) else .error (.smi error)

end MibView

/-! ### Names -/

/-- The caches of the rows, by the names of the rows. -/
abbrev RowCaches := Oid → IndexCaches

/-- Programs of a view. -/
abbrev ViewOp (α : Type) := Effect RowCaches MibException α

/-- Programs of a row. -/
def onRow {α : Type} (name : Oid) (program : RowOp α) : ViewOp α :=
  focus (fun caches ↦ caches name) (fun row caches ↦ Function.update caches name row) program

/-- The one index that a suffix is kept as. -/
def opaqueIndex (suffix : Oid) : Indices :=
  .values [.objectIdentifier suffix]

/-- A resolved name. -/
structure ObjectIdentity where
  oid : Oid
  symbol : MibSymbol
  indices : Indices

/-- `except SmiError` around `getIndicesFromInstId`. -/
def keepUndecoded (suffix : Oid) : MibException → ViewOp Indices
  | .smi _ => pure (opaqueIndex suffix)
  | .python error => raise (.python error)

/-- `rowNode.getIndicesFromInstId`; only a row has one. -/
def rowIndices (rowNode : MibSymbol) (suffix : Oid) : ViewOp Indices :=
  match rowNode.mibNode with
  | .row indexNames =>
    handle (onRow rowNode.name (getIndicesFromInstId indexNames (suffix.map Nat.cast)))
      (keepUndecoded suffix)
  | _ => raise (.python .attributeError)

/-- The indices of what follows the prefix. -/
def resolveIndices (view : MibView) (symbol : MibSymbol) (suffix : Oid) : ViewOp Indices :=
  match symbol.mibNode, suffix with
  | _, [] => pure (.values [])
  | .column _, suffix => do
    let rowNode ← liftExcept (view.getNodeLocation symbol.name.dropLast)
    rowIndices rowNode suffix
  | _, suffix => pure (opaqueIndex suffix)

/-- `ObjectIdentity.resolveWithMib`, of an object identifier. -/
def ObjectIdentity.resolveWithMib (view : MibView) (oid : Oid) : ViewOp ObjectIdentity := do
  let (symbol, suffix) ← liftExcept (view.getNodeNameByOid view.nameDepth oid)
  let indices ← resolveIndices view symbol suffix
  pure { oid := oid, symbol := symbol, indices := indices }

/-! ### Bindings -/

/-- The value of a resolved binding; an object identifier may be resolved to a name. -/
inductive ResolvedValue
  | plain (value : BindingValue)
  | identity (value : ObjectIdentity)

/-- A resolved binding. -/
structure ObjectType where
  name : ObjectIdentity
  value : ResolvedValue

/-- `UnSpecified`, `NoSuchObject`, `NoSuchInstance` or `EndOfMibView`. -/
def isException : BindingValue → Bool
  | .null | .noSuchObject | .noSuchInstance | .endOfMibView => true
  | _ => false

/-- `getSyntax().clone(value)`. A value that does not fit the syntax is kept or, if the caller wants
to be told, reported. -/
def castValue (clone : BindingValue → Except PythonError BindingValue) (ignoreValueErrors : Bool)
    (value : BindingValue) : Except MibException BindingValue :=
  match clone value with
  | .ok cast => .ok cast
  | .error .pyAsn1Error =>
    if ignoreValueErrors then .ok value else .error (.smi { kind := .smiError })
  | .error error => .error (.python error)

/-- `except SmiError` around the resolution of a value. -/
def leaveUnresolved (oid : Oid) : MibException → ViewOp ResolvedValue
  | .smi _ => pure (.plain (.objectIdentifier oid))
  | .python error => raise (.python error)

/-- A value after the cast: an object identifier is resolved for display. -/
def resolvePointer (view : MibView) : BindingValue → ViewOp ResolvedValue
  | .objectIdentifier oid =>
    handle (ResolvedValue.identity <$> ObjectIdentity.resolveWithMib view oid)
      (leaveUnresolved oid)
  | value => pure (.plain value)

/-- The value of a binding whose name has been resolved to a node. -/
def resolveValue (view : MibView) (ignoreValueErrors : Bool) (mibNode : MibNode)
    (value : BindingValue) : ViewOp ResolvedValue :=
  match mibNode.getSyntax with
  | none => pure (.plain value)
  | some clone =>
    if isException value then
      pure (.plain value)
    else do
      let cast ← liftExcept (castValue clone ignoreValueErrors value)
      resolvePointer view cast

/-- `ObjectType.resolveWithMib`, of a name and a value as they came off the wire. -/
def ObjectType.resolveWithMib (view : MibView) (ignoreValueErrors : Bool)
    (varBind : Oid × BindingValue) : ViewOp ObjectType := do
  let name ← ObjectIdentity.resolveWithMib view varBind.1
  let value ← resolveValue view ignoreValueErrors name.symbol.mibNode varBind.2
  pure { name := name, value := value }

/-- `unmakeVarBinds`. -/
def unmakeVarBinds (view : MibView) (ignoreValueErrors : Bool) :
    List (Oid × BindingValue) → ViewOp (List ObjectType)
  | [] => pure []
  | varBind :: varBinds => do
    let resolved ← ObjectType.resolveWithMib view ignoreValueErrors varBind
    let rest ← unmakeVarBinds view ignoreValueErrors varBinds
    pure (resolved :: rest)

end Pysnmp.Smi.NameResolution
