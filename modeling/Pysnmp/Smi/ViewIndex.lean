import Mathlib.Data.String.Basic
import Pysnmp.Foundation.Dict
import Pysnmp.Foundation.LastMatch
import Pysnmp.Smi.Indices
import Pysnmp.Smi.ManagedObjects

/-!
# Indexing the names of a MIB view

`MibViewController.indexMib` of `smi/view.py`, with the indices between object identifiers and
labels, and `__getOidLabel`, which looks a name up in them. A label is first the name of the symbol
alone. One pass over the sorted object identifiers puts the label of the parent in front of it,
which the pass takes from the object identifier before where it can; the modules copy their labels
from the merged index.

A node name is made of numbers and texts. The name of a symbol is no row of digits, so that no
number is printed as one.
-/

set_option autoImplicit false
set_option relaxedAutoImplicit false

namespace Pysnmp.Smi.ViewIndex

open Foundation Foundation.Effect Proto LastMatch

/-! ### Modules -/

/-- The name of a symbol. -/
structure SymbolName where
  text : String
  has_nondigit : ∃ char ∈ text.toList, char.isDigit = false
  deriving DecidableEq

/-- What a module exports under a name: a type, an instance of a scalar or any other node. -/
inductive MibSymbol
  | type
  | scalarInstance (name : Oid)
  | node (name : Oid)

/-- A module of `mibSymbols`, with the first of the revisions of its identity. -/
structure MibModule where
  modName : String
  lastRevision : Option String
  symbols : List (SymbolName × MibSymbol)

/-- `__sortFun`: the last revision, or an early one. -/
def MibModule.sortFun (mibModule : MibModule) : String :=
  mibModule.lastRevision.getD "1970-01-01 00:00"

/-- The symbols that are indexed by their object identifiers. -/
def MibModule.nodes (mibModule : MibModule) : List (SymbolName × Oid) :=
  mibModule.symbols.filterMap fun symbol ↦
    match symbol.2 with
    | .node name => some (symbol.1, name)
    | _ => none

/-! ### Labels -/

/-- A member of a node name. -/
inductive NamePart
  | arc (number : ℕ)
  | text (printed : String)
  deriving DecidableEq, Repr

/-- A member, printed by `str`. -/
def NamePart.str : NamePart → NamePart
  | .arc number => .text (toString number)
  | .text printed => .text printed

/-- A name of a node, of numbers, of texts or of both. -/
abbrev NodeName := List NamePart

/-- An object identifier is the name of its numbers. -/
def arcs (oid : Oid) : NodeName :=
  oid.map .arc

/-- The label that a symbol starts with. -/
def symbolLabel (symName : SymbolName) : NodeName :=
  [.text symName.text]

/-- The object identifier that a name consists of. -/
def oidOf (nodeName : NodeName) : Option Oid :=
  nodeName.mapM fun
    | .arc number => some number
    | .text _ => none

/-! ### Indices -/

/-- `mibMod`: the indices between object identifiers and labels. -/
structure ModuleView where
  oidToLabelIdx : OidOrderedDict NodeName
  labelToOidIdx : Dict NodeName Oid

/-- The indices of a module before its symbols. -/
def ModuleView.new : ModuleView where
  oidToLabelIdx := ∅
  labelToOidIdx := ∅

/-- Index the name of a node. -/
def ModuleView.addNode (view : ModuleView) (entry : SymbolName × Oid) : ModuleView :=
  { view with oidToLabelIdx := view.oidToLabelIdx.insert entry.2 (symbolLabel entry.1) }

/-- Index a label both ways. -/
def ModuleView.assign (view : ModuleView) (oid : Oid) (label : NodeName) : ModuleView where
  oidToLabelIdx := view.oidToLabelIdx.insert oid label
  labelToOidIdx := view.labelToOidIdx.insert label oid

/-- The lookup of a label that raises where there is none. -/
def ModuleView.getLabel (view : ModuleView) (oid : Oid) : Except PythonError NodeName :=
  match view.oidToLabelIdx.get? oid with
  | some label => .ok label
  | none => .error .keyError

/-- `__mibSymbolsIdx`: the indices of all modules under the empty name, and those of each. -/
structure MibSymbolsIdx where
  merged : ModuleView
  modules : List (String × ModuleView)

/-- All indices. -/
def MibSymbolsIdx.views (index : MibSymbolsIdx) : List ModuleView :=
  index.merged :: index.modules.map Prod.snd

/-- The indices of the names, with the modules in ascending age. -/
def indexNames (mibModules : List MibModule) : MibSymbolsIdx :=
  let sorted := sortByKey MibModule.sortFun mibModules
  { merged := (sorted.flatMap MibModule.nodes).foldl ModuleView.addNode .new
    modules := sorted.map fun mibModule ↦
      (mibModule.modName, mibModule.nodes.foldl ModuleView.addNode .new) }

/-! ### The pass over the object identifiers -/

/-- `key[i:-1]`, as the end of a label. -/
def between (key : Oid) (i : ℕ) : NodeName :=
  arcs (key.dropLast.drop i)

/-- The `while` loop for the label of the longest proper prefix in the index, with the numbers up to
the last one. -/
def gapLabel (index : OidOrderedDict NodeName) (key : Oid) : ℕ → NodeName
  | 0 => []
  | i + 1 =>
    match index.get? (key.take (i + 1)) with
    | some label => if i + 1 ≠ key.length - 1 then label ++ between key (i + 1) else label
    | none => gapLabel index key i

/-- The label that goes in front of the name of the key, from the key and the label before. -/
def nextBaseLabel (view : ModuleView) (prevOid : Oid) (baseLabel : NodeName) (key : Oid) :
    Except PythonError NodeName :=
  if prevOid.length < key.length then
    if prevOid = [] then
      pure []
    else if key.length - prevOid.length = 1 then
      view.getLabel prevOid
    else
      pure (baseLabel ++ between key (key.length - (key.length - prevOid.length)))
  else if key.length < prevOid.length then
    pure (gapLabel view.oidToLabelIdx key (key.length - 1))
  else
    pure baseLabel

/-- What the pass keeps from one key to the next. -/
structure LabelPass where
  view : ModuleView
  prevOid : Oid
  baseLabel : NodeName

/-- One key of the pass. -/
def LabelPass.visit (state : LabelPass) (key : Oid) : Except PythonError LabelPass := do
  let baseLabel ← nextBaseLabel state.view state.prevOid state.baseLabel key
  let name ← state.view.getLabel key
  pure { view := state.view.assign key (baseLabel ++ name), prevOid := key, baseLabel := baseLabel }

/-- The long labels of the merged index. -/
def buildLabels (view : ModuleView) : Except PythonError ModuleView := do
  let state ← view.oidToLabelIdx.keys.foldlM LabelPass.visit
    { view := view, prevOid := [], baseLabel := [] }
  pure state.view

/-- The labels of a module, from the merged index. -/
def copyLabels (merged view : ModuleView) : Except PythonError ModuleView :=
  view.oidToLabelIdx.keys.foldlM (fun view oid ↦ do
    let label ← merged.getLabel oid
    pure (view.assign oid label)) view

/-- `indexMib`, after the builder has loaded something. -/
def indexMib (mibModules : List MibModule) : Except PythonError MibSymbolsIdx := do
  let index := indexNames mibModules
  let merged ← buildLabels index.merged
  let copied ← copyLabels merged merged
  let modules ← index.modules.mapM fun entry ↦ do
    let view ← copyLabels merged entry.2
    pure (entry.1, view)
  pure { merged := copied, modules := modules }

/-! ### Looking up names -/

/-- What a name resolves to. -/
structure Resolution where
  oid : NodeName
  label : NodeName
  suffix : NodeName
  deriving DecidableEq

/-- The object identifier of a name that is a label of the index. -/
def ModuleView.labelToOid (view : ModuleView) (nodeName : NodeName) : Option Oid :=
  view.labelToOidIdx.lookup nodeName

/-- The label of a name that is an object identifier of the index. -/
def ModuleView.labelOf (view : ModuleView) (nodeName : NodeName) : Option NodeName :=
  (oidOf nodeName).bind view.oidToLabelIdx.get?

/-- `__getOidLabel`, of a name in reverse. -/
def getOidLabelOfReverse (view : ModuleView) : NodeName → Resolution
  | [] => ⟨[], [], []⟩
  | last :: before =>
    let nodeName := before.reverse ++ [last]
    match view.labelToOid nodeName with
    | some oid => ⟨arcs oid, nodeName, []⟩
    | none =>
      match view.labelOf nodeName with
      | some label => ⟨nodeName, label, []⟩
      | none =>
        if nodeName.length < 2 then
          ⟨nodeName, nodeName, []⟩
        else
          let found := getOidLabelOfReverse view before
          let suffix := found.suffix ++ [last]
          let resLabel := found.label ++ suffix.map NamePart.str
          match view.labelToOid resLabel with
          | some oid => ⟨arcs oid, resLabel, []⟩
          | none =>
            let resOid := found.oid ++ suffix
            match view.labelOf resOid with
            | some label => ⟨resOid, label, []⟩
            | none => ⟨found.oid, found.label, suffix⟩

/-- `__getOidLabel`. -/
def getOidLabel (view : ModuleView) (nodeName : NodeName) : Resolution :=
  getOidLabelOfReverse view nodeName.reverse

end Pysnmp.Smi.ViewIndex
