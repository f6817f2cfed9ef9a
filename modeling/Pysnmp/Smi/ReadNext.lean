import Pysnmp.Foundation.FirstSuccess
import Pysnmp.Smi.FlipFlopFsm

/-!
# GETNEXT

`MibInstrumController.readNextVars` with the `readTestNext` and `readGetNext` of the tree, its rows,
its scalars and columns, and their instances. At every node the walk tries the branch the name lies
in and then the branches after it, in each of them a second time before it goes on (`nextLoop`); a
node is visited with the name the walk carries, which is the requested one in the branches it lies
in and the node's own name elsewhere.

`readTestNext` and `readGetNext` differ in what an instance answers only, so each is `treeNext` with
its own answer. `walkSubtrees_eq` reads the loop as a search through what it visits.
-/

set_option autoImplicit false
set_option relaxedAutoImplicit false

namespace Pysnmp.Smi.ReadNext

open Foundation Foundation.Effect Proto FlipFlopFsm

/-- The exceptions the walk passes over. -/
def isSkipped (exception : MibException) : Bool :=
  exception.isKind .noAccess || exception.isKind .noSuchInstance || exception.isKind .noSuchObject

/-- Which way the walk turns next. -/
inductive Direction
  | depthFirst
  | breadthFirst

/-- The loop of `MibTree.readGetNext` over the subtrees of a node: `branch` is the node's
`getBranch`, `visit` the subtree's own step, and `exhausted` what is done when no subtree is left.
Each subtree after the name costs two turns, so twice their number is turns enough. -/
def nextLoop {ν α : Type} (vars : OidOrderedDict ν) (branch : Oid → Option (Oid × ν))
    (visit : ν → Oid → Except MibException α) (exhausted : Oid → Except MibException α) :
    ℕ → Direction → Oid → Except MibException α
  | 0, _, nextName => exhausted nextName
  | turns + 1, .depthFirst, nextName =>
    match branch nextName with
    | none => nextLoop vars branch visit exhausted turns .breadthFirst nextName
    | some (_, node) =>
      match visit node nextName with
      | .ok answer => .ok answer
      | .error exception =>
        if isSkipped exception then
          nextLoop vars branch visit exhausted turns .breadthFirst nextName
        else
          .error exception
  | turns + 1, .breadthFirst, nextName =>
    match vars.getNextBranch nextName with
    | none => exhausted nextName
    | some (name, node) =>
      match visit node name with
      | .ok answer => .ok answer
      | .error exception =>
        if isSkipped exception then
          nextLoop vars branch visit exhausted turns .depthFirst name
        else
          .error exception

/-- The loop from its start. -/
def walkSubtrees {ν α : Type} (vars : OidOrderedDict ν) (branch : Oid → Option (Oid × ν))
    (visit : ν → Oid → Except MibException α) (exhausted : Oid → Except MibException α)
    (name : Oid) : Except MibException α :=
  nextLoop vars branch visit exhausted (2 * vars.entries.length + 2) .depthFirst name

/-! ### The nodes -/

/-- The test an instance makes of the name the walk has reached it with. -/
def instanceReached (context : Context) (object : MibScalarInstance) (name : Oid) :
    Except MibException Bool :=
  if name = object.name ∧ context.oName.all (· < name) then
    object.isValue
  else
    .ok false

variable {α : Type} (answer : MibScalarInstance → α)

/-- `MibScalarInstance.readTestNext` and `readGetNext`, which differ in what they answer. -/
def instanceNext (context : Context) (object : MibScalarInstance) (name : Oid) :
    Except MibException α := do
  if ← instanceReached context object name then
    .ok (answer object)
  else
    .error (.smi ⟨.noSuchInstance, some context.idx, some name, none⟩)

/-- `MibScalar.readTestNext` and `readGetNext`: access is asked for the name the walk carries. -/
def objectNext (context : Context) (object : ManagedObject)
    (vars : OidOrderedDict MibScalarInstance)
    (branch : Oid → Option (Oid × MibScalarInstance)) (name : Oid) : Except MibException α := do
  checkAccess object.maxAccess.isReadable .noAccess .read context name
  walkSubtrees vars branch (instanceNext answer context)
    (fun nextName ↦ .error (.smi ⟨.noSuchInstance, some context.idx, some nextName, none⟩)) name

/-- The walk through the instances of a scalar. -/
def scalarNext (context : Context) (state : MibState) (scalar : ManagedObject) (name : Oid) :
    Except MibException α :=
  objectNext answer context scalar (state (.scalar scalar.name)).vars
    (state (.scalar scalar.name)).vars.getBranch name

/-- `MibTableColumn.getBranch`: an instance is found by its whole name only. -/
def columnBranch (vars : OidOrderedDict MibScalarInstance) (name : Oid) :
    Option (Oid × MibScalarInstance) :=
  (vars.get? name).map fun object ↦ (name, object)

/-- The walk through the instances of a column. -/
def columnNext (context : Context) (state : MibState) (column : ManagedObject) (name : Oid) :
    Except MibException α :=
  objectNext answer context column (state (.column column.name)).vars
    (columnBranch (state (.column column.name)).vars) name

/-- The walk through the columns of a row. -/
def rowNext (context : Context) (state : MibState) (row : MibTableRow) (name : Oid) :
    Except MibException α :=
  walkSubtrees row.columns row.columns.getBranch (columnNext answer context state)
    (fun nextName ↦ .error (.smi ⟨.noSuchObject, some context.idx, some nextName, none⟩)) name

/-- The walk through a subtree of the root. A table has no subtrees of its own. -/
def nodeNext (context : Context) (state : MibState) (node : RootNode) (name : Oid) :
    Except MibException α :=
  match node with
  | .table _ => .error (.smi ⟨.noSuchObject, some context.idx, some name, none⟩)
  | .row row => rowNext answer context state row name
  | .scalar scalar => scalarNext answer context state scalar name

/-- The walk from the root, where the name it starts from is settled. -/
def treeNext (context : Context) (tree : MibTree) (state : MibState)
    (exhausted : Except MibException α) (name : Oid) : Except MibException α :=
  walkSubtrees tree tree.getBranch (nodeNext answer { context with oName := some name } state)
    (fun _ ↦ exhausted) name

/-- `MibTree.readTestNext` at the root. -/
def readTestNext (context : Context) (tree : MibTree) (state : MibState) (name : Oid) :
    Except MibException Unit :=
  treeNext (fun _ ↦ ()) context tree state (.ok ()) name

/-- `MibTree.readGetNext` at the root. -/
def readGetNext (context : Context) (tree : MibTree) (state : MibState) (name : Oid) :
    Except MibException (Oid × ReadValue) :=
  treeNext (fun object ↦ (object.name, .value object.syntaxObj)) context tree state
    (.ok (name, .endOfMib)) name

/-- The handlers of the phases of GETNEXT; they change nothing. -/
def readNextHandlers (acFun : Option AccessFunction) (tree : MibTree) (phase : FsmState) (idx : ℕ)
    (name : Oid) : Effect MibState MibException (Option (Oid × ReadValue)) := do
  let state ← get
  match phase with
  | .readTestNext => do
    liftExcept (readTestNext ⟨idx, acFun, none⟩ tree state name)
    pure none
  | .readGetNext => do
    let rval ← liftExcept (readGetNext ⟨idx, acFun, none⟩ tree state name)
    pure (some rval)
  | _ => pure none

/-- `MibInstrumController.readNextVars`, for the names of the bindings. -/
def readNextVars (acFun : Option AccessFunction) (tree : MibTree) (names : List Oid) :
    Effect MibState MibException (List (Oid × ReadValue)) :=
  flipFlopFsm fsmReadNextVar (readNextHandlers acFun tree) names

/-! ### The loop as a search -/

section Search

variable {ν α : Type} {vars : OidOrderedDict ν} {branch : Oid → Option (Oid × ν)}
  {visit : ν → Oid → Except MibException α} {exhausted : Oid → Except MibException α}

/-- The name the walk ends at when no branch answers: the last key after the name. -/
def lastName (vars : OidOrderedDict ν) (name : Oid) : Oid :=
  (((vars.after name).map Prod.fst).getLast?).getD name

theorem lastName_eq {name next : Oid} {node : ν} (hnext : vars.next? name = some (next, node)) :
    lastName vars name = lastName vars next := by
  rw [lastName, SortedMap.after_eq_cons hnext, List.map_cons, List.getLast?_cons]
  rfl

/-- The branches after a name are attempted with their own names; the second attempt at a branch
changes nothing. -/
theorem nextLoop_breadthFirst (hbranch : ∀ entry ∈ vars.entries, branch entry.1 = some entry)
    (turns : ℕ) (name : Oid) (hturns : 2 * (vars.after name).length < turns) :
    nextLoop vars branch visit exhausted turns .breadthFirst name =
      firstSuccess isSkipped (exhausted (lastName vars name))
        ((vars.after name).map fun entry ↦ visit entry.2 entry.1) := by
  induction turns using Nat.twoStepInduction generalizing name with
  | zero => exact absurd hturns (Nat.not_lt_zero _)
  | one =>
    have hafter : vars.after name = [] := List.eq_nil_of_length_eq_zero (by omega)
    have hnext : vars.next? name = none := by rw [SortedMap.next?_eq_head?, hafter, List.head?_nil]
    rw [nextLoop, OidOrderedDict.getNextBranch_eq_next?, hnext, lastName, hafter]
    rfl
  | more turns ih _ =>
    cases hnext : vars.next? name with
    | none =>
      have hafter : vars.after name = [] := by
        rwa [SortedMap.next?_eq_head?, List.head?_eq_none_iff] at hnext
      rw [nextLoop, OidOrderedDict.getNextBranch_eq_next?, hnext, lastName, hafter]
      rfl
    | some entry =>
      obtain ⟨next, node⟩ := entry
      have hafter := SortedMap.after_eq_cons hnext
      have hmem : (next, node) ∈ vars.entries := by
        rw [SortedMap.next?] at hnext
        exact List.mem_of_find?_eq_some hnext
      have hrest := ih next (by rw [hafter, List.length_cons] at hturns; omega)
      rw [nextLoop, OidOrderedDict.getNextBranch_eq_next?, hnext, hafter, List.map_cons]
      simp only
      cases hvisit : visit node next with
      | ok answer => rfl
      | error exception =>
        simp only [firstSuccess]
        split_ifs with hskipped
        · rw [nextLoop, hbranch _ hmem]
          simp only [hvisit, if_pos hskipped]
          rw [hrest, lastName_eq hnext]
        · rfl

/-- The subtrees a node's walk visits, each with the name it is visited with: the branch the name
lies in with that name, and the branches after the name with their own names. -/
def visits (vars : OidOrderedDict ν) (branch : Oid → Option (Oid × ν)) (name : Oid) :
    List (Oid × ν) :=
  ((branch name).map fun entry ↦ (name, entry.2)).toList ++ vars.after name

/-- The walk of a node is a search through what it visits. -/
theorem walkSubtrees_eq (hbranch : ∀ entry ∈ vars.entries, branch entry.1 = some entry)
    (name : Oid) :
    walkSubtrees vars branch visit exhausted name =
      firstSuccess isSkipped (exhausted (lastName vars name))
        ((visits vars branch name).map fun entry ↦ visit entry.2 entry.1) := by
  have hlength : (vars.after name).length ≤ vars.entries.length := List.length_filter_le _ _
  have hrest : nextLoop vars branch visit exhausted (2 * vars.entries.length + 1) .breadthFirst
      name = _ := nextLoop_breadthFirst hbranch _ name (by omega)
  rw [walkSubtrees, nextLoop, visits]
  cases branch name with
  | none => exact hrest
  | some entry =>
    simp only [Option.map_some, Option.toList_some, List.singleton_append, List.map_cons]
    cases visit entry.2 name with
    | ok answer => rfl
    | error exception =>
      simp only [firstSuccess, hrest]

end Search

end Pysnmp.Smi.ReadNext
