import Mathlib.Data.List.MinMax
import Mathlib.Data.Prod.Lex
import Mathlib.Data.String.Basic
import Pysnmp.Foundation.LastMatch
import Pysnmp.Smi.OidKey

/-!
# The MIB corpora

`MibCorpus` and `CompositeMibCorpus` of `smi/corpus.py`, as far as nodes are looked up by their
object identifiers. A corpus is a database that cannot change: the queries of `MibCorpus` read its
`module` and `node` tables. A composite searches several corpora as one, and a module is answered
for by one of them (`owner`).

A `Node` carries the columns that these functions read and, as one value, the others.
-/

set_option autoImplicit false
set_option relaxedAutoImplicit false

namespace Pysnmp.Smi.Corpus

open Foundation Proto OidKey

/-- A row of the `node` table; `oid_key` is the sort key of its OID. -/
structure Node (κ : Type) where
  module : String
  name : String
  arcs : Oid
  columns : κ
  wellFormed : WellFormed arcs

/-- The `oid_key` column. -/
def Node.key {κ : Type} (node : Node κ) : Key := arcsKey node.arcs

/-- The order of `ORDER BY oid_key, module`. -/
def Node.place {κ : Type} (node : Node κ) : Key ×ₗ String := toLex (node.key, node.module)

/-- A row of the `module` table. -/
structure ModuleRow where
  name : String
  revision : Option String

/-- A corpus database. -/
structure MibCorpus (κ : Type) where
  moduleRows : List ModuleRow
  nodeRows : List (Node κ)

/-- A reference to an opened corpus. -/
abbrev CorpusRef := ℕ

variable {κ : Type}

namespace MibCorpus

/-- The names of the modules. -/
def modules (corpus : MibCorpus κ) : List String := corpus.moduleRows.map ModuleRow.name

/-- What the corpus records about a module. -/
def module (corpus : MibCorpus κ) (name : String) : Option ModuleRow :=
  corpus.moduleRows.find? fun row ↦ row.name == name

/-- The query `node_at`. -/
def nodeAt (corpus : MibCorpus κ) (key : Key) : Option (Node κ) :=
  (corpus.nodeRows.filter fun row ↦ row.key == key).argmin Node.module

/-- The query `node_at_in`. -/
def nodeAtIn (corpus : MibCorpus κ) (key : Key) (module : String) : Option (Node κ) :=
  corpus.nodeRows.find? fun row ↦ row.key == key && row.module == module

/-- The query `next_node`. -/
def nodeAfter (corpus : MibCorpus κ) (key : Key) : Option (Node κ) :=
  (corpus.nodeRows.filter fun row ↦ key < row.key).argmin Node.place

/-- The query `subtree`. -/
def nodesBetween (corpus : MibCorpus κ) (low bound : Key) : List (Node κ) :=
  LastMatch.sortByKey Node.place
    (corpus.nodeRows.filter fun row ↦ ¬ row.key < low && row.key < bound)

/-- `node`. -/
def node (corpus : MibCorpus κ) (oid : Oid) (module : Option String) :
    Except OidKeyError (Option (Node κ)) := do
  let key ← oidKey oid
  match module with
  | none => .ok (corpus.nodeAt key)
  | some module => .ok (corpus.nodeAtIn key module)

/-- `next_node`: the first node ordered after an OID. -/
def nextNode (corpus : MibCorpus κ) (oid : Oid) : Except OidKeyError (Option (Node κ)) := do
  let key ← oidKey oid
  .ok (corpus.nodeAfter key)

/-- `subtree`: every node at or below an OID, in OID order. -/
def subtree (corpus : MibCorpus κ) (oid : Oid) : Except OidKeyError (List (Node κ)) := do
  let low ← oidKey oid
  .ok (corpus.nodesBetween low (subtreeBound low))

end MibCorpus

/-- `best_by_revision`: of several copies the newest, the first where a revision is missing or all
are the same. -/
def bestByRevision {α : Type} : List (α × Option String) → Option α
  | [] => none
  | (first, revision) :: others =>
    let revisions := ((first, revision) :: others).map Prod.snd
    if revisions.all (fun other ↦ other.getD "" ≠ "") ∧ revisions.dedup.length ≠ 1 then
      (((first, revision) :: others).argmax fun pair ↦ pair.2.getD "").map Prod.fst
    else some first

/-- Several corpora searched as one, and what the references stand for. -/
structure CompositeMibCorpus (κ : Type) where
  corpora : List CorpusRef
  opened : CorpusRef → MibCorpus κ
  nonempty : corpora ≠ []

namespace CompositeMibCorpus

/-- `owner`: which corpus answers for a module. -/
def owner (composite : CompositeMibCorpus κ) (module : String) : Option CorpusRef :=
  bestByRevision ((composite.corpora.filter fun ref ↦
      module ∈ (composite.opened ref).modules).map fun ref ↦
    (ref, ((composite.opened ref).module module).bind ModuleRow.revision))

/-- `_owned` of a node: whether the corpus it came from answers for it. -/
def owned (composite : CompositeMibCorpus κ) (ref : CorpusRef) (node : Node κ) : Bool :=
  composite.owner node.module = some ref

/-- The first node at an OID that its corpus owns, of the corpora in order. -/
def firstOwnedAt (composite : CompositeMibCorpus κ) (oid : Oid) :
    List CorpusRef → Except OidKeyError (Option (Node κ))
  | [] => .ok none
  | ref :: refs => do
    match (← (composite.opened ref).node oid none) with
    | some found =>
      if composite.owned ref found then .ok (some found) else composite.firstOwnedAt oid refs
    | none => composite.firstOwnedAt oid refs

/-- `node`. -/
def node (composite : CompositeMibCorpus κ) (oid : Oid) (module : Option String) :
    Except OidKeyError (Option (Node κ)) :=
  match module with
  | some module =>
    match composite.owner module with
    | some ref => (composite.opened ref).node oid (some module)
    | none => .ok none
  | none => composite.firstOwnedAt oid composite.corpora

/-- Step over the nodes that a corpus does not own. The turns are bounded by the number of its
nodes, each of which is passed once. -/
def stepOver (composite : CompositeMibCorpus κ) (ref : CorpusRef) :
    ℕ → Option (Node κ) → Except OidKeyError (Option (Node κ))
  | _, none => .ok none
  | 0, some _ => .ok none
  | turns + 1, some found =>
    if composite.owned ref found then .ok (some found)
    else do
      let next ← (composite.opened ref).nextNode found.arcs
      composite.stepOver ref turns next

/-- The first node after an OID that a corpus owns. -/
def nextOwned (composite : CompositeMibCorpus κ) (oid : Oid) (ref : CorpusRef) :
    Except OidKeyError (Option (Node κ)) := do
  let found ← (composite.opened ref).nextNode oid
  composite.stepOver ref ((composite.opened ref).nodeRows.length + 1) found

/-- The earlier of the best node so far and another. -/
def earlier : Option (Node κ) → Option (Node κ) → Option (Node κ)
  | best, none => best
  | none, some found => some found
  | some best, some found => if found.key < best.key then some found else some best

/-- `next_node`: the first node ordered after an OID, across every corpus. -/
def nextNode (composite : CompositeMibCorpus κ) (oid : Oid) :
    Except OidKeyError (Option (Node κ)) :=
  composite.corpora.foldlM (fun best ref ↦ do
    let found ← composite.nextOwned oid ref
    .ok (earlier best found)) none

/-- `subtree`: every owned node at or below an OID, in OID order. -/
def subtree (composite : CompositeMibCorpus κ) (oid : Oid) :
    Except OidKeyError (List (Node κ)) := do
  let found ← composite.corpora.mapM fun ref ↦ do
    let nodes ← (composite.opened ref).subtree oid
    .ok (nodes.filter (composite.owned ref))
  .ok (LastMatch.sortByKey Node.place found.flatten)

/-- Walking with `next_node` from an OID, each time from the node found, to the end. -/
inductive Visits (composite : CompositeMibCorpus κ) : Oid → List (Node κ) → Prop
  | stop {oid : Oid} : composite.nextNode oid = .ok none → Visits composite oid []
  | step {oid : Oid} {node : Node κ} {nodes : List (Node κ)} :
      composite.nextNode oid = .ok (some node) → Visits composite node.arcs nodes →
        Visits composite oid (node :: nodes)

end CompositeMibCorpus

end Pysnmp.Smi.Corpus
