import Pysnmp.Foundation.Run
import Pysnmp.Smi.ManagedObjects

/-!
# Building the tree

`MibInstrumController.__indexMib` for a tree that nothing has been attached to yet. The symbols of
all modules are sorted by class into five dictionaries, a symbol of a later module in place of one
with the same name before it; then instances are attached to scalars and columns, columns to rows,
and rows, tables and scalars to the root. An object without a parent and a name that is taken both
raise an `SmiError`.

`Indexed` is what every tree built so has in common: objects stand under their own names and columns
one sub-identifier below their rows; `hosted_indexMib` says the same of the instances.
-/

set_option autoImplicit false
set_option relaxedAutoImplicit false

namespace Pysnmp.Smi.IndexMib

open Foundation Proto

/-- The managed objects among the symbols a module exports. -/
inductive MibSymbol
  | table (name : Oid)
  | row (name : Oid) (indexNames : List IndexName) (augmentingRows : List Oid)
  | column (column : ManagedObject)
  | scalarInstance (typeName instId : Oid) (syntaxClass : SyntaxClass) (syntaxObj : Syntax)
  | scalar (scalar : ManagedObject)

/-- The five dictionaries; an instance is kept with the name of its type. -/
structure Symbols where
  tables : OidOrderedDict Unit := ∅
  rows : OidOrderedDict MibTableRow := ∅
  cols : OidOrderedDict ManagedObject := ∅
  instances : OidOrderedDict (Oid × MibScalarInstance) := ∅
  scalars : OidOrderedDict ManagedObject := ∅

/-- Sort a symbol into its dictionary. -/
def Symbols.add (symbols : Symbols) : MibSymbol → Symbols
  | .table name => { symbols with tables := symbols.tables.insert name () }
  | .row name indexNames augmentingRows =>
    { symbols with rows := symbols.rows.insert name ⟨name, ∅, indexNames, augmentingRows⟩ }
  | .column column => { symbols with cols := symbols.cols.insert column.name column }
  | .scalarInstance typeName instId syntaxClass syntaxObj =>
    { symbols with
      instances := symbols.instances.insert (typeName ++ instId)
        (typeName, { name := typeName ++ instId, syntaxClass, syntaxObj := some syntaxObj }) }
  | .scalar scalar => { symbols with scalars := symbols.scalars.insert scalar.name scalar }

/-- The symbols of all modules, those of the module with the first name sorted in last. -/
def sortSymbols (mibSymbols : List (String × List MibSymbol)) : Symbols :=
  let sorted := mibSymbols.insertionSort fun first second ↦ first.1 ≥ second.1
  (sorted.flatMap Prod.snd).foldl Symbols.add {}

/-- `MibTree.registerSubtrees` for one subtree. -/
def registerSubtree {ν : Type} (vars : OidOrderedDict ν) (name : Oid) (subTree : ν) :
    Except MibException (OidOrderedDict ν) :=
  if (vars.get? name).isSome then
    .error (.smi { kind := .smiError })
  else
    .ok (vars.insert name subTree)

/-- Attach an instance to the scalar or column of its type. -/
def attachInstance (symbols : Symbols) (state : MibState)
    (entry : Oid × Oid × MibScalarInstance) : Except MibException MibState :=
  let attach (id : ObjectId) : Except MibException MibState := do
    let vars ← registerSubtree (state id).vars entry.1 entry.2.2
    .ok (Function.update state id
      { state id with vars, branchVersionId := (state id).branchVersionId + 1 })
  if (symbols.scalars.get? entry.2.1).isSome then
    attach (.scalar entry.2.1)
  else if (symbols.cols.get? entry.2.1).isSome then
    attach (.column entry.2.1)
  else
    .error (.smi { kind := .smiError })

/-- Attach a column to the row one sub-identifier above it. -/
def attachColumn (rows : OidOrderedDict MibTableRow) (entry : Oid × ManagedObject) :
    Except MibException (OidOrderedDict MibTableRow) :=
  match rows.get? entry.1.dropLast with
  | none => .error (.smi { kind := .smiError })
  | some row => do
    let columns ← registerSubtree row.columns entry.1 entry.2
    .ok (rows.insert entry.1.dropLast { row with columns })

/-- Attach a subtree to the root. -/
def attachNode (tree : MibTree) (entry : Oid × RootNode) : Except MibException MibTree :=
  registerSubtree tree entry.1 entry.2

/-- `MibInstrumController.__indexMib`, the first time: the tree, and the instances its objects start
with. -/
def indexMib (mibSymbols : List (String × List MibSymbol)) :
    Except MibException (MibTree × MibState) := do
  let symbols := sortSymbols mibSymbols
  let state ← symbols.instances.entries.foldlM (attachInstance symbols)
    fun _ ↦ ObjectState.initial
  let rows ← symbols.cols.entries.foldlM attachColumn symbols.rows
  let nodes := rows.entries.map (fun entry ↦ (entry.1, RootNode.row entry.2)) ++
    symbols.tables.entries.map (fun entry ↦ (entry.1, RootNode.table entry.1)) ++
    symbols.scalars.entries.map fun entry ↦ (entry.1, RootNode.scalar entry.2)
  let tree ← nodes.foldlM attachNode ∅
  .ok (tree, state)

/-! ### What the trees have in common -/

/-- The dictionaries hold their objects under the objects' names. -/
structure Symbols.Named (symbols : Symbols) : Prop where
  row : ∀ {name : Oid} {row : MibTableRow}, (name, row) ∈ symbols.rows.entries →
    row.name = name ∧ row.columns = ∅
  column : ∀ {name : Oid} {column : ManagedObject}, (name, column) ∈ symbols.cols.entries →
    column.name = name
  instance_ : ∀ {name typeName : Oid} {object : MibScalarInstance},
    (name, typeName, object) ∈ symbols.instances.entries →
      object.name = name ∧ typeName <+: name ∧ object.syntaxObj.isSome
  scalar : ∀ {name : Oid} {scalar : ManagedObject}, (name, scalar) ∈ symbols.scalars.entries →
    scalar.name = name

theorem named_add {symbols : Symbols} (hnamed : symbols.Named) (symbol : MibSymbol) :
    (symbols.add symbol).Named := by
  cases symbol with
  | table name => exact { hnamed with }
  | row name indexNames augmentingRows =>
    refine { hnamed with row := fun hmem ↦ ?_ }
    rcases SortedMap.mem_insert.mp hmem with ⟨rfl, rfl⟩ | ⟨-, hmem⟩
    · exact ⟨rfl, rfl⟩
    · exact hnamed.row hmem
  | column column =>
    refine { hnamed with column := fun hmem ↦ ?_ }
    rcases SortedMap.mem_insert.mp hmem with ⟨rfl, rfl⟩ | ⟨-, hmem⟩
    · rfl
    · exact hnamed.column hmem
  | scalarInstance typeName instId syntaxClass syntaxObj =>
    refine { hnamed with instance_ := fun hmem ↦ ?_ }
    rcases SortedMap.mem_insert.mp hmem with ⟨rfl, heq⟩ | ⟨-, hmem⟩
    · obtain ⟨rfl, rfl⟩ := Prod.mk.inj heq
      exact ⟨rfl, List.prefix_append _ _, rfl⟩
    · exact hnamed.instance_ hmem
  | scalar scalar =>
    refine { hnamed with scalar := fun hmem ↦ ?_ }
    rcases SortedMap.mem_insert.mp hmem with ⟨rfl, rfl⟩ | ⟨-, hmem⟩
    · rfl
    · exact hnamed.scalar hmem

theorem named_sortSymbols (mibSymbols : List (String × List MibSymbol)) :
    (sortSymbols mibSymbols).Named := by
  have hempty : ({} : Symbols).Named :=
    ⟨fun hmem ↦ absurd hmem List.not_mem_nil, fun hmem ↦ absurd hmem List.not_mem_nil,
      fun hmem ↦ absurd hmem List.not_mem_nil, fun hmem ↦ absurd hmem List.not_mem_nil⟩
  exact List.foldlRecOn _ _ hempty fun _ hnamed symbol _ ↦ named_add hnamed symbol

theorem registerSubtree_eq_ok_iff {ν : Type} {vars after : OidOrderedDict ν} {name : Oid}
    {subTree : ν} :
    registerSubtree vars name subTree = .ok after ↔
      vars.get? name = none ∧ after = vars.insert name subTree := by
  rw [registerSubtree]
  cases vars.get? name with
  | none => simp [eq_comm]
  | some found => simp

/-- An object is hosted by every state an instance is attached to. -/
theorem hosted_attachInstance {symbols : Symbols} {state after : MibState} {name typeName : Oid}
    {object : MibScalarInstance} (hhosted : Hosted state) (hname : object.name = name)
    (hbelow : typeName <+: name) (hsyntaxObj : object.syntaxObj.isSome)
    (hattach : attachInstance symbols state (name, typeName, object) = .ok after) :
    Hosted after := by
  have hid : ∀ id : ObjectId, id.name = typeName →
      (registerSubtree (state id).vars name object >>= fun vars ↦
        Except.ok (Function.update state id
          { state id with vars, branchVersionId := (state id).branchVersionId + 1 })) =
        (.ok after : Except MibException MibState) →
      Hosted after := by
    intro id hidName hrun
    cases hregister : registerSubtree (state id).vars name object with
    | error exception =>
      rw [hregister] at hrun
      cases hrun
    | ok vars =>
      rw [hregister] at hrun
      cases hrun
      obtain ⟨-, rfl⟩ := registerSubtree_eq_ok_iff.mp hregister
      have hmem : ∀ {other : ObjectId} {key : Oid} {found : MibScalarInstance},
          (key, found) ∈ (Function.update state id { state id with
            vars := (state id).vars.insert name object,
            branchVersionId := (state id).branchVersionId + 1 } other).vars.entries →
          (other = id ∧ key = name ∧ found = object) ∨
            (key, found) ∈ (state other).vars.entries := by
        intro other key found hfound
        rw [Function.update_apply] at hfound
        split_ifs at hfound with hother
        · subst hother
          rcases SortedMap.mem_insert.mp hfound with hnew | ⟨-, hold⟩
          · exact Or.inl ⟨rfl, hnew⟩
          · exact Or.inr hold
        · exact Or.inr hfound
      refine ⟨fun hfound ↦ ?_, fun hfound ↦ ?_, fun hfound ↦ ?_⟩
      · rcases hmem hfound with ⟨rfl, rfl, rfl⟩ | hold
        · exact hname
        · exact hhosted.name_eq hold
      · rcases hmem hfound with ⟨rfl, rfl, rfl⟩ | hold
        · rwa [hidName]
        · exact hhosted.below hold
      · rcases hmem hfound with ⟨rfl, rfl, rfl⟩ | hold
        · exact hsyntaxObj
        · exact hhosted.syntaxObj hold
  rw [attachInstance] at hattach
  split_ifs at hattach
  · exact hid (.scalar typeName) rfl hattach
  · exact hid (.column typeName) rfl hattach

/-- Objects stand under their own names, and columns one sub-identifier below their rows. -/
structure Indexed (tree : MibTree) : Prop where
  row : ∀ {name : Oid} {row : MibTableRow}, (name, RootNode.row row) ∈ tree.entries →
    row.name = name
  scalar : ∀ {name : Oid} {scalar : ManagedObject}, (name, RootNode.scalar scalar) ∈ tree.entries →
    scalar.name = name
  column : ∀ {name columnName : Oid} {row : MibTableRow} {column : ManagedObject},
    (name, RootNode.row row) ∈ tree.entries → (columnName, column) ∈ row.columns.entries →
      column.name = columnName ∧ columnName.dropLast = name

/-- The rows of a dictionary, with the columns attached so far. -/
def RowsNamed (rows : OidOrderedDict MibTableRow) : Prop :=
  ∀ {name : Oid} {row : MibTableRow}, (name, row) ∈ rows.entries →
    row.name = name ∧ ∀ {columnName : Oid} {column : ManagedObject},
      (columnName, column) ∈ row.columns.entries →
        column.name = columnName ∧ columnName.dropLast = name

theorem rowsNamed_attachColumn {rows after : OidOrderedDict MibTableRow} {columnName : Oid}
    {column : ManagedObject} (hrows : RowsNamed rows) (hname : column.name = columnName)
    (hattach : attachColumn rows (columnName, column) = .ok after) : RowsNamed after := by
  rw [attachColumn] at hattach
  cases hrow : rows.get? columnName.dropLast with
  | none =>
    rw [hrow] at hattach
    cases hattach
  | some row =>
    rw [hrow] at hattach
    simp only at hattach
    cases hregister : registerSubtree row.columns columnName column with
    | error exception =>
      rw [hregister] at hattach
      cases hattach
    | ok columns =>
      rw [hregister] at hattach
      cases hattach
      obtain ⟨-, rfl⟩ := registerSubtree_eq_ok_iff.mp hregister
      obtain ⟨hrowName, hcolumns⟩ := hrows (SortedMap.get?_eq_some_iff.mp hrow)
      intro name found hfound
      rcases SortedMap.mem_insert.mp hfound with ⟨rfl, rfl⟩ | ⟨-, hold⟩
      · refine ⟨hrowName, fun hcolumn ↦ ?_⟩
        rcases SortedMap.mem_insert.mp hcolumn with ⟨rfl, rfl⟩ | ⟨-, hcolumn⟩
        · exact ⟨hname, rfl⟩
        · exact hcolumns hcolumn
      · exact hrows hold

/-- What is in a tree was attached to it. -/
theorem mem_of_foldlM_attachNode {nodes : List (Oid × RootNode)} {tree : MibTree}
    (hattach : nodes.foldlM attachNode ∅ = .ok tree) {entry : Oid × RootNode}
    (hentry : entry ∈ tree.entries) : entry ∈ nodes := by
  refine foldlM_invariant hattach (fun tree ↦ ∀ entry ∈ tree.entries, entry ∈ nodes)
    (fun entry hmem ↦ absurd hmem List.not_mem_nil) (fun tree node hnode next htree hnext ↦ ?_)
    entry hentry
  obtain ⟨-, rfl⟩ := registerSubtree_eq_ok_iff.mp hnext
  rintro ⟨name, found⟩ hfound
  rcases SortedMap.mem_insert.mp hfound with ⟨rfl, rfl⟩ | ⟨-, hold⟩
  · exact hnode
  · exact htree _ hold

variable {mibSymbols : List (String × List MibSymbol)} {tree : MibTree} {state : MibState}

/-- A tree is built when each of the three attachments is. -/
theorem indexMib_eq_ok_iff :
    indexMib mibSymbols = .ok (tree, state) ↔
      (sortSymbols mibSymbols).instances.entries.foldlM (attachInstance (sortSymbols mibSymbols))
          (fun _ ↦ ObjectState.initial) = .ok state ∧
        ∃ rows, (sortSymbols mibSymbols).cols.entries.foldlM attachColumn
            (sortSymbols mibSymbols).rows = .ok rows ∧
          (rows.entries.map (fun entry ↦ (entry.1, RootNode.row entry.2)) ++
            (sortSymbols mibSymbols).tables.entries.map
              (fun entry ↦ (entry.1, RootNode.table entry.1)) ++
            (sortSymbols mibSymbols).scalars.entries.map
              fun entry ↦ (entry.1, RootNode.scalar entry.2)).foldlM attachNode ∅ = .ok tree := by
  rw [indexMib]
  simp only [bind, Except.bind]
  constructor
  · intro hindex
    split at hindex
    · cases hindex
    · rename_i instances hinstances
      split at hindex
      · cases hindex
      · rename_i rows hrows
        split at hindex
        · cases hindex
        · rename_i nodes hnodes
          cases hindex
          exact ⟨hinstances, rows, hrows, hnodes⟩
  · rintro ⟨hstate, rows, hrows, htree⟩
    simp only [hstate, hrows, htree]

theorem indexed_indexMib (hindex : indexMib mibSymbols = .ok (tree, state)) : Indexed tree := by
  obtain ⟨-, rows, hrows, htree⟩ := indexMib_eq_ok_iff.mp hindex
  have hnamed := named_sortSymbols mibSymbols
  have hrowsNamed : RowsNamed rows := by
    refine foldlM_invariant hrows RowsNamed (fun hmem ↦ ?_) fun rows entry hentry next hnext ↦
      rowsNamed_attachColumn hnext (hnamed.column hentry)
    obtain ⟨hname, hcolumns⟩ := hnamed.row hmem
    refine ⟨hname, fun hcolumn ↦ ?_⟩
    rw [hcolumns] at hcolumn
    exact absurd hcolumn List.not_mem_nil
  have hrow : ∀ {name : Oid} {row : MibTableRow}, (name, RootNode.row row) ∈ tree.entries →
      (name, row) ∈ rows.entries := by
    intro name row hmem
    have hnode := mem_of_foldlM_attachNode htree hmem
    simpa using hnode
  refine ⟨fun hmem ↦ (hrowsNamed (hrow hmem)).1, fun hmem ↦ ?_,
    fun hmem hcolumn ↦ (hrowsNamed (hrow hmem)).2 hcolumn⟩
  have hnode := mem_of_foldlM_attachNode htree hmem
  exact hnamed.scalar (by simpa using hnode)

/-- The instances a tree starts with are hosted by it. -/
theorem hosted_indexMib (hindex : indexMib mibSymbols = .ok (tree, state)) : Hosted state := by
  obtain ⟨hstate, -⟩ := indexMib_eq_ok_iff.mp hindex
  refine foldlM_invariant hstate Hosted ?_ ?_
  · exact ⟨fun hmem ↦ absurd hmem List.not_mem_nil, fun hmem ↦ absurd hmem List.not_mem_nil,
      fun hmem ↦ absurd hmem List.not_mem_nil⟩
  · rintro before ⟨name, typeName, object⟩ hentry after hbefore hattach
    obtain ⟨hname, hbelow, hsyntaxObj⟩ := (named_sortSymbols mibSymbols).instance_ hentry
    exact hosted_attachInstance hbefore hname hbelow hsyntaxObj hattach

end Pysnmp.Smi.IndexMib
