import Pysnmp.Smi.IndexMib
import Pysnmp.Smi.ReadNext

/-!
# The order of the walk

Through a view (`accessOf`), a GETNEXT is a search through the instances in the order in which the
walk arrives at them, each with the name it carries there (`treeArrivals`); what is found is the
first instance that is after the requested name, has a value, is readable and whose carried name the
view permits (`readNextVars_run`).

In a tree where no scalar and no row has its name above another subtree of the root (`Flat`), the
instances after the requested name are arrived at in the order of their names, none is left out, and
the carried name is the requested one below the object it lies in and the object's own name
elsewhere (`filter_treeArrivals`).
-/

set_option autoImplicit false
set_option relaxedAutoImplicit false

namespace Pysnmp.Smi.WalkOrder

open Foundation Foundation.Effect Proto FlipFlopFsm ReadNext IndexMib

/-! ### Views -/

/-- The access function of a view; `none` is no access control. -/
def accessOf (view : Option (Oid → Bool)) : Option AccessFunction :=
  view.map fun permits name _ ↦ if permits name then .permitted else .refused

/-- What the view shows of the objects with this access under this name. -/
def isVisible (view : Option (Oid → Bool)) (maxAccess : MaxAccess) (name : Oid) : Bool :=
  view.all fun permits ↦ maxAccess.isReadable && permits name

theorem checkAccess_accessOf (view : Option (Oid → Bool)) (maxAccess : MaxAccess) (idx : ℕ)
    (oName : Option Oid) (name : Oid) :
    checkAccess maxAccess.isReadable .noAccess .read ⟨idx, accessOf view, oName⟩ name =
      if isVisible view maxAccess name then .ok ()
      else .error (.smi ⟨.noAccess, some idx, some name, none⟩) := by
  cases view with
  | none => rfl
  | some permits =>
    by_cases hreadable : maxAccess.isReadable = true <;>
      by_cases hpermits : permits name = true <;>
      simp [checkAccess, accessOf, isVisible, hreadable, hpermits]

/-! ### Arrivals -/

/-- An instance and the definition of its object. -/
structure Cell where
  definition : ManagedObject
  object : MibScalarInstance

/-- The instance has a value. -/
def Cell.isPopulated (cell : Cell) : Bool := cell.object.syntaxObj.any Syntax.isValue

/-- What the walk from `start` answers with: a populated instance after `start` that the view shows
under the carried name. -/
def serves (view : Option (Oid → Bool)) (start : Oid) (arrival : Oid × Cell) : Bool :=
  decide (start < arrival.2.object.name) && arrival.2.isPopulated &&
    isVisible view arrival.2.definition.maxAccess arrival.1

/-- The instances of an object that a walk with this name arrives at. -/
def objectArrivals (definition : ManagedObject) (vars : OidOrderedDict MibScalarInstance)
    (name : Oid) : List (Oid × Cell) :=
  (vars.entries.filter fun entry ↦ name ≤ entry.1).map fun entry ↦ (name, ⟨definition, entry.2⟩)

/-- The instances below a row that a walk with this name arrives at. -/
def rowArrivals (state : MibState) (row : MibTableRow) (name : Oid) : List (Oid × Cell) :=
  (visits row.columns row.columns.getBranch name).flatMap fun entry ↦
    objectArrivals entry.2 (state (.column entry.2.name)).vars entry.1

/-- The instances below a subtree of the root that a walk with this name arrives at. -/
def nodeArrivals (state : MibState) (node : RootNode) (name : Oid) : List (Oid × Cell) :=
  match node with
  | .table _ => []
  | .row row => rowArrivals state row name
  | .scalar scalar => objectArrivals scalar (state (.scalar scalar.name)).vars name

/-- The instances that the walk from a name arrives at, in order. -/
def treeArrivals (tree : MibTree) (state : MibState) (name : Oid) : List (Oid × Cell) :=
  (visits tree tree.getBranch name).flatMap fun entry ↦ nodeArrivals state entry.2 entry.1

/-- The walk's answer. -/
def nextAnswer (view : Option (Oid → Bool)) (tree : MibTree) (state : MibState) (name : Oid) :
    Oid × ReadValue :=
  (((treeArrivals tree state name).find? (serves view name)).map fun arrival ↦
    (arrival.2.object.name, .value arrival.2.object.syntaxObj)).getD (name, .endOfMib)

/-! ### The walk finds the first arrival that serves -/

section Finds

variable {α : Type} {answer : MibScalarInstance → α} {view : Option (Oid → Bool)} {idx : ℕ}
  {start : Oid} {state : MibState}

theorem columnBranch_eq_some_iff {vars : OidOrderedDict MibScalarInstance} {name : Oid}
    {entry : Oid × MibScalarInstance} :
    columnBranch vars name = some entry ↔ entry ∈ vars.entries ∧ entry.1 = name := by
  obtain ⟨key, object⟩ := entry
  rw [columnBranch, Option.map_eq_some_iff]
  constructor
  · rintro ⟨found, hfound, heq⟩
    obtain ⟨rfl, rfl⟩ := Prod.mk.inj heq
    exact ⟨SortedMap.get?_eq_some_iff.mp hfound, rfl⟩
  · rintro ⟨hmem, rfl⟩
    exact ⟨object, SortedMap.get?_eq_some_iff.mpr hmem, rfl⟩

/-- An instance answers when it is reached by its own name and serves. -/
theorem finds_instance {definition : ManagedObject} {carried name : Oid}
    {object : MibScalarInstance} (hsyntaxObj : object.syntaxObj.isSome)
    (hvisible : isVisible view definition.maxAccess carried = true) :
    Finds isSkipped (serves view start) (fun arrival ↦ answer arrival.2.object)
      (instanceNext answer ⟨idx, accessOf view, some start⟩ object name)
      (if object.name = name then [(carried, ⟨definition, object⟩)] else []) := by
  obtain ⟨syntaxObj, hsome⟩ := Option.isSome_iff_exists.mp hsyntaxObj
  have hreached : instanceReached ⟨idx, accessOf view, some start⟩ object name =
      .ok (decide (name = object.name) && (decide (start < name) && syntaxObj.isValue)) := by
    rw [instanceReached, MibScalarInstance.isValue, hsome]
    by_cases hname : name = object.name
    · by_cases hstart : start < name <;> simp [← hname, hstart]
    · simp [hname]
  have hnext : instanceNext answer ⟨idx, accessOf view, some start⟩ object name =
      if decide (name = object.name) && (decide (start < name) && syntaxObj.isValue) then
        .ok (answer object)
      else .error (.smi ⟨.noSuchInstance, some idx, some name, none⟩) := by
    rw [instanceNext, hreached]
    rfl
  rw [hnext]
  by_cases hname : object.name = name
  · subst hname
    have hserves : serves view start (carried, ⟨definition, object⟩) =
        (decide (start < object.name) && syntaxObj.isValue) := by
      simp [serves, Cell.isPopulated, hsome, hvisible]
    rw [if_pos rfl, decide_eq_true rfl, Bool.true_and]
    cases htest : decide (start < object.name) && syntaxObj.isValue with
    | true => exact ⟨skipped_ok _ _, by simp [hserves, htest, Except.toOption]⟩
    | false =>
      refine ⟨?_, by simp [hserves, htest, Except.toOption]⟩
      rintro exception ⟨⟩
      rfl
  · rw [if_neg hname, decide_eq_false (Ne.symm hname)]
    exact finds_error rfl

/-- Of what an object's walk visits, the instances reached by their own names are those from the
name on. -/
theorem flatMap_visits_instances {definition : ManagedObject}
    {vars : OidOrderedDict MibScalarInstance} {branch : Oid → Option (Oid × MibScalarInstance)}
    (hnames : ∀ entry ∈ vars.entries, entry.2.name = entry.1)
    (hkey : ∀ entry ∈ vars.entries, branch entry.1 = some entry)
    (hmem : ∀ name entry, branch name = some entry → entry ∈ vars.entries) (name : Oid) :
    ((visits vars branch name).flatMap fun entry ↦
        if entry.2.name = entry.1 then [(name, (⟨definition, entry.2⟩ : Cell))] else []) =
      objectArrivals definition vars name := by
  have hafter : ((vars.after name).flatMap fun entry ↦
      if entry.2.name = entry.1 then [(name, (⟨definition, entry.2⟩ : Cell))] else []) =
        (vars.after name).map fun entry ↦ (name, ⟨definition, entry.2⟩) := by
    rw [List.map_eq_flatMap]
    exact List.flatMap_congr fun entry hentry ↦
      if_pos (hnames entry (List.mem_of_mem_filter hentry))
  rw [visits, objectArrivals, SortedMap.filter_le_eq, List.flatMap_append, List.map_append, hafter]
  congr 1
  cases hget : vars.get? name with
  | some object =>
    have hentry := SortedMap.get?_eq_some_iff.mp hget
    have hname : object.name = name := hnames _ hentry
    rw [hkey _ hentry]
    simp [hname]
  | none =>
    cases hbranch : branch name with
    | none => rfl
    | some entry =>
      have hentry := hmem name entry hbranch
      have hne : entry.2.name ≠ name := by
        rintro rfl
        rw [hnames entry hentry] at hget
        exact SortedMap.get?_eq_none_iff.mp hget entry.2 hentry
      simp [hne]

theorem finds_object {definition : ManagedObject} {vars : OidOrderedDict MibScalarInstance}
    {branch : Oid → Option (Oid × MibScalarInstance)}
    (hnames : ∀ entry ∈ vars.entries, entry.2.name = entry.1)
    (hsyntaxObj : ∀ entry ∈ vars.entries, entry.2.syntaxObj.isSome)
    (hkey : ∀ entry ∈ vars.entries, branch entry.1 = some entry)
    (hmem : ∀ name entry, branch name = some entry → entry ∈ vars.entries) (name : Oid) :
    Finds isSkipped (serves view start) (fun arrival ↦ answer arrival.2.object)
      (objectNext answer ⟨idx, accessOf view, some start⟩ definition vars branch name)
      (objectArrivals definition vars name) := by
  rw [objectNext, checkAccess_accessOf]
  cases hvisible : isVisible view definition.maxAccess name with
  | true =>
    rw [if_pos rfl, ← flatMap_visits_instances hnames hkey hmem]
    change Finds _ _ _ (walkSubtrees _ _ _ _ _) _
    rw [walkSubtrees_eq hkey]
    refine finds_firstSuccess rfl fun entry hentry ↦ finds_instance ?_ hvisible
    rcases List.mem_append.mp hentry with hhead | hafter
    · obtain ⟨found, hfound, rfl⟩ := Option.map_eq_some_iff.mp (Option.mem_toList.mp hhead)
      exact hsyntaxObj found (hmem name found hfound)
    · exact hsyntaxObj entry (List.mem_of_mem_filter hafter)
  | false =>
    have hnone : (objectArrivals definition vars name).find? (serves view start) = none := by
      refine List.find?_eq_none.mpr fun arrival harrival ↦ ?_
      obtain ⟨entry, -, rfl⟩ := List.mem_map.mp harrival
      simp [serves, hvisible]
    refine ⟨?_, by rw [hnone]; rfl⟩
    rintro exception ⟨⟩
    rfl

theorem finds_column (hhosted : Hosted state) (column : ManagedObject) (name : Oid) :
    Finds isSkipped (serves view start) (fun arrival ↦ answer arrival.2.object)
      (columnNext answer ⟨idx, accessOf view, some start⟩ state column name)
      (objectArrivals column (state (.column column.name)).vars name) :=
  finds_object (fun _ hentry ↦ hhosted.name_eq hentry) (fun _ hentry ↦ hhosted.syntaxObj hentry)
    (fun _ hentry ↦ columnBranch_eq_some_iff.mpr ⟨hentry, rfl⟩)
    (fun _ _ hbranch ↦ (columnBranch_eq_some_iff.mp hbranch).1) name

theorem finds_node (hhosted : Hosted state) (node : RootNode) (name : Oid) :
    Finds isSkipped (serves view start) (fun arrival ↦ answer arrival.2.object)
      (nodeNext answer ⟨idx, accessOf view, some start⟩ state node name)
      (nodeArrivals state node name) := by
  cases node with
  | table tableName => exact finds_error rfl
  | row row =>
    rw [nodeNext, rowNext, walkSubtrees_eq fun _ hentry ↦ OidOrderedDict.getBranch_of_mem hentry]
    exact finds_firstSuccess rfl fun entry _ ↦ finds_column hhosted entry.2 entry.1
  | scalar scalar =>
    exact finds_object (fun _ hentry ↦ hhosted.name_eq hentry)
      (fun _ hentry ↦ hhosted.syntaxObj hentry)
      (fun _ hentry ↦ OidOrderedDict.getBranch_of_mem hentry)
      (fun _ _ hbranch ↦ (OidOrderedDict.getBranch_eq_some_iff.mp hbranch).1) name

/-- The walk from the root answers for the first arrival that serves. -/
theorem treeNext_eq (hhosted : Hosted state) (tree : MibTree)
    (exhausted : Except MibException α) (name : Oid) (oName : Option Oid) :
    treeNext answer ⟨idx, accessOf view, oName⟩ tree state exhausted name =
      (((treeArrivals tree state name).find? (serves view name)).map fun arrival ↦
        .ok (answer arrival.2.object)).getD exhausted := by
  rw [treeNext, walkSubtrees_eq fun _ hentry ↦ OidOrderedDict.getBranch_of_mem hentry]
  exact firstSuccess_eq_of_finds fun entry _ ↦ finds_node hhosted entry.2 entry.1

/-- GETNEXT through a view answers every binding, and changes nothing. -/
theorem readNextVars_run (view : Option (Oid → Bool)) (tree : MibTree) (hhosted : Hosted state)
    (names : List Oid) :
    (readNextVars (accessOf view) tree names).run state =
      (.ok (names.map (nextAnswer view tree state)), state) := by
  have htest : ∀ idx, ∀ name ∈ names,
      (readNextHandlers (accessOf view) tree .readTestNext idx name).run state =
        (.ok ((fun _ ↦ none) name), state) := by
    intro idx name _
    have hok : readTestNext ⟨idx, accessOf view, none⟩ tree state name = .ok () := by
      rw [readTestNext, treeNext_eq hhosted]
      cases (treeArrivals tree state name).find? (serves view name) <;> rfl
    rw [readNextHandlers, bind_run_of_ok (get_run state)]
    simp only [hok]
    rfl
  have hget : ∀ idx, ∀ name ∈ names,
      (readNextHandlers (accessOf view) tree .readGetNext idx name).run state =
        (.ok (some (nextAnswer view tree state name)), state) := by
    intro idx name _
    have hok : readGetNext ⟨idx, accessOf view, none⟩ tree state name =
        .ok (nextAnswer view tree state name) := by
      rw [readGetNext, treeNext_eq hhosted, nextAnswer]
      cases (treeArrivals tree state name).find? (serves view name) <;> rfl
    rw [readNextHandlers, bind_run_of_ok (get_run state)]
    simp only [hok]
    rfl
  rw [readNextVars, flipFlopFsm_fsmReadNextVar,
    bind_run_of_ok (runPhase_run_of_ok 0 htest)]
  simp only [orStop]
  rw [bind_run_of_ok (runPhase_run_of_ok 0 hget)]
  simp

end Finds

/-! ### Flat trees -/

/-- No scalar and no row has its name above another subtree of the root. Tables hold nothing and may
stand anywhere; a column has a name. -/
structure Flat (tree : MibTree) : Prop where
  scalar : ∀ entry ∈ tree.entries, entry.2.isScalar = true →
    ∀ other ∈ tree.entries, other.1 ≠ entry.1 → ¬ entry.1 <+: other.1
  row : ∀ entry ∈ tree.entries, entry.2.isRow = true →
    ∀ other ∈ tree.entries, other.1 ≠ entry.1 → ¬ entry.1 <+: other.1
  column : ∀ entry ∈ tree.entries, ∀ column ∈ entry.2.columns, column.1 ≠ []

/-- The instances of an object. -/
def objectCells (definition : ManagedObject) (vars : OidOrderedDict MibScalarInstance) :
    List Cell :=
  vars.entries.map fun entry ↦ ⟨definition, entry.2⟩

/-- The instances below a subtree of the root. -/
def nodeCells (state : MibState) (node : RootNode) : List Cell :=
  match node with
  | .table _ => []
  | .row row => row.columns.entries.flatMap fun entry ↦
      objectCells entry.2 (state (.column entry.2.name)).vars
  | .scalar scalar => objectCells scalar (state (.scalar scalar.name)).vars

/-- The instances of a tree, object by object. -/
def treeCells (tree : MibTree) (state : MibState) : List Cell :=
  tree.entries.flatMap fun entry ↦ nodeCells state entry.2

/-- The name the walk from `start` carries when it reaches an object of a flat tree. -/
def carriedName (start : Oid) (definition : ManagedObject) : Oid :=
  if definition.name <+: start then start else definition.name

/-- Those of some instances that come after `start`, each as the walk arrives at it. -/
def carry (start : Oid) (cells : List Cell) : List (Oid × Cell) :=
  (cells.filter fun cell ↦ start < cell.object.name).map fun cell ↦
    (carriedName start cell.definition, cell)

theorem carry_flatMap {β : Type} (start : Oid) (elements : List β) (cells : β → List Cell) :
    carry start (elements.flatMap cells) = elements.flatMap fun element ↦
      carry start (cells element) := by
  rw [carry, List.filter_flatMap, List.map_flatMap]
  rfl

section Visits

variable {ν β : Type} {vars : OidOrderedDict ν} {part : Oid × ν → List β}

/-- Where only one entry of a list has a part, the parts of all are that one's. -/
theorem flatMap_eq_of_forall_ne {entries : List (Oid × ν)} {entry : Option (Oid × ν)}
    (hnodup : entries.Nodup) (hmem : ∀ found, entry = some found → found ∈ entries)
    (hrest : ∀ other ∈ entries, entry ≠ some other → part other = []) :
    entries.flatMap part = entry.toList.flatMap part := by
  induction entries with
  | nil =>
    cases entry with
    | none => rfl
    | some found => exact absurd (hmem found rfl) List.not_mem_nil
  | cons head entries ih =>
    obtain ⟨hhead, hnodup⟩ := List.nodup_cons.mp hnodup
    rw [List.flatMap_cons]
    by_cases heq : entry = some head
    · have hothers : entries.flatMap part = [] := by
        refine List.flatMap_eq_nil_iff.mpr fun other hother ↦
          hrest other (List.mem_cons_of_mem _ hother) ?_
        rw [heq]
        rintro ⟨⟩
        exact hhead hother
      rw [hothers, heq]
      simp
    · rw [hrest head List.mem_cons_self heq, List.nil_append]
      refine ih hnodup (fun found hfound ↦ ?_) fun other hother ↦
        hrest other (List.mem_cons_of_mem _ hother)
      exact (List.mem_cons.mp (hmem found hfound)).resolve_left fun heqHead ↦
        heq (hfound.trans (congrArg some heqHead))

/-- The name a walk with `name` has at the entry of a node with this key: the key where it lies
ahead, and `name` itself where it lies in the entry and in none with a longer key. The walk passes
by the other entries. -/
def carriedOn (vars : OidOrderedDict ν) (name key : Oid) : Option Oid :=
  if name < key then
    some key
  else if key <+: name ∧
      ∀ entry ∈ vars.entries, entry.1 <+: name → entry.1.length ≤ key.length then
    some name
  else
    none

/-- A walk visits the entries in order, those it does not pass by. -/
theorem flatMap_visits_eq (visit : ν → Oid → List β) (name : Oid) :
    ((visits vars vars.getBranch name).flatMap fun entry ↦ visit entry.2 entry.1) =
      vars.entries.flatMap fun entry ↦
        ((carriedOn vars name entry.1).map (visit entry.2)).getD [] := by
  have hnodup : vars.entries.Nodup := vars.sorted.imp fun hlt heq ↦ hlt.ne (congrArg Prod.fst heq)
  have hlater : (vars.after name).flatMap (fun entry ↦ visit entry.2 entry.1) =
      (vars.after name).flatMap fun entry ↦
        ((carriedOn vars name entry.1).map (visit entry.2)).getD [] := by
    refine List.flatMap_congr fun entry hentry ↦ ?_
    rw [carriedOn, if_pos (SortedMap.mem_after.mp hentry).2]
    rfl
  have hupTo : (vars.entries.filter fun entry ↦ entry.1 ≤ name).flatMap (fun entry ↦
      ((carriedOn vars name entry.1).map (visit entry.2)).getD []) =
      (vars.getBranch name).toList.flatMap fun entry ↦
        ((carriedOn vars name entry.1).map (visit entry.2)).getD [] := by
    refine flatMap_eq_of_forall_ne (hnodup.filter _) (fun found hfound ↦ ?_)
      fun other hother hne ↦ ?_
    · obtain ⟨hmem, hbegins, -⟩ := OidOrderedDict.getBranch_eq_some_iff.mp hfound
      exact List.mem_filter.mpr ⟨hmem, decide_eq_true (PrefixOrder.le_of_prefix hbegins)⟩
    · obtain ⟨hmem, hle⟩ := List.mem_filter.mp hother
      rw [carriedOn, if_neg (of_decide_eq_true hle).not_gt, if_neg]
      · rfl
      · rintro ⟨hbegins, hlongest⟩
        exact hne (OidOrderedDict.getBranch_eq_some_iff.mpr ⟨hmem, hbegins, hlongest⟩)
  have hbranches : ((vars.getBranch name).map fun entry ↦ (name, entry.2)).toList.flatMap
      (fun entry ↦ visit entry.2 entry.1) = (vars.getBranch name).toList.flatMap fun entry ↦
        ((carriedOn vars name entry.1).map (visit entry.2)).getD [] := by
    cases hfound : vars.getBranch name with
    | none => rfl
    | some found =>
      obtain ⟨-, hbegins, hlongest⟩ := OidOrderedDict.getBranch_eq_some_iff.mp hfound
      have hcarried : carriedOn vars name found.1 = some name := by
        rw [carriedOn, if_neg (PrefixOrder.le_of_prefix hbegins).not_gt,
          if_pos ⟨hbegins, hlongest⟩]
      simp [hcarried]
  rw [visits, List.flatMap_append, hbranches, hlater, SortedMap.entries_eq_append vars name,
    List.flatMap_append, hupTo]

/-- What a walk with a name visits has the same parts as all entries together, when the entries it
passes by have none: those before the name that it does not lie in, and those that lie above
others. -/
theorem flatMap_visits (visit : ν → Oid → List β) {name : Oid}
    (hafter : ∀ entry ∈ vars.entries, name < entry.1 → visit entry.2 entry.1 = part entry)
    (hbranch : ∀ entry ∈ vars.entries, entry.1 <+: name → visit entry.2 name = part entry)
    (hpast : ∀ entry ∈ vars.entries, entry.1 < name → ¬ entry.1 <+: name → part entry = [])
    (habove : ∀ entry ∈ vars.entries, ∀ other ∈ vars.entries, other.1 ≠ entry.1 →
      entry.1 <+: other.1 → part entry = []) :
    ((visits vars vars.getBranch name).flatMap fun entry ↦ visit entry.2 entry.1) =
      vars.entries.flatMap part := by
  have hnodup : vars.entries.Nodup := vars.sorted.imp fun hlt heq ↦ hlt.ne (congrArg Prod.fst heq)
  have hupTo : (vars.entries.filter fun entry ↦ entry.1 ≤ name).flatMap part =
      (vars.getBranch name).toList.flatMap part := by
    refine flatMap_eq_of_forall_ne (hnodup.filter _) (fun found hfound ↦ ?_)
      fun other hother hne ↦ ?_
    · obtain ⟨hmem, hbegins, -⟩ := OidOrderedDict.getBranch_eq_some_iff.mp hfound
      exact List.mem_filter.mpr ⟨hmem, decide_eq_true (PrefixOrder.le_of_prefix hbegins)⟩
    · obtain ⟨hmem, hle⟩ := List.mem_filter.mp hother
      by_cases hbegins : other.1 <+: name
      · cases hfound : vars.getBranch name with
        | none => exact absurd hbegins (OidOrderedDict.getBranch_eq_none_iff.mp hfound other hmem)
        | some found =>
          obtain ⟨hfoundMem, hfoundPrefix, hlongest⟩ :=
            OidOrderedDict.getBranch_eq_some_iff.mp hfound
          refine habove other hmem found hfoundMem (fun heq ↦ hne ?_)
            (List.prefix_of_prefix_length_le hbegins hfoundPrefix (hlongest other hmem hbegins))
          obtain ⟨key, node⟩ := found
          obtain ⟨otherKey, otherNode⟩ := other
          obtain rfl : key = otherKey := heq
          rw [hfound, SortedMap.eq_of_mem_of_mem hmem hfoundMem]
      · refine hpast other hmem (lt_of_le_of_ne (of_decide_eq_true hle) ?_) hbegins
        rintro rfl
        exact hbegins List.prefix_rfl
  have hbranches : ((vars.getBranch name).map fun entry ↦ (name, entry.2)).toList.flatMap
      (fun entry ↦ visit entry.2 entry.1) = (vars.getBranch name).toList.flatMap part := by
    cases hfound : vars.getBranch name with
    | none => rfl
    | some found =>
      obtain ⟨hmem, hbegins, -⟩ := OidOrderedDict.getBranch_eq_some_iff.mp hfound
      simp [hbranch found hmem hbegins]
  have hlater : (vars.after name).flatMap (fun entry ↦ visit entry.2 entry.1) =
      (vars.after name).flatMap part :=
    List.flatMap_congr fun entry hentry ↦
      hafter entry (SortedMap.mem_after.mp hentry).1 (SortedMap.mem_after.mp hentry).2
  rw [visits, List.flatMap_append, hbranches, hlater, SortedMap.entries_eq_append vars name,
    List.flatMap_append, hupTo]

/-- The parts of entries that lie below the entries' keys are in order, when the keys above others
have none. -/
theorem pairwise_flatMap_entries {key : β → Oid}
    (hbelow : ∀ entry ∈ vars.entries, ∀ element ∈ part entry, entry.1 <+: key element)
    (hpart : ∀ entry ∈ vars.entries,
      (part entry).Pairwise fun first second ↦ key first < key second)
    (habove : ∀ entry ∈ vars.entries, ∀ other ∈ vars.entries, other.1 ≠ entry.1 →
      entry.1 <+: other.1 → part entry = []) :
    (vars.entries.flatMap part).Pairwise fun first second ↦ key first < key second := by
  refine List.pairwise_flatMap.mpr ⟨hpart, vars.sorted.imp_of_mem ?_⟩
  intro entry other hentry hother hlt element helement otherElement hotherElement
  refine PrefixOrder.lt_of_lt_of_not_prefix hlt (fun hbegins ↦ ?_) (hbelow entry hentry _ helement)
    (hbelow other hother _ hotherElement)
  rw [habove entry hentry other hother hlt.ne' hbegins] at helement
  exact absurd helement List.not_mem_nil

end Visits

section Flat

variable {tree : MibTree} {state : MibState} {start : Oid}

/-- What lies below a name that comes before `start`, and not above it, is passed. -/
theorem carry_eq_nil {cells : List Cell} {name : Oid}
    (hbelow : ∀ cell ∈ cells, name <+: cell.object.name) (hlt : name < start)
    (hbegins : ¬ name <+: start) : carry start cells = [] := by
  rw [carry, List.map_eq_nil_iff, List.filter_eq_nil_iff]
  intro cell hcell
  simpa using (PrefixOrder.lt_of_lt_of_not_prefix hlt hbegins (hbelow cell hcell)
    List.prefix_rfl).le

theorem prefix_of_mem_objectCells (hhosted : Hosted state) {definition : ManagedObject}
    {id : ObjectId} (hid : id.name = definition.name) {cell : Cell}
    (hcell : cell ∈ objectCells definition (state id).vars) :
    definition.name <+: cell.object.name := by
  obtain ⟨entry, hentry, rfl⟩ := List.mem_map.mp hcell
  rw [← hid, hhosted.name_eq hentry]
  exact hhosted.below hentry

/-- The instances after `start` among those an object's walk arrives at. -/
theorem filter_objectArrivals {definition : ManagedObject}
    {vars : OidOrderedDict MibScalarInstance} {name : Oid}
    (hnames : ∀ entry ∈ vars.entries, entry.2.name = entry.1)
    (hbelow : ∀ entry ∈ vars.entries, definition.name <+: entry.1)
    (hname : carriedName start definition = name) :
    ((objectArrivals definition vars name).filter fun arrival ↦ start < arrival.2.object.name) =
      carry start (objectCells definition vars) := by
  have hfrom : ∀ entry ∈ vars.entries,
      (decide (start < entry.2.name) && decide (name ≤ entry.1)) =
        decide (start < entry.2.name) := by
    intro entry hentry
    rw [hnames entry hentry, Bool.and_eq_left_iff_imp, decide_eq_true_iff, decide_eq_true_iff]
    intro hlt
    rw [← hname, carriedName]
    split_ifs
    · exact hlt.le
    · exact PrefixOrder.le_of_prefix (hbelow entry hentry)
  rw [objectArrivals, carry, objectCells, List.filter_map, List.filter_map, List.map_map,
    List.filter_filter]
  refine congrArg₂ List.map (funext fun entry ↦ ?_) (List.filter_congr hfrom)
  rw [Function.comp_apply, hname]

/-- The columns of a row have names of one length, so none is above another. -/
theorem length_columnName (hindexed : Indexed tree) (hflat : Flat tree) {rowName : Oid}
    {row : MibTableRow} (hrow : (rowName, RootNode.row row) ∈ tree.entries)
    {entry : Oid × ManagedObject} (hentry : entry ∈ row.columns.entries) :
    entry.1.length = rowName.length + 1 := by
  have hpos := List.length_pos_iff.mpr (hflat.column _ hrow entry hentry)
  rw [← (hindexed.column hrow hentry).2, List.length_dropLast]
  omega

/-- The instances after `start` among those a row's walk arrives at. -/
theorem filter_rowArrivals (hindexed : Indexed tree) (hflat : Flat tree) (hhosted : Hosted state)
    {rowName name : Oid} {row : MibTableRow} (hrow : (rowName, RootNode.row row) ∈ tree.entries)
    (hname : rowName <+: start ∧ name = start ∨ start < rowName ∧ name = rowName) :
    ((rowArrivals state row name).filter fun arrival ↦ start < arrival.2.object.name) =
      carry start (row.columns.entries.flatMap fun entry ↦
        objectCells entry.2 (state (.column entry.2.name)).vars) := by
  have hcolumn : ∀ entry ∈ row.columns.entries, ∀ carried, carriedName start entry.2 = carried →
      ((objectArrivals entry.2 (state (.column entry.2.name)).vars carried).filter fun arrival ↦
        start < arrival.2.object.name) =
      carry start (objectCells entry.2 (state (.column entry.2.name)).vars) :=
    fun entry _ carried hcarried ↦ filter_objectArrivals
      (fun _ hmem ↦ hhosted.name_eq hmem) (fun _ hmem ↦ hhosted.below hmem) hcarried
  rw [rowArrivals, List.filter_flatMap, carry_flatMap]
  have hbelow : ∀ entry ∈ row.columns.entries, rowName <+: entry.1 := by
    intro entry hentry
    rw [← (hindexed.column hrow hentry).2]
    exact List.dropLast_prefix _
  have hname' : start ≤ name := by
    rcases hname with ⟨-, rfl⟩ | ⟨hlt, rfl⟩
    · exact le_rfl
    · exact hlt.le
  refine flatMap_visits (fun (column : ManagedObject) carried ↦
      (objectArrivals column (state (.column column.name)).vars carried).filter fun arrival ↦
        start < arrival.2.object.name)
    (fun entry hentry hlt ↦ ?_) (fun entry hentry hbegins ↦ ?_)
    (fun entry hentry hlt hbegins ↦ ?_) (fun entry hentry other hother hne hbegins ↦ ?_)
  · refine hcolumn entry hentry entry.1 ?_
    rw [carriedName, if_neg, (hindexed.column hrow hentry).1]
    rw [(hindexed.column hrow hentry).1]
    exact fun hbegins ↦ ((PrefixOrder.le_of_prefix hbegins).trans hname').not_gt hlt
  · refine hcolumn entry hentry name ?_
    rcases hname with ⟨-, rfl⟩ | ⟨-, rfl⟩
    · rw [carriedName, (hindexed.column hrow hentry).1, if_pos hbegins]
    · have hle := hbegins.length_le
      rw [length_columnName hindexed hflat hrow hentry] at hle
      omega
  · rcases hname with ⟨-, rfl⟩ | ⟨-, rfl⟩
    · refine carry_eq_nil (fun cell hcell ↦ ?_) hlt hbegins
      rw [← (hindexed.column hrow hentry).1]
      exact prefix_of_mem_objectCells hhosted rfl hcell
    · exact absurd hlt (PrefixOrder.le_of_prefix (hbelow entry hentry)).not_gt
  · refine absurd (hbegins.eq_of_length ?_) hne.symm
    rw [length_columnName hindexed hflat hrow hentry, length_columnName hindexed hflat hrow hother]

theorem prefix_of_mem_nodeCells (hindexed : Indexed tree) (hhosted : Hosted state)
    {entry : Oid × RootNode} (hentry : entry ∈ tree.entries) {cell : Cell}
    (hcell : cell ∈ nodeCells state entry.2) : entry.1 <+: cell.object.name := by
  obtain ⟨name, node⟩ := entry
  cases node with
  | table tableName => exact absurd hcell List.not_mem_nil
  | row row =>
    obtain ⟨columnEntry, hcolumn, hcell⟩ := List.mem_flatMap.mp hcell
    obtain ⟨hcolumnName, hdropLast⟩ := hindexed.column hentry hcolumn
    have hbegins := prefix_of_mem_objectCells hhosted rfl hcell
    rw [hcolumnName] at hbegins
    rw [← hdropLast]
    exact (List.dropLast_prefix _).trans hbegins
  | scalar scalar =>
    rw [← hindexed.scalar hentry]
    exact prefix_of_mem_objectCells hhosted rfl hcell

/-- Only what holds nothing may stand above another subtree. -/
theorem nodeCells_eq_nil (hflat : Flat tree) {entry other : Oid × RootNode}
    (hentry : entry ∈ tree.entries) (hother : other ∈ tree.entries) (hne : other.1 ≠ entry.1)
    (hbegins : entry.1 <+: other.1) : nodeCells state entry.2 = [] := by
  obtain ⟨name, node⟩ := entry
  cases node with
  | table tableName => rfl
  | row row => exact absurd hbegins (hflat.row _ hentry rfl other hother hne)
  | scalar scalar => exact absurd hbegins (hflat.scalar _ hentry rfl other hother hne)

/-- In a flat tree the walk arrives at every instance after the requested name, in the order of the
tree. -/
theorem filter_treeArrivals (hindexed : Indexed tree) (hflat : Flat tree)
    (hhosted : Hosted state) (start : Oid) :
    ((treeArrivals tree state start).filter fun arrival ↦ start < arrival.2.object.name) =
      carry start (treeCells tree state) := by
  have hnode : ∀ entry ∈ tree.entries, ∀ name,
      (entry.1 <+: start ∧ name = start ∨ start < entry.1 ∧ name = entry.1) →
      ((nodeArrivals state entry.2 name).filter fun arrival ↦ start < arrival.2.object.name) =
        carry start (nodeCells state entry.2) := by
    rintro ⟨key, node⟩ hentry name hname
    cases node with
    | table tableName => rfl
    | row row => exact filter_rowArrivals hindexed hflat hhosted hentry hname
    | scalar scalar =>
      refine filter_objectArrivals (fun _ hmem ↦ hhosted.name_eq hmem)
        (fun _ hmem ↦ hhosted.below hmem) ?_
      rw [carriedName, hindexed.scalar hentry]
      rcases hname with ⟨hbegins, rfl⟩ | ⟨hlt, rfl⟩
      · exact if_pos hbegins
      · exact if_neg fun hbegins ↦ (PrefixOrder.le_of_prefix hbegins).not_gt hlt
  rw [treeArrivals, treeCells, List.filter_flatMap, carry_flatMap]
  refine flatMap_visits (fun (node : RootNode) name ↦
      (nodeArrivals state node name).filter fun arrival ↦ start < arrival.2.object.name)
    (fun entry hentry hlt ↦ hnode entry hentry entry.1 (Or.inr ⟨hlt, rfl⟩))
    (fun entry hentry hbegins ↦ hnode entry hentry start (Or.inl ⟨hbegins, rfl⟩))
    (fun entry hentry hlt hbegins ↦ carry_eq_nil
      (fun cell hcell ↦ prefix_of_mem_nodeCells hindexed hhosted hentry hcell) hlt hbegins)
    (fun entry hentry other hother hne hbegins ↦ ?_)
  rw [nodeCells_eq_nil hflat hentry hother hne hbegins]
  rfl

/-- The instances of an object are in order. -/
theorem pairwise_objectCells (hhosted : Hosted state) (definition : ManagedObject)
    (id : ObjectId) : (objectCells definition (state id).vars).Pairwise fun first second ↦
      first.object.name < second.object.name := by
  refine List.pairwise_map.mpr ((state id).vars.sorted.imp_of_mem ?_)
  intro first second hfirst hsecond hlt
  rwa [← hhosted.name_eq hfirst, ← hhosted.name_eq hsecond] at hlt

/-- The instances of a flat tree are in the order of their names. -/
theorem pairwise_treeCells (hindexed : Indexed tree) (hflat : Flat tree) (hhosted : Hosted state) :
    (treeCells tree state).Pairwise fun first second ↦
      first.object.name < second.object.name := by
  refine pairwise_flatMap_entries
    (fun entry hentry cell hcell ↦ prefix_of_mem_nodeCells hindexed hhosted hentry hcell)
    (fun entry hentry ↦ ?_)
    fun entry hentry other hother hne hbegins ↦ nodeCells_eq_nil hflat hentry hother hne hbegins
  obtain ⟨name, node⟩ := entry
  cases node with
  | table tableName => exact List.Pairwise.nil
  | scalar scalar => exact pairwise_objectCells hhosted scalar _
  | row row =>
    refine pairwise_flatMap_entries (fun columnEntry hcolumn cell hcell ↦ ?_)
      (fun columnEntry _ ↦ pairwise_objectCells hhosted columnEntry.2 _)
      fun columnEntry hcolumn other hother hne hbegins ↦ ?_
    · rw [← (hindexed.column hentry hcolumn).1]
      exact prefix_of_mem_objectCells hhosted rfl hcell
    · refine absurd (hbegins.eq_of_length ?_) hne.symm
      rw [length_columnName hindexed hflat hentry hcolumn,
        length_columnName hindexed hflat hentry hother]

end Flat

end Pysnmp.Smi.WalkOrder
