import Pysnmp.Smi.Successor

/-!
# GETNEXT through a view

With access control GETNEXT should answer with the first instance after a name that the requester
may read. The access function is asked before an instance is chosen, under the name the walk carries
when it reaches the scalar or column: the requested name, or the object's own. So the answer is the
specified one exactly when the view permits the name carried to the object of the first instance it
shows, and no name carried to an instance that may be an answer and stands before that one in the
tree (`ArrivesInView`). In a tree whose scalars and rows are apart that is so exactly when, up to
the first instance where it matters, the view treats the carried name as it treats the instance
(`CarriesView`). An instance outside the view whose column is inside it is leaked, and an instance
inside the view whose column is outside it is passed over (`not_answersNext_sampleModule`).
-/

set_option autoImplicit false
set_option relaxedAutoImplicit false

namespace Pysnmp.Smi.ViewWalk

open Foundation Proto ReadNext IndexMib WalkOrder Successor

/-- The instance may be an answer: it comes after the name, has a value and is readable. -/
def isCandidate (start : Oid) (cell : Cell) : Bool :=
  decide (start < cell.object.name) && cell.isPopulated && cell.definition.maxAccess.isReadable

/-- An instance in its place, below a subtree of the root. -/
structure Place where
  key : Oid
  node : RootNode
  cell : Cell

/-- The instances in the order of the tree: by the names of the subtrees of the root, within a row
by those of the columns, within an object by their own. -/
def places (tree : MibTree) (state : MibState) : List Place :=
  tree.entries.flatMap fun entry ↦ (nodeCells state entry.2).map (Place.mk entry.1 entry.2)

/-- The name carried from `start` to the object of an instance: `start` itself where the object is
the innermost one above it, or the object's own where that is ahead; none where the object or its
row is neither. -/
def Place.carried (tree : MibTree) (start : Oid) (place : Place) : Option Oid :=
  (carriedOn tree start place.key).bind fun name ↦
    match place.node with
    | .row row => carriedOn row.columns name place.cell.definition.name
    | _ => some name

/-- The instance may be an answer, and the view permits the name carried to its object. -/
def Place.isAdmitted (permits : Oid → Bool) (tree : MibTree) (start : Oid) (place : Place) : Bool :=
  isCandidate start place.cell && (place.carried tree start).any permits

/-- The instance may be an answer, and the view permits its own name. -/
def isPermitted (permits : Oid → Bool) (start : Oid) (cell : Cell) : Bool :=
  isCandidate start cell && permits cell.object.name

/-- The view permits the name carried to the object of the first permitted instance, and none that
is carried to a candidate before it in the order of the tree; and where no instance is permitted,
none that is carried to a candidate. -/
def ArrivesInView (permits : Oid → Bool) (tree : MibTree) (state : MibState) (start : Oid) : Prop :=
  (∃ before place after, places tree state = before ++ place :: after ∧
      (isPermitted permits start place.cell ∧ ∀ cell ∈ treeCells tree state,
        isPermitted permits start cell → place.cell.object.name ≤ cell.object.name) ∧
      place.isAdmitted permits tree start ∧
        ∀ earlier ∈ before, earlier.isAdmitted permits tree start = false) ∨
    ((∀ cell ∈ treeCells tree state, isPermitted permits start cell = false) ∧
      ∀ place ∈ places tree state, place.isAdmitted permits tree start = false)

/-- Up to the first candidate that the view permits under its own name or under the carried one, it
permits both or neither. -/
def CarriesView (permits : Oid → Bool) (tree : MibTree) (state : MibState) (start : Oid) : Prop :=
  ∀ before cell after, treeCells tree state = before ++ cell :: after → isCandidate start cell →
    (∀ earlier ∈ before, isCandidate start earlier →
      permits (carriedName start earlier.definition) = false ∧
        permits earlier.object.name = false) →
    permits (carriedName start cell.definition) = permits cell.object.name

variable {permits : Oid → Bool} {tree : MibTree} {state : MibState} {start : Oid}

theorem serves_carried_eq (cell : Cell) (carried : Oid) :
    serves (some permits) start (carried, cell) = (isCandidate start cell && permits carried) := by
  simp [serves, isCandidate, isVisible, Bool.and_assoc]

theorem isShown_after_eq (cell : Cell) :
    (decide (start < cell.object.name) && isShown (some permits) cell) =
      (isCandidate start cell && permits cell.object.name) := by
  simp [isShown, isCandidate, isVisible, Bool.and_assoc]

/-! ### The places of a tree -/

theorem Place.isAdmitted_iff {place : Place} :
    place.isAdmitted permits tree start ↔
      (start < place.cell.object.name ∧ place.cell.isPopulated ∧
        place.cell.definition.maxAccess.isReadable) ∧
        ∃ carried, place.carried tree start = some carried ∧ permits carried := by
  cases hcarried : place.carried tree start with
  | none => simp [Place.isAdmitted, hcarried]
  | some carried => simp [Place.isAdmitted, isCandidate, hcarried, and_assoc]

/-- The instances after `start` among those an object's walk arrives at. -/
theorem filter_objectArrivals_eq {definition : ManagedObject}
    {vars : OidOrderedDict MibScalarInstance} {name : Oid}
    (hnames : ∀ entry ∈ vars.entries, entry.2.name = entry.1)
    (hfrom : ∀ entry ∈ vars.entries, start < entry.1 → name ≤ entry.1) :
    ((objectArrivals definition vars name).filter fun arrival ↦ start < arrival.2.object.name) =
      (objectCells definition vars).filterMap fun cell ↦
        if start < cell.object.name then some (name, cell) else none := by
  have hkept : ∀ entry ∈ vars.entries,
      (decide (start < entry.2.name) && decide (name ≤ entry.1)) =
        decide (start < entry.2.name) := by
    intro entry hentry
    rw [hnames entry hentry, Bool.and_eq_left_iff_imp, decide_eq_true_iff, decide_eq_true_iff]
    exact hfrom entry hentry
  rw [objectArrivals, objectCells, List.filter_map, List.filter_filter, List.filterMap_map,
    ← List.filterMap_eq_filter, List.map_filterMap]
  refine List.filterMap_congr fun entry hentry ↦ ?_
  have hsame := hkept entry hentry
  simp only [Function.comp_apply] at hsame ⊢
  rw [Option.guard, hsame]
  by_cases hlt : start < entry.2.name
  · simp [hlt]
  · simp [hlt]

theorem eq_or_eq_of_carriedOn {ν : Type} {vars : OidOrderedDict ν} {name key carried : Oid}
    (hcarried : carriedOn vars name key = some carried) : carried = name ∨ carried = key := by
  rw [carriedOn] at hcarried
  split_ifs at hcarried with hahead hinside
  · exact .inr (Option.some.inj hcarried).symm
  · exact .inl (Option.some.inj hcarried).symm

/-- The instances after `start` below a row, those of the columns that the walk does not pass by. -/
theorem filter_rowArrivals_eq (hindexed : Indexed tree) (hhosted : Hosted state)
    {rowName name : Oid} {row : MibTableRow} (hrow : (rowName, RootNode.row row) ∈ tree.entries)
    (hname : name = start ∨ name = rowName) :
    ((rowArrivals state row name).filter fun arrival ↦ start < arrival.2.object.name) =
      (nodeCells state (.row row)).filterMap fun cell ↦
        if start < cell.object.name then
          (carriedOn row.columns name cell.definition.name).map fun carried ↦ (carried, cell)
        else none := by
  rw [rowArrivals, List.filter_flatMap, nodeCells, List.filterMap_flatMap,
    flatMap_visits_eq fun (column : ManagedObject) carried ↦
      (objectArrivals column (state (.column column.name)).vars carried).filter fun arrival ↦
        start < arrival.2.object.name]
  refine List.flatMap_congr fun entry hentry ↦ ?_
  obtain ⟨hcolumnName, hdropLast⟩ := hindexed.column hrow hentry
  have hcells : ∀ cell ∈ objectCells entry.2 (state (.column entry.2.name)).vars,
      cell.definition.name = entry.1 := by
    intro cell hcell
    obtain ⟨found, -, rfl⟩ := List.mem_map.mp hcell
    exact hcolumnName
  cases hcarried : carriedOn row.columns name entry.1 with
  | none =>
    refine (List.filterMap_eq_nil_iff.mpr fun cell hcell ↦ ?_).symm
    rw [hcells cell hcell, hcarried, Option.map_none, ite_self]
  | some carried =>
    have hbelow : ∀ found ∈ (state (.column entry.2.name)).vars.entries, entry.1 <+: found.1 := by
      intro found hfound
      rw [← hcolumnName]
      exact hhosted.below hfound
    have hrowBelow : rowName <+: entry.1 := hdropLast ▸ List.dropLast_prefix _
    rw [Option.map_some, Option.getD_some,
      filter_objectArrivals_eq (fun _ hmem ↦ hhosted.name_eq hmem) fun found hfound hlt ↦ ?_]
    · refine List.filterMap_congr fun cell hcell ↦ ?_
      rw [hcells cell hcell, hcarried, Option.map_some]
    · rcases eq_or_eq_of_carriedOn hcarried with rfl | rfl
      · rcases hname with rfl | rfl
        · exact hlt.le
        · exact PrefixOrder.le_of_prefix (hrowBelow.trans (hbelow found hfound))
      · exact PrefixOrder.le_of_prefix (hbelow found hfound)

/-- In every tree, the instances after the requested name that the walk arrives at are those of the
objects that it does not pass by, in the order of the tree. -/
theorem filter_treeArrivals_eq (hindexed : Indexed tree) (hhosted : Hosted state) (start : Oid) :
    ((treeArrivals tree state start).filter fun arrival ↦ start < arrival.2.object.name) =
      (places tree state).filterMap fun place ↦
        if start < place.cell.object.name then
          (place.carried tree start).map fun carried ↦ (carried, place.cell)
        else none := by
  rw [treeArrivals, List.filter_flatMap, places, List.filterMap_flatMap,
    flatMap_visits_eq fun (node : RootNode) name ↦
      (nodeArrivals state node name).filter fun arrival ↦ start < arrival.2.object.name]
  refine List.flatMap_congr fun entry hentry ↦ ?_
  rw [List.filterMap_map]
  cases hcarried : carriedOn tree start entry.1 with
  | none =>
    refine (List.filterMap_eq_nil_iff.mpr fun cell _ ↦ ?_).symm
    simp [Place.carried, hcarried]
  | some name =>
    have hname := eq_or_eq_of_carriedOn hcarried
    obtain ⟨key, node⟩ := entry
    rw [Option.map_some, Option.getD_some]
    cases node with
    | table tableName => rfl
    | row row =>
      refine (filter_rowArrivals_eq hindexed hhosted hentry hname).trans ?_
      refine List.filterMap_congr fun cell _ ↦ ?_
      simp [Place.carried, hcarried]
    | scalar scalar =>
      have hbelow : ∀ found ∈ (state (.scalar scalar.name)).vars.entries, key <+: found.1 := by
        intro found hfound
        rw [← hindexed.scalar hentry]
        exact hhosted.below hfound
      refine (filter_objectArrivals_eq (fun _ hmem ↦ hhosted.name_eq hmem)
        fun found hfound hlt ↦ ?_).trans ?_
      · rcases hname with rfl | rfl
        · exact hlt.le
        · exact PrefixOrder.le_of_prefix (hbelow found hfound)
      · refine List.filterMap_congr fun cell _ ↦ ?_
        simp [Place.carried, hcarried]

/-- The walk answers with the first instance in the order of the tree that it is let through to. -/
theorem nextAnswer_eq_find?_places (hindexed : Indexed tree) (hhosted : Hosted state) :
    nextAnswer (some permits) tree state start =
      (((places tree state).find? fun place ↦ place.isAdmitted permits tree start).map fun place ↦
        answerOf place.cell).getD (start, .endOfMib) := by
  have hafter : ∀ arrival, (decide (decide (start < arrival.2.object.name) = true ∧
      serves (some permits) start arrival = true)) = serves (some permits) start arrival := by
    intro arrival
    rw [serves, Bool.and_assoc, Bool.decide_and, Bool.decide_eq_true, Bool.decide_eq_true,
      ← Bool.and_assoc, Bool.and_self]
  have hfind : (treeArrivals tree state start).find? (serves (some permits) start) =
      ((treeArrivals tree state start).filter fun arrival ↦
        start < arrival.2.object.name).find? (serves (some permits) start) := by
    rw [List.find?_filter, funext hafter]
  have hadmitted : (fun place : Place ↦ Option.any (serves (some permits) start)
      (if start < place.cell.object.name then
        (place.carried tree start).map fun carried ↦ (carried, place.cell)
      else none)) = fun place ↦ place.isAdmitted permits tree start := by
    funext place
    cases hcarried : place.carried tree start with
    | none => simp [Place.isAdmitted, hcarried]
    | some carried =>
      by_cases hlt : start < place.cell.object.name
      · simp [Place.isAdmitted, hcarried, hlt, serves_carried_eq]
      · simp [Place.isAdmitted, hcarried, hlt, isCandidate]
  rw [nextAnswer, hfind, filter_treeArrivals_eq hindexed hhosted, List.find?_filterMap, hadmitted]
  cases hplace : (places tree state).find? fun place ↦ place.isAdmitted permits tree start with
  | none => rfl
  | some place =>
    obtain ⟨hlt, carried, hcarried, -⟩ := Place.isAdmitted_iff.mp (List.find?_some hplace)
    simp [hcarried, hlt.1, answerOf]

theorem mem_treeCells_iff {cell : Cell} :
    cell ∈ treeCells tree state ↔ ∃ place ∈ places tree state, place.cell = cell := by
  simp only [treeCells, places, List.mem_flatMap, List.mem_map]
  constructor
  · rintro ⟨entry, hentry, hcell⟩
    exact ⟨⟨entry.1, entry.2, cell⟩, ⟨entry, hentry, cell, hcell, rfl⟩, rfl⟩
  · rintro ⟨place, ⟨entry, hentry, found, hfound, rfl⟩, rfl⟩
    exact ⟨entry, hentry, hfound⟩

theorem isPermitted_eq (cell : Cell) :
    isPermitted permits start cell =
      (decide (start < cell.object.name) && isShown (some permits) cell) :=
  (isShown_after_eq cell).symm

/-- The specification, by the instances that the view permits. -/
theorem isNext_iff_isPermitted {answer : Oid × ReadValue} :
    IsNext (some permits) tree state start answer ↔
      (∃ cell ∈ treeCells tree state, isPermitted permits start cell ∧
          answer = answerOf cell ∧ ∀ other ∈ treeCells tree state,
            isPermitted permits start other → cell.object.name ≤ other.object.name) ∨
        (answer = (start, .endOfMib) ∧
          ∀ cell ∈ treeCells tree state, isPermitted permits start cell = false) := by
  have hpermitted : ∀ cell, isPermitted permits start cell = true ↔
      isShown (some permits) cell ∧ start < cell.object.name := by
    intro cell
    rw [isPermitted_eq, Bool.and_eq_true, decide_eq_true_iff, and_comm]
  simp only [IsNext, hpermitted, ← Bool.not_eq_true, not_and, and_imp, and_assoc]

/-- In every tree, the answer is the specified one when the walk arrives in the view. -/
theorem isNext_nextAnswer_iff (hindexed : Indexed tree) (hhosted : Hosted state) :
    IsNext (some permits) tree state start (nextAnswer (some permits) tree state start) ↔
      ArrivesInView permits tree state start := by
  rw [nextAnswer_eq_find?_places hindexed hhosted, isNext_iff_isPermitted, ArrivesInView]
  cases hfind : (places tree state).find? fun place ↦ place.isAdmitted permits tree start with
  | none =>
    have hnone : ∀ place ∈ places tree state, place.isAdmitted permits tree start = false :=
      fun place hplace ↦ Bool.eq_false_of_not_eq_true (List.find?_eq_none.mp hfind place hplace)
    constructor
    · rintro (⟨cell, -, -, hanswer, -⟩ | ⟨-, hpermitted⟩)
      · cases (Prod.mk.inj hanswer).2
      · exact .inr ⟨hpermitted, hnone⟩
    · rintro (⟨before, place, after, hsplit, -, hadmitted, -⟩ | ⟨hpermitted, -⟩)
      · rw [hnone place (by simp [hsplit])] at hadmitted
        cases hadmitted
      · exact .inr ⟨rfl, hpermitted⟩
  | some place =>
    obtain ⟨hadmitted, before, after, hsplit, hbefore⟩ := List.find?_eq_some_iff_append.mp hfind
    have hearlier : ∀ earlier ∈ before, earlier.isAdmitted permits tree start = false :=
      fun earlier hmem ↦ by simpa using hbefore earlier hmem
    constructor
    · rintro (⟨cell, -, hpermitted, hanswer, hleast⟩ | ⟨hanswer, -⟩)
      · have hname : place.cell.object.name = cell.object.name := (Prod.mk.inj hanswer).1
        have hcandidate := (Bool.and_eq_true_iff.mp hadmitted).1
        have hpermits := (Bool.and_eq_true_iff.mp hpermitted).2
        refine .inl ⟨before, place, after, hsplit, ⟨?_, hname ▸ hleast⟩, hadmitted, hearlier⟩
        rw [isPermitted, hcandidate, hname, hpermits, Bool.and_self]
      · cases (Prod.mk.inj hanswer).2
    · rintro (⟨others, first, rest, hothers, hfirst, hfirstAdmitted, hnone⟩ | ⟨-, hnone⟩)
      · have hfound : (places tree state).find? (fun place ↦ place.isAdmitted permits tree start) =
            some first := by
          refine List.find?_eq_some_iff_append.mpr ⟨hfirstAdmitted, others, rest, hothers, ?_⟩
          exact fun earlier hmem ↦ by simp [hnone earlier hmem]
        rw [hfind] at hfound
        obtain rfl := Option.some.inj hfound
        have hmem : place.cell ∈ treeCells tree state :=
          mem_treeCells_iff.mpr ⟨place, by simp [hothers], rfl⟩
        exact .inl ⟨place.cell, hmem, hfirst.1, rfl, hfirst.2⟩
      · rw [hnone place (by simp [hsplit])] at hadmitted
        cases hadmitted

/-- Two searches of a list without repetitions find the same element exactly when, up to the first
element that either of them wants, they want the same ones. -/
theorem find?_eq_find?_iff {β : Type} {elements : List β} {wanted other : β → Bool}
    (hnodup : elements.Nodup) :
    elements.find? wanted = elements.find? other ↔
      ∀ before element after, elements = before ++ element :: after →
        (∀ earlier ∈ before, wanted earlier = false ∧ other earlier = false) →
        wanted element = other element := by
  constructor
  · rintro hfind before element after rfl hbefore
    have hskip : ∀ test : β → Bool, (∀ earlier ∈ before, test earlier = false) →
        (before ++ element :: after).find? test = (element :: after).find? test := by
      intro test htest
      rw [List.find?_append, List.find?_eq_none.mpr fun earlier hmem ↦ by simp [htest earlier hmem],
        Option.none_or]
    rw [hskip wanted fun earlier hmem ↦ (hbefore earlier hmem).1,
      hskip other fun earlier hmem ↦ (hbefore earlier hmem).2, List.find?_cons, List.find?_cons]
      at hfind
    have hnotMem : element ∉ after :=
      (List.nodup_cons.mp (List.nodup_append.mp hnodup).2.1).1
    cases hwanted : wanted element <;> cases hother : other element
    · rfl
    · rw [hwanted, hother] at hfind
      exact absurd (List.mem_of_find?_eq_some hfind) hnotMem
    · rw [hwanted, hother] at hfind
      exact absurd (List.mem_of_find?_eq_some hfind.symm) hnotMem
    · rfl
  · intro hagree
    induction elements with
    | nil => rfl
    | cons head elements ih =>
      have hhead := hagree [] head elements rfl fun _ hmem ↦ absurd hmem List.not_mem_nil
      rw [List.find?_cons, List.find?_cons, hhead]
      cases hother : other head with
      | true => rfl
      | false =>
        refine ih (List.nodup_cons.mp hnodup).2 fun before element after hsplit hbefore ↦ ?_
        refine hagree (head :: before) element after (by rw [hsplit, List.cons_append]) ?_
        intro earlier hmem
        rcases List.mem_cons.mp hmem with rfl | hmem
        · exact ⟨hhead.trans hother, hother⟩
        · exact hbefore earlier hmem

/-- Instances in order give different answers. -/
theorem answer_eq_iff {cells : List Cell} (hsorted : cells.Pairwise fun first second ↦
      first.object.name < second.object.name) {found other : Option Cell}
    (hfound : ∀ cell, found = some cell → cell ∈ cells)
    (hother : ∀ cell, other = some cell → cell ∈ cells) :
    (found.map answerOf).getD (start, .endOfMib) = (other.map answerOf).getD (start, .endOfMib) ↔
      found = other := by
  refine ⟨fun heq ↦ ?_, fun heq ↦ by rw [heq]⟩
  cases found with
  | none =>
    cases other with
    | none => rfl
    | some cell => cases (Prod.mk.inj heq).2
  | some cell =>
    cases other with
    | none => cases (Prod.mk.inj heq).2
    | some otherCell =>
      exact congrArg some (eq_of_key_eq hsorted (hfound cell rfl) (hother otherCell rfl)
        (Prod.mk.inj heq).1)

/-- In a flat tree the answer is the specified one when the walk carries the view along. -/
theorem isNext_nextAnswer_iff_carriesView (hindexed : Indexed tree) (hflat : Flat tree)
    (hhosted : Hosted state) :
    IsNext (some permits) tree state start (nextAnswer (some permits) tree state start) ↔
      CarriesView permits tree state start := by
  have hsorted := pairwise_treeCells hindexed hflat hhosted
  have hnodup : (treeCells tree state).Nodup :=
    hsorted.imp fun hlt heq ↦ hlt.ne (congrArg (fun cell : Cell ↦ cell.object.name) heq)
  rw [isNext_iff hsorted, nextAnswer_eq hindexed hflat hhosted,
    answer_eq_iff hsorted (fun _ ↦ List.mem_of_find?_eq_some) fun _ ↦ List.mem_of_find?_eq_some,
    find?_eq_find?_iff hnodup]
  refine forall_congr' fun before ↦ forall_congr' fun cell ↦ forall_congr' fun after ↦
    imp_congr_right fun _ ↦ ?_
  simp only [serves_carried_eq, isShown_after_eq]
  have hearlier : (∀ earlier ∈ before,
      (isCandidate start earlier && permits (carriedName start earlier.definition)) = false ∧
        (isCandidate start earlier && permits earlier.object.name) = false) ↔
      ∀ earlier ∈ before, isCandidate start earlier →
        permits (carriedName start earlier.definition) = false ∧
          permits earlier.object.name = false := by
    refine forall₂_congr fun earlier _ ↦ ?_
    cases isCandidate start earlier <;> simp
  rw [hearlier]
  cases isCandidate start cell <;> simp

/-- Through a view, GETNEXT answers as specified exactly when the walk arrives in the view, whatever
the tree; in a tree whose scalars and rows are apart, exactly when it carries the view along. -/
theorem answersNext_iff_arrivesInView {mibSymbols : List (String × List MibSymbol)}
    {initial : MibState} {names : List Oid}
    (hindex : indexMib mibSymbols = .ok (tree, initial)) (hhosted : Hosted state) :
    (AnswersNext (some permits) tree state names ↔
        ∀ name ∈ names, ArrivesInView permits tree state name) ∧
      (ScalarsApart tree → RowsApart tree →
        (AnswersNext (some permits) tree state names ↔
          ∀ name ∈ names, CarriesView permits tree state name)) := by
  rw [answersNext_iff hhosted]
  refine ⟨forall₂_congr fun name _ ↦ isNext_nextAnswer_iff
    (indexed_indexMib hindex) hhosted, fun hscalars hrows ↦ ?_⟩
  exact forall₂_congr fun name _ ↦ isNext_nextAnswer_iff_carriesView (indexed_indexMib hindex)
    (flat_of_apart hscalars hrows) hhosted

/-! ### Samples -/

/-- A view of one column of the sample table, without the instance in it. -/
def columnOnly (name : Oid) : Bool := decide ([1, 2, 1, 2] <+: name) && name != [1, 2, 1, 2, 3]

/-- A view of that instance only. -/
def instanceOnly (name : Oid) : Bool := name == [1, 2, 1, 2, 3]

theorem answersNext_iff_arrivesInView_sampleModule :
    (AnswersNext (some instanceOnly) (treeOf sampleModule) (instancesOf sampleModule)
          [[1, 2, 1, 2, 3]] ↔
        ∀ name ∈ [[1, 2, 1, 2, 3]],
          ArrivesInView instanceOnly (treeOf sampleModule) (instancesOf sampleModule) name) ∧
      (ScalarsApart (treeOf sampleModule) → RowsApart (treeOf sampleModule) →
        (AnswersNext (some instanceOnly) (treeOf sampleModule) (instancesOf sampleModule)
            [[1, 2, 1, 2, 3]] ↔
          ∀ name ∈ [[1, 2, 1, 2, 3]],
            CarriesView instanceOnly (treeOf sampleModule) (instancesOf sampleModule) name)) :=
  have hindex : indexMib sampleModule = .ok (treeOf sampleModule, instancesOf sampleModule) := rfl
  answersNext_iff_arrivesInView hindex (hosted_indexMib hindex)

/-- After the sample's scalar, the instance is answered with through the view of its column that
leaves it out, and passed over through the view that holds nothing else. -/
theorem not_answersNext_sampleModule :
    (readNextVars (accessOf (some columnOnly)) (treeOf sampleModule) [[1, 1, 0]]).run
        (instancesOf sampleModule) =
      (.ok [([1, 2, 1, 2, 3], .value (some ⟨some (.integer 20)⟩))], instancesOf sampleModule) ∧
    ¬ AnswersNext (some columnOnly) (treeOf sampleModule) (instancesOf sampleModule) [[1, 1, 0]] ∧
    (readNextVars (accessOf (some instanceOnly)) (treeOf sampleModule) [[1, 1, 0]]).run
        (instancesOf sampleModule) = (.ok [([1, 1, 0], .endOfMib)], instancesOf sampleModule) ∧
    ¬ AnswersNext (some instanceOnly) (treeOf sampleModule) (instancesOf sampleModule)
      [[1, 1, 0]] := by
  have hhosted : Hosted (instancesOf sampleModule) :=
    hosted_indexMib (show indexMib sampleModule = .ok (treeOf sampleModule, _) from rfl)
  have hcolumn : nextAnswer (some columnOnly) (treeOf sampleModule) (instancesOf sampleModule)
      [1, 1, 0] = ([1, 2, 1, 2, 3], .value (some ⟨some (.integer 20)⟩)) := by decide
  have hinstance : nextAnswer (some instanceOnly) (treeOf sampleModule) (instancesOf sampleModule)
      [1, 1, 0] = ([1, 1, 0], .endOfMib) := by decide
  refine ⟨?_, fun hanswers ↦ ?_, ?_, fun hanswers ↦ ?_⟩
  · rw [readNextVars_run _ _ hhosted, List.map_singleton, hcolumn]
  · have hnext := (answersNext_iff hhosted).mp hanswers _ (List.mem_singleton.mpr rfl)
    rw [hcolumn] at hnext
    rcases hnext with ⟨cell, -, hshown, -, hanswer, -⟩ | ⟨hanswer, -⟩
    · rw [isShown, isVisible, ← (Prod.mk.inj hanswer).1] at hshown
      simp [columnOnly] at hshown
    · cases (Prod.mk.inj hanswer).2
  · rw [readNextVars_run _ _ hhosted, List.map_singleton, hinstance]
  · have hnext := (answersNext_iff hhosted).mp hanswers _ (List.mem_singleton.mpr rfl)
    rw [hinstance] at hnext
    rcases hnext with ⟨cell, -, -, -, hanswer, -⟩ | ⟨-, hnone⟩
    · cases (Prod.mk.inj hanswer).2
    · exact hnone ⟨⟨[1, 2, 1, 2], .readOnly, integerClass, false⟩,
        { name := [1, 2, 1, 2, 3], syntaxClass := integerClass,
          syntaxObj := some ⟨some (.integer 20)⟩ }⟩
        (List.mem_of_mem_getLast? rfl) rfl (by decide)

end Pysnmp.Smi.ViewWalk
