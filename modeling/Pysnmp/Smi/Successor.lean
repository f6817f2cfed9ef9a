import Pysnmp.Smi.WalkOrder

/-!
# GETNEXT and the lexicographic successor

What GETNEXT is for: the answer to a name is the instance with the least name after it, among the
instances that have a value and that the requester may see (`IsNext`). Without access control it is
that, in every tree of modules whose scalars and rows have no other objects under their names
(`readNextVars_successor`), and repeating it lists the instances after a name once each and in
order. Where a scalar is registered under a row the walk turns back from the scalar to the root and
leaves out what the row still holds (`not_isNext_scalarUnderRow`).
-/

set_option autoImplicit false
set_option relaxedAutoImplicit false

namespace Pysnmp.Smi.Successor

open Foundation Foundation.Effect Proto FlipFlopFsm ReadNext IndexMib WalkOrder

/-- The instance has a value and the view shows it under its own name. -/
def isShown (view : Option (Oid → Bool)) (cell : Cell) : Bool :=
  cell.isPopulated && isVisible view cell.definition.maxAccess cell.object.name

/-- The answer an instance gives. -/
def answerOf (cell : Cell) : Oid × ReadValue := (cell.object.name, .value cell.object.syntaxObj)

/-- The answer is the first instance after the name that is shown, or the end of the MIB when there
is none. -/
def IsNext (view : Option (Oid → Bool)) (tree : MibTree) (state : MibState) (start : Oid)
    (answer : Oid × ReadValue) : Prop :=
  (∃ cell ∈ treeCells tree state, isShown view cell ∧ start < cell.object.name ∧
      answer = answerOf cell ∧ ∀ other ∈ treeCells tree state, isShown view other →
        start < other.object.name → cell.object.name ≤ other.object.name) ∨
    (answer = (start, .endOfMib) ∧
      ∀ cell ∈ treeCells tree state, isShown view cell → ¬ start < cell.object.name)

/-- GETNEXT answers every name with the first instance after it that is shown. -/
def AnswersNext (view : Option (Oid → Bool)) (tree : MibTree) (state : MibState)
    (names : List Oid) : Prop :=
  ∃ answers, (readNextVars (accessOf view) tree names).run state = (.ok answers, state) ∧
    List.Forall₂ (IsNext view tree state) names answers

/-- No scalar's name is a prefix of the name of another managed object. -/
structure ScalarsApart (tree : MibTree) : Prop where
  node : ∀ entry ∈ tree.entries, entry.2.isScalar = true →
    ∀ other ∈ tree.entries, other.1 ≠ entry.1 → ¬ entry.1 <+: other.1
  column : ∀ entry ∈ tree.entries, entry.2.isScalar = true →
    ∀ other ∈ tree.entries, ∀ column ∈ other.2.columns, ¬ entry.1 <+: column.1

/-- No row's name is a prefix of the name of another row, a table or a scalar, and every column has
a name. -/
structure RowsApart (tree : MibTree) : Prop where
  node : ∀ entry ∈ tree.entries, entry.2.isRow = true →
    ∀ other ∈ tree.entries, other.1 ≠ entry.1 → ¬ entry.1 <+: other.1
  column : ∀ entry ∈ tree.entries, ∀ column ∈ entry.2.columns, column.1 ≠ []

theorem flat_of_apart {tree : MibTree} (hscalars : ScalarsApart tree) (hrows : RowsApart tree) :
    Flat tree :=
  ⟨hscalars.node, hrows.node, hrows.column⟩

/-! ### Searching a list in order -/

section Search

variable {β : Type} {key : β → Oid} {elements : List β} {wanted : β → Bool}

/-- In a list in order the first wanted element is the least one. -/
theorem le_of_find?_eq_some {first : β}
    (hsorted : elements.Pairwise fun one other ↦ key one < key other)
    (hfind : elements.find? wanted = some first) {other : β} (hother : other ∈ elements)
    (hwanted : wanted other = true) : key first ≤ key other := by
  obtain ⟨-, before, after, rfl, hbefore⟩ := List.find?_eq_some_iff_append.mp hfind
  rcases List.mem_append.mp hother with hmem | hmem
  · have hnot := hbefore other hmem
    rw [hwanted] at hnot
    cases hnot
  · rcases List.mem_cons.mp hmem with rfl | hmem
    · exact le_rfl
    · obtain ⟨-, htail, -⟩ := List.pairwise_append.mp hsorted
      exact ((List.pairwise_cons.mp htail).1 other hmem).le

/-- Elements of a list in order with the same key are the same. -/
theorem eq_of_key_eq (hsorted : elements.Pairwise fun one other ↦ key one < key other)
    {one other : β} (hone : one ∈ elements) (hother : other ∈ elements)
    (hkey : key one = key other) : one = other := by
  by_contra hne
  have hsymm : Std.Symm fun one other : β ↦ key one ≠ key other := ⟨fun _ _ ↦ Ne.symm⟩
  have hpairs : elements.Pairwise fun one other ↦ key one ≠ key other := hsorted.imp ne_of_lt
  exact hpairs.forall hone hother hne hkey

end Search

section Flat

variable {tree : MibTree} {state : MibState} {view : Option (Oid → Bool)} {start : Oid}

/-- In a flat tree the answer is the first instance, in the order of names, that serves under the
name the walk carries to it. -/
theorem nextAnswer_eq (hindexed : Indexed tree) (hflat : Flat tree) (hhosted : Hosted state)
    (view : Option (Oid → Bool)) (start : Oid) :
    nextAnswer view tree state start =
      (((treeCells tree state).find? fun cell ↦
        serves view start (carriedName start cell.definition, cell)).map answerOf).getD
        (start, .endOfMib) := by
  have hafter : ∀ arrival, (decide (decide (start < arrival.2.object.name) = true ∧
      serves view start arrival = true)) = serves view start arrival := by
    intro arrival
    rw [serves, Bool.and_assoc, Bool.decide_and, Bool.decide_eq_true, Bool.decide_eq_true,
      ← Bool.and_assoc, Bool.and_self]
  have hfind : (treeArrivals tree state start).find? (serves view start) =
      ((treeCells tree state).find? fun cell ↦
        serves view start (carriedName start cell.definition, cell)).map fun cell ↦
          (carriedName start cell.definition, cell) := by
    calc (treeArrivals tree state start).find? (serves view start)
        = ((treeArrivals tree state start).filter fun arrival ↦
            start < arrival.2.object.name).find? (serves view start) := by
          rw [List.find?_filter, funext hafter]
      _ = (carry start (treeCells tree state)).find? (serves view start) := by
          rw [filter_treeArrivals hindexed hflat hhosted start]
      _ = _ := by
          rw [carry, List.find?_map, List.find?_filter]
          congr 2
          exact funext fun cell ↦ hafter (carriedName start cell.definition, cell)
  rw [nextAnswer, hfind, Option.map_map]
  rfl

/-- The one answer that meets the specification, when the instances are in order. -/
theorem isNext_iff (hsorted : (treeCells tree state).Pairwise fun one other ↦
      one.object.name < other.object.name) {answer : Oid × ReadValue} :
    IsNext view tree state start answer ↔
      answer = (((treeCells tree state).find? fun cell ↦
        decide (start < cell.object.name) && isShown view cell).map answerOf).getD
          (start, .endOfMib) := by
  cases hfind : (treeCells tree state).find? fun cell ↦
      decide (start < cell.object.name) && isShown view cell with
  | none =>
    have hnone : ∀ cell ∈ treeCells tree state, isShown view cell →
        ¬ start < cell.object.name := by
      intro cell hcell hshown hlt
      exact List.find?_eq_none.mp hfind cell hcell (by simp [hlt, hshown])
    constructor
    · rintro (⟨cell, hcell, hshown, hlt, -, -⟩ | ⟨hanswer, -⟩)
      · exact absurd hlt (hnone cell hcell hshown)
      · exact hanswer
    · exact fun hanswer ↦ Or.inr ⟨hanswer, hnone⟩
  | some first =>
    have hfirst := List.mem_of_find?_eq_some hfind
    have hwanted := List.find?_some hfind
    simp only [Bool.and_eq_true, decide_eq_true_eq] at hwanted
    obtain ⟨hlt, hshown⟩ := hwanted
    have hleast : ∀ other ∈ treeCells tree state, isShown view other →
        start < other.object.name → first.object.name ≤ other.object.name :=
      fun other hother hotherShown hotherLt ↦
        le_of_find?_eq_some hsorted hfind hother (by simp [hotherLt, hotherShown])
    constructor
    · rintro (⟨cell, hcell, hcellShown, hcellLt, rfl, hcellLeast⟩ | ⟨-, hnone⟩)
      · rw [eq_of_key_eq hsorted hcell hfirst (le_antisymm (hcellLeast first hfirst hshown hlt)
          (hleast cell hcell hcellShown hcellLt))]
        rfl
      · exact absurd hlt (hnone first hfirst hshown)
    · exact fun hanswer ↦ Or.inl ⟨first, hfirst, hshown, hlt, hanswer, hleast⟩

/-- Without access control the walk answers as specified. -/
theorem isNext_nextAnswer (hindexed : Indexed tree) (hflat : Flat tree) (hhosted : Hosted state)
    (start : Oid) : IsNext none tree state start (nextAnswer none tree state start) := by
  refine (isNext_iff (pairwise_treeCells hindexed hflat hhosted)).mpr ?_
  rw [nextAnswer_eq hindexed hflat hhosted]
  congr 3
  refine funext fun cell ↦ ?_
  simp [serves, isShown, isVisible]

end Flat

/-- GETNEXT answers the names of its bindings one by one. -/
theorem answersNext_iff {view : Option (Oid → Bool)} {tree : MibTree} {state : MibState}
    {names : List Oid} (hhosted : Hosted state) :
    AnswersNext view tree state names ↔
      ∀ name ∈ names, IsNext view tree state name (nextAnswer view tree state name) := by
  rw [AnswersNext, readNextVars_run view tree hhosted names]
  constructor
  · rintro ⟨answers, heq, hnext⟩
    cases heq
    exact List.forall₂_same.mp (List.forall₂_map_right_iff.mp hnext)
  · exact fun hnext ↦ ⟨_, rfl, List.forall₂_map_right_iff.mpr (List.forall₂_same.mpr hnext)⟩

/-! ### Walking a tree -/

/-- Repeated GETNEXT, each from the name answered last, for at most so many turns; it ends when the
end of the MIB is answered. -/
def walk (tree : MibTree) : ℕ → Oid → Effect MibState MibException (List (Oid × ReadValue))
  | 0, _ => pure []
  | turns + 1, start => do
    match ← readNextVars none tree [start] with
    | [(name, .value value)] => do
      let rest ← walk tree turns name
      pure ((name, .value value) :: rest)
    | _ => pure []

/-- The answers of the populated instances after a name. -/
def listing (tree : MibTree) (state : MibState) (start : Oid) : List (Oid × ReadValue) :=
  ((treeCells tree state).filter fun cell ↦
    decide (start < cell.object.name) && cell.isPopulated).map answerOf

/-- The first element that is wanted of a list in order, and the rest of those wanted. -/
theorem filter_eq_cons {β : Type} (key : β → Oid) {elements : List β} {wanted : β → Bool}
    {start : Oid} {first : β}
    (hsorted : elements.Pairwise fun one other ↦ key one < key other)
    (hfind : elements.find? (fun element ↦ decide (start < key element) && wanted element) =
      some first) :
    elements.filter (fun element ↦ decide (start < key element) && wanted element) =
      first :: elements.filter fun element ↦
        decide (key first < key element) && wanted element := by
  obtain ⟨hwanted, before, after, rfl, hbefore⟩ := List.find?_eq_some_iff_append.mp hfind
  obtain ⟨-, htail, hacross⟩ := List.pairwise_append.mp hsorted
  have hafter := (List.pairwise_cons.mp htail).1
  have hlt : start < key first := of_decide_eq_true (Bool.and_eq_true_iff.mp hwanted).1
  have hnone : before.filter (fun element ↦ decide (start < key element) && wanted element) = [] :=
    List.filter_eq_nil_iff.mpr fun element helement ↦ by
      simpa [imp_iff_not_or] using hbefore element helement
  have hnoneFirst :
      before.filter (fun element ↦ decide (key first < key element) && wanted element) = [] := by
    refine List.filter_eq_nil_iff.mpr fun element helement ↦ ?_
    simp [(hacross element helement first List.mem_cons_self).le.not_gt]
  have hlater : after.filter (fun element ↦ decide (start < key element) && wanted element) =
      after.filter fun element ↦ decide (key first < key element) && wanted element := by
    refine List.filter_congr fun element helement ↦ ?_
    rw [decide_eq_true (hafter element helement),
      decide_eq_true (hlt.trans (hafter element helement))]
  rw [List.filter_append, List.filter_append, hnone, hnoneFirst, List.filter_cons, if_pos hwanted,
    List.filter_cons_of_neg (by simp), hlater]
  rfl

/-- A walk lists the populated instances after a name, and stops after the last one. -/
theorem walk_run {tree : MibTree} {state : MibState} (hindexed : Indexed tree) (hflat : Flat tree)
    (hhosted : Hosted state) (turns : ℕ) (start : Oid) :
    (walk tree turns start).run state = (.ok ((listing tree state start).take turns), state) := by
  induction turns generalizing start with
  | zero => rfl
  | succ turns ih =>
    have hread : (readNextVars none tree [start]).run state =
        (.ok [nextAnswer none tree state start], state) :=
          readNextVars_run none tree hhosted [start]
    have hanswer := (isNext_iff (pairwise_treeCells hindexed hflat hhosted)).mp
      (isNext_nextAnswer hindexed hflat hhosted start)
    have hshown : (fun cell ↦ decide (start < cell.object.name) && isShown none cell) =
        fun cell : Cell ↦ decide (start < cell.object.name) && cell.isPopulated := by
      simp [isShown, isVisible]
    rw [hshown] at hanswer
    rw [walk, bind_run_of_ok hread, hanswer]
    cases hfind : (treeCells tree state).find? fun cell ↦
        decide (start < cell.object.name) && cell.isPopulated with
    | none =>
      rw [listing, List.filter_eq_nil_iff.mpr (List.find?_eq_none.mp hfind)]
      rfl
    | some first =>
      have hlisting : listing tree state start =
          answerOf first :: listing tree state first.object.name := by
        rw [listing, filter_eq_cons (fun cell : Cell ↦ cell.object.name)
          (pairwise_treeCells hindexed hflat hhosted) hfind]
        rfl
      rw [hlisting, List.take_succ_cons]
      exact bind_run_of_ok (ih first.object.name)

/-- The names listed are in order, so none is listed twice. -/
theorem pairwise_listing {tree : MibTree} {state : MibState} (hindexed : Indexed tree)
    (hflat : Flat tree) (hhosted : Hosted state) (start : Oid) :
    (listing tree state start).Pairwise fun first second ↦ first.1 < second.1 :=
  List.pairwise_map.mpr ((pairwise_treeCells hindexed hflat hhosted).filter _)

theorem mem_listing {tree : MibTree} {state : MibState} {start : Oid} {answer : Oid × ReadValue} :
    answer ∈ listing tree state start ↔ ∃ cell ∈ treeCells tree state,
      cell.isPopulated ∧ start < cell.object.name ∧ answer = answerOf cell := by
  simp only [listing, List.mem_map, List.mem_filter, Bool.and_eq_true, decide_eq_true_eq]
  constructor
  · rintro ⟨cell, ⟨hmem, hlt, hpopulated⟩, rfl⟩
    exact ⟨cell, hmem, hpopulated, hlt, rfl⟩
  · rintro ⟨cell, hmem, hpopulated, hlt, rfl⟩
    exact ⟨cell, ⟨hmem, hlt, hpopulated⟩, rfl⟩

/-- In every tree of modules whose scalars and rows are apart, with any instances, GETNEXT answers
every binding with the successor of its name, and repeated from any name it lists the populated
instances after it in order, each once, and ends. -/
theorem readNextVars_successor {mibSymbols : List (String × List MibSymbol)} {tree : MibTree}
    {initial state : MibState} (hindex : indexMib mibSymbols = .ok (tree, initial))
    (hscalars : ScalarsApart tree) (hrows : RowsApart tree) (hhosted : Hosted state) :
    (∀ names, AnswersNext none tree state names) ∧
      ∀ start, ∃ listed : List (Oid × ReadValue),
        listed.Pairwise (fun first second ↦ first.1 < second.1) ∧
        (∀ answer, answer ∈ listed ↔ ∃ cell ∈ treeCells tree state,
          cell.isPopulated ∧ start < cell.object.name ∧ answer = answerOf cell) ∧
        ∀ turns, (walk tree turns start).run state = (.ok (listed.take turns), state) := by
  have hindexed := indexed_indexMib hindex
  have hflat := flat_of_apart hscalars hrows
  constructor
  · exact fun names ↦ (answersNext_iff hhosted).mpr fun name _ ↦
      isNext_nextAnswer hindexed hflat hhosted name
  · exact fun start ↦ ⟨listing tree state start, pairwise_listing hindexed hflat hhosted start,
      fun _ ↦ mem_listing, fun turns ↦ walk_run hindexed hflat hhosted turns start⟩

/-! ### Samples -/

/-- The class of an integer that takes any integer. -/
def integerClass : SyntaxClass where
  kind := .plain
  clone := some
  default := ⟨none⟩

/-- An integer index in this column. -/
def integerIndex (name : Oid) : IndexName where
  impliedFlag := false
  name := name
  indexType := .integer
  clone := fun value ↦ .ok (.integer (value.headD 0))

/-- A scalar, and a table with two columns; one of the three instances has no value yet. -/
def sampleModule : List (String × List MibSymbol) :=
  [("SAMPLE-MIB", [.scalar ⟨[1, 1], .readOnly, integerClass, false⟩,
    .scalarInstance [1, 1] [0] integerClass ⟨some (.integer 10)⟩,
    .table [1, 2], .row [1, 2, 1] [integerIndex [1, 2, 1, 1]] [],
    .column ⟨[1, 2, 1, 1], .readOnly, integerClass, false⟩,
    .column ⟨[1, 2, 1, 2], .readOnly, integerClass, false⟩,
    .scalarInstance [1, 2, 1, 1] [3] integerClass ⟨none⟩,
    .scalarInstance [1, 2, 1, 2] [3] integerClass ⟨some (.integer 20)⟩])]

/-- A scalar registered under a row, between two of its columns. -/
def scalarUnderRow : List (String × List MibSymbol) :=
  [("SAMPLE-MIB", [.row [1, 5] [integerIndex [1, 5, 1]] [],
    .column ⟨[1, 5, 1], .readOnly, integerClass, false⟩,
    .column ⟨[1, 5, 3], .readOnly, integerClass, false⟩,
    .scalar ⟨[1, 5, 2], .readOnly, integerClass, false⟩,
    .scalarInstance [1, 5, 2] [0] integerClass ⟨some (.integer 10)⟩,
    .scalarInstance [1, 5, 3] [7] integerClass ⟨some (.integer 20)⟩])]

/-- The tree of some modules, where it can be built. -/
def treeOf (mibSymbols : List (String × List MibSymbol)) : MibTree :=
  ((indexMib mibSymbols).toOption.map Prod.fst).getD ∅

/-- The instances of some modules, where the tree can be built. -/
def instancesOf (mibSymbols : List (String × List MibSymbol)) : MibState :=
  ((indexMib mibSymbols).toOption.map Prod.snd).getD fun _ ↦ ObjectState.initial

theorem readNextVars_successor_sampleModule :
    (∀ names, AnswersNext none (treeOf sampleModule) (instancesOf sampleModule) names) ∧
      ∀ start, ∃ listed : List (Oid × ReadValue),
        listed.Pairwise (fun first second ↦ first.1 < second.1) ∧
        (∀ answer, answer ∈ listed ↔
          ∃ cell ∈ treeCells (treeOf sampleModule) (instancesOf sampleModule),
            cell.isPopulated ∧ start < cell.object.name ∧ answer = answerOf cell) ∧
        ∀ turns, (walk (treeOf sampleModule) turns start).run (instancesOf sampleModule) =
          (.ok (listed.take turns), instancesOf sampleModule) := by
  have hindex : indexMib sampleModule = .ok (treeOf sampleModule, instancesOf sampleModule) := rfl
  exact readNextVars_successor hindex ⟨by decide, by decide⟩ ⟨by decide, by decide⟩
    (hosted_indexMib hindex)

/-- Where a scalar stands under a row, the walk does not come back to the row: after the scalar's
instance the end of the MIB is answered, though an instance of the row follows. -/
theorem not_isNext_scalarUnderRow :
    indexMib scalarUnderRow = .ok (treeOf scalarUnderRow, instancesOf scalarUnderRow) ∧
      ScalarsApart (treeOf scalarUnderRow) ∧ Hosted (instancesOf scalarUnderRow) ∧
      (readNextVars none (treeOf scalarUnderRow) [[1, 5, 2, 0]]).run (instancesOf scalarUnderRow) =
        (.ok [([1, 5, 2, 0], .endOfMib)], instancesOf scalarUnderRow) ∧
      ¬ IsNext none (treeOf scalarUnderRow) (instancesOf scalarUnderRow) [1, 5, 2, 0]
        ([1, 5, 2, 0], .endOfMib) := by
  have hindex : indexMib scalarUnderRow =
      .ok (treeOf scalarUnderRow, instancesOf scalarUnderRow) := rfl
  have hhosted := hosted_indexMib hindex
  refine ⟨hindex, ⟨by decide, by decide⟩, hhosted, readNextVars_run none _ hhosted _, ?_⟩
  rintro (⟨cell, -, -, -, hanswer, -⟩ | ⟨-, hnone⟩)
  · cases (Prod.mk.inj hanswer).2
  · exact hnone ⟨⟨[1, 5, 3], .readOnly, integerClass, false⟩,
      { name := [1, 5, 3, 7], syntaxClass := integerClass, syntaxObj := some ⟨some (.integer 20)⟩ }⟩
      (List.mem_of_mem_head? rfl) rfl (by decide)

end Pysnmp.Smi.Successor
