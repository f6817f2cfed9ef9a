import Pysnmp.Smi.LabelStems

/-!
# The labels of a MIB view

What `indexMib` makes of the loaded modules and what `__getOidLabel` finds in it. The pass over the
sorted object identifiers makes labels of stems and names as long as no object identifier is too
long for the one before (`LabelState`); after the first that is, there is one with a label of
another length. The modules mirror the labels of the merged index (`Mirrors`).

A lookup of an object identifier finds its longest prefix in the index in any case
(`getOidLabel_arcs`). That labels have one member for each number, extend each other, differ and
resolve holds exactly of the loaded object identifiers that are `Structured` and have their
`NamesApart`.
-/

set_option autoImplicit false
set_option relaxedAutoImplicit false

namespace Pysnmp.Smi.ViewLabels

open Foundation Proto ViewIndex LabelStems LastMatch

/-! ### The loaded names -/

/-- The names of some nodes. Of nodes with one object identifier the last one counts. -/
def namesOf (nodes : List (SymbolName × Oid)) : OidOrderedDict SymbolName :=
  nodes.foldl (fun names entry ↦ names.insert entry.2 entry.1) ∅

/-- The names of the nodes of all modules, in the order in which they are indexed. -/
def loadedNames (mibModules : List MibModule) : OidOrderedDict SymbolName :=
  namesOf ((sortByKey MibModule.sortFun mibModules).flatMap MibModule.nodes)

theorem isSome_namesOf {nodes : List (SymbolName × Oid)} {oid : Oid} :
    ((namesOf nodes).get? oid).isSome ↔ ∃ symName, (symName, oid) ∈ nodes := by
  have hfold : ∀ (names : OidOrderedDict SymbolName),
      ((nodes.foldl (fun names entry ↦ names.insert entry.2 entry.1) names).get? oid).isSome ↔
        (names.get? oid).isSome ∨ ∃ symName, (symName, oid) ∈ nodes := by
    induction nodes with
    | nil => simp
    | cons entry nodes ih =>
      intro names
      rw [List.foldl_cons, ih, SortedMap.get?_insert_eq_update, Function.update_apply]
      obtain ⟨symName, name⟩ := entry
      split_ifs with heq
      · subst heq
        exact iff_of_true (Or.inl rfl) (Or.inr ⟨symName, List.mem_cons_self⟩)
      · simp [heq]
  rw [namesOf, hfold]
  simp

/-- The names are indexed one node after the other. -/
theorem foldl_addNode (nodes : List (SymbolName × Oid)) :
    (∀ oid, (nodes.foldl ModuleView.addNode .new).oidToLabelIdx.get? oid =
      ((namesOf nodes).get? oid).map symbolLabel) ∧
    ∀ label, (nodes.foldl ModuleView.addNode .new).labelToOid label = none := by
  have hfold : ∀ (view : ModuleView) (names : OidOrderedDict SymbolName),
      (∀ oid, view.oidToLabelIdx.get? oid = (names.get? oid).map symbolLabel) →
      (∀ label, view.labelToOid label = none) →
      (∀ oid, (nodes.foldl ModuleView.addNode view).oidToLabelIdx.get? oid =
        ((nodes.foldl (fun names entry ↦ names.insert entry.2 entry.1) names).get? oid).map
          symbolLabel) ∧
      ∀ label, (nodes.foldl ModuleView.addNode view).labelToOid label = none := by
    induction nodes with
    | nil => exact fun view names hview hlabels ↦ ⟨hview, hlabels⟩
    | cons entry nodes ih =>
      intro view names hview hlabels
      refine ih (view.addNode entry) (names.insert entry.2 entry.1) (fun oid ↦ ?_) hlabels
      rw [ModuleView.addNode, SortedMap.get?_insert_eq_update, SortedMap.get?_insert_eq_update,
        Function.update_apply, Function.update_apply]
      split_ifs
      · rfl
      · exact hview oid
  exact hfold .new ∅ (fun _ ↦ rfl) fun _ ↦ rfl

theorem labelToOid_assign (view : ModuleView) (oid : Oid) (label other : NodeName) :
    (view.assign oid label).labelToOid other =
      if other = label then some oid else view.labelToOid other := by
  rw [ModuleView.labelToOid, ModuleView.assign, Dict.lookup_insert_ite]
  rfl

/-! ### The pass over the object identifiers -/

variable {names : OidOrderedDict SymbolName} {done : List Oid} {state : LabelPass} {key : Oid}

/-- The state of the pass after some object identifiers, which are listed downwards. -/
structure LabelState (names : OidOrderedDict SymbolName) (done : List Oid) (state : LabelPass) :
    Prop where
  prevOid_eq : state.prevOid = done.headD []
  pending : ∀ oid, oid ∉ done →
    state.view.oidToLabelIdx.get? oid = (names.get? oid).map symbolLabel
  visited : ∀ oid ∈ done, ∃ base symName, names.get? oid = some symName ∧
    state.view.oidToLabelIdx.get? oid = some (base ++ symbolLabel symName)
  backward : ∀ label oid, state.view.labelToOid label = some oid →
    oid ∈ done ∧ state.view.oidToLabelIdx.get? oid = some label
  forward : ∀ oid ∈ done, ∀ label, state.view.oidToLabelIdx.get? oid = some label →
    (state.view.labelToOid label).isSome
  follows : Structured done → Follows names.get? state.view.oidToLabelIdx.get? done ∧
    state.baseLabel = stem state.view.oidToLabelIdx.get? (parentOf done)
  faulty : ¬ Structured done → ∃ oid ∈ done, ∃ label,
    state.view.oidToLabelIdx.get? oid = some label ∧ label.length ≠ oid.length

theorem LabelState.isSome_get? (hstate : LabelState names done state) (oid : Oid) :
    (state.view.oidToLabelIdx.get? oid).isSome = (names.get? oid).isSome := by
  by_cases hdone : oid ∈ done
  · obtain ⟨base, symName, hname, hlabel⟩ := hstate.visited oid hdone
    rw [hname, hlabel]
    rfl
  · rw [hstate.pending oid hdone, Option.isSome_map]

/-- The key comes next: after those done, and before all others. -/
structure IsNext (names : OidOrderedDict SymbolName) (done : List Oid) (key : Oid) : Prop where
  sorted : (key :: done).Pairwise (· > ·)
  mem_done : ∀ other, (names.get? other).isSome → other < key → other ∈ done

theorem IsNext.isInitial (hnext : IsNext names done key) (hstate : LabelState names done state) :
    IsInitial state.view.oidToLabelIdx.get? done where
  sorted := (List.pairwise_cons.mp hnext.sorted).2
  mem oid hoid other hother hlt := hnext.mem_done other (hstate.isSome_get? other ▸ hother)
    (hlt.trans ((List.pairwise_cons.mp hnext.sorted).1 oid hoid))

/-- No prefix of the key is in the index if none of the object identifiers done is one. -/
theorem IsNext.longestPrefix_eq_none (hnext : IsNext names done key)
    (hstate : LabelState names done state)
    (hnone : ∀ other ∈ done, other ≠ [] → ¬ other <+: key) :
    longestPrefix (fun other ↦ (state.view.oidToLabelIdx.get? other).isSome) key.dropLast =
      none := by
  refine longestPrefix_eq_none_iff.mpr fun other hne hother hbegins ↦ ?_
  have hprefix : other <+: key := hbegins.trans (List.dropLast_prefix key)
  have hlt : other < key := by
    refine lt_of_le_of_ne (PrefixOrder.le_of_prefix hprefix) fun heq ↦ ?_
    have hle := hbegins.length_le
    have hpos := List.length_pos_of_ne_nil hne
    rw [heq, List.length_dropLast] at hle
    rw [heq] at hpos
    omega
  exact hnone other (hnext.mem_done other (hstate.isSome_get? other ▸ hother) hlt) hne hprefix

/-- What goes in front of the name is the stem of the parent, or has the wrong length. -/
theorem nextBaseLabel_eq (hstate : LabelState names done state) (hnext : IsNext names done key) :
    ∃ base, nextBaseLabel state.view state.prevOid state.baseLabel key = .ok base ∧
      (Structured (key :: done) →
        base = stem state.view.oidToLabelIdx.get? (parentOf (key :: done))) ∧
      (Structured done → ¬ Structured (key :: done) → base.length + 1 ≠ key.length) := by
  cases done with
  | nil =>
    have hbase : state.baseLabel = [] := (hstate.follows trivial).2
    have hok : nextBaseLabel state.view state.prevOid state.baseLabel key = .ok [] := by
      rw [nextBaseLabel, hstate.prevOid_eq, hbase]
      split_ifs with hshort hnil hone hlong
      · rfl
      · exact absurd rfl hnil
      · exact absurd rfl hnil
      · exact absurd hlong (Nat.not_lt_zero _)
      · rfl
    exact ⟨[], hok, fun _ ↦ rfl, fun _ hnot heq ↦ hnot heq.symm⟩
  | cons prevOid earlier =>
    have hprev : state.prevOid = prevOid := hstate.prevOid_eq
    obtain ⟨prevBase, symName, hname, hlabel⟩ := hstate.visited prevOid List.mem_cons_self
    rw [nextBaseLabel, hprev]
    split_ifs with hshort hnil hone hlong
    · refine ⟨[], rfl, fun hstructured ↦ absurd hnil hstructured.1.ne_nil, fun hstructured _ ↦ ?_⟩
      exact absurd hnil hstructured.ne_nil
    · refine ⟨prevBase ++ symbolLabel symName, ?_, fun _ ↦ ?_, fun hdone hnot ↦ ?_⟩
      · rw [ModuleView.getLabel, hlabel]
      · rw [parentOf, if_pos hshort, stem_self hnil hlabel]
      · exact absurd ⟨hdone, by omega, fun hlt ↦ absurd hshort hlt.asymm⟩ hnot
    · refine ⟨_, rfl, fun hstructured ↦ absurd hstructured.2.1 (by omega), fun hdone _ ↦ ?_⟩
      obtain ⟨hfollows, hbase⟩ := hstate.follows hdone
      obtain ⟨lastName, -, hlast⟩ := hfollows prevOid earlier (List.suffix_refl _)
      have hlength := hfollows.length_eq (hnext.isInitial hstate) hdone List.mem_cons_self hlast
      rw [← hbase, List.length_append, length_symbolLabel] at hlength
      rw [List.length_append, between, length_arcs, List.length_drop, List.length_dropLast]
      omega
    · refine ⟨_, rfl, fun _ ↦ ?_, fun hdone hnot ↦ ?_⟩
      · rw [gapLabel_eq_stem, parentOf, if_neg hshort, if_pos hlong]
      · have hnone : longestPrefix (fun key ↦ (state.view.oidToLabelIdx.get? key).isSome)
            key.dropLast = none :=
          hnext.longestPrefix_eq_none hstate fun other hmem hne hprefix ↦
            hnot ⟨hdone, by omega, fun _ ↦ Or.inr ⟨other, hmem, hne, hprefix⟩⟩
        rw [gapLabel_eq_stem, stem, hnone, List.length_nil]
        exact fun heq ↦ hnot ⟨hdone, by omega, fun _ ↦ Or.inl heq.symm⟩
    · have hsame : parentOf (key :: prevOid :: earlier) = parentOf (prevOid :: earlier) := by
        rw [parentOf, if_neg hshort, if_neg hlong]
      refine ⟨_, rfl, fun hstructured ↦ ?_, fun hdone hnot ↦ ?_⟩
      · rw [hsame]
        exact (hstate.follows hstructured.tail).2
      · exact absurd ⟨hdone, by omega, fun hlt ↦ absurd hlt hlong⟩ hnot

/-- What comes before the key has the stem it had. -/
theorem stem_insert (labels : OidOrderedDict NodeName) (label : NodeName) {oid : Oid}
    (hlt : oid < key) : stem (labels.insert key label).get? oid = stem labels.get? oid :=
  stem_congr fun _ hbegins ↦ SortedMap.get?_insert_of_ne labels label
    ((PrefixOrder.le_of_prefix hbegins).trans_lt hlt).ne

/-- A label made of the stem of the parent follows those done. -/
theorem follows_insert {labels : OidOrderedDict NodeName} {symName : SymbolName}
    (hfollows : Follows names.get? labels.get? done) (hsorted : (key :: done).Pairwise (· > ·))
    (hstructured : Structured (key :: done)) (hname : names.get? key = some symName) :
    Follows names.get?
      (labels.insert key (stem labels.get? (parentOf (key :: done)) ++ symbolLabel symName)).get?
      (key :: done) := by
  intro oid earlier hsuffix
  rcases List.suffix_cons_iff.mp hsuffix with heq | hsuffix
  · obtain ⟨rfl, rfl⟩ := List.cons.inj heq
    refine ⟨symName, hname, (SortedMap.get?_insert_self _ _ _).trans ?_⟩
    rw [stem_insert _ _ (parentOf_lt hsorted hstructured.ne_nil)]
  · obtain ⟨hbefore, hdoneSorted⟩ := List.pairwise_cons.mp hsorted
    have hoidlt : oid < key := hbefore oid (hsuffix.subset List.mem_cons_self)
    obtain ⟨oidName, hoidName, hlabel⟩ := hfollows oid earlier hsuffix
    have hlt : parentOf (oid :: earlier) < key :=
      (parentOf_lt (hdoneSorted.sublist hsuffix.sublist)
        (hstructured.tail.of_suffix hsuffix).ne_nil).trans hoidlt
    refine ⟨oidName, hoidName, ?_⟩
    rw [stem_insert _ _ hlt, SortedMap.get?_insert_of_ne _ _ hoidlt.ne]
    exact hlabel

/-- One object identifier more. -/
theorem LabelState.visit_run (hstate : LabelState names done state) (hnext : IsNext names done key)
    (hkey : (names.get? key).isSome) :
    ∃ after, state.visit key = .ok after ∧ LabelState names (key :: done) after := by
  obtain ⟨symName, hname⟩ := Option.isSome_iff_exists.mp hkey
  obtain ⟨base, hbase, hstem, hwrong⟩ := nextBaseLabel_eq hstate hnext
  have hfresh : key ∉ done := fun hmem ↦
    absurd ((List.pairwise_cons.mp hnext.sorted).1 key hmem) (lt_irrefl key)
  have hold : state.view.oidToLabelIdx.get? key = some (symbolLabel symName) := by
    rw [hstate.pending key hfresh, hname]
    rfl
  have hne : ∀ oid ∈ done, oid ≠ key := by
    rintro oid hoid rfl
    exact hfresh hoid
  have hother : ∀ oid, oid ≠ key →
      (state.view.oidToLabelIdx.insert key (base ++ symbolLabel symName)).get? oid =
        state.view.oidToLabelIdx.get? oid :=
    fun oid hoid ↦ SortedMap.get?_insert_of_ne _ _ hoid
  refine ⟨⟨state.view.assign key (base ++ symbolLabel symName), key, base⟩, ?_,
    { prevOid_eq := rfl
      pending := fun oid hoid ↦ ?_
      visited := fun oid hoid ↦ ?_
      backward := fun label oid hlabel ↦ ?_
      forward := fun oid hoid label hlabel ↦ ?_
      follows := fun hstructured ↦ ⟨?_, ?_⟩
      faulty := fun hnot ↦ ?_ }⟩
  · rw [LabelPass.visit, hbase, ModuleView.getLabel, hold]
    rfl
  · obtain ⟨hoidKey, hoidDone⟩ := not_or.mp (fun hor ↦ hoid (List.mem_cons.mpr hor))
    exact (hother oid hoidKey).trans (hstate.pending oid hoidDone)
  · rcases List.mem_cons.mp hoid with rfl | hoid
    · exact ⟨base, symName, hname, SortedMap.get?_insert_self _ _ _⟩
    · obtain ⟨before, oidName, hoidName, hlabel⟩ := hstate.visited oid hoid
      exact ⟨before, oidName, hoidName, (hother oid (hne oid hoid)).trans hlabel⟩
  · rw [labelToOid_assign] at hlabel
    split_ifs at hlabel with heq
    · obtain rfl := Option.some.inj hlabel
      exact ⟨List.mem_cons_self, heq ▸ SortedMap.get?_insert_self _ _ _⟩
    · obtain ⟨hoid, hfound⟩ := hstate.backward label oid hlabel
      exact ⟨List.mem_cons_of_mem key hoid, (hother oid (hne oid hoid)).trans hfound⟩
  · rw [labelToOid_assign]
    split_ifs with heq
    · rfl
    · rcases List.mem_cons.mp hoid with rfl | hoid
      · exact absurd (Option.some.inj (hlabel.symm.trans (SortedMap.get?_insert_self _ _ _))) heq
      · exact hstate.forward oid hoid label ((hother oid (hne oid hoid)).symm.trans hlabel)
  · rw [hstem hstructured]
    exact follows_insert (hstate.follows hstructured.tail).1 hnext.sorted hstructured hname
  · rw [ModuleView.assign, stem_insert _ _ (parentOf_lt hnext.sorted hstructured.ne_nil)]
    exact hstem hstructured
  · by_cases hdone : Structured done
    · refine ⟨key, List.mem_cons_self, base ++ symbolLabel symName,
        SortedMap.get?_insert_self _ _ _, ?_⟩
      rw [List.length_append, length_symbolLabel]
      exact hwrong hdone hnot
    · obtain ⟨oid, hoid, label, hlabel, hlength⟩ := hstate.faulty hdone
      exact ⟨oid, List.mem_cons_of_mem key hoid, label, (hother oid (hne oid hoid)).trans hlabel,
        hlength⟩

/-- The pass goes through and leaves all object identifiers done. -/
theorem LabelState.foldlM_visit (rest : List Oid) (hstate : LabelState names done state)
    (hkeys : names.keys = done.reverse ++ rest) :
    ∃ after, rest.foldlM LabelPass.visit state = .ok after ∧
      LabelState names names.keys.reverse after := by
  induction rest generalizing done state with
  | nil =>
    refine ⟨state, rfl, ?_⟩
    rw [hkeys, List.append_nil, List.reverse_reverse]
    exact hstate
  | cons key rest ih =>
    have hsorted := names.keys_sorted
    have hshift : names.keys = (key :: done).reverse ++ rest := by
      rw [hkeys, List.reverse_cons, List.append_assoc, List.singleton_append]
    have hnext : IsNext names done key :=
      { sorted := by
          rw [hshift] at hsorted
          exact List.pairwise_reverse.mp (List.pairwise_append.mp hsorted).1
        mem_done := fun other hother hlt ↦ by
          have hmem := SortedMap.mem_keys.mpr hother
          rw [hkeys] at hmem hsorted
          rcases List.mem_append.mp hmem with hdone | hrest
          · exact List.mem_reverse.mp hdone
          · have hafter := List.pairwise_cons.mp (List.pairwise_append.mp hsorted).2.1
            rcases List.mem_cons.mp hrest with rfl | hrest
            · exact absurd hlt (lt_irrefl _)
            · exact absurd hlt (hafter.1 other hrest).asymm }
    have hkey : (names.get? key).isSome := by
      refine SortedMap.mem_keys.mp ?_
      rw [hkeys]
      exact List.mem_append_right _ List.mem_cons_self
    obtain ⟨middle, hvisit, hmiddle⟩ := hstate.visit_run hnext hkey
    obtain ⟨after, hrun, hafter⟩ := ih hmiddle hshift
    refine ⟨after, ?_, hafter⟩
    rw [List.foldlM_cons, hvisit]
    exact hrun

/-! ### The views -/

/-- The view has labels of the merged index, and looks them up both ways. -/
structure Mirrors (labels : Oid → Option NodeName) (view : ModuleView) : Prop where
  label_eq : ∀ oid label, view.oidToLabelIdx.get? oid = some label → labels oid = some label
  backward : ∀ label oid, view.labelToOid label = some oid →
    view.oidToLabelIdx.get? oid = some label
  forward : ∀ oid label, view.oidToLabelIdx.get? oid = some label →
    (view.labelToOid label).isSome

section Copying

variable {merged view current : ModuleView} {copied : List Oid}

/-- The index of a view, of which some labels have been copied from the merged index. -/
structure HasCopied (merged view : ModuleView) (copied : List Oid) (current : ModuleView) :
    Prop where
  keys_eq : current.oidToLabelIdx.keys = view.oidToLabelIdx.keys
  labels : ∀ oid ∈ copied,
    current.oidToLabelIdx.get? oid = merged.oidToLabelIdx.get? oid
  backward : ∀ label oid, current.labelToOid label = some oid →
    oid ∈ view.oidToLabelIdx.keys ∧ merged.oidToLabelIdx.get? oid = some label
  forward : ∀ oid ∈ copied, ∀ label, merged.oidToLabelIdx.get? oid = some label →
    (current.labelToOid label).isSome

/-- One label more. -/
theorem HasCopied.assign (hcopied : HasCopied merged view copied current) {oid : Oid}
    {label : NodeName} (hmem : oid ∈ view.oidToLabelIdx.keys)
    (hlabel : merged.oidToLabelIdx.get? oid = some label) :
    HasCopied merged view (copied ++ [oid]) (current.assign oid label) where
  keys_eq := by
    refine (SortedMap.keys_congr fun other ↦ ?_).trans hcopied.keys_eq
    rw [ModuleView.assign, SortedMap.get?_insert_eq_update, Function.update_apply]
    split_ifs with heq
    · rw [heq]
      exact (SortedMap.mem_keys.mp (hcopied.keys_eq.symm ▸ hmem)).symm
    · rfl
  labels := by
    intro other hother
    rw [ModuleView.assign, SortedMap.get?_insert_eq_update, Function.update_apply]
    split_ifs with heq
    · rw [heq, hlabel]
    · refine hcopied.labels other ((List.mem_append.mp hother).resolve_right fun hlast ↦ ?_)
      exact heq (List.mem_singleton.mp hlast)
  backward := by
    intro other found hother
    rw [labelToOid_assign] at hother
    split_ifs at hother with heq
    · obtain rfl := Option.some.inj hother
      exact ⟨hmem, heq ▸ hlabel⟩
    · exact hcopied.backward other found hother
  forward := by
    intro found hfound other hother
    rw [labelToOid_assign]
    split_ifs with heq
    · rfl
    · rcases List.mem_append.mp hfound with hearlier | hlast
      · exact hcopied.forward found hearlier other hother
      · rw [List.mem_singleton.mp hlast, hlabel] at hother
        exact absurd (Option.some.inj hother).symm heq

/-- A view all of whose labels have been copied mirrors the merged index. -/
theorem HasCopied.mirrors (hcopied : HasCopied merged view view.oidToLabelIdx.keys current) :
    Mirrors merged.oidToLabelIdx.get? current := by
  have hlisted : ∀ oid label, current.oidToLabelIdx.get? oid = some label →
      oid ∈ view.oidToLabelIdx.keys := by
    intro oid label hlabel
    rw [← hcopied.keys_eq]
    exact SortedMap.mem_keys.mpr (Option.isSome_of_eq_some hlabel)
  constructor
  · intro oid label hlabel
    rw [← hcopied.labels oid (hlisted oid label hlabel), hlabel]
  · intro label oid hlabel
    obtain ⟨hoid, hmerged⟩ := hcopied.backward label oid hlabel
    rw [hcopied.labels oid hoid, hmerged]
  · intro oid label hlabel
    refine hcopied.forward oid (hlisted oid label hlabel) label ?_
    rw [← hcopied.labels oid (hlisted oid label hlabel), hlabel]

/-- The labels of some object identifiers more. -/
theorem HasCopied.foldlM_run (oids : List Oid) (hcopied : HasCopied merged view copied current)
    (hall : view.oidToLabelIdx.keys = copied ++ oids)
    (hkeys : ∀ oid ∈ view.oidToLabelIdx.keys, (merged.oidToLabelIdx.get? oid).isSome) :
    ∃ after, oids.foldlM (fun view oid ↦ do
        let label ← merged.getLabel oid
        pure (view.assign oid label)) current = Except.ok after ∧
      HasCopied merged view view.oidToLabelIdx.keys after := by
  induction oids generalizing copied current with
  | nil =>
    rw [List.append_nil] at hall
    exact ⟨current, rfl, hall ▸ hcopied⟩
  | cons oid oids ih =>
    have hmem : oid ∈ view.oidToLabelIdx.keys :=
      hall ▸ List.mem_append_right copied List.mem_cons_self
    obtain ⟨label, hlabel⟩ := Option.isSome_iff_exists.mp (hkeys oid hmem)
    rw [List.foldlM_cons, ModuleView.getLabel, hlabel]
    refine ih (hcopied.assign hmem hlabel) ?_
    rw [hall, List.append_assoc, List.singleton_append]

/-- Copying the labels goes through where the merged index has them all. -/
theorem copyLabels_run (merged view : ModuleView)
    (hkeys : ∀ oid ∈ view.oidToLabelIdx.keys, (merged.oidToLabelIdx.get? oid).isSome)
    (hback : ∀ label oid, view.labelToOid label = some oid →
      oid ∈ view.oidToLabelIdx.keys ∧ merged.oidToLabelIdx.get? oid = some label) :
    ∃ after, copyLabels merged view = .ok after ∧
      after.oidToLabelIdx.keys = view.oidToLabelIdx.keys ∧
      Mirrors merged.oidToLabelIdx.get? after := by
  have hstart : HasCopied merged view [] view :=
    { keys_eq := rfl
      labels := fun oid hoid ↦ absurd hoid List.not_mem_nil
      backward := hback
      forward := fun oid hoid ↦ absurd hoid List.not_mem_nil }
  obtain ⟨after, hrun, hcopied⟩ := hstart.foldlM_run view.oidToLabelIdx.keys rfl hkeys
  exact ⟨after, hrun, hcopied.keys_eq, hcopied.mirrors⟩

end Copying

/-- The pass begins with the names alone. -/
theorem labelState_start (mibModules : List MibModule) :
    LabelState (loadedNames mibModules) []
      { view := (indexNames mibModules).merged, prevOid := [], baseLabel := [] } := by
  obtain ⟨hlabels, hback⟩ := foldl_addNode
    ((sortByKey MibModule.sortFun mibModules).flatMap MibModule.nodes)
  exact
    { prevOid_eq := rfl
      pending := fun oid _ ↦ hlabels oid
      visited := fun oid hoid ↦ absurd hoid List.not_mem_nil
      backward := fun label oid hlabel ↦ by
        have hnone : (indexNames mibModules).merged.labelToOid label = none := by
          rw [indexNames, hback]
        cases hnone.symm.trans hlabel
      forward := fun oid hoid ↦ absurd hoid List.not_mem_nil
      follows := fun _ ↦ ⟨fun oid earlier hsuffix ↦
        absurd (List.suffix_nil.mp hsuffix) (List.cons_ne_nil oid earlier), rfl⟩
      faulty := fun hnot ↦ absurd trivial hnot }

/-- The index of every module gets its labels from a merged index that has its object
identifiers. -/
theorem copyModules_run (merged : ModuleView) (mibModules : List MibModule)
    (hmerged : ∀ mibModule ∈ mibModules, ∀ oid symName, (symName, oid) ∈ mibModule.nodes →
      (merged.oidToLabelIdx.get? oid).isSome) :
    ∃ views, ((mibModules.map fun mibModule ↦
        (mibModule.modName, mibModule.nodes.foldl ModuleView.addNode .new)).mapM fun entry ↦ do
          let view ← copyLabels merged entry.2
          pure (entry.1, view)) = Except.ok views ∧
      ∀ entry ∈ views, Mirrors merged.oidToLabelIdx.get? entry.2 := by
  induction mibModules with
  | nil => exact ⟨[], rfl, fun entry hentry ↦ absurd hentry List.not_mem_nil⟩
  | cons mibModule mibModules ih =>
    obtain ⟨views, hviews, hmirrored⟩ :=
      ih fun other hother ↦ hmerged other (List.mem_cons_of_mem mibModule hother)
    obtain ⟨hlabels, hback⟩ := foldl_addNode mibModule.nodes
    obtain ⟨view, hview, -, hviewMirrors⟩ := copyLabels_run merged
      (mibModule.nodes.foldl ModuleView.addNode .new)
      (fun oid hoid ↦ by
        rw [SortedMap.mem_keys, hlabels, Option.isSome_map, isSome_namesOf] at hoid
        obtain ⟨symName, hnode⟩ := hoid
        exact hmerged mibModule List.mem_cons_self oid symName hnode)
      (fun label oid hlabel ↦ by
        rw [hback] at hlabel
        cases hlabel)
    refine ⟨(mibModule.modName, view) :: views, ?_, fun entry hentry ↦ ?_⟩
    · rw [List.map_cons, List.mapM_cons, hview, hviews]
      rfl
    · rcases List.mem_cons.mp hentry with rfl | hentry
      · exact hviewMirrors
      · exact hmirrored entry hentry

/-- What `indexMib` makes of the modules: labels for the loaded object identifiers, in the state of
the pass after all of them, which the merged index and those of the modules mirror. -/
theorem indexMib_eq_ok (mibModules : List MibModule) :
    ∃ index state, indexMib mibModules = .ok index ∧
      LabelState (loadedNames mibModules) (loadedNames mibModules).keys.reverse state ∧
      (∀ view ∈ index.views, Mirrors state.view.oidToLabelIdx.get? view) ∧
      index.merged.oidToLabelIdx.keys = (loadedNames mibModules).keys := by
  set names := loadedNames mibModules
  set start := (indexNames mibModules).merged with hstart
  have hinitial := labelState_start mibModules
  obtain ⟨state, hrun, hstate⟩ := hinitial.foldlM_visit names.keys rfl
  have hkeys : start.oidToLabelIdx.keys = names.keys :=
    SortedMap.keys_congr (hinitial.isSome_get? ·)
  have hbuild : buildLabels start = .ok state.view := by
    rw [buildLabels, hkeys, hrun]
    rfl
  have hmergedKeys : state.view.oidToLabelIdx.keys = names.keys :=
    SortedMap.keys_congr (hstate.isSome_get? ·)
  obtain ⟨copied, hcopied, hcopiedKeys, hmirrors⟩ := copyLabels_run state.view state.view
    (fun oid hoid ↦ SortedMap.mem_keys.mp hoid) fun label oid hlabel ↦ by
      obtain ⟨hoid, hfound⟩ := hstate.backward label oid hlabel
      exact ⟨SortedMap.mem_keys.mpr (Option.isSome_of_eq_some hfound), hfound⟩
  obtain ⟨views, hviews, hviewMirrors⟩ := copyModules_run state.view
    (sortByKey MibModule.sortFun mibModules) fun mibModule hmem oid symName hnode ↦ by
      rw [hstate.isSome_get?, loadedNames, isSome_namesOf]
      exact ⟨symName, List.mem_flatMap.mpr ⟨mibModule, hmem, hnode⟩⟩
  refine ⟨⟨copied, views⟩, state, ?_, hstate, fun view hview ↦ ?_, hcopiedKeys.trans hmergedKeys⟩
  · have hnext : ∀ {α β : Type} (value : α) (next : α → Except PythonError β),
        (Except.ok value >>= next) = next value := fun _ _ ↦ rfl
    rw [indexMib, ← hstart, hbuild, hnext, hcopied, hnext, indexNames, hviews, hnext]
    rfl
  · rcases List.mem_cons.mp hview with rfl | hview
    · exact hmirrors
    · obtain ⟨entry, hentry, rfl⟩ := List.mem_map.mp hview
      exact hviewMirrors entry hentry

/-! ### Lookups -/

/-- The object identifier is in the index of the view. -/
def IsLoaded (view : ModuleView) (oid : Oid) : Prop :=
  (view.oidToLabelIdx.get? oid).isSome

instance (view : ModuleView) : DecidablePred (IsLoaded view) := fun oid ↦
  inferInstanceAs (Decidable ((view.oidToLabelIdx.get? oid).isSome = true))

theorem labelOf_arcs (view : ModuleView) (oid : Oid) :
    view.labelOf (arcs oid) = view.oidToLabelIdx.get? oid := by
  rw [ModuleView.labelOf, oidOf_arcs, Option.bind_some]

/-- A label of the index resolves at once. -/
theorem getOidLabel_of_lookup {view : ModuleView} {nodeName : NodeName} {oid : Oid}
    (hne : nodeName ≠ []) (hlookup : view.labelToOid nodeName = some oid) :
    getOidLabel view nodeName = ⟨arcs oid, nodeName, []⟩ := by
  obtain ⟨before, last, rfl⟩ := (List.eq_nil_or_concat nodeName).resolve_left hne
  rw [List.concat_eq_append] at hlookup ⊢
  rw [getOidLabel, List.reverse_append, List.reverse_singleton, List.singleton_append,
    getOidLabelOfReverse]
  simp only [List.reverse_reverse, hlookup]

/-- An object identifier resolves to its longest prefix in the index; where there is none, to its
first number as its own label. -/
theorem getOidLabel_arcs (view : ModuleView)
    (hlabels : ∀ label oid, view.labelToOid label = some oid → EndsInName label)
    (oid : Oid) :
    getOidLabel view (arcs oid) =
      match longestPrefix (IsLoaded view) oid with
      | some (longest, rest) =>
        ⟨arcs longest, (view.oidToLabelIdx.get? longest).getD [], arcs rest⟩
      | none => ⟨arcs (oid.take 1), arcs (oid.take 1), arcs (oid.drop 1)⟩ := by
  have hmissing : ∀ nodeName, ¬ EndsInName nodeName →
      view.labelToOid nodeName = none := by
    intro nodeName hnot
    rw [Option.eq_none_iff_forall_ne_some]
    exact fun oid hlookup ↦ hnot (hlabels nodeName oid hlookup)
  induction oid using List.reverseRecOn with
  | nil => rfl
  | append_singleton oid number ih =>
    have hname : (arcs oid).reverse.reverse ++ [NamePart.arc number] = arcs (oid ++ [number]) := by
      rw [List.reverse_reverse, arcs_append]
      rfl
    rw [longestPrefix_concat, getOidLabel, arcs_append, List.reverse_append]
    change getOidLabelOfReverse view (.arc number :: (arcs oid).reverse) = _
    rw [getOidLabelOfReverse]
    simp only [hname, hmissing _ (not_endsInName_arcs _), labelOf_arcs]
    cases hlabel : view.oidToLabelIdx.get? (oid ++ [number]) with
    | some label =>
      have hloaded : IsLoaded view (oid ++ [number]) := Option.isSome_of_eq_some hlabel
      rw [if_pos hloaded]
      simp only [hlabel, Option.getD_some]
      rfl
    | none =>
      have hnot : ¬ IsLoaded view (oid ++ [number]) := by
        rw [IsLoaded, hlabel]
        exact Bool.false_ne_true
      rw [if_neg hnot]
      rcases eq_or_ne oid [] with rfl | hne
      · rfl
      have hlong : ¬ (arcs (oid ++ [number])).length < 2 := by
        rw [length_arcs, List.length_append, List.length_singleton]
        have hpos := List.length_pos_of_ne_nil hne
        omega
      have hfound : getOidLabelOfReverse view (arcs oid).reverse = getOidLabel view (arcs oid) :=
        rfl
      have hresLabel : ∀ (before suffix : NodeName), view.labelToOid
          (before ++ (suffix ++ [NamePart.arc number]).map NamePart.str) = none := by
        intro before suffix
        rw [List.map_append, ← List.append_assoc]
        exact hmissing _ (not_endsInName_append_str _ number)
      simp only [if_neg hlong, hfound, ih, hresLabel]
      cases hlongest : longestPrefix (IsLoaded view) oid with
      | some found =>
        obtain ⟨longest, rest⟩ := found
        have hwhole : longest ++ (rest ++ [number]) = oid ++ [number] := by
          rw [← List.append_assoc, (longestPrefix_eq_some_iff.mp hlongest).2]
        have hsuffix : arcs rest ++ [NamePart.arc number] = arcs (rest ++ [number]) :=
          (arcs_append rest [number]).symm
        simp only [hsuffix, ← arcs_append, hwhole, labelOf_arcs, hlabel, Option.map_some]
      | none =>
        have hsuffix : arcs (oid.drop 1) ++ [NamePart.arc number] = arcs (oid.drop 1 ++ [number]) :=
          (arcs_append _ [number]).symm
        have hwhole : oid.take 1 ++ (oid.drop 1 ++ [number]) = oid ++ [number] := by
          rw [← List.append_assoc, List.take_append_drop]
        have hpos : 1 ≤ oid.length := List.length_pos_of_ne_nil hne
        simp only [hsuffix, ← arcs_append, hwhole, labelOf_arcs, hlabel, Option.map_none,
          List.take_append_of_le_length hpos, List.drop_append_of_le_length hpos]

/-- The merged index has the loaded object identifiers, and its labels end in names. -/
theorem merged_of_indexMib {mibModules : List MibModule} {index : MibSymbolsIdx}
    (hindex : indexMib mibModules = .ok index) :
    (∀ oid, IsLoaded index.merged oid ↔ ((loadedNames mibModules).get? oid).isSome) ∧
      (∀ oid label, index.merged.oidToLabelIdx.get? oid = some label → EndsInName label) ∧
      ∀ label oid, index.merged.labelToOid label = some oid → EndsInName label := by
  obtain ⟨found, state, hfound, hstate, hmirrors, hkeys⟩ := indexMib_eq_ok mibModules
  obtain rfl := Except.ok.inj (hindex.symm.trans hfound)
  have hmerged := hmirrors index.merged List.mem_cons_self
  have hends : ∀ oid label, index.merged.oidToLabelIdx.get? oid = some label →
      EndsInName label := by
    intro oid label hlabel
    have hname := hmerged.label_eq oid label hlabel
    have hdone : oid ∈ (loadedNames mibModules).keys.reverse := by
      rw [List.mem_reverse, SortedMap.mem_keys, ← hstate.isSome_get?, hname]
      rfl
    obtain ⟨base, symName, -, hvisited⟩ := hstate.visited oid hdone
    rw [hname] at hvisited
    exact ⟨base, symName, Option.some.inj hvisited⟩
  refine ⟨fun oid ↦ ?_, hends, fun label oid hlabel ↦ ?_⟩
  · rw [IsLoaded, ← SortedMap.mem_keys, hkeys, SortedMap.mem_keys]
  · exact hends oid label (hmerged.backward label oid hlabel)

/-! ### Faithful views -/

/-- Siblings of the view carry different names, which are the last members of their labels. -/
def SiblingsDistinct (view : ModuleView) : Prop :=
  ∀ first second firstLabel secondLabel, view.oidToLabelIdx.get? first = some firstLabel →
    view.oidToLabelIdx.get? second = some secondLabel → first.dropLast = second.dropLast →
    firstLabel.getLast? = secondLabel.getLast? → first = second

/-- Labels have one member for each number and extend that of the longest proper prefix in the
index; they differ when siblings do; a label resolves to its object identifier, and an object
identifier to its longest prefix in the index and the remaining numbers, or, where there is none, to
what is its own label. -/
structure IsFaithful (view : ModuleView) : Prop where
  length_eq : ∀ oid label, view.oidToLabelIdx.get? oid = some label → label.length = oid.length
  extends_longest : ∀ oid label longest longestLabel, view.oidToLabelIdx.get? oid = some label →
    IsLongestPrefix (IsLoaded view) oid.dropLast longest →
    view.oidToLabelIdx.get? longest = some longestLabel → longestLabel <+: label
  injective : SiblingsDistinct view → ∀ first second label,
    view.oidToLabelIdx.get? first = some label → view.oidToLabelIdx.get? second = some label →
    first = second
  resolve_label : ∀ oid label, view.oidToLabelIdx.get? oid = some label →
    getOidLabel view label = ⟨arcs oid, label, []⟩
  resolve_oid : ∀ oid longest, IsLongestPrefix (IsLoaded view) oid longest →
    ∃ label, view.oidToLabelIdx.get? longest = some label ∧
      getOidLabel view (arcs oid) = ⟨arcs longest, label, arcs (oid.drop longest.length)⟩
  unresolved : ∀ oid, (∀ key, key ≠ [] → IsLoaded view key → ¬ key <+: oid) →
    (getOidLabel view (arcs oid)).oid = (getOidLabel view (arcs oid)).label

variable {labels : Oid → Option NodeName} {view : ModuleView}

/-- Lookups of object identifiers need only that labels end in names. -/
theorem Mirrors.getOidLabel_arcs_eq (hmirrors : Mirrors labels view)
    (hends : ∀ oid label, labels oid = some label → EndsInName label) (oid : Oid) :
    (∀ longest, IsLongestPrefix (IsLoaded view) oid longest →
      ∃ label, view.oidToLabelIdx.get? longest = some label ∧
        getOidLabel view (arcs oid) = ⟨arcs longest, label, arcs (oid.drop longest.length)⟩) ∧
    ((∀ key, key ≠ [] → IsLoaded view key → ¬ key <+: oid) →
      (getOidLabel view (arcs oid)).oid = (getOidLabel view (arcs oid)).label) := by
  have hlookup := getOidLabel_arcs view (fun label found hlabel ↦
    hends found label (hmirrors.label_eq found label (hmirrors.backward label found hlabel))) oid
  constructor
  · intro longest hlongest
    obtain ⟨label, hlabel⟩ := Option.isSome_iff_exists.mp hlongest.mem
    obtain ⟨rest, rfl⟩ := hlongest.begins
    refine ⟨label, hlabel, ?_⟩
    rw [hlookup, longestPrefix_eq_some_iff.mpr ⟨hlongest, rfl⟩, List.drop_left]
    simp only [hlabel, Option.getD_some]
  · intro hnone
    rw [hlookup, longestPrefix_eq_none_iff.mpr hnone]

/-- Labels that differ resolve. -/
theorem Mirrors.resolve_label (hmirrors : Mirrors labels view)
    (hends : ∀ oid label, labels oid = some label → EndsInName label)
    (hinjective : ∀ first second label, labels first = some label → labels second = some label →
      first = second) {oid : Oid} {label : NodeName}
    (hlabel : view.oidToLabelIdx.get? oid = some label) :
    getOidLabel view label = ⟨arcs oid, label, []⟩ := by
  obtain ⟨found, hfound⟩ := Option.isSome_iff_exists.mp (hmirrors.forward oid label hlabel)
  have hlabels := hmirrors.label_eq oid label hlabel
  obtain rfl := hinjective found oid label
    (hmirrors.label_eq found label (hmirrors.backward label found hfound)) hlabels
  refine getOidLabel_of_lookup ?_ hfound
  obtain ⟨before, symName, rfl⟩ := hends found label hlabels
  exact List.append_ne_nil_of_right_ne_nil before (List.cons_ne_nil _ _)

/-- Views of labels made of stems and names are faithful. -/
theorem Mirrors.isFaithful {names : Oid → Option SymbolName} {oids : List Oid}
    (hmirrors : Mirrors labels view) (hall : ∀ oid, (labels oid).isSome → oid ∈ oids)
    (hfollows : Follows names labels oids) (hinitial : IsInitial labels oids)
    (hstructured : Structured oids) (hnames : NamesApart names oids) : IsFaithful view := by
  have hmem : ∀ {oid : Oid} {label : NodeName}, labels oid = some label → oid ∈ oids :=
    fun hlabel ↦ hall _ (Option.isSome_of_eq_some hlabel)
  have hends : ∀ oid label, labels oid = some label → EndsInName label :=
    fun oid label hlabel ↦ hfollows.endsInName (hmem hlabel) hlabel
  have hinjective : ∀ first second label, labels first = some label →
      labels second = some label → first = second := fun first second label hfirst hsecond ↦
    hfollows.injective hinitial hstructured hnames (hmem hfirst) (hmem hsecond) hfirst hsecond
  refine ⟨fun oid label hlabel ↦ ?_, fun oid label longest longestLabel hlabel hlongest hother ↦ ?_,
    fun _ first second label hfirst hsecond ↦ ?_, fun oid label hlabel ↦ ?_,
    fun oid ↦ (hmirrors.getOidLabel_arcs_eq hends oid).1,
    fun oid ↦ (hmirrors.getOidLabel_arcs_eq hends oid).2⟩
  · have hlabels := hmirrors.label_eq oid label hlabel
    exact hfollows.length_eq hinitial hstructured (hmem hlabels) hlabels
  · have hlabels := hmirrors.label_eq oid label hlabel
    exact hfollows.label_prefix hinitial hstructured (hmem hlabels) hlabels
      (hmirrors.label_eq longest longestLabel hother) hlongest.ne_nil
      (hlongest.begins.trans (List.dropLast_prefix oid))
  · exact hinjective first second label (hmirrors.label_eq first label hfirst)
      (hmirrors.label_eq second label hsecond)
  · exact hmirrors.resolve_label hends hinjective hlabel

theorem LabelState.isInitial {names : OidOrderedDict SymbolName} {state : LabelPass}
    (hstate : LabelState names names.keys.reverse state) :
    IsInitial state.view.oidToLabelIdx.get? names.keys.reverse where
  sorted := List.pairwise_reverse.mpr names.keys_sorted
  mem _ _ other hother _ := List.mem_reverse.mpr
    (SortedMap.mem_keys.mpr (hstate.isSome_get? other ▸ hother))

/-- A merged index that is faithful is one of labels made of stems and names, in which no parent has
two symbols of one name. -/
theorem LabelState.of_isFaithful {names : OidOrderedDict SymbolName} {state : LabelPass}
    (hstate : LabelState names names.keys.reverse state)
    (hmirrors : Mirrors state.view.oidToLabelIdx.get? view)
    (hkeys : view.oidToLabelIdx.keys = names.keys) (hfaithful : IsFaithful view) :
    Structured names.keys.reverse ∧ NamesApart names.get? names.keys.reverse := by
  have hget : ∀ oid ∈ names.keys.reverse,
      view.oidToLabelIdx.get? oid = state.view.oidToLabelIdx.get? oid := by
    intro oid hoid
    obtain ⟨label, hlabel⟩ := Option.isSome_iff_exists.mp
      (SortedMap.mem_keys.mp (hkeys ▸ List.mem_reverse.mp hoid))
    rw [hlabel, hmirrors.label_eq oid label hlabel]
  have hstructured : Structured names.keys.reverse := by
    by_contra hnot
    obtain ⟨oid, hoid, label, hlabel, hlength⟩ := hstate.faulty hnot
    exact hlength (hfaithful.length_eq oid label ((hget oid hoid).trans hlabel))
  refine ⟨hstructured,
    fun first firstEarlier second secondEarlier hfirst hsecond hparent hname ↦ ?_⟩
  obtain ⟨hfollows, -⟩ := hstate.follows hstructured
  obtain ⟨firstName, hfirstName, hfirstLabel⟩ := hfollows first firstEarlier hfirst
  obtain ⟨secondName, hsecondName, hsecondLabel⟩ := hfollows second secondEarlier hsecond
  obtain rfl : firstName = secondName :=
    Option.some.inj ((hfirstName.symm.trans hname).trans hsecondName)
  rw [← hparent] at hsecondLabel
  have hfirstResolved := hfaithful.resolve_label first _
    ((hget first (hfirst.subset List.mem_cons_self)).trans hfirstLabel)
  have hsecondResolved := hfaithful.resolve_label second _
    ((hget second (hsecond.subset List.mem_cons_self)).trans hsecondLabel)
  exact arcs_injective (congrArg Resolution.oid (hfirstResolved.symm.trans hsecondResolved))

/-- Indexing makes all views faithful exactly if no loaded object identifier is too long for the one
before, and none that is shorter lacks a loaded prefix, and if no two symbols of one name are filed
under one parent. -/
theorem indexMib_isFaithful_iff (mibModules : List MibModule) :
    (∃ index, indexMib mibModules = .ok index ∧ ∀ view ∈ index.views, IsFaithful view) ↔
      Structured (loadedNames mibModules).keys.reverse ∧
        NamesApart (loadedNames mibModules).get? (loadedNames mibModules).keys.reverse := by
  obtain ⟨index, state, hindex, hstate, hmirrors, hkeys⟩ := indexMib_eq_ok mibModules
  constructor
  · rintro ⟨found, hfound, hfaithful⟩
    obtain rfl := Except.ok.inj (hindex.symm.trans hfound)
    exact hstate.of_isFaithful (hmirrors index.merged List.mem_cons_self) hkeys
      (hfaithful index.merged List.mem_cons_self)
  · rintro ⟨hstructured, hnames⟩
    refine ⟨index, hindex, fun view hview ↦ (hmirrors view hview).isFaithful (fun oid hoid ↦ ?_)
      (hstate.follows hstructured).1 hstate.isInitial hstructured hnames⟩
    rw [hstate.isSome_get?] at hoid
    exact List.mem_reverse.mpr (SortedMap.mem_keys.mpr hoid)

/-- A module that registers `iso` and `internet`, and nothing between them but `org`. -/
def gapModule : MibModule where
  modName := "GAP-MIB"
  lastRevision := none
  symbols := [(⟨"iso", 'i', by simp, rfl⟩, .node [1]), (⟨"org", 'o', by simp, rfl⟩, .node [1, 3]),
    (⟨"internet", 'i', by simp, rfl⟩, .node [1, 3, 6, 1])]

/-- The label of `internet` lacks the name of `org`. -/
theorem indexMib_gapModule_not_isFaithful :
    ¬ ∃ index, indexMib [gapModule] = .ok index ∧ ∀ view ∈ index.views, IsFaithful view := by
  rintro ⟨found, hfound, hfaithful⟩
  obtain ⟨index, state, hindex, hstate, hmirrors, hkeys⟩ := indexMib_eq_ok [gapModule]
  obtain rfl := Except.ok.inj (hindex.symm.trans hfound)
  have hstructured := (hstate.of_isFaithful (hmirrors index.merged List.mem_cons_self) hkeys
    (hfaithful index.merged List.mem_cons_self)).1
  exact absurd hstructured (by decide)

end Pysnmp.Smi.ViewLabels
