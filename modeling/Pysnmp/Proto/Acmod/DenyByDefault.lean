import Mathlib.Data.Nat.Bitwise
import Pysnmp.Foundation.PrefixOrder
import Pysnmp.Proto.Acmod.RowSelection

/-!
# Denial by default

The access check against a content of the tables, with coherent caches. The access row is the
selected one (`RowSelection`), and the loop over a view's families gives the type of the family that
decides in the order of the subtrees with the ignored positions zeroed (`DecidesMasked`,
`familyDecision_of_inside`).

`deniesByDefault_iff` compares the outcome with what the tables grant. They agree for a request
exactly when what the request comes to can be read (a row that is still being made may have cells
without a value, on which the check raises another exception), a view that it reaches has a family,
no ignored position of its families lies beyond the end of the name, and the zeroing does not change
the type of the deciding family.
-/

set_option autoImplicit false
set_option relaxedAutoImplicit false

namespace Pysnmp.Proto.Acmod.DenyByDefault

open Foundation Foundation.Effect Foundation.VersionedCache Rfc3415 AccessDecision TableContents
open RowSelection

/-! ### Masks and ignored positions -/

/-- The bits of an octet as the code tests them. -/
theorem powerOfTwo_and_eq_zero_iff {bit : UInt8} {j : ℕ} (hbit : powerOfTwo[j]? = some bit)
    (octet : UInt8) : bit &&& octet = 0 ↔ octet.toNat.testBit (7 - j) = false := by
  have hj : j < powerOfTwo.length := (List.getElem?_eq_some_iff.mp hbit).1
  have hpower : bit.toNat = 2 ^ (7 - j) := by
    change j < 8 at hj
    interval_cases j <;> cases hbit <;> rfl
  rw [← UInt8.toNat_inj, UInt8.toNat_and, hpower, Nat.and_comm, Nat.and_two_pow]
  cases octet.toNat.testBit (7 - j) <;> simp

/-- The ignored positions are those of the subtree at which the mask bit is zero. -/
theorem mem_ignoredSubOids {mask : Octets} {subtree : Oid} {position : ℕ} :
    position ∈ ignoredSubOids mask subtree ↔
      position < subtree.length ∧ maskBit mask position = false := by
  simp only [ignoredSubOids, List.mem_flatMap, List.mem_filterMap, Prod.exists,
    List.mem_zipIdx_iff_getElem?, Option.ite_none_right_eq_some, Option.some.injEq]
  constructor
  · rintro ⟨octet, i, hoctet, bit, j, hbit, ⟨hzero, hlt⟩, rfl⟩
    have hj : j < 8 := (List.getElem?_eq_some_iff.mp hbit).1
    refine ⟨(lt_min_iff.mp hlt).2, ?_⟩
    rw [maskBit, show (i * 8 + j) / 8 = i by omega, hoctet, show (i * 8 + j) % 8 = j by omega]
    exact (powerOfTwo_and_eq_zero_iff hbit octet).mp hzero
  · rintro ⟨hlt, hmask⟩
    unfold maskBit at hmask
    split at hmask
    · cases hmask
    · next octet hoctet =>
      have hmaskLength : position / 8 < mask.length := (List.getElem?_eq_some_iff.mp hoctet).1
      have hj : position % 8 < powerOfTwo.length := Nat.mod_lt _ (by decide)
      have hbit := List.getElem?_eq_getElem hj
      refine ⟨octet, position / 8, hoctet, _, position % 8, hbit, ⟨?_, ?_⟩, by omega⟩
      · exact (powerOfTwo_and_eq_zero_iff hbit octet).mpr hmask
      · rw [lt_min_iff]
        omega

/-- Every position of the subtree at which the mask has a zero is one of the name. -/
def IgnoredInside (name : Oid) (family : ViewTreeFamily) : Prop :=
  ∀ position < family.vacmViewTreeFamilySubtree.length,
    maskBit family.vacmViewTreeFamilyMask position = false → position < name.length

theorem ignoredInside_iff {name : Oid} {family : ViewTreeFamily} :
    IgnoredInside name family ↔
      ∀ position ∈ family.entry.ignoredSubOids, position < name.length := by
  simp only [ViewTreeFamily.entry, mem_ignoredSubOids, and_imp]
  rfl

theorem getElem?_foldl_set (ignored : List ℕ) (oid : Oid) (position : ℕ) :
    (ignored.foldl (fun oid position ↦ oid.set position 0) oid)[position]? =
      if position ∈ ignored then oid[position]?.map fun _ ↦ 0 else oid[position]? := by
  induction ignored generalizing oid with
  | nil => simp
  | cons head ignored ih =>
    rw [List.foldl_cons, ih]
    by_cases hhead : head = position
    · subst hhead
      by_cases hlength : head < oid.length <;> simp [hlength]
    · simp [List.getElem?_set_ne hhead, Ne.symm hhead]

/-- Positions inside the OID are zeroed. -/
theorem zeroSubOids_eq_ok {ignored : List ℕ} {oid : Oid}
    (hinside : ∀ position ∈ ignored, position < oid.length) :
    zeroSubOids ignored oid = .ok (ignored.foldl (fun oid position ↦ oid.set position 0) oid) := by
  induction ignored generalizing oid with
  | nil => rfl
  | cons head ignored ih =>
    rw [zeroSubOids, if_pos (hinside head List.mem_cons_self), List.foldl_cons]
    refine ih fun position hposition ↦ ?_
    rw [List.length_set]
    exact hinside position (List.mem_cons_of_mem _ hposition)

/-- A position beyond its end is an `IndexError`. -/
theorem zeroSubOids_eq_error {ignored : List ℕ} {oid : Oid}
    (houtside : ¬ ∀ position ∈ ignored, position < oid.length) :
    zeroSubOids ignored oid = .error .indexError := by
  induction ignored generalizing oid with
  | nil => exact absurd (fun _ hposition ↦ absurd hposition List.not_mem_nil) houtside
  | cons head ignored ih =>
    rw [zeroSubOids]
    split_ifs with hhead
    · refine ih fun hrest ↦ houtside fun position hposition ↦ ?_
      rcases List.mem_cons.mp hposition with rfl | hposition
      · exact hhead
      · simpa using hrest position hposition
    · rfl

theorem prefix_iff_getElem?_eq {first second : Oid} :
    first <+: second ↔ ∀ position < first.length, second[position]? = first[position]? := by
  rw [List.prefix_iff_getElem?]
  exact forall₂_congr fun position hposition ↦ by rw [List.getElem?_eq_getElem hposition]

/-- A family matches a name that is long enough and agrees wherever the mask has a one. -/
theorem familyMatches_iff {name : Oid} {family : ViewTreeFamily} :
    familyMatches name family = true ↔
      family.vacmViewTreeFamilySubtree.length ≤ name.length ∧
        ∀ position < family.vacmViewTreeFamilySubtree.length,
          maskBit family.vacmViewTreeFamilyMask position = false ∨
            name[position]? = family.vacmViewTreeFamilySubtree[position]? := by
  simp [familyMatches, List.all_eq_true]

theorem length_entry_subtree (family : ViewTreeFamily) :
    family.entry.subtree.length = family.vacmViewTreeFamilySubtree.length := by
  rw [ViewTreeFamily.entry]
  generalize family.vacmViewTreeFamilySubtree = subtree
  dsimp only
  generalize ignoredSubOids family.vacmViewTreeFamilyMask subtree = ignored
  induction ignored generalizing subtree with
  | nil => rfl
  | cons head ignored ih => rw [List.foldl_cons, ih, List.length_set]

/-- With the ignored positions zeroed on both sides, the code's prefix test is the match of the
family. -/
theorem isPrefixOf_zeroed_eq {name : Oid} {family : ViewTreeFamily}
    (hinside : IgnoredInside name family) :
    family.entry.subtree.isPrefixOf
        (family.entry.ignoredSubOids.foldl (fun oid position ↦ oid.set position 0) name) =
      familyMatches name family := by
  rw [Bool.eq_iff_iff, List.isPrefixOf_iff_prefix, prefix_iff_getElem?_eq, familyMatches_iff,
    length_entry_subtree]
  simp only [ViewTreeFamily.entry, getElem?_foldl_set]
  constructor
  · intro hequal
    have hposition : ∀ position < family.vacmViewTreeFamilySubtree.length,
        position < name.length ∧ (maskBit family.vacmViewTreeFamilyMask position = false ∨
          name[position]? = family.vacmViewTreeFamilySubtree[position]?) := by
      intro position hlt
      have heq := hequal position hlt
      by_cases hignored : position ∈ ignoredSubOids family.vacmViewTreeFamilyMask
          family.vacmViewTreeFamilySubtree
      · exact ⟨ignoredInside_iff.mp hinside position hignored,
          Or.inl (mem_ignoredSubOids.mp hignored).2⟩
      · rw [if_neg hignored, if_neg hignored, List.getElem?_eq_getElem hlt] at heq
        exact ⟨(List.getElem?_eq_some_iff.mp heq).1,
          Or.inr (heq.trans (List.getElem?_eq_getElem hlt).symm)⟩
    refine ⟨not_lt.mp fun hlt ↦ ?_, fun position hlt ↦ (hposition position hlt).2⟩
    exact absurd (hposition name.length hlt).1 (lt_irrefl _)
  · rintro ⟨hlength, hequal⟩ position hlt
    split_ifs with hignored
    · rw [List.getElem?_eq_getElem hlt, List.getElem?_eq_getElem (hlt.trans_le hlength)]
      rfl
    · refine (hequal position hlt).resolve_left fun hmask ↦ hignored ?_
      exact mem_ignoredSubOids.mpr ⟨hlt, hmask⟩

/-! ### The deciding family -/

/-- The order of the view tree map: the length of the zeroed subtree, the zeroed subtree, and among
equals the order of the table. -/
def maskedRank (family : ViewTreeFamily) : (ℕ ×ₗ Oid) ×ₗ (ℕ ×ₗ Oid) :=
  toLex (toLex (family.entry.subtree.length, family.entry.subtree), familyRank family)

/-- The family that decides about a name in the order of the view tree map. -/
def DecidesMasked (tables : VacmTables) (viewName : Octets) (name : Oid)
    (family : ViewTreeFamily) : Prop :=
  LastMatch.IsGreatestMatch maskedRank (familyMatches name) (tables.families viewName) family

/-- Within a view the order of the instances is the order of the ranks. -/
theorem familyRank_lt_of_familyInstId_lt {first second : ViewTreeFamily}
    (hname : first.vacmViewTreeFamilyViewName = second.vacmViewTreeFamilyViewName)
    (hinstId : familyInstId first < familyInstId second) :
    familyRank first < familyRank second := by
  rw [familyInstId, familyInstId, hname, viewInstId, viewInstId, PrefixOrder.append_lt_append_iff,
    List.cons_lt_cons_iff] at hinstId
  exact Prod.Lex.toLex_lt_toLex.mpr hinstId

/-- The families of a view stand in the order of their subtrees. -/
theorem families_familyRank (tables : VacmTables) (viewName : Octets) :
    (tables.families viewName).Pairwise fun first second ↦
      familyRank first < familyRank second := by
  refine (tables.viewTreeFamilies_instId.filter _).imp_of_mem ?_
  intro first second hfirst hsecond hinstId
  refine familyRank_lt_of_familyInstId_lt ?_ hinstId
  rw [of_decide_eq_true (List.mem_filter.mp hfirst).2,
    of_decide_eq_true (List.mem_filter.mp hsecond).2]

/-- The loop over entries of families whose ignored positions lie inside the name. -/
theorem accessAllowed_map_entry {name : Oid} {families : List ViewTreeFamily}
    (hinside : ∀ family ∈ families, IgnoredInside name family) (allowed : Bool) :
    accessAllowed name allowed (families.map ViewTreeFamily.entry) =
      .ok (families.foldl (fun allowed family ↦
        if familyMatches name family then family.included else allowed) allowed) := by
  induction families generalizing allowed with
  | nil => rfl
  | cons family families ih =>
    have hhead := hinside family List.mem_cons_self
    rw [List.map_cons, accessAllowed, zeroSubOids_eq_ok (ignoredInside_iff.mp hhead)]
    dsimp only
    rw [isPrefixOf_zeroed_eq hhead,
      ih (fun other hother ↦ hinside other (List.mem_cons_of_mem _ hother)), List.foldl_cons]
    rfl

/-- A mask that reaches beyond the OID stops the check. -/
theorem accessAllowed_eq_error {name : Oid} {families : List ViewTreeFamily}
    (houtside : ¬ ∀ family ∈ families, IgnoredInside name family) (allowed : Bool) :
    accessAllowed name allowed (families.map ViewTreeFamily.entry) = .error .indexError := by
  induction families generalizing allowed with
  | nil => exact absurd (fun _ hfamily ↦ absurd hfamily List.not_mem_nil) houtside
  | cons family families ih =>
    rw [List.map_cons, accessAllowed]
    by_cases hhead : IgnoredInside name family
    · rw [zeroSubOids_eq_ok (ignoredInside_iff.mp hhead)]
      refine ih (fun hrest ↦ houtside ?_) _
      exact List.forall_mem_cons.mpr ⟨hhead, hrest⟩
    · rw [zeroSubOids_eq_error (mt ignoredInside_iff.mpr hhead)]

/-- The families of a view in the order of the view tree map. -/
def sortedFamilies (tables : VacmTables) (viewName : Octets) : List ViewTreeFamily :=
  LastMatch.sortByKey
    (fun family : ViewTreeFamily ↦ toLex (family.entry.subtree.length, family.entry.subtree))
    (tables.families viewName)

theorem sortedFamilies_maskedRank (tables : VacmTables) (viewName : Octets) :
    (sortedFamilies tables viewName).Pairwise fun first second ↦
      maskedRank first < maskedRank second :=
  LastMatch.pairwise_sortByKey (families_familyRank tables viewName)

/-- The code goes by the last family that matches, in its own order. -/
theorem decidesMasked_iff {tables : VacmTables} {viewName : Octets} {name : Oid}
    {family : ViewTreeFamily} :
    DecidesMasked tables viewName name family ↔
      ((sortedFamilies tables viewName).filter (familyMatches name)).getLast? = some family := by
  rw [LastMatch.getLast?_filter_eq_some_iff (sortedFamilies_maskedRank tables viewName)]
  simp only [DecidesMasked, LastMatch.IsGreatestMatch, sortedFamilies, LastMatch.mem_sortByKey]

/-- The decision of the loop over the families of a view, sorted as the view tree map has them. -/
def familyDecision (tables : VacmTables) (viewName : Octets) (name : Oid) : Except VacmError Bool :=
  accessAllowed name false
    (LastMatch.sortByKey (fun entry : ViewTreeEntry ↦ toLex (entry.subtree.length, entry.subtree))
      ((tables.families viewName).map ViewTreeFamily.entry))

/-- The decision is made over the sorted families. -/
theorem familyDecision_eq (tables : VacmTables) (viewName : Octets) (name : Oid) :
    familyDecision tables viewName name =
      accessAllowed name false ((sortedFamilies tables viewName).map ViewTreeFamily.entry) := by
  rw [familyDecision, LastMatch.sortByKey_map]
  rfl

/-- Sorting leaves out no family. -/
theorem mem_sortedFamilies {tables : VacmTables} {viewName : Octets} {family : ViewTreeFamily} :
    family ∈ sortedFamilies tables viewName ↔ family ∈ tables.families viewName :=
  LastMatch.mem_sortByKey

/-- With the ignored positions inside the name, the loop returns the type of the family that decides
in the order of the map. -/
theorem familyDecision_of_inside {tables : VacmTables} {viewName : Octets} {name : Oid}
    (hinside : ∀ family ∈ tables.families viewName, IgnoredInside name family) :
    ∃ allowed, familyDecision tables viewName name = .ok allowed ∧
      (allowed = true ↔ ∃ family,
        DecidesMasked tables viewName name family ∧ family.included = true) := by
  refine ⟨(((sortedFamilies tables viewName).filter (familyMatches name)).getLast?.map
    ViewTreeFamily.included).getD false, ?_, ?_⟩
  · rw [familyDecision_eq, accessAllowed_map_entry fun family hfamily ↦
        hinside family (mem_sortedFamilies.mp hfamily),
          LastMatch.foldl_override (familyMatches name)]
  · simp only [decidesMasked_iff]
    cases ((sortedFamilies tables viewName).filter (familyMatches name)).getLast? <;> simp

/-- With an ignored position beyond the end of the name, the loop fails. -/
theorem familyDecision_of_outside {tables : VacmTables} {viewName : Octets} {name : Oid}
    (houtside : ¬ ∀ family ∈ tables.families viewName, IgnoredInside name family) :
    familyDecision tables viewName name = .error .indexError := by
  rw [familyDecision_eq]
  refine accessAllowed_eq_error (fun hinside ↦ houtside fun family hfamily ↦ ?_) false
  exact hinside family (mem_sortedFamilies.mpr hfamily)

/-- The decision for a view that has a family is that of the loop. -/
theorem viewDecision_eq {contents : VacmContents} {viewName : Octets}
    (hreadable : ∀ entry ∈ contents.viewTreeFamilies, entry.IsReadable)
    (hfamilies : contents.tables.families viewName ≠ []) (versions : Fin 4 → ℤ)
    (request : AccessRequest) :
    viewDecision (contents.source versions) request (some viewName) =
      familyDecision contents.tables viewName request.variableName >>= fun allowed ↦
        if allowed then .ok none else .error (.statusInformation .notInView) := by
  obtain ⟨viewTreeMap, hbuild, hmap⟩ := build_viewTreeFamilies contents versions hreadable
  have hmapped := hmap viewName
  rw [if_neg hfamilies] at hmapped
  rw [viewDecision, hbuild]
  simp only [bind, Except.bind, valueOf, hmapped]
  rfl

/-- What the tables decide for a view, with families that can be read: the returned exception where
it has no family, `IndexError` where an ignored position lies beyond the name, and else the type of
the deciding family. -/
theorem viewDecision_cases {contents : VacmContents}
    (hreadable : ∀ entry ∈ contents.viewTreeFamilies, entry.IsReadable) (versions : Fin 4 → ℤ)
    (request : AccessRequest) (viewName : Octets) :
    (contents.tables.families viewName = [] ∧
      viewDecision (contents.source versions) request (some viewName) = .ok (some .notInView)) ∨
    ((¬ ∀ family ∈ contents.tables.families viewName,
        IgnoredInside request.variableName family) ∧
      viewDecision (contents.source versions) request (some viewName) = .error .indexError) ∨
    (contents.tables.families viewName ≠ [] ∧
      (∀ family ∈ contents.tables.families viewName,
        IgnoredInside request.variableName family) ∧
      ∃ allowed, viewDecision (contents.source versions) request (some viewName) =
          (if allowed then .ok none else .error (.statusInformation .notInView)) ∧
        (allowed = true ↔ ∃ family,
          DecidesMasked contents.tables viewName request.variableName family ∧
            family.included = true)) := by
  by_cases hempty : contents.tables.families viewName = []
  · obtain ⟨viewTreeMap, hbuild, hmap⟩ := build_viewTreeFamilies contents versions hreadable
    have hmapped := hmap viewName
    rw [if_pos hempty] at hmapped
    exact Or.inl ⟨hempty, by simp only [viewDecision, hbuild, bind, Except.bind, valueOf, hmapped]⟩
  · rw [viewDecision_eq hreadable hempty]
    by_cases hinside : ∀ family ∈ contents.tables.families viewName,
        IgnoredInside request.variableName family
    · obtain ⟨allowed, hallowed, hmasked⟩ := familyDecision_of_inside hinside
      exact Or.inr (Or.inr ⟨hempty, hinside, allowed, by rw [hallowed]; rfl, hmasked⟩)
    · exact Or.inr (Or.inl ⟨hinside, by rw [familyDecision_of_outside hinside]; rfl⟩)

/-- A check that neither grants nor denies: what it raises is no `StatusInformation`. -/
def Breaks (decision : Except VacmError (Option ErrorIndication)) : Prop :=
  ∃ exception, decision = .error exception ∧
    ∀ errorIndication, exception ≠ .statusInformation errorIndication

/-- A family that cannot be read breaks the decision for any view, and so does a view name without a
value. -/
theorem breaks_viewDecision {contents : VacmContents} {viewName : Option Octets}
    (hunread : viewName = none ∨ ¬ ∀ entry ∈ contents.viewTreeFamilies, entry.IsReadable)
    (versions : Fin 4 → ℤ) (request : AccessRequest) :
    Breaks (viewDecision (contents.source versions) request viewName) := by
  by_cases hreadable : ∀ entry ∈ contents.viewTreeFamilies, entry.IsReadable
  · obtain rfl := hunread.resolve_right (not_not.mpr hreadable)
    obtain ⟨viewTreeMap, hbuild, -⟩ := build_viewTreeFamilies contents versions hreadable
    refine ⟨.pyAsn1Error, ?_, fun _ ↦ VacmError.noConfusion⟩
    simp only [viewDecision, hbuild, bind, Except.bind, valueOf]
  · obtain ⟨exception, hbuild, hother⟩ :=
      build_viewTreeFamilies_eq_error contents versions hreadable
    exact ⟨exception, by simp only [viewDecision, hbuild, bind, Except.bind], hother⟩

/-- One family decides. -/
theorem eq_of_decides {tables : VacmTables} {viewName : Octets} {name : Oid}
    {first second : ViewTreeFamily} (hfirst : Decides tables viewName name first)
    (hsecond : Decides tables viewName name second) : first = second :=
  LastMatch.IsGreatestMatch.eq hfirst hsecond (families_familyRank tables viewName)

/-- One family decides in the code too. -/
theorem eq_of_decidesMasked {tables : VacmTables} {viewName : Octets} {name : Oid}
    {first second : ViewTreeFamily} (hfirst : DecidesMasked tables viewName name first)
    (hsecond : DecidesMasked tables viewName name second) : first = second :=
  Option.some.inj ((decidesMasked_iff.mp hfirst).symm.trans (decidesMasked_iff.mp hsecond))

/-! ### The outcome of a check -/

/-- A request belongs to one group. -/
theorem eq_of_reachesGroup {contents : VacmContents} {request : AccessRequest}
    {first second : Option Octets} (hfirst : ReachesGroup contents.tables request first)
    (hsecond : ReachesGroup contents.tables request second) : first = second := by
  obtain ⟨groupNameMap, -, hmap⟩ := build_securityToGroup contents fun _ ↦ 0
  exact Option.some.inj (((hmap _ _ _).mpr hfirst.2).symm.trans ((hmap _ _ _).mpr hsecond.2))

/-- The tables lead a request to one view at most. -/
theorem eq_of_reachesView {contents : VacmContents} {request : AccessRequest}
    {first second : Option Octets} (hfirst : ReachesView contents.tables request first)
    (hsecond : ReachesView contents.tables request second) : first = second := by
  obtain ⟨group, hgroup, row, hrow, rfl⟩ := hfirst
  obtain ⟨other, hother, otherRow, hotherRow, rfl⟩ := hsecond
  obtain rfl : group = other := Option.some.inj (eq_of_reachesGroup hgroup hother)
  rw [eq_of_selects hrow hotherRow]

/-- Either the checks of the first two tables fail, with `StatusInformation`, or the group they lead
to decides. -/
theorem accessDecision_cases (contents : VacmContents) (versions : Fin 4 → ℤ)
    (request : AccessRequest) :
    ((¬ ∃ groupName, ReachesGroup contents.tables request groupName) ∧ ∃ errorIndication,
      accessDecision (contents.source versions) request =
        .error (.statusInformation errorIndication)) ∨
    ∃ groupName, ReachesGroup contents.tables request groupName ∧
      accessDecision (contents.source versions) request =
        groupDecision (contents.source versions) request groupName := by
  obtain ⟨contextMap, hcontexts, hcontext⟩ := build_contexts contents versions
  obtain ⟨groupNameMap, hgroups, hgroup⟩ := build_securityToGroup contents versions
  by_cases hknown : contextMap request.contextName = true
  · cases hname : groupNameMap (request.securityModel, request.securityName) with
    | none =>
      refine Or.inl ⟨?_, .noGroupName, ?_⟩
      · rintro ⟨groupName, -, hmem⟩
        exact absurd ((hgroup _ _ _).mpr hmem) (by simp [hname])
      · simp only [accessDecision, hcontexts, hgroups, bind, Except.bind, hknown, if_true, hname]
    | some groupName =>
      refine Or.inr ⟨groupName, ⟨(hcontext _).mp hknown, (hgroup _ _ _).mp hname⟩, ?_⟩
      simp only [accessDecision, hcontexts, hgroups, bind, Except.bind, hknown, if_true, hname]
  · refine Or.inl ⟨?_, .noSuchContext, ?_⟩
    · rintro ⟨-, hmem, -⟩
      exact hknown ((hcontext _).mpr hmem)
    · simp only [accessDecision, hcontexts, bind, Except.bind, hknown]
      rfl

/-- A group name without a value breaks the decision, and so does an access row that cannot be
read. -/
theorem breaks_groupDecision {contents : VacmContents} {groupName : Option Octets}
    (hunread : groupName = none ∨ ¬ ∀ entry ∈ contents.access, entry.IsReadable)
    (versions : Fin 4 → ℤ) (request : AccessRequest) :
    Breaks (groupDecision (contents.source versions) request groupName) := by
  by_cases hreadable : ∀ entry ∈ contents.access, entry.IsReadable
  · obtain rfl := hunread.resolve_right (not_not.mpr hreadable)
    refine ⟨.pyAsn1Error, ?_, fun _ ↦ VacmError.noConfusion⟩
    simp only [groupDecision, build_access contents versions hreadable, bind, Except.bind, valueOf]
  · obtain ⟨exception, hbuild, hother⟩ := build_access_eq_error contents versions hreadable
    exact ⟨exception, by simp only [groupDecision, hbuild, bind, Except.bind], hother⟩

/-- Either no row fits the group, which is denied, or the view of the selected row decides. -/
theorem groupDecision_cases {contents : VacmContents} {request : AccessRequest} {groupName : Octets}
    (hgroup : ReachesGroup contents.tables request (some groupName))
    (hreadable : ∀ entry ∈ contents.access, entry.IsReadable) (versions : Fin 4 → ℤ) :
    ((¬ ∃ viewName, ReachesView contents.tables request viewName) ∧ ∃ errorIndication,
      groupDecision (contents.source versions) request (some groupName) =
        .error (.statusInformation errorIndication)) ∨
    ∃ viewName, ReachesView contents.tables request viewName ∧
      groupDecision (contents.source versions) request (some groupName) =
        viewDecision (contents.source versions) request viewName := by
  have hrows : HoldsRows contents.tables.accessMap contents.tables :=
    lookup_accessMap contents.tables
  have hdecision : groupDecision (contents.source versions) request (some groupName) =
      (getFamilyViewName contents.tables.accessMap groupName request) >>=
        viewDecision (contents.source versions) request := by
    simp only [groupDecision, build_access contents versions hreadable, bind, Except.bind, valueOf]
  cases hview : getFamilyViewName contents.tables.accessMap groupName request with
  | error exception =>
    obtain ⟨⟨errorIndication, rfl⟩, hfits⟩ := not_fits_of_getFamilyViewName_eq_error hrows hview
    refine Or.inl ⟨?_, errorIndication, by rw [hdecision, hview]; rfl⟩
    rintro ⟨viewName, other, hother, row, hrow, -⟩
    obtain rfl : groupName = other := Option.some.inj (eq_of_reachesGroup hgroup hother)
    exact hfits row hrow.mem hrow.fits
  | ok viewName =>
    exact Or.inr ⟨viewName, ⟨groupName, hgroup, (getFamilyViewName_eq_ok_iff hrows).mp hview⟩,
      by rw [hdecision, hview]; rfl⟩

/-- What a decision of the tables owes a request: it grants exactly when the tables do, and
otherwise raises `StatusInformation`. -/
def DecidesDuly (contents : VacmContents) (request : AccessRequest)
    (decision : Except VacmError (Option ErrorIndication)) : Prop :=
  ((∃ value, decision = .ok value) ↔ Granted contents.tables request) ∧
    (¬ Granted contents.tables request → ∃ errorIndication,
      decision = .error (.statusInformation errorIndication))

/-- What the access check and its callers owe a request: the check decides duly, and a responder or
a notification originator grants nothing but what the tables grant. -/
def DeniesByDefault (contents : VacmContents) (request : AccessRequest) : Prop :=
  ∀ versions vacm, Coherent (contents.source versions) vacm →
    DecidesDuly contents request ((isAccessAllowed (contents.source versions) request).run vacm).1 ∧
    (∀ counter64InV1GetNext, verifyAccess (contents.source versions) request counter64InV1GetNext
      vacm = .ok .granted → Granted contents.tables request) ∧
    ∀ varNames after, request.variableName ∈ varNames →
      (vacmDenied (contents.source versions) request varNames).run vacm = (.ok false, after) →
      Granted contents.tables request

/-- The view has a family, its ignored positions lie inside the name, and the family that decides
with the ignored positions zeroed is of the type of the one that decides. -/
structure DecidesAlike (tables : VacmTables) (viewName : Octets) (name : Oid) : Prop where
  families_ne : tables.families viewName ≠ []
  inside : ∀ family ∈ tables.families viewName, IgnoredInside name family
  sameType : ∀ masked family, DecidesMasked tables viewName name masked →
    Decides tables viewName name family → masked.included = family.included

/-- The group name that the request reaches has a value, and the access rows can be read; the view
name that it reaches has a value, the families can be read, and those of the view decide alike. -/
def DecidableByFamilies (contents : VacmContents) (request : AccessRequest) : Prop :=
  ∀ groupName, ReachesGroup contents.tables request groupName →
    groupName ≠ none ∧ (∀ entry ∈ contents.access, entry.IsReadable) ∧
    ∀ viewName, ReachesView contents.tables request viewName →
      (∀ entry ∈ contents.viewTreeFamilies, entry.IsReadable) ∧
      ∃ name, viewName = some name ∧ DecidesAlike contents.tables name request.variableName

/-- A family decides in one order as soon as one decides in the other. -/
theorem exists_decides_of_decidesMasked {tables : VacmTables} {viewName : Octets} {name : Oid}
    {masked : ViewTreeFamily} (hmasked : DecidesMasked tables viewName name masked) :
    ∃ family, Decides tables viewName name family :=
  LastMatch.exists_isGreatestMatch hmasked.1 hmasked.2.1

/-- Where a family decides, one decides in the code. -/
theorem exists_decidesMasked_of_decides {tables : VacmTables} {viewName : Octets} {name : Oid}
    {family : ViewTreeFamily} (hfamily : Decides tables viewName name family) :
    ∃ masked, DecidesMasked tables viewName name masked :=
  LastMatch.exists_isGreatestMatch hfamily.1 hfamily.2.1

/-- A view with families has a name. -/
theorem viewName_ne_of_families_ne {tables : VacmTables} {viewName : Octets}
    (hfamilies : tables.families viewName ≠ []) : viewName ≠ [] := by
  obtain ⟨family, hfamily⟩ := List.exists_mem_of_ne_nil _ hfamilies
  obtain ⟨hmem, hname⟩ := List.mem_filter.mp hfamily
  exact of_decide_eq_true hname ▸ tables.viewName_ne family hmem

section Outcome

variable {contents : VacmContents} {request : AccessRequest}

/-- The grant of a request that reaches a view is the type of the view's deciding family. -/
theorem granted_iff_of_reachesView {viewName : Octets}
    (hreaches : ReachesView contents.tables request (some viewName))
    (hfamilies : contents.tables.families viewName ≠ []) :
    Granted contents.tables request ↔ ∃ family,
      Decides contents.tables viewName request.variableName family ∧ family.included = true := by
  constructor
  · rintro ⟨other, -, hother, hdecides⟩
    rwa [Option.some.inj (eq_of_reachesView hreaches hother)]
  · exact fun hdecides ↦ ⟨viewName, viewName_ne_of_families_ne hfamilies, hreaches, hdecides⟩

/-- What breaks is not decided duly. -/
theorem Breaks.not_decidesDuly {decision : Except VacmError (Option ErrorIndication)}
    (hbreaks : Breaks decision) : ¬ DecidesDuly contents request decision := by
  rintro ⟨hreturns, hraises⟩
  obtain ⟨exception, rfl, hother⟩ := hbreaks
  by_cases hgranted : Granted contents.tables request
  · obtain ⟨value, hvalue⟩ := hreturns.mpr hgranted
    cases hvalue
  · obtain ⟨errorIndication, hstatus⟩ := hraises hgranted
    exact hother errorIndication (Except.error.inj hstatus)

/-- Where the tables lead to no view, a denial is due. -/
theorem decidesDuly_of_not_reachesView
    (hnone : ¬ ∃ viewName, ReachesView contents.tables request viewName)
    {decision : Except VacmError (Option ErrorIndication)} {errorIndication : ErrorIndication}
    (herror : decision = .error (.statusInformation errorIndication)) :
    DecidesDuly contents request decision := by
  have hdenied : ¬ Granted contents.tables request :=
    fun ⟨viewName, _, hreaches, _⟩ ↦ hnone ⟨some viewName, hreaches⟩
  refine ⟨iff_of_false ?_ hdenied, fun _ ↦ ⟨errorIndication, herror⟩⟩
  rintro ⟨value, hok⟩
  rw [herror] at hok
  cases hok

/-- The view that is reached decides duly exactly when its families decide alike. -/
theorem decidesDuly_viewDecision_iff {viewName : Octets}
    (hreaches : ReachesView contents.tables request (some viewName))
    (hreadable : ∀ entry ∈ contents.viewTreeFamilies, entry.IsReadable) (versions : Fin 4 → ℤ) :
    DecidesDuly contents request
        (viewDecision (contents.source versions) request (some viewName)) ↔
      DecidesAlike contents.tables viewName request.variableName := by
  rcases viewDecision_cases hreadable versions request viewName with
    ⟨hempty, hok⟩ | ⟨houtside, herror⟩ | ⟨hfamilies, hinside, allowed, hallowed, hmasked⟩
  · refine iff_of_false (fun hduly ↦ ?_) fun halike ↦ halike.families_ne hempty
    obtain ⟨reached, -, hreached, family, hfamily, -⟩ := hduly.1.mp ⟨_, hok⟩
    rw [← Option.some.inj (eq_of_reachesView hreaches hreached)] at hfamily
    exact absurd hfamily.1 (hempty ▸ List.not_mem_nil)
  · refine iff_of_false (Breaks.not_decidesDuly ⟨_, herror, fun _ ↦ VacmError.noConfusion⟩)
      fun halike ↦ houtside halike.inside
  have hgrants : DecidesDuly contents request
      (if allowed then .ok none else .error (.statusInformation .notInView)) ↔
        (allowed = true ↔ Granted contents.tables request) := by
    cases allowed <;> simp [DecidesDuly]
  rw [hallowed, hgrants, hmasked, granted_iff_of_reachesView hreaches hfamilies]
  constructor
  · intro hsame
    refine ⟨hfamilies, hinside, fun masked family hone hother ↦ ?_⟩
    have hmaskedIncluded : (∃ other, DecidesMasked contents.tables viewName request.variableName
        other ∧ other.included = true) ↔ masked.included = true :=
      ⟨fun ⟨other, hdecides, hincluded⟩ ↦ eq_of_decidesMasked hdecides hone ▸ hincluded,
        fun hincluded ↦ ⟨masked, hone, hincluded⟩⟩
    have hfamilyIncluded : (∃ other, Decides contents.tables viewName request.variableName
        other ∧ other.included = true) ↔ family.included = true :=
      ⟨fun ⟨other, hdecides, hincluded⟩ ↦ eq_of_decides hdecides hother ▸ hincluded,
        fun hincluded ↦ ⟨family, hother, hincluded⟩⟩
    exact Bool.eq_iff_iff.mpr (hmaskedIncluded.symm.trans (hsame.trans hfamilyIncluded))
  · intro halike
    constructor
    · rintro ⟨masked, hone, hincluded⟩
      obtain ⟨family, hother⟩ := exists_decides_of_decidesMasked hone
      exact ⟨family, hother, halike.sameType masked family hone hother ▸ hincluded⟩
    · rintro ⟨family, hother, hincluded⟩
      obtain ⟨masked, hone⟩ := exists_decidesMasked_of_decides hother
      exact ⟨masked, hone, (halike.sameType masked family hone hother).trans hincluded⟩

/-- The tables decide duly exactly under the condition. -/
theorem decidesDuly_accessDecision_iff (contents : VacmContents) (request : AccessRequest)
    (versions : Fin 4 → ℤ) :
    DecidesDuly contents request (accessDecision (contents.source versions) request) ↔
      DecidableByFamilies contents request := by
  rcases accessDecision_cases contents versions request with
    ⟨hnone, errorIndication, herror⟩ | ⟨groupName, hgroup, hdecision⟩
  · refine iff_of_true (decidesDuly_of_not_reachesView ?_ herror)
      fun groupName hgroup ↦ absurd ⟨groupName, hgroup⟩ hnone
    rintro ⟨viewName, groupName, hgroup, -⟩
    exact hnone ⟨some groupName, hgroup⟩
  rw [hdecision]
  by_cases hunread : groupName = none ∨ ¬ ∀ entry ∈ contents.access, entry.IsReadable
  · refine iff_of_false (breaks_groupDecision hunread versions request).not_decidesDuly
      fun hdecidable ↦ ?_
    obtain ⟨hvalue, hrows, -⟩ := hdecidable groupName hgroup
    exact hunread.elim hvalue fun hunreadable ↦ hunreadable hrows
  obtain ⟨hvalue, hrows⟩ := not_or.mp hunread
  rw [not_not] at hrows
  obtain ⟨group, rfl⟩ := Option.ne_none_iff_exists'.mp hvalue
  rcases groupDecision_cases hgroup hrows versions with
    ⟨hnone, errorIndication, herror⟩ | ⟨viewName, hreaches, hview⟩
  · refine iff_of_true (decidesDuly_of_not_reachesView hnone herror) fun other hother ↦ ?_
    rw [eq_of_reachesGroup hother hgroup]
    exact ⟨hvalue, hrows, fun viewName hreaches ↦ absurd ⟨viewName, hreaches⟩ hnone⟩
  rw [hview]
  have hcondition : DecidableByFamilies contents request ↔
      (∀ entry ∈ contents.viewTreeFamilies, entry.IsReadable) ∧
        ∃ name, viewName = some name ∧ DecidesAlike contents.tables name request.variableName := by
    constructor
    · exact fun hdecidable ↦ (hdecidable _ hgroup).2.2 viewName hreaches
    · intro hview other hother
      rw [eq_of_reachesGroup hother hgroup]
      refine ⟨hvalue, hrows, fun found hfound ↦ ?_⟩
      rwa [eq_of_reachesView hfound hreaches]
  rw [hcondition]
  by_cases hunset : viewName = none ∨ ¬ ∀ entry ∈ contents.viewTreeFamilies, entry.IsReadable
  · refine iff_of_false (breaks_viewDecision hunset versions request).not_decidesDuly ?_
    rintro ⟨hfamilies, name, rfl, -⟩
    exact hunset.elim (Option.some_ne_none name) fun hunreadable ↦ hunreadable hfamilies
  obtain ⟨hname, hfamilies⟩ := not_or.mp hunset
  rw [not_not] at hfamilies
  obtain ⟨name, rfl⟩ := Option.ne_none_iff_exists'.mp hname
  rw [decidesDuly_viewDecision_iff hreaches hfamilies versions]
  constructor
  · exact fun halike ↦ ⟨hfamilies, name, rfl, halike⟩
  · rintro ⟨-, _, ⟨⟩, halike⟩
    exact halike

end Outcome

/-- A new model object has read nothing, so it is coherent with any tables. -/
theorem coherent_initial (contents : VacmContents) :
    Coherent (contents.source fun _ ↦ 0) Vacm.initial where
  contextMap := by rintro ⟨⟩
  groupNameMap := by rintro ⟨⟩
  accessMap := by rintro ⟨⟩
  viewTreeMap := by rintro ⟨⟩

/-- The check and its callers deny by default exactly under the condition. -/
theorem deniesByDefault_iff (contents : VacmContents) (request : AccessRequest) :
    DeniesByDefault contents request ↔ DecidableByFamilies contents request := by
  constructor
  · intro hdenies
    have hinitial := coherent_initial contents
    rw [← decidesDuly_accessDecision_iff contents request fun _ ↦ 0,
      ← isAccessAllowed_fst request hinitial]
    exact (hdenies _ Vacm.initial hinitial).1
  · intro hdecidable versions vacm hcoherent
    have hduly := (decidesDuly_accessDecision_iff contents request versions).mpr hdecidable
    rw [isAccessAllowed_fst request hcoherent]
    refine ⟨hduly, fun counter64InV1GetNext hverify ↦ ?_, fun varNames after hmem hrun ↦ ?_⟩
    · refine hduly.1.mp ?_
      rw [← isAccessAllowed_fst request hcoherent]
      unfold verifyAccess at hverify
      split at hverify
      · next value hvalue => exact ⟨value, hvalue⟩
      · split at hverify <;> cases hverify
      · cases hverify
    · exact hduly.1.mp (accessDecision_of_not_vacmDenied hcoherent hrun _ hmem)

/-! ### A user without a write subtree -/

section EmptySubTree

/-- The access row of user `u`, at the level without authentication, in group `g`. -/
def readOnlyRow : AccessEntry where
  vacmGroupName := [103]
  vacmAccessContextPrefix := []
  vacmAccessSecurityModel := 3
  vacmAccessSecurityLevel := 1
  vacmAccessContextMatch := .value .exactMatch
  vacmAccessReadViewName := .value [114, 103]
  vacmAccessWriteViewName := .value [119, 103]
  vacmAccessNotifyViewName := .value [110, 103]
  vacmAccessStatus := some 1
  vacmGroupName_ne := by decide

/-- The tables of a user who was given a read subtree only. -/
def readOnlyTables : VacmContents where
  contexts := [[]]
  securityToGroup := [⟨3, [117], some [103]⟩]
  access := [readOnlyRow]
  viewTreeFamilies := [⟨[114, 103], [1, 3, 6, 1, 2, 1], .value [], .value true, by decide⟩]
  securityToGroup_index := List.pairwise_singleton _ _
  access_index := List.pairwise_singleton _ _
  viewTreeFamilies_instId := List.pairwise_singleton _ _

/-- The user asks to write `sysContact.0`. -/
def writeRequest : AccessRequest where
  securityModel := 3
  securityName := [117]
  securityLevel := 1
  viewType := .write
  contextName := []
  variableName := [1, 3, 6, 1, 2, 1, 1, 4, 0]

/-- Write access is granted to a user who was given no write subtree. -/
theorem not_deniesByDefault_readOnlyTables : ¬ DeniesByDefault readOnlyTables writeRequest := by
  intro hdenies
  obtain ⟨⟨hreturns, -⟩, -⟩ := hdenies (fun _ ↦ 0) Vacm.initial (coherent_initial readOnlyTables)
  obtain ⟨viewName, -, ⟨_, -, row, hselects, hname⟩, family, hfamily, -⟩ :=
    hreturns.mp ⟨some .notInView, rfl⟩
  obtain ⟨_, hentry, -, rfl⟩ := mem_activeRows.mp hselects.mem
  have hrow := List.mem_singleton.mp (show _ ∈ readOnlyTables.tables.access from hentry)
  subst hrow
  obtain rfl : [119, 103] = viewName := Option.some.inj hname
  have hempty : readOnlyTables.tables.families [119, 103] = [] := by decide
  exact absurd (hempty ▸ hfamily.1) List.not_mem_nil

end EmptySubTree

end Pysnmp.Proto.Acmod.DenyByDefault
