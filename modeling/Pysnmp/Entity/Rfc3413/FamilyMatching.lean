import Pysnmp.Entity.Rfc3413.NotifyFilter

/-!
# Families of views and entries of filters

The loop of the access check over the families of a view and `_matchFilter` over the same entries
are meant to decide alike. The access check sorts the subtrees after zeroing the ignored positions,
and it zeroes these positions of the name without asking for its length.

`matchesReference_iff` says when that makes no difference: no ignored position lies beyond the end
of the name, and the matching family that is last with its ignored positions zeroed is of the type
of the one that is last in the table.
-/

set_option autoImplicit false
set_option relaxedAutoImplicit false

namespace Pysnmp.Entity.Rfc3413.FamilyMatching

open Foundation Proto Proto.Acmod.Rfc3415 Proto.Acmod.TableContents Proto.Acmod.DenyByDefault
open NotifyFilter

/-- A family of a view as an entry of a filter; the types are included (1) and excluded (2). -/
def filterEntry (family : ViewTreeFamily) : FilterEntry where
  subtree := family.vacmViewTreeFamilySubtree
  mask := family.vacmViewTreeFamilyMask
  filterType := if family.included then 1 else 2

theorem included_filterEntry (family : ViewTreeFamily) :
    (filterEntry family).included = family.included := by
  cases hincluded : family.included <;> simp [filterEntry, FilterEntry.included, hincluded]

/-- What the filter makes of the families of a view, where no match is not included. -/
def filterDecision (tables : VacmTables) (viewName : Octets) (name : Oid) :
    Except VacmError Bool :=
  (matchFilter ((tables.families viewName).map filterEntry) name).map fun result ↦
    result.getD false

/-- The loop over the families of a view returns the type of the family that decides, and the filter
does so over the same entries. -/
def MatchesReference (tables : VacmTables) (viewName : Octets) (name : Oid) : Prop :=
  ∃ allowed, familyDecision tables viewName name = .ok allowed ∧
    (allowed = true ↔ ∃ family, Decides tables viewName name family ∧ family.included = true) ∧
    filterDecision tables viewName name = .ok allowed

/-- Zeroing the ignored positions is harmless for a name: the name has them, and the matching family
that is greatest with its ignored positions zeroed is of the type of the greatest one. -/
structure MaskingHarmless (tables : VacmTables) (viewName : Octets) (name : Oid) : Prop where
  inside : ∀ family ∈ tables.families viewName, IgnoredInside name family
  sameType : ∀ masked family, DecidesMasked tables viewName name masked →
    Decides tables viewName name family → masked.included = family.included

section Decisions

variable {tables : VacmTables} {viewName : Octets} {name : Oid}

/-- The filter decides as the reference does. -/
theorem filterDecision_eq (tables : VacmTables) (viewName : Octets) (name : Oid) :
    ∃ allowed, filterDecision tables viewName name = .ok allowed ∧
      (allowed = true ↔
        ∃ family, Decides tables viewName name family ∧ family.included = true) := by
  have hanswers := answers_last ((tables.families viewName).map filterEntry) name
  rw [filterDecision, matchFilter_eq]
  refine ⟨_, rfl, ?_⟩
  cases hresult : (((LastMatch.sortByKey filterRank
      ((tables.families viewName).map filterEntry)).filter (filterMatches name)).getLast?.map
        FilterEntry.included) with
  | none =>
    rw [hresult] at hanswers
    refine iff_of_false Bool.false_ne_true ?_
    rintro ⟨family, hdecides, -⟩
    have hnone := hanswers (filterEntry family) (List.mem_map_of_mem hdecides.1)
    exact absurd (hnone.symm.trans hdecides.2.1) Bool.false_ne_true
  | some included =>
    rw [hresult] at hanswers
    obtain ⟨entry, ⟨hmem, hmatch, hgreatest⟩, rfl⟩ := hanswers
    obtain ⟨family, hfamily, rfl⟩ := List.mem_map.mp hmem
    have hdecides : Decides tables viewName name family :=
      ⟨hfamily, hmatch, fun other hother hotherMatch ↦
        hgreatest (filterEntry other) (List.mem_map_of_mem hother) hotherMatch⟩
    change (filterEntry family).included = true ↔ _
    rw [included_filterEntry]
    refine ⟨fun hincluded ↦ ⟨family, hdecides, hincluded⟩, ?_⟩
    rintro ⟨other, hother, hincluded⟩
    rwa [eq_of_decides hdecides hother]

/-- Where one family decides in both orders, the types agree exactly when the decisions do. -/
theorem sameType_iff {masked family : ViewTreeFamily}
    (hmasked : DecidesMasked tables viewName name masked)
    (hfamily : Decides tables viewName name family) :
    masked.included = family.included ↔
      ((∃ other, DecidesMasked tables viewName name other ∧ other.included = true) ↔
        ∃ other, Decides tables viewName name other ∧ other.included = true) := by
  have hleft : (∃ other, DecidesMasked tables viewName name other ∧ other.included = true) ↔
      masked.included = true :=
    ⟨fun ⟨other, hother, hincluded⟩ ↦ eq_of_decidesMasked hother hmasked ▸ hincluded,
      fun hincluded ↦ ⟨masked, hmasked, hincluded⟩⟩
  have hright : (∃ other, Decides tables viewName name other ∧ other.included = true) ↔
      family.included = true :=
    ⟨fun ⟨other, hother, hincluded⟩ ↦ eq_of_decides hother hfamily ▸ hincluded,
      fun hincluded ↦ ⟨family, hfamily, hincluded⟩⟩
  rw [hleft, hright]
  exact Bool.eq_iff_iff

end Decisions

/-- For every set of families of a view and every name, the loop decides as the reference and as the
filter exactly when zeroing the ignored positions is harmless. -/
theorem matchesReference_iff (tables : VacmTables) (viewName : Octets) (name : Oid) :
    MatchesReference tables viewName name ↔ MaskingHarmless tables viewName name := by
  constructor
  · rintro ⟨allowed, hdecision, hreference, -⟩
    have hinside : ∀ family ∈ tables.families viewName, IgnoredInside name family := by
      by_contra houtside
      rw [familyDecision_of_outside houtside] at hdecision
      cases hdecision
    obtain ⟨found, hfound, hmasked⟩ := familyDecision_of_inside hinside
    obtain rfl : found = allowed := Except.ok.inj (hfound.symm.trans hdecision)
    exact ⟨hinside, fun masked family hone hother ↦
      (sameType_iff hone hother).mpr (hmasked.symm.trans hreference)⟩
  · rintro ⟨hinside, hsame⟩
    obtain ⟨allowed, hdecision, hmasked⟩ := familyDecision_of_inside hinside
    obtain ⟨filtered, hfilter, hreference⟩ := filterDecision_eq tables viewName name
    have hagree : (∃ other, DecidesMasked tables viewName name other ∧ other.included = true) ↔
        ∃ other, Decides tables viewName name other ∧ other.included = true := by
      by_cases hmatch : ∃ family, Decides tables viewName name family
      · obtain ⟨family, hfamily⟩ := hmatch
        obtain ⟨masked, hone⟩ := exists_decidesMasked_of_decides hfamily
        exact (sameType_iff hone hfamily).mp (hsame masked family hone hfamily)
      · refine iff_of_false ?_ fun ⟨family, hfamily, _⟩ ↦ hmatch ⟨family, hfamily⟩
        exact fun ⟨masked, hone, _⟩ ↦ hmatch (exists_decides_of_decidesMasked hone)
    have hallowed := hmasked.trans hagree
    refine ⟨allowed, hdecision, hallowed, ?_⟩
    rw [hfilter, Bool.eq_iff_iff.mpr (hreference.trans hallowed.symm)]

/-! ### Where the two part -/

section Divergence

/-- A view of the system group and of one row of `ifTable` in every column. -/
def rowOfColumns : VacmTables where
  contexts := []
  securityToGroup := []
  access := []
  viewTreeFamilies := [⟨[118], [1, 3, 6, 1, 2, 1, 1], [], true⟩,
    ⟨[118], [1, 3, 6, 1, 2, 1, 2, 2, 1, 0, 1], [0xff, 0xa0], true⟩]
  securityToGroup_index := List.Pairwise.nil
  access_index := List.Pairwise.nil
  viewTreeFamilies_instId := by decide
  viewName_ne := by decide

/-- A view with an exact family and one of the same length that ignores its last position. -/
def overlapping : VacmTables where
  contexts := []
  securityToGroup := []
  access := []
  viewTreeFamilies := [⟨[118], [1, 3, 2], [], false⟩, ⟨[118], [1, 3, 5], [0xc0], true⟩]
  securityToGroup_index := List.Pairwise.nil
  access_index := List.Pairwise.nil
  viewTreeFamilies_instId := by decide
  viewName_ne := by decide

/-- `sysDescr.0` is too short for the row of columns, and the access check fails on it. A name that
both families of the second view match is denied, where the greater one includes it. -/
theorem not_matchesReference :
    ¬ MatchesReference rowOfColumns [118] [1, 3, 6, 1, 2, 1, 1, 1, 0] ∧
    ¬ MatchesReference overlapping [118] [1, 3, 2, 1] := by
  constructor
  · rintro ⟨allowed, hdecision, -⟩
    have herror : familyDecision rowOfColumns [118] [1, 3, 6, 1, 2, 1, 1, 1, 0] =
        .error .indexError := by decide
    rw [herror] at hdecision
    cases hdecision
  · rintro ⟨allowed, hdecision, -, hfilter⟩
    have hdenied : familyDecision overlapping [118] [1, 3, 2, 1] = .ok false := by decide
    have hincluded : filterDecision overlapping [118] [1, 3, 2, 1] = .ok true := by decide
    rw [hdenied] at hdecision
    rw [hincluded, ← hdecision] at hfilter
    cases hfilter

end Divergence

end Pysnmp.Entity.Rfc3413.FamilyMatching
