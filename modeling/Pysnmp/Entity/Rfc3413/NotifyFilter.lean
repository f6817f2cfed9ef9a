import Pysnmp.Proto.Acmod.DenyByDefault

/-!
# Notification filters

`_prepareFilterEntries`, `_matchPreparedFilter` and `_matchFilter` of `entity/rfc3413/ntforg.py`.
The entries are sorted by their subtrees as the table has them, before the positions that the mask
ignores are zeroed, and an entry whose subtree is longer than the name is passed over.

`matchFilter_answers` compares the loop with the choice it stands for: of the entries that match the
name, the one with the most sub-identifiers and among these the greatest. Where the subtrees are
distinct that is one entry, in whatever order the entries are listed.
-/

set_option autoImplicit false
set_option relaxedAutoImplicit false

namespace Pysnmp.Entity.Rfc3413.NotifyFilter

open Foundation Foundation.LastMatch Proto Proto.Acmod.Rfc3415 Proto.Acmod.TableContents
open Proto.Acmod.DenyByDefault

/-- An entry of a filter, as `getNotifyFilter` returns it. -/
structure FilterEntry where
  subtree : Oid
  mask : Octets
  filterType : ℤ
  deriving DecidableEq, Repr

/-- An entry made ready: the subtree of the table, the subtree with the ignored positions zeroed,
those positions, and whether the entry includes. -/
structure PreparedEntry where
  originalSubtree : Oid
  subtree : Oid
  ignoredSubOids : List ℕ
  included : Bool
  deriving DecidableEq, Repr

/-- One entry made ready. -/
def FilterEntry.prepare (entry : FilterEntry) : PreparedEntry :=
  let ignored := ignoredSubOids entry.mask entry.subtree
  { originalSubtree := entry.subtree
    subtree := ignored.foldl (fun pattern idx ↦ pattern.set idx 0) entry.subtree
    ignoredSubOids := ignored
    included := entry.filterType == 1 }

/-- `_prepareFilterEntries`. -/
def prepareFilterEntries (filterEntries : List FilterEntry) : List PreparedEntry :=
  sortByKey (fun entry : PreparedEntry ↦
    toLex (entry.originalSubtree.length, entry.originalSubtree))
    (filterEntries.map FilterEntry.prepare)

/-- `_matchPreparedFilter`, from the result so far. -/
def matchPreparedFilter (oid : Oid) :
    Option Bool → List PreparedEntry → Except VacmError (Option Bool)
  | result, [] => .ok result
  | result, entry :: preparedEntries =>
    if oid.length < entry.originalSubtree.length then
      matchPreparedFilter oid result preparedEntries
    else
      match zeroSubOids entry.ignoredSubOids oid with
      | .error exception => .error exception
      | .ok normalizedOid =>
        matchPreparedFilter oid
          (if entry.subtree.isPrefixOf normalizedOid then some entry.included else result)
          preparedEntries

/-- `_matchFilter`. -/
def matchFilter (filterEntries : List FilterEntry) (oid : Oid) : Except VacmError (Option Bool) :=
  matchPreparedFilter oid none (prepareFilterEntries filterEntries)

/-! ### What the entries say -/

/-- Whether an entry includes the names it decides about. -/
def FilterEntry.included (entry : FilterEntry) : Bool :=
  entry.filterType == 1

/-- An entry matches a name that has as many sub-identifiers and agrees with its subtree wherever
the mask has a one. -/
def filterMatches (oid : Oid) (entry : FilterEntry) : Bool :=
  decide (entry.subtree.length ≤ oid.length) &&
    (List.range entry.subtree.length).all fun position ↦
      !maskBit entry.mask position || oid[position]? == entry.subtree[position]?

/-- The order in which matching entries are preferred: more sub-identifiers, then the greater
subtree. -/
def filterRank (entry : FilterEntry) : ℕ ×ₗ Oid :=
  toLex (entry.subtree.length, entry.subtree)

/-- What the entries may answer for a name: nothing where none matches, else the type of a matching
entry that is preferred to the others. -/
def Answers (entries : List FilterEntry) (oid : Oid) : Option Bool → Prop
  | none => ∀ entry ∈ entries, filterMatches oid entry = false
  | some included => ∃ entry, IsGreatestMatch filterRank (filterMatches oid) entries entry ∧
      entry.included = included

/-- Entries with the same rank have the same subtree. -/
theorem subtree_eq_of_filterRank_eq {first second : FilterEntry}
    (hrank : filterRank first = filterRank second) : first.subtree = second.subtree :=
  (Prod.mk.inj (toLex.injective hrank)).2

/-- Entries with distinct subtrees have one answer at most. -/
theorem Answers.eq {entries : List FilterEntry} {oid : Oid} {first second : Option Bool}
    (hdistinct : entries.Pairwise fun one other ↦ one.subtree ≠ other.subtree)
    (hfirst : Answers entries oid first) (hsecond : Answers entries oid second) :
    first = second := by
  cases first with
  | none =>
    cases second with
    | none => rfl
    | some included =>
      obtain ⟨entry, hentry, -⟩ := hsecond
      exact absurd (hentry.2.1.symm.trans (hfirst entry hentry.1)) (by decide)
  | some included =>
    obtain ⟨entry, hentry, rfl⟩ := hfirst
    cases second with
    | none => exact absurd (hentry.2.1.symm.trans (hsecond entry hentry.1)) (by decide)
    | some other =>
      obtain ⟨greatest, hgreatest, rfl⟩ := hsecond
      have hrank : filterRank entry = filterRank greatest :=
        le_antisymm (hgreatest.2.2 entry hentry.1 hentry.2.1)
          (hentry.2.2 greatest hgreatest.1 hgreatest.2.1)
      have hsymm : Std.Symm fun one other : FilterEntry ↦ one.subtree ≠ other.subtree :=
        ⟨fun _ _ ↦ Ne.symm⟩
      have hsame : entry = greatest := by
        by_contra hne
        exact hdistinct.forall hentry.1 hgreatest.1 hne (subtree_eq_of_filterRank_eq hrank)
      rw [hsame]

/-- The order in which the entries are listed does not matter to the answers. -/
theorem Answers.perm {entries listed : List FilterEntry} {oid : Oid} {result : Option Bool}
    (hperm : listed.Perm entries) (hanswers : Answers entries oid result) :
    Answers listed oid result := by
  cases result with
  | none => exact fun entry hentry ↦ hanswers entry (hperm.mem_iff.mp hentry)
  | some included =>
    obtain ⟨entry, ⟨hmem, hmatch, hgreatest⟩, hincluded⟩ := hanswers
    exact ⟨entry, ⟨hperm.mem_iff.mpr hmem, hmatch,
      fun other hother ↦ hgreatest other (hperm.mem_iff.mp hother)⟩, hincluded⟩

/-! ### The loop -/

/-- The entry as a family of views; the name of the view plays no part. -/
def FilterEntry.family (entry : FilterEntry) : ViewTreeFamily where
  vacmViewTreeFamilyViewName := []
  vacmViewTreeFamilySubtree := entry.subtree
  vacmViewTreeFamilyMask := entry.mask
  included := entry.included

theorem prepare_subtree (entry : FilterEntry) :
    entry.prepare.subtree = entry.family.entry.subtree :=
  rfl

theorem prepare_ignoredSubOids (entry : FilterEntry) :
    entry.prepare.ignoredSubOids = entry.family.entry.ignoredSubOids :=
  rfl

theorem filterMatches_eq_familyMatches (oid : Oid) (entry : FilterEntry) :
    filterMatches oid entry = familyMatches oid entry.family :=
  rfl

/-- Where the name is long enough, the code's prefix test is the match of the entry. -/
theorem isPrefixOf_prepare {entry : FilterEntry} {oid : Oid}
    (hlength : ¬ oid.length < entry.subtree.length) :
    ∃ normalizedOid, zeroSubOids entry.prepare.ignoredSubOids oid = .ok normalizedOid ∧
      entry.prepare.subtree.isPrefixOf normalizedOid = filterMatches oid entry := by
  have hinside : IgnoredInside oid entry.family :=
    fun position hposition _ ↦ hposition.trans_le (not_lt.mp hlength)
  rw [prepare_subtree, prepare_ignoredSubOids, filterMatches_eq_familyMatches]
  exact ⟨_, zeroSubOids_eq_ok (ignoredInside_iff.mp hinside), isPrefixOf_zeroed_eq hinside⟩

theorem filterMatches_of_short {entry : FilterEntry} {oid : Oid}
    (hshort : oid.length < entry.subtree.length) : filterMatches oid entry = false := by
  rw [filterMatches, decide_eq_false (not_le.mpr hshort), Bool.false_and]

/-- The loop lets each matching entry override the result. -/
theorem matchPreparedFilter_map_prepare (oid : Oid) (entries : List FilterEntry)
    (result : Option Bool) :
    matchPreparedFilter oid result (entries.map FilterEntry.prepare) =
      .ok (entries.foldl (fun result entry ↦
        if filterMatches oid entry then some entry.included else result) result) := by
  induction entries generalizing result with
  | nil => rfl
  | cons entry entries ih =>
    rw [List.map_cons, List.foldl_cons, matchPreparedFilter]
    split_ifs with hshort hmatch hmatch
    · exact absurd hmatch (by rw [filterMatches_of_short hshort]; exact Bool.false_ne_true)
    · exact ih result
    · obtain ⟨normalizedOid, hzeroed, hbegins⟩ := isPrefixOf_prepare hshort
      rw [hzeroed]
      dsimp only
      rw [hbegins, if_pos hmatch]
      exact ih _
    · obtain ⟨normalizedOid, hzeroed, hbegins⟩ := isPrefixOf_prepare hshort
      rw [hzeroed]
      dsimp only
      rw [hbegins, if_neg hmatch]
      exact ih _

/-- The last match in the order of the subtrees gives the result. -/
theorem matchFilter_eq (entries : List FilterEntry) (oid : Oid) :
    matchFilter entries oid =
      .ok (((sortByKey filterRank entries).filter (filterMatches oid)).getLast?.map
        FilterEntry.included) := by
  rw [matchFilter, prepareFilterEntries, sortByKey_map, matchPreparedFilter_map_prepare,
    foldl_override (filterMatches oid) fun entry ↦ some entry.included]
  change Except.ok (((((sortByKey filterRank entries).filter (filterMatches oid)).getLast?).map
    fun entry ↦ some entry.included).getD none) = _
  cases ((sortByKey filterRank entries).filter (filterMatches oid)).getLast? <;> rfl

theorem answers_last (entries : List FilterEntry) (oid : Oid) :
    Answers entries oid
      (((sortByKey filterRank entries).filter (filterMatches oid)).getLast?.map
        FilterEntry.included) := by
  cases hlast : ((sortByKey filterRank entries).filter (filterMatches oid)).getLast? with
  | none =>
    intro entry hentry
    have hnone := List.filter_eq_nil_iff.mp (List.getLast?_eq_none_iff.mp hlast)
    exact Bool.eq_false_of_not_eq_true (hnone entry (mem_sortByKey.mpr hentry))
  | some entry =>
    obtain ⟨hmem, hmatch, hgreatest⟩ :=
      isGreatestMatch_of_getLast?_filter (pairwise_le_sortByKey filterRank entries) hlast
    exact ⟨entry, ⟨mem_sortByKey.mp hmem, hmatch,
      fun other hother ↦ hgreatest other (mem_sortByKey.mpr hother)⟩, rfl⟩

/-- The filter never fails and answers as its entries do. Where their subtrees are distinct they
have one answer, and it does not depend on the order in which they are listed. -/
theorem matchFilter_answers (entries : List FilterEntry) (oid : Oid) :
    ∃ result, matchFilter entries oid = .ok result ∧ Answers entries oid result ∧
      (entries.Pairwise (fun one other ↦ one.subtree ≠ other.subtree) →
        (∀ other, Answers entries oid other → other = result) ∧
        ∀ listed : List FilterEntry, listed.Perm entries →
          matchFilter listed oid = .ok result) := by
  refine ⟨_, matchFilter_eq entries oid, answers_last entries oid, fun hdistinct ↦ ⟨?_, ?_⟩⟩
  · exact fun other hother ↦ hother.eq hdistinct (answers_last entries oid)
  · intro listed hperm
    rw [matchFilter_eq]
    exact congrArg Except.ok
      (((answers_last listed oid).perm hperm.symm).eq hdistinct (answers_last entries oid))

end Pysnmp.Entity.Rfc3413.NotifyFilter
