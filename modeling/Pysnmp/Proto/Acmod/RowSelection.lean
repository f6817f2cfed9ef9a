import Pysnmp.Proto.Acmod.TableContents

/-!
# The selected access row

`_getFamilyViewName` against a content of `vacmAccessTable`. `getFamilyViewName_eq_ok_iff` says that
it finds the view of the selected row: of the active rows that fit the request, the one preferred to
the others. The preference tells the fitting rows of a group apart by their index, so one row is
selected at most, and the shortcut through the exact context, model and level ends at the row that
the search among all candidates ends at.
-/

set_option autoImplicit false
set_option relaxedAutoImplicit false

namespace Pysnmp.Proto.Acmod.RowSelection

open Foundation Rfc3415 TableContents

/-! ### Fitting rows -/

theorem contextPrefix_prefix_of_fits {request : AccessRequest} {groupName : Octets}
    {row : AccessRow}
    (hfits : Fits request groupName row) :
    row.vacmAccessContextPrefix <+: request.contextName := by
  have hcontext := hfits.context
  split at hcontext
  · exact hcontext ▸ List.prefix_rfl
  · exact hcontext

/-- The preference tells the fitting rows of a group apart by their index. -/
theorem accessIndex_eq_of_rowPreference_eq {request : AccessRequest} {groupName : Octets}
    {first second : AccessRow} (hfirst : Fits request groupName first)
    (hsecond : Fits request groupName second)
    (hpreference : rowPreference request first = rowPreference request second) :
    accessIndex first = accessIndex second := by
  simp only [rowPreference, preference, EmbeddingLike.apply_eq_iff_eq, Prod.mk.injEq] at hpreference
  obtain ⟨hmodel, -, hlength, hlevel⟩ := hpreference
  have hcontext : first.vacmAccessContextPrefix = second.vacmAccessContextPrefix :=
    (List.prefix_of_prefix_length_le (contextPrefix_prefix_of_fits hfirst)
      (contextPrefix_prefix_of_fits hsecond) hlength.le).eq_of_length hlength
  have hsame : first.vacmAccessSecurityModel = second.vacmAccessSecurityModel := by
    rcases hfirst.model with hone | hone <;> rcases hsecond.model with hother | hother
    · rw [hone, hother]
    · rw [hone, beq_self_eq_true, eq_comm, beq_iff_eq] at hmodel
      rw [hone, hmodel]
    · rw [hother, beq_self_eq_true, beq_iff_eq] at hmodel
      rw [hother, hmodel]
    · rw [hone, hother]
  simp only [accessIndex, hfirst.group, hsecond.group, hcontext, hsame, hlevel]

/-- Rows with the same index are the same. -/
theorem eq_of_accessIndex_eq {tables : VacmTables} {first second : AccessRow}
    (hfirst : first ∈ tables.activeRows) (hsecond : second ∈ tables.activeRows)
    (hindex : accessIndex first = accessIndex second) : first = second := by
  by_contra hne
  have hsymm : Std.Symm fun first second : AccessRow ↦ accessIndex first ≠ accessIndex second :=
    ⟨fun _ _ ↦ Ne.symm⟩
  exact (activeRows_index tables).forall hfirst hsecond hne hindex

/-- At most one row is selected. -/
theorem eq_of_selects {tables : VacmTables} {request : AccessRequest} {groupName : Octets}
    {first second : AccessRow} (hfirst : Selects tables request groupName first)
    (hsecond : Selects tables request groupName second) : first = second :=
  eq_of_accessIndex_eq hfirst.mem hsecond.mem
    (accessIndex_eq_of_rowPreference_eq hfirst.fits hsecond.fits
      (le_antisymm (hsecond.preferred first hfirst.mem hfirst.fits)
        (hfirst.preferred second hsecond.mem hsecond.fits)))

/-- A row that fits the request exactly is preferred to every other. -/
theorem rowPreference_le_of_exact {request : AccessRequest} {groupName : Octets}
    {row other : AccessRow} (hcontext : row.vacmAccessContextPrefix = request.contextName)
    (hmodel : row.vacmAccessSecurityModel = request.securityModel)
    (hlevel : row.vacmAccessSecurityLevel = request.securityLevel)
    (hother : Fits request groupName other) :
    rowPreference request other ≤ rowPreference request row := by
  simp only [rowPreference, preference, hcontext, hmodel, hlevel, beq_self_eq_true]
  refine Prod.Lex.toLex_mono ⟨le_top, Prod.Lex.toLex_mono ⟨le_top, Prod.Lex.toLex_mono ⟨?_, ?_⟩⟩⟩
  · exact (contextPrefix_prefix_of_fits hother).length_le
  · exact hother.level

theorem isCandidate_key_iff {request : AccessRequest} {groupName : Octets} {row : AccessRow}
    {viewType : ViewType} :
    isCandidate groupName request (row.key viewType) = true ↔
      Fits request groupName row ∧ viewType = request.viewType := by
  have hexact : (request.contextName == row.vacmAccessContextPrefix) = true ↔
      row.vacmAccessContextPrefix = request.contextName := by
    rw [beq_iff_eq, eq_comm]
  have hstarts : (request.contextName.take row.vacmAccessContextPrefix.length ==
      row.vacmAccessContextPrefix) = true ↔
        row.vacmAccessContextPrefix <+: request.contextName := by
    rw [beq_iff_eq, List.prefix_iff_eq_take, eq_comm]
  simp only [isCandidate, AccessRow.key, Bool.and_eq_true, Bool.or_eq_true, beq_iff_eq]
  constructor
  · rintro ⟨⟨⟨⟨hgroup, htype⟩, hcontext⟩, hmodel⟩, hlevel⟩
    refine ⟨⟨hgroup, ?_, hmodel, of_decide_eq_true hlevel⟩, htype⟩
    cases hmatch : row.vacmAccessContextMatch with
    | exactMatch =>
      rw [hmatch] at hcontext
      exact hexact.mp hcontext
    | prefixMatch =>
      rw [hmatch] at hcontext
      exact hstarts.mp hcontext
  · rintro ⟨⟨hgroup, hcontext, hmodel, hlevel⟩, htype⟩
    refine ⟨⟨⟨⟨hgroup, htype⟩, ?_⟩, hmodel⟩, decide_eq_true hlevel⟩
    cases hmatch : row.vacmAccessContextMatch with
    | exactMatch =>
      rw [hmatch] at hcontext
      exact hexact.mpr hcontext
    | prefixMatch =>
      rw [hmatch] at hcontext
      exact hstarts.mpr hcontext

theorem mem_candidates {accessMap : AccessMap} {groupName : Octets} {request : AccessRequest}
    {key : AccessKey} {viewName : Option Octets} :
    (key, viewName) ∈ candidates accessMap groupName request ↔
      isCandidate groupName request key = true ∧ accessMap.lookup key = some viewName := by
  rw [candidates, List.mem_map, ← Option.mem_def, AList.mem_lookup_iff]
  constructor
  · rintro ⟨⟨_, _⟩, hmem, hentry⟩
    obtain ⟨rfl, rfl⟩ := Prod.mk.inj hentry
    exact ⟨(List.mem_filter.mp hmem).2, (List.mem_filter.mp hmem).1⟩
  · rintro ⟨hcandidate, hmem⟩
    exact ⟨⟨key, viewName⟩, List.mem_filter.mpr ⟨hmem, hcandidate⟩, rfl⟩

/-- The access map holds the views of the active rows under their keys. -/
def HoldsRows (accessMap : AccessMap) (tables : VacmTables) : Prop :=
  ∀ key viewName, accessMap.lookup key = some viewName ↔
    ∃ row ∈ tables.activeRows, ∃ viewType, row.key viewType = key ∧
      row.viewName viewType = viewName

/-- The candidates are the views that fitting rows name for the kind of access. -/
theorem mem_candidates_of_holdsRows {accessMap : AccessMap} {tables : VacmTables}
    {request : AccessRequest} {groupName : Octets} {viewName : Option Octets}
    (hmap : HoldsRows accessMap tables) {key : AccessKey} :
    (key, viewName) ∈ candidates accessMap groupName request ↔
      ∃ row ∈ tables.activeRows, Fits request groupName row ∧ row.key request.viewType = key ∧
        row.viewName request.viewType = viewName := by
  rw [mem_candidates, hmap]
  constructor
  · rintro ⟨hcandidate, row, hrow, viewType, rfl, rfl⟩
    obtain ⟨hfits, rfl⟩ := isCandidate_key_iff.mp hcandidate
    exact ⟨row, hrow, hfits, rfl, rfl⟩
  · rintro ⟨row, hrow, hfits, rfl, rfl⟩
    exact ⟨isCandidate_key_iff.mpr ⟨hfits, rfl⟩, row, hrow, _, rfl, rfl⟩

/-- The best candidate is the view of the selected row. -/
theorem selects_of_argmax {accessMap : AccessMap} {tables : VacmTables} {request : AccessRequest}
    {groupName : Octets} {best : AccessKey × Option Octets} (hmap : HoldsRows accessMap tables)
    (hbest : (candidates accessMap groupName request).argmax (candidateRank request) = some best) :
    ∃ row, Selects tables request groupName row ∧ row.viewName request.viewType = best.2 := by
  obtain ⟨row, hrow, hfits, hkey, hname⟩ :=
    (mem_candidates_of_holdsRows hmap).mp (List.argmax_mem hbest)
  refine ⟨row, ⟨hrow, hfits, fun other hother hotherFits ↦ ?_⟩, hname⟩
  have hle := List.le_of_mem_argmax
    ((mem_candidates_of_holdsRows hmap).mpr ⟨other, hother, hotherFits, rfl, rfl⟩) hbest
  have hfst := Prod.Lex.monotone_fst _ _ hle
  rw [candidateRank, candidateRank, ← hkey] at hfst
  exact hfst

/-- An entry under the exact context, model and level is the view of the selected row. -/
theorem selects_of_lookup_exact {accessMap : AccessMap} {tables : VacmTables}
    {request : AccessRequest} {groupName : Octets} {viewName : Option Octets}
    (hmap : HoldsRows accessMap tables)
    (hfound : accessMap.lookup ⟨groupName, request.viewType, .exactMatch, request.contextName,
      request.securityModel, request.securityLevel⟩ = some viewName) :
    ∃ row, Selects tables request groupName row ∧ row.viewName request.viewType = viewName := by
  obtain ⟨row, hrow, viewType, hkey, rfl⟩ := (hmap _ _).mp hfound
  simp only [AccessRow.key, AccessKey.mk.injEq] at hkey
  obtain ⟨hgroup, rfl, hmatch, hcontext, hmodel, hlevel⟩ := hkey
  refine ⟨row, ⟨hrow, ⟨hgroup, ?_, Or.inl hmodel, hlevel.le⟩, fun other _ hother ↦ ?_⟩, rfl⟩
  · rw [hmatch]
    exact hcontext
  · exact rowPreference_le_of_exact hcontext hmodel hlevel hother

/-- The view the code finds is that of the selected row. -/
theorem selects_of_getFamilyViewName {accessMap : AccessMap} {tables : VacmTables}
    {request : AccessRequest} {groupName : Octets} {viewName : Option Octets}
    (hmap : HoldsRows accessMap tables)
    (hview : getFamilyViewName accessMap groupName request = .ok viewName) :
    ∃ row, Selects tables request groupName row ∧ row.viewName request.viewType = viewName := by
  unfold getFamilyViewName at hview
  split_ifs at hview with hgroup htype
  split at hview
  · next found hfound =>
    obtain rfl : found = viewName := Except.ok.inj hview
    exact selects_of_lookup_exact hmap hfound
  · split at hview
    · cases hview
    · next best hbest =>
      obtain rfl : best.2 = viewName := Except.ok.inj hview
      exact selects_of_argmax hmap hbest

/-- Where no view is found, `StatusInformation` is raised and no row fits. -/
theorem not_fits_of_getFamilyViewName_eq_error {accessMap : AccessMap} {tables : VacmTables}
    {request : AccessRequest} {groupName : Octets} (hmap : HoldsRows accessMap tables)
    {exception : VacmError}
    (hview : getFamilyViewName accessMap groupName request = .error exception) :
    (∃ errorIndication, exception = .statusInformation errorIndication) ∧
      ∀ row ∈ tables.activeRows, ¬ Fits request groupName row := by
  have hentry : ∀ row ∈ tables.activeRows,
      ⟨row.key request.viewType, row.viewName request.viewType⟩ ∈ accessMap.entries :=
    fun row hrow ↦ AList.mem_lookup_iff.mp ((hmap _ _).mpr ⟨row, hrow, _, rfl, rfl⟩)
  unfold getFamilyViewName at hview
  split_ifs at hview with hgroup htype
  · refine ⟨⟨_, (Except.error.inj hview).symm⟩, fun row hrow hfits ↦ ?_⟩
    have hne := List.all_eq_true.mp hgroup _ (hentry row hrow)
    exact absurd hfits.group (by simpa [AccessRow.key] using hne)
  · refine ⟨⟨_, (Except.error.inj hview).symm⟩, fun row hrow hfits ↦ ?_⟩
    have hne := List.all_eq_true.mp htype _ (hentry row hrow)
    exact absurd hfits.group (by simpa [AccessRow.key] using hne)
  · split at hview
    · cases hview
    · split at hview
      · next hnone =>
        refine ⟨⟨_, (Except.error.inj hview).symm⟩, fun row hrow hfits ↦ ?_⟩
        exact List.ne_nil_of_mem
          ((mem_candidates_of_holdsRows hmap).mpr ⟨row, hrow, hfits, rfl, rfl⟩)
          (List.argmax_eq_none.mp hnone)
      · cases hview

/-- The code finds exactly the view of the selected row. -/
theorem getFamilyViewName_eq_ok_iff {accessMap : AccessMap} {tables : VacmTables}
    {request : AccessRequest} {groupName : Octets} {viewName : Option Octets}
    (hmap : HoldsRows accessMap tables) :
    getFamilyViewName accessMap groupName request = .ok viewName ↔
      ∃ row, Selects tables request groupName row ∧ row.viewName request.viewType = viewName := by
  refine ⟨selects_of_getFamilyViewName hmap, fun ⟨row, hrow, hname⟩ ↦ ?_⟩
  cases hview : getFamilyViewName accessMap groupName request with
  | error exception =>
    exact absurd hrow.fits ((not_fits_of_getFamilyViewName_eq_error hmap hview).2 row hrow.mem)
  | ok found =>
    obtain ⟨other, hother, hotherName⟩ := selects_of_getFamilyViewName hmap hview
    rw [← hname, ← hotherName, eq_of_selects hother hrow]

/-! ### The shortcut and the search -/

/-- The search among all candidates, without the shortcut. -/
def searchFamilyViewName (accessMap : AccessMap) (groupName : Octets) (request : AccessRequest) :
    Except VacmError (Option Octets) :=
  match (candidates accessMap groupName request).argmax (candidateRank request) with
  | none => .error (.statusInformation .notInView)
  | some bestCandidate => .ok bestCandidate.2

/-- The view the shortcut finds is the one the search finds. -/
theorem searchFamilyViewName_of_lookup_exact {accessMap : AccessMap} {tables : VacmTables}
    {request : AccessRequest} {groupName : Octets} {viewName : Option Octets}
    (hmap : HoldsRows accessMap tables)
    (hfound : accessMap.lookup ⟨groupName, request.viewType, .exactMatch, request.contextName,
      request.securityModel, request.securityLevel⟩ = some viewName) :
    searchFamilyViewName accessMap groupName request = .ok viewName := by
  obtain ⟨row, hrow, rfl⟩ := selects_of_lookup_exact hmap hfound
  have hcandidate := (mem_candidates_of_holdsRows hmap).mpr ⟨row, hrow.mem, hrow.fits, rfl, rfl⟩
  unfold searchFamilyViewName
  split
  · next hnone =>
    exact absurd (List.argmax_eq_none.mp hnone) (List.ne_nil_of_mem hcandidate)
  · next best hbest =>
    obtain ⟨other, hother, hname⟩ := selects_of_argmax hmap hbest
    rw [← hname, eq_of_selects hother hrow]

/-- From the active rows the code finds the view of the selected row, raises `StatusInformation`
where no row fits, and the shortcut finds what the search does. -/
theorem getFamilyViewName_selects (tables : VacmTables) (groupName : Octets)
    (request : AccessRequest) :
    (∀ viewName, getFamilyViewName tables.accessMap groupName request = .ok viewName ↔
      ∃ row, Selects tables request groupName row ∧ row.viewName request.viewType = viewName) ∧
    ((∀ row ∈ tables.activeRows, ¬ Fits request groupName row) ↔ ∃ errorIndication,
      getFamilyViewName tables.accessMap groupName request =
        .error (.statusInformation errorIndication)) ∧
    ∀ viewName, tables.accessMap.lookup ⟨groupName, request.viewType, .exactMatch,
        request.contextName, request.securityModel, request.securityLevel⟩ = some viewName →
      getFamilyViewName tables.accessMap groupName request = .ok viewName ∧
        searchFamilyViewName tables.accessMap groupName request = .ok viewName := by
  have hmap : HoldsRows tables.accessMap tables := lookup_accessMap tables
  refine ⟨fun viewName ↦ getFamilyViewName_eq_ok_iff hmap, ⟨fun hnone ↦ ?_, ?_⟩, ?_⟩
  · cases hview : getFamilyViewName tables.accessMap groupName request with
    | error exception =>
      obtain ⟨⟨errorIndication, rfl⟩, -⟩ := not_fits_of_getFamilyViewName_eq_error hmap hview
      exact ⟨errorIndication, rfl⟩
    | ok viewName =>
      obtain ⟨row, hrow, -⟩ := selects_of_getFamilyViewName hmap hview
      exact absurd hrow.fits (hnone row hrow.mem)
  · rintro ⟨errorIndication, hview⟩
    exact (not_fits_of_getFamilyViewName_eq_error hmap hview).2
  · intro viewName hfound
    exact ⟨(getFamilyViewName_eq_ok_iff hmap).mpr (selects_of_lookup_exact hmap hfound),
      searchFamilyViewName_of_lookup_exact hmap hfound⟩

end Pysnmp.Proto.Acmod.RowSelection
