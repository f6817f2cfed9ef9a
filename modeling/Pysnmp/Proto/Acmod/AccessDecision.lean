import Pysnmp.Proto.Acmod.Rfc3415

/-!
# The decision of the tables

`accessDecision` is the access check without any cache: what the tables decide. A model object
whose four caches are coherent with the tables gives that decision (`isAccessAllowed_fst`) and
stays coherent (`coherent_isAccessAllowed`), so a whole run of checks over the same tables decides
each of them alike; the notification originator's loop is such a run.
-/

set_option autoImplicit false
set_option relaxedAutoImplicit false

namespace Pysnmp.Proto.Acmod.AccessDecision

open Foundation Foundation.Effect Foundation.VersionedCache Rfc3415

/-- What is decided once the view is known. -/
def viewDecision (source : VacmSource) (request : AccessRequest) (viewName : Option Octets) :
    Except VacmError (Option ErrorIndication) := do
  let viewTreeMap ← build viewTreeAssembly source.viewTreeFamilies
  let viewName ← valueOf viewName
  match viewTreeMap viewName with
  | none => .ok (some .notInView)
  | some entries => do
    let allowed ← accessAllowed request.variableName false entries
    if allowed then .ok none else .error (.statusInformation .notInView)

/-- What is decided once the group is known. -/
def groupDecision (source : VacmSource) (request : AccessRequest) (groupName : Option Octets) :
    Except VacmError (Option ErrorIndication) := do
  let accessMap ← build accessAssembly source.access
  let groupName ← valueOf groupName
  let viewName ← getFamilyViewName accessMap groupName request
  viewDecision source request viewName

/-- The decision of the tables about a request. -/
def accessDecision (source : VacmSource) (request : AccessRequest) :
    Except VacmError (Option ErrorIndication) := do
  let contextMap ← build contextAssembly source.contexts
  if contextMap request.contextName then
    let groupNameMap ← build groupNameAssembly source.securityToGroup
    match groupNameMap (request.securityModel, request.securityName) with
    | none => .error (.statusInformation .noGroupName)
    | some groupName => groupDecision source request groupName
  else
    .error (.statusInformation .noSuchContext)

/-- The four caches of the model object are coherent with the tables. -/
structure Coherent (source : VacmSource) (vacm : Vacm) : Prop where
  contextMap : VersionedCache.Coherent contextAssembly source.contexts vacm.contextMap
  groupNameMap : VersionedCache.Coherent groupNameAssembly source.securityToGroup vacm.groupNameMap
  accessMap : VersionedCache.Coherent accessAssembly source.access vacm.accessMap
  viewTreeMap : VersionedCache.Coherent viewTreeAssembly source.viewTreeFamilies vacm.viewTreeMap

/-- None of the four caches is ahead of its table. -/
structure NotAhead (source : VacmSource) (vacm : Vacm) : Prop where
  contextMap : vacm.contextMap.version ≤ source.contexts.version
  groupNameMap : vacm.groupNameMap.version ≤ source.securityToGroup.version
  accessMap : vacm.accessMap.version ≤ source.access.version
  viewTreeMap : vacm.viewTreeMap.version ≤ source.viewTreeFamilies.version

/-- The relation between the model objects before and after a check: coherence and not being ahead
are kept. -/
def Kept (source : VacmSource) (before after : Vacm) : Prop :=
  (Coherent source before → Coherent source after) ∧
    (NotAhead source before → NotAhead source after)

instance (source : VacmSource) : Std.Refl (Kept source) :=
  ⟨fun _ ↦ ⟨id, id⟩⟩

instance (source : VacmSource) : IsTrans Vacm (Kept source) :=
  ⟨fun _ _ _ hfirst hsecond ↦ ⟨hsecond.1 ∘ hfirst.1, hsecond.2 ∘ hfirst.2⟩⟩

theorem kept_rebuildContextMap (source : VacmSource) :
    Keeps (Kept source) (rebuildContextMap source) :=
  fun _ ↦ ⟨fun hcoherent ↦ { hcoherent with contextMap := coherent_refresh hcoherent.contextMap },
    fun hahead ↦ { hahead with contextMap := refresh_version_le hahead.contextMap }⟩

theorem kept_rebuildGroupNameMap (source : VacmSource) :
    Keeps (Kept source) (rebuildGroupNameMap source) :=
  fun _ ↦
    ⟨fun hcoherent ↦ { hcoherent with groupNameMap := coherent_refresh hcoherent.groupNameMap },
      fun hahead ↦ { hahead with groupNameMap := refresh_version_le hahead.groupNameMap }⟩

theorem kept_rebuildAccessMap (source : VacmSource) :
    Keeps (Kept source) (rebuildAccessMap source) :=
  fun _ ↦ ⟨fun hcoherent ↦ { hcoherent with accessMap := coherent_refresh hcoherent.accessMap },
    fun hahead ↦ { hahead with accessMap := refresh_version_le hahead.accessMap }⟩

theorem kept_rebuildViewTreeMap (source : VacmSource) :
    Keeps (Kept source) (rebuildViewTreeMap source) :=
  fun _ ↦ ⟨fun hcoherent ↦ { hcoherent with viewTreeMap := coherent_refresh hcoherent.viewTreeMap },
    fun hahead ↦ { hahead with viewTreeMap := refresh_version_le hahead.viewTreeMap }⟩

theorem kept_checkView (source : VacmSource) (request : AccessRequest)
    (viewName : Option Octets) : Keeps (Kept source) (checkView source request viewName) := by
  refine (kept_rebuildViewTreeMap source).bind fun viewTreeMap ↦ ?_
  refine (keeps_liftExcept _).bind fun key ↦ ?_
  split
  · exact keeps_pure _
  · exact (keeps_liftExcept _).bind fun _ ↦ Keeps.ite (keeps_pure _) (keeps_raise _)

theorem kept_checkGroup (source : VacmSource) (request : AccessRequest)
    (groupName : Option Octets) : Keeps (Kept source) (checkGroup source request groupName) :=
  (kept_rebuildAccessMap source).bind fun _ ↦
    (keeps_liftExcept _).bind fun _ ↦
      (keeps_liftExcept _).bind fun viewName ↦ kept_checkView source request viewName

/-- A check keeps the caches coherent and not ahead, whether it returns or raises. -/
theorem kept_isAccessAllowed (source : VacmSource) (request : AccessRequest) :
    Keeps (Kept source) (isAccessAllowed source request) := by
  refine (kept_rebuildContextMap source).bind fun contextMap ↦ Keeps.ite ?_ (keeps_raise _)
  refine (kept_rebuildGroupNameMap source).bind fun groupNameMap ↦ ?_
  split
  · exact keeps_raise _
  · exact kept_checkGroup source request _

/-! ### The result of a check -/

variable {source : VacmSource} {vacm : Vacm}

theorem checkView_fst (request : AccessRequest) (viewName : Option Octets)
    (hcoherent : Coherent source vacm) :
    ((checkView source request viewName).run vacm).1 = viewDecision source request viewName := by
  refine bind_run_fst (refresh_fst hcoherent.viewTreeMap) fun viewTreeMap ↦ ?_
  refine bind_run_fst (by rw [liftExcept_run]) fun key ↦ ?_
  cases viewTreeMap key with
  | none => rfl
  | some entries =>
    refine bind_run_fst (by rw [liftExcept_run]) fun allowed ↦ ?_
    cases allowed <;> rfl

theorem checkGroup_fst (request : AccessRequest) (groupName : Option Octets)
    (hcoherent : Coherent source vacm) :
    ((checkGroup source request groupName).run vacm).1 =
      groupDecision source request groupName := by
  refine bind_run_fst (refresh_fst hcoherent.accessMap) fun accessMap ↦ ?_
  refine bind_run_fst (by rw [liftExcept_run]) fun key ↦ ?_
  refine bind_run_fst (by rw [liftExcept_run]) fun viewName ↦ ?_
  exact checkView_fst request viewName ((kept_rebuildAccessMap source vacm).1 hcoherent)

/-- A model object with coherent caches decides as the tables do. -/
theorem isAccessAllowed_fst (request : AccessRequest) (hcoherent : Coherent source vacm) :
    ((isAccessAllowed source request).run vacm).1 = accessDecision source request := by
  refine bind_run_fst (refresh_fst hcoherent.contextMap) fun contextMap ↦ ?_
  split_ifs
  · have hcontext := (kept_rebuildContextMap source vacm).1 hcoherent
    refine bind_run_fst (refresh_fst hcontext.groupNameMap) fun groupNameMap ↦ ?_
    cases groupNameMap (request.securityModel, request.securityName) with
    | none => rfl
    | some groupName =>
      exact checkGroup_fst request groupName ((kept_rebuildGroupNameMap source _).1 hcontext)
  · rfl

/-- An object that is not refused is granted by the tables. -/
theorem refused_eq_ok_false {request : AccessRequest} {after : Vacm}
    (hcoherent : Coherent source vacm)
    (hrun : (refused source request).run vacm = (.ok false, after)) :
    (∃ value, accessDecision source request = .ok value) ∧ Coherent source after := by
  have hfst := isAccessAllowed_fst request hcoherent
  have hkept := (kept_isAccessAllowed source request vacm).1 hcoherent
  rcases ok_or_error (isAccessAllowed source request) vacm with
    ⟨value, middle, hok⟩ | ⟨exception, middle, herror⟩
  · rw [hok] at hfst hkept
    rw [refused, handle_run_of_ok (by rw [bind_run_of_ok hok, pure_run])] at hrun
    cases hrun
    exact ⟨⟨value, hfst.symm⟩, hkept⟩
  · rw [refused, handle_run_of_error (bind_run_of_error herror)] at hrun
    split at hrun
    · cases hrun
    · cases hrun

/-- When no object of a notification is refused, the tables grant each of them. -/
theorem accessDecision_of_not_vacmDenied {request : AccessRequest} {varNames : List Oid}
    {after : Vacm} (hcoherent : Coherent source vacm)
    (hrun : (vacmDenied source request varNames).run vacm = (.ok false, after)) :
    ∀ varName ∈ varNames, ∃ value,
      accessDecision source { request with variableName := varName } = .ok value := by
  induction varNames generalizing vacm with
  | nil => exact fun varName hmem ↦ absurd hmem List.not_mem_nil
  | cons head varNames ih =>
    obtain ⟨denied, middle, hrefused, hrest⟩ := bind_eq_ok_iff.mp hrun
    cases denied with
    | true => cases hrest
    | false =>
      obtain ⟨hgranted, hmiddle⟩ := refused_eq_ok_false hcoherent hrefused
      intro varName hmem
      rcases List.mem_cons.mp hmem with rfl | hmem
      · exact hgranted
      · exact ih hmiddle hrest varName hmem

end Pysnmp.Proto.Acmod.AccessDecision
