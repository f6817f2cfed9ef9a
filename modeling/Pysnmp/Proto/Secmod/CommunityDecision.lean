import Pysnmp.Proto.Secmod.Rfc2576

/-!
# The lookups of the tables

`com2secDecision` and `sec2comDecision` are the two lookups without any cache: what the tables say.
A model object whose four caches are coherent with the tables finds that (`com2sec_fst`,
`sec2com_fst`). A lookup of a community keeps the caches coherent (`kept_com2sec`). A lookup of a
security name does so where the map of the target parameters is current or no security name has two
security models (`coherent_sec2com`), for only then do the two ways of building that map agree.
-/

set_option autoImplicit false
set_option relaxedAutoImplicit false

namespace Pysnmp.Proto.Secmod.CommunityDecision

open Foundation Foundation.Effect Foundation.VersionedCache Rfc2576

/-- What the tables say about a community and a source. -/
def com2secDecision (interpreter : Interpreter) (tables : CommunityTables) (securityModelID : ℤ)
    (communityName : Octets) (transportInformation : TransportInformation) :
    Except CommunityError SecurityEntry := do
  let transportToTagMap ← build transportToTagAssembly (tables.targetAddrs interpreter)
  let nameToModelMap ← build nameToModelAssembly tables.targetParams
  let maps ← build communityAssembly tables.communities
  lookUp interpreter securityModelID transportToTagMap nameToModelMap maps communityName
    transportInformation

/-- What the tables say about a security name and a context. -/
def sec2comDecision (tables : CommunityTables) (entry : SecurityEntry) :
    Except CommunityError (Option Octets) := do
  let securityMap ← build securityAssembly tables.communities
  match securityMap entry with
  | none => .error .unknownCommunityName
  | some communityName => .ok communityName

/-- The four caches of the model object are coherent with the tables, that of the target parameters
with the map the lookup of a community builds. -/
structure Coherent (interpreter : Interpreter) (tables : CommunityTables)
    (model : SnmpV1SecurityModel) : Prop where
  transportToTagMap : VersionedCache.Coherent transportToTagAssembly
    (tables.targetAddrs interpreter) model.transportToTagMap
  nameToModelMap : VersionedCache.Coherent nameToModelAssembly tables.targetParams
    model.nameToModelMap
  communityMaps : VersionedCache.Coherent communityAssembly tables.communities model.communityMaps
  securityMap : VersionedCache.Coherent securityAssembly tables.communities model.securityMap

/-- None of the four caches is ahead of its table. -/
structure NotAhead (interpreter : Interpreter) (tables : CommunityTables)
    (model : SnmpV1SecurityModel) : Prop where
  transportToTagMap : model.transportToTagMap.version ≤ (tables.targetAddrs interpreter).version
  nameToModelMap : model.nameToModelMap.version ≤ tables.targetParams.version
  communityMaps : model.communityMaps.version ≤ tables.communities.version
  securityMap : model.securityMap.version ≤ tables.communities.version

/-- The relation between the model objects before and after a lookup: coherence and not being ahead
are kept. -/
def Kept (interpreter : Interpreter) (tables : CommunityTables)
    (before after : SnmpV1SecurityModel) : Prop :=
  (Coherent interpreter tables before → Coherent interpreter tables after) ∧
    (NotAhead interpreter tables before → NotAhead interpreter tables after)

variable {interpreter : Interpreter} {tables : CommunityTables} {model : SnmpV1SecurityModel}

instance : Std.Refl (Kept interpreter tables) :=
  ⟨fun _ ↦ ⟨id, id⟩⟩

instance : IsTrans SnmpV1SecurityModel (Kept interpreter tables) :=
  ⟨fun _ _ _ hfirst hsecond ↦ ⟨hsecond.1 ∘ hfirst.1, hsecond.2 ∘ hfirst.2⟩⟩

/-! ### The versions -/

/-- A table's version is not the one a new model object starts from. -/
theorem initialVersion_lt_watch {Column Row Reading : Type} (table : ConceptualTable Column Row)
    (column : Column) (readRow : Row → Except CommunityError Reading) :
    -1 < (table.watch column readRow).version := by
  have hversion : (table.watch column readRow).version = table.branchVersionId column := rfl
  omega

/-- A cache whose version has been given up is coherent with every table. -/
theorem coherent_of_initialVersion {Column Row Reading Map : Type}
    {assembly : Assembly Reading Map} {table : ConceptualTable Column Row} {column : Column}
    {readRow : Row → Except CommunityError Reading} {map : Map} :
    VersionedCache.Coherent assembly (table.watch column readRow) ⟨-1, map⟩ :=
  fun heq ↦ absurd heq (initialVersion_lt_watch table column readRow).ne

/-- A new model object is coherent with all tables and ahead of none. -/
theorem coherent_initial : Coherent interpreter tables .initial where
  transportToTagMap := coherent_of_initialVersion
  nameToModelMap := coherent_of_initialVersion
  communityMaps := coherent_of_initialVersion
  securityMap := coherent_of_initialVersion

theorem notAhead_initial : NotAhead interpreter tables .initial where
  transportToTagMap := (initialVersion_lt_watch _ _ _).le
  nameToModelMap := (initialVersion_lt_watch _ _ _).le
  communityMaps := (initialVersion_lt_watch _ _ _).le
  securityMap := (initialVersion_lt_watch _ _ _).le

/-! ### The parts of a lookup -/

theorem kept_rebuildTransportToTagMap :
    Keeps (Kept interpreter tables) (rebuildTransportToTagMap interpreter tables) :=
  fun _ ↦
    ⟨fun hcoherent ↦
      { hcoherent with transportToTagMap := coherent_refresh hcoherent.transportToTagMap },
      fun hahead ↦
        { hahead with transportToTagMap := refresh_version_le hahead.transportToTagMap }⟩

theorem kept_rebuildCommunityMaps :
    Keeps (Kept interpreter tables) (rebuildCommunityMaps tables) :=
  fun _ ↦
    ⟨fun hcoherent ↦ { hcoherent with communityMaps := coherent_refresh hcoherent.communityMaps },
      fun hahead ↦ { hahead with communityMaps := refresh_version_le hahead.communityMaps }⟩

theorem kept_rebuildSecurityMap : Keeps (Kept interpreter tables) (rebuildSecurityMap tables) :=
  fun _ ↦
    ⟨fun hcoherent ↦ { hcoherent with securityMap := coherent_refresh hcoherent.securityMap },
      fun hahead ↦ { hahead with securityMap := refresh_version_le hahead.securityMap }⟩

theorem kept_invalidateCommunityMaps :
    Kept interpreter tables model model.invalidateCommunityMaps :=
  ⟨fun hcoherent ↦ { hcoherent with communityMaps := coherent_of_initialVersion },
    fun hahead ↦ { hahead with communityMaps := (initialVersion_lt_watch _ _ _).le }⟩

theorem kept_invalidateSecurityMap : Kept interpreter tables model model.invalidateSecurityMap :=
  ⟨fun hcoherent ↦ { hcoherent with securityMap := coherent_of_initialVersion },
    fun hahead ↦ { hahead with securityMap := (initialVersion_lt_watch _ _ _).le }⟩

section NameToModelMap

variable {assembly : Assembly TargetParamsRow NameToModelMap}
  {invalidate : SnmpV1SecurityModel → SnmpV1SecurityModel}

/-- Every row of the target parameters can be read. -/
theorem exists_refresh_targetParams (tables : CommunityTables)
    (assembly : Assembly TargetParamsRow NameToModelMap) (cache : VersionedCache NameToModelMap) :
    ∃ map after, (refresh assembly tables.targetParams :
      Effect (VersionedCache NameToModelMap) CommunityError NameToModelMap).run cache =
        (.ok map, after) := by
  by_cases hversion : cache.version = tables.targetParams.version
  · exact ⟨_, _, refresh_run_of_eq assembly tables.targetParams hversion⟩
  · obtain ⟨after, hrun, -⟩ := refresh_run_of_ne assembly tables.targetParams hversion
    rw [hrun, build, CommunityTables.targetParams, ConceptualTable.watch, addRows_map_ok]
    exact ⟨_, _, rfl⟩

theorem rebuildNameToModelMap_run {map : NameToModelMap} {after : VersionedCache NameToModelMap}
    (hrefresh : (refresh assembly tables.targetParams :
      Effect (VersionedCache NameToModelMap) CommunityError NameToModelMap).run
        model.nameToModelMap = (.ok map, after)) :
    (rebuildNameToModelMap tables assembly invalidate).run model =
      (.ok map, if model.nameToModelMap.version ≠ tables.targetParams.version then
        invalidate { model with nameToModelMap := after }
      else { model with nameToModelMap := after }) := by
  rw [rebuildNameToModelMap, bind_run_of_ok (gets_run _ _),
    bind_run_of_ok ((focus_run _ _ _ _).trans (by rw [hrefresh])), runIf]
  split_ifs <;> rfl

/-- A current map of the target parameters is left alone, and another is rebuilt coherent by every
assembly that puts the same map together. -/
theorem kept_rebuildNameToModelMap
    (hinvalidate : ∀ model, Kept interpreter tables model (invalidate model))
    (hassembly : model.nameToModelMap.version = tables.targetParams.version ∨
      build assembly tables.targetParams = build nameToModelAssembly tables.targetParams) :
    Kept interpreter tables model
      ((rebuildNameToModelMap tables assembly invalidate).run model).2 := by
  obtain ⟨map, after, hrefresh⟩ :=
    exists_refresh_targetParams tables assembly model.nameToModelMap
  obtain rfl := congrArg Prod.snd hrefresh
  have hafter : Kept interpreter tables model { model with
      nameToModelMap := ((refresh assembly tables.targetParams :
        Effect (VersionedCache NameToModelMap) CommunityError NameToModelMap).run
          model.nameToModelMap).2 } := by
    refine ⟨fun hcoherent ↦ { hcoherent with nameToModelMap := ?_ }, fun hahead ↦
      { hahead with nameToModelMap := refresh_version_le hahead.nameToModelMap }⟩
    rcases hassembly with hversion | hbuild
    · rw [refresh_run_of_eq assembly tables.targetParams hversion]
      exact hcoherent.nameToModelMap
    · have hcache := hcoherent.nameToModelMap
      rw [VersionedCache.Coherent, ← hbuild] at hcache ⊢
      exact coherent_refresh hcache
  rw [rebuildNameToModelMap_run hrefresh]
  split_ifs
  · exact trans_of (Kept interpreter tables) hafter (hinvalidate _)
  · exact hafter

/-- Rebuilding the map of the target parameters leaves the security map coherent: as it is, or with
its version given up. -/
theorem coherent_securityMap_rebuildNameToModelMap
    (assembly : Assembly TargetParamsRow NameToModelMap)
    (hcoherent : VersionedCache.Coherent securityAssembly tables.communities model.securityMap) :
    VersionedCache.Coherent securityAssembly tables.communities
      ((rebuildNameToModelMap tables assembly SnmpV1SecurityModel.invalidateSecurityMap).run
        model).2.securityMap := by
  obtain ⟨map, after, hrefresh⟩ :=
    exists_refresh_targetParams tables assembly model.nameToModelMap
  rw [rebuildNameToModelMap_run hrefresh]
  split_ifs
  · exact coherent_of_initialVersion
  · exact hcoherent

end NameToModelMap

/-! ### The lookup of a community -/

theorem kept_rebuildNameToModelMap_com2sec :
    Keeps (Kept interpreter tables) (rebuildNameToModelMap tables nameToModelAssembly
      SnmpV1SecurityModel.invalidateCommunityMaps) :=
  fun _ ↦ kept_rebuildNameToModelMap (fun _ ↦ kept_invalidateCommunityMaps) (Or.inr rfl)

/-- The lookup of a community keeps the caches coherent and not ahead. -/
theorem kept_com2sec (securityModelID : ℤ) (communityName : Octets)
    (transportInformation : TransportInformation) :
    Keeps (Kept interpreter tables)
      (com2sec interpreter tables securityModelID communityName transportInformation) :=
  kept_rebuildTransportToTagMap.bind fun _ ↦
    kept_rebuildNameToModelMap_com2sec.bind fun _ ↦
      kept_rebuildCommunityMaps.bind fun _ ↦ keeps_liftExcept _

/-- A model object with coherent caches finds what the tables say. -/
theorem com2sec_fst (securityModelID : ℤ) (communityName : Octets)
    (transportInformation : TransportInformation) (hcoherent : Coherent interpreter tables model) :
    ((com2sec interpreter tables securityModelID communityName transportInformation).run
        model).1 =
      com2secDecision interpreter tables securityModelID communityName transportInformation := by
  have hfirst := (kept_rebuildTransportToTagMap model).1 hcoherent
  refine bind_run_fst (refresh_fst hcoherent.transportToTagMap) fun transportToTagMap ↦ ?_
  have hsecond := (kept_rebuildNameToModelMap_com2sec _).1 hfirst
  obtain ⟨map, after, hrefresh⟩ := exists_refresh_targetParams tables nameToModelAssembly
    ((rebuildTransportToTagMap interpreter tables).run model).2.nameToModelMap
  have hmap := refresh_fst hfirst.nameToModelMap
  rw [hrefresh] at hmap
  refine bind_run_fst ((congrArg Prod.fst (rebuildNameToModelMap_run hrefresh)).trans hmap)
    fun nameToModelMap ↦ ?_
  refine bind_run_fst (refresh_fst hsecond.communityMaps) fun maps ↦ ?_
  rw [liftExcept_run]

/-! ### The two ways of building the map of the target parameters -/

/-- Two rows do not give a security name different security models. -/
def Agree (first second : TargetParamsRow) : Prop :=
  ∀ securityName ∈ first.snmpTargetParamsSecurityName,
    second.snmpTargetParamsSecurityName = some securityName →
      ∀ firstModel ∈ first.snmpTargetParamsSecurityModel,
        ∀ secondModel ∈ second.snmpTargetParamsSecurityModel, firstModel = secondModel

/-- No security name has two security models. -/
def HasOneModelPerName (tables : CommunityTables) : Prop :=
  ∀ first ∈ tables.snmpTargetParamsTable.rows.values,
    ∀ second ∈ tables.snmpTargetParamsTable.rows.values, Agree first second

instance (first second : TargetParamsRow) : Decidable (Agree first second) := by
  unfold Agree
  infer_instance

instance : Decidable (HasOneModelPerName tables) := by
  unfold HasOneModelPerName
  infer_instance

/-- What a map holds under the name of a row is at most the row's security model. -/
def IsAtMost (nameToModelMap : NameToModelMap) (row : TargetParamsRow) : Prop :=
  ∀ securityName ∈ row.snmpTargetParamsSecurityName,
    ∀ securityModel ∈ row.snmpTargetParamsSecurityModel,
      nameToModelMap securityName ⊆ {securityModel}

/-- The two ways to add a row agree on a map that holds at most the row's model under its name. -/
theorem nameToModelAssembly_add_eq {nameToModelMap : NameToModelMap} {row : TargetParamsRow}
    (hmost : IsAtMost nameToModelMap row) :
    nameToModelAssemblyOfSec2com.add row nameToModelMap =
      nameToModelAssembly.add row nameToModelMap := by
  obtain ⟨securityName, securityModel⟩ := row
  cases securityName with
  | none => rfl
  | some securityName =>
    cases securityModel with
    | none => rfl
    | some securityModel =>
      have hinsert : insert securityModel (nameToModelMap securityName) = {securityModel} := by
        rw [Finset.insert_eq, Finset.union_eq_left.mpr (hmost _ rfl _ rfl)]
      simp only [nameToModelAssemblyOfSec2com, nameToModelAssembly, hinsert]

/-- Adding a row leaves at most their models under the names of the rows it agrees with. -/
theorem isAtMost_add {nameToModelMap : NameToModelMap} {row other : TargetParamsRow}
    (hmost : IsAtMost nameToModelMap row) (hother : IsAtMost nameToModelMap other)
    (hagree : Agree row other) : IsAtMost (nameToModelAssembly.add row nameToModelMap) other := by
  obtain ⟨_ | securityName, securityModel⟩ := row
  · exact hother
  obtain _ | securityModel := securityModel
  · exact hother
  intro otherName hname otherModel hmodel
  by_cases heq : otherName = securityName
  · subst heq
    obtain rfl : securityModel = otherModel := hagree _ rfl hname _ rfl _ hmodel
    simp only [nameToModelAssembly, Function.update_self]
    exact Finset.insert_subset (Finset.mem_singleton_self _) (hmost _ rfl _ rfl)
  · simp only [nameToModelAssembly, Function.update_of_ne heq]
    exact hother _ hname _ hmodel

theorem addRows_nameToModelAssembly_eq {rows : List TargetParamsRow}
    (hagree : ∀ first ∈ rows, ∀ second ∈ rows, Agree first second)
    {nameToModelMap : NameToModelMap} (hmost : ∀ row ∈ rows, IsAtMost nameToModelMap row) :
    addRows nameToModelAssemblyOfSec2com nameToModelMap
        (rows.map (Except.ok : TargetParamsRow → Except CommunityError TargetParamsRow)) =
      addRows nameToModelAssembly nameToModelMap (rows.map .ok) := by
  induction rows generalizing nameToModelMap with
  | nil => rfl
  | cons head rows ih =>
    rw [List.map_cons, addRows, addRows,
      nameToModelAssembly_add_eq (hmost head List.mem_cons_self)]
    refine ih (fun first hfirst second hsecond ↦ hagree first (List.mem_cons_of_mem _ hfirst)
      second (List.mem_cons_of_mem _ hsecond)) fun row hrow ↦ ?_
    have hmem := List.mem_cons_of_mem head hrow
    exact isAtMost_add (hmost head List.mem_cons_self) (hmost row hmem)
      (hagree head List.mem_cons_self row hmem)

/-- Where no security name has two models, both lookups build the same map. -/
theorem build_nameToModelAssembly_eq (hmodels : HasOneModelPerName tables) :
    build nameToModelAssemblyOfSec2com tables.targetParams =
      build nameToModelAssembly tables.targetParams := by
  rw [build, build]
  exact congrArg _ (addRows_nameToModelAssembly_eq hmodels fun _ _ _ _ _ _ ↦ Finset.empty_subset _)

/-! ### The lookup of a security name -/

/-- The map of the target parameters is current, or both lookups build the same. -/
def IsHarmless (tables : CommunityTables) (model : SnmpV1SecurityModel) : Prop :=
  model.nameToModelMap.version = tables.targetParams.version ∨ HasOneModelPerName tables

instance : Decidable (IsHarmless tables model) := by
  unfold IsHarmless
  infer_instance

theorem kept_rebuildNameToModelMap_sec2com (hharmless : IsHarmless tables model) :
    Kept interpreter tables model ((rebuildNameToModelMap tables
      nameToModelAssemblyOfSec2com SnmpV1SecurityModel.invalidateSecurityMap).run model).2 :=
  kept_rebuildNameToModelMap (fun _ ↦ kept_invalidateSecurityMap)
    (hharmless.imp_right build_nameToModelAssembly_eq)

/-- The lookup of a security name keeps the caches coherent and not ahead where it is harmless. -/
theorem kept_sec2com (entry : SecurityEntry) (hharmless : IsHarmless tables model) :
    Kept interpreter tables model ((sec2com tables entry).run model).2 := by
  refine related_bind_run (kept_rebuildNameToModelMap_sec2com hharmless) fun _ ↦
    kept_rebuildSecurityMap.bind fun securityMap ↦ ?_
  split
  · exact keeps_raise _
  · exact keeps_pure _

/-- A model object finds what the tables say, whatever its map of the target parameters holds, if
its security map is coherent with them. -/
theorem sec2com_fst (entry : SecurityEntry)
    (hcoherent : VersionedCache.Coherent securityAssembly tables.communities model.securityMap) :
    ((sec2com tables entry).run model).1 = sec2comDecision tables entry := by
  obtain ⟨map, after, hrefresh⟩ :=
    exists_refresh_targetParams tables nameToModelAssemblyOfSec2com model.nameToModelMap
  have hsecurity :=
    coherent_securityMap_rebuildNameToModelMap nameToModelAssemblyOfSec2com hcoherent
  have hmap : ((rebuildNameToModelMap tables nameToModelAssemblyOfSec2com
      SnmpV1SecurityModel.invalidateSecurityMap).run model).1 = .ok map :=
    congrArg Prod.fst (rebuildNameToModelMap_run hrefresh)
  change _ = ((Except.ok map : Except CommunityError NameToModelMap) >>= fun _ ↦
    sec2comDecision tables entry)
  refine bind_run_fst hmap fun _ ↦ ?_
  refine bind_run_fst (refresh_fst hsecurity) fun securityMap ↦ ?_
  cases securityMap entry <;> rfl

end Pysnmp.Proto.Secmod.CommunityDecision
