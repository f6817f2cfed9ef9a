import Pysnmp.Proto.Secmod.CommunityDecision

/-!
# Which sources a community accepts

A row of the community table matches a community name and a source when it has that name and either
an empty transport tag, which stands for any source, or a tag in the tag list of a target address
that is the source's (`IsMatch`). A lookup is to accept exactly the communities with a matching row,
and to find the security name of such a row (`SelectsMatch`).

What the code does instead is told by what ends up in the maps: the tags of a source are those filed
for its target addresses (`mem_elements_transportToTagMap_iff`), and a community is found under the
tags of its complete rows (`mem_elements_communityToTagMap_iff`). A source that is listed has the
empty tag only where a list of its own is empty. So a matching row is lost on a table with a target
address that cannot be read, when one of its values is missing, and when its tag is empty and the
source is listed with tags only (`selectsMatch_iff`).
-/

set_option autoImplicit false
set_option relaxedAutoImplicit false

namespace Pysnmp.Proto.Secmod.CommunitySelection

open Foundation Foundation.Effect Foundation.VersionedCache Rfc2576 CommunityDecision

/-! ### What the tables are meant to say -/

section Meaning

variable (interpreter : Interpreter) (tables : CommunityTables) (communityName : Octets)
  (source : TransportInformation)

/-- The domain and the address of a target are the source's. -/
def IsSource (row : TargetAddrRow) : Prop :=
  row.snmpTargetAddrTDomain = some source.1 ∧
    transportAddress interpreter source.1 row.snmpTargetAddrTAddress = .ok source.2

/-- The tag is contained in the tag list of a target address of the source. -/
def IsTagged (transportTag : Octets) : Prop :=
  ∃ row ∈ tables.snmpTargetAddrTable.rows.values, IsSource interpreter source row ∧
    ∃ targetAddrTagList ∈ row.snmpTargetAddrTagList, transportTag ∈ split targetAddrTagList

/-- A row of the community table that has the name and lets the source in. -/
structure IsMatch (row : CommunityRow) : Prop where
  mem : row ∈ tables.snmpCommunityTable.rows.values
  communityName : row.snmpCommunityName = some communityName
  transportTag : ∃ transportTag ∈ row.snmpCommunityTransportTag,
    transportTag = [] ∨ IsTagged interpreter tables source transportTag

/-- The lookup by a new model object. -/
def selection (securityModelID : ℤ) : Except CommunityError SecurityEntry :=
  ((com2sec interpreter tables securityModelID communityName source).run .initial).1

/-- The lookup accepts exactly what some row matches, and finds the security name of such a row. -/
structure SelectsMatch (securityModelID : ℤ) : Prop where
  accepts_iff : (∃ entry, selection interpreter tables communityName source securityModelID =
      .ok entry) ↔ ∃ row, IsMatch interpreter tables communityName source row
  securityName : ∀ entry, selection interpreter tables communityName source securityModelID =
      .ok entry →
    ∃ row, IsMatch interpreter tables communityName source row ∧
      row.snmpCommunitySecurityName = some entry.securityName

/-! ### What they are found to say -/

/-- Every target address has a domain and an address of the domain's kind. -/
def IsReadable : Prop :=
  ∀ row ∈ tables.snmpTargetAddrTable.rows.values, ∃ targetAddr,
    readTargetAddr interpreter row = .ok targetAddr

/-- A matching row that is found: its values are all there, and if its tag is empty the source is
not listed, or one of its lists is empty. -/
structure IsFound (row : CommunityRow) : Prop where
  isMatch : IsMatch interpreter tables communityName source row
  isComplete : row.securityEntry.isSome
  emptyTag : row.snmpCommunityTransportTag = some [] →
    (∀ target ∈ tables.snmpTargetAddrTable.rows.values, ¬ IsSource interpreter source target) ∨
      ∃ target ∈ tables.snmpTargetAddrTable.rows.values, IsSource interpreter source target ∧
        target.snmpTargetAddrTagList = some []

end Meaning

variable {interpreter : Interpreter} {tables : CommunityTables} {communityName : Octets}
  {source : TransportInformation} {securityModelID : ℤ}

/-! ### The maps -/

theorem readTargetAddr_eq_ok_iff {row : TargetAddrRow} {targetAddrTagList : Option Octets} :
    readTargetAddr interpreter row = .ok ⟨source, targetAddrTagList⟩ ↔
      IsSource interpreter source row ∧ row.snmpTargetAddrTagList = targetAddrTagList := by
  obtain ⟨targetAddrTDomain, targetAddrTAddress, tagList⟩ := row
  obtain ⟨domain, address⟩ := source
  cases targetAddrTDomain with
  | none => simp [readTargetAddr, getValue, IsSource, bind, Except.bind]
  | some targetAddrTDomain =>
    cases haddress : transportAddress interpreter targetAddrTDomain targetAddrTAddress with
    | error exception =>
      simp only [readTargetAddr, getValue, IsSource, bind, Except.bind, haddress, reduceCtorEq,
        Option.some.injEq, false_iff]
      rintro ⟨⟨rfl, hok⟩, -⟩
      rw [haddress] at hok
      cases hok
    | ok other =>
      simp only [readTargetAddr, getValue, IsSource, bind, Except.bind, haddress, pure,
        Except.pure, Except.ok.injEq, TargetAddr.mk.injEq, Prod.mk.injEq, Option.some.injEq]
      constructor
      · rintro ⟨⟨rfl, rfl⟩, rfl⟩
        exact ⟨⟨rfl, haddress⟩, rfl⟩
      · rintro ⟨⟨rfl, hok⟩, rfl⟩
        rw [haddress] at hok
        exact ⟨⟨rfl, Except.ok.inj hok⟩, rfl⟩

/-- The tags a target address is filed with: the words of its list, or the empty tag for an empty
list. -/
theorem mem_tagsOf_iff {targetAddrTagList : Option Octets} {transportTag : Octets} :
    transportTag ∈ tagsOf targetAddrTagList ↔
      (transportTag = [] ∧ targetAddrTagList = some []) ∨
        ∃ octets ∈ targetAddrTagList, transportTag ∈ split octets := by
  rcases targetAddrTagList with _ | _ | ⟨octet, octets⟩
  · simp [tagsOf]
  · simp [tagsOf, split]
  · simp [tagsOf]

/-- A word is not empty. -/
theorem ne_nil_of_mem_split {octets word : Octets} (hword : word ∈ split octets) : word ≠ [] := by
  rintro rfl
  simp [split] at hword

/-- A reading comes from a target address of the source. -/
theorem mem_readings_iff {readings : List TargetAddr}
    (hreadings : tables.snmpTargetAddrTable.rows.values.map (readTargetAddr interpreter) =
      readings.map .ok) {targetAddrTagList : Option Octets} :
    ⟨source, targetAddrTagList⟩ ∈ readings ↔
      ∃ row ∈ tables.snmpTargetAddrTable.rows.values, IsSource interpreter source row ∧
        row.snmpTargetAddrTagList = targetAddrTagList := by
  have hok : (⟨source, targetAddrTagList⟩ ∈ readings) ↔
      (.ok ⟨source, targetAddrTagList⟩ : Except CommunityError TargetAddr) ∈
        readings.map .ok := by simp
  rw [hok, ← hreadings, List.mem_map]
  simp only [readTargetAddr_eq_ok_iff]

section Build

variable {transportToTagMap : TransportToTagMap}
  (hbuild : build transportToTagAssembly (tables.targetAddrs interpreter) = .ok transportToTagMap)

include hbuild

/-- The readings of the target addresses, which make up the map. -/
theorem exists_readings :
    ∃ readings, tables.snmpTargetAddrTable.rows.values.map (readTargetAddr interpreter) =
        readings.map .ok ∧
      Multimap.fileRows TargetAddr.filing readings (fun _ ↦ none) = transportToTagMap :=
  build_eq_ok_iff.mp hbuild

/-- The tags of a source are those its target addresses are filed with. -/
theorem mem_elements_transportToTagMap_iff {transportTag : Octets} :
    transportTag ∈ transportToTagMap.elements source ↔
      ∃ row ∈ tables.snmpTargetAddrTable.rows.values, IsSource interpreter source row ∧
        transportTag ∈ tagsOf row.snmpTargetAddrTagList := by
  obtain ⟨readings, hreadings, rfl⟩ := exists_readings hbuild
  rw [Multimap.mem_elements_fileRows_iff]
  constructor
  · rintro (hnone | ⟨⟨_, targetAddrTagList⟩, hreading, tags, hfiling, htag⟩)
    · cases hnone
    · obtain ⟨rfl, rfl⟩ := Prod.mk.inj (Option.some.inj hfiling)
      obtain ⟨row, hrow, hsource, rfl⟩ := (mem_readings_iff hreadings).mp hreading
      exact ⟨row, hrow, hsource, htag⟩
  · rintro ⟨row, hrow, hsource, htag⟩
    have hreading := (mem_readings_iff hreadings).mpr ⟨row, hrow, hsource, rfl⟩
    exact Or.inr ⟨_, hreading, _, rfl, htag⟩

/-- A source is listed when it has a target address. -/
theorem isSome_transportToTagMap_iff :
    (transportToTagMap source).isSome ↔
      ∃ row ∈ tables.snmpTargetAddrTable.rows.values, IsSource interpreter source row := by
  obtain ⟨readings, hreadings, rfl⟩ := exists_readings hbuild
  rw [Multimap.isSome_fileRows_iff]
  constructor
  · rintro (hnone | ⟨⟨_, targetAddrTagList⟩, hreading, tags, hfiling⟩)
    · cases hnone
    · obtain ⟨rfl, rfl⟩ := Prod.mk.inj (Option.some.inj hfiling)
      obtain ⟨row, hrow, hsource, rfl⟩ := (mem_readings_iff hreadings).mp hreading
      exact ⟨row, hrow, hsource⟩
  · rintro ⟨row, hrow, hsource⟩
    exact Or.inr ⟨_, (mem_readings_iff hreadings).mpr ⟨row, hrow, hsource, rfl⟩, _, rfl⟩

end Build

/-- The target addresses have a map when each of them can be read. -/
theorem isReadable_iff :
    IsReadable interpreter tables ↔ ∃ transportToTagMap,
      build transportToTagAssembly (tables.targetAddrs interpreter) = .ok transportToTagMap := by
  rw [exists_build_iff]
  simp only [CommunityTables.targetAddrs, ConceptualTable.watch, List.forall_mem_map,
    Set.mem_range, IsReadable, eq_comm]

/-! ### The communities -/

/-- A complete row of a community, with its tag and its security entry. -/
structure IsRowOf (tables : CommunityTables) (communityName transportTag : Octets)
    (entry : SecurityEntry) (row : CommunityRow) : Prop where
  mem : row ∈ tables.snmpCommunityTable.rows.values
  communityName : row.snmpCommunityName = some communityName
  transportTag : row.snmpCommunityTransportTag = some transportTag
  securityEntry : row.securityEntry = some entry

theorem communityFiling_eq_some_iff {row : CommunityRow} {tags : List Octets} :
    row.communityFiling = some (communityName, tags) ↔
      ∃ transportTag entry, row.snmpCommunityName = some communityName ∧
        row.snmpCommunityTransportTag = some transportTag ∧ row.securityEntry = some entry ∧
          tags = [transportTag] := by
  rw [CommunityRow.communityFiling]
  cases row.snmpCommunityTransportTag <;> cases row.snmpCommunityName <;>
    cases row.securityEntry <;> simp [eq_comm]

theorem tagAndCommunityFiling_eq_some_iff {row : CommunityRow} {transportTag : Octets}
    {entries : List SecurityEntry} :
    row.tagAndCommunityFiling = some ((transportTag, communityName), entries) ↔
      row.snmpCommunityName = some communityName ∧
        row.snmpCommunityTransportTag = some transportTag ∧
          entries = row.securityEntry.toList := by
  rw [CommunityRow.tagAndCommunityFiling]
  cases row.snmpCommunityTransportTag <;> cases row.snmpCommunityName <;> simp [eq_comm]
  tauto

/-- The maps of the communities. -/
def communityMaps (tables : CommunityTables) : CommunityMaps where
  communityToTagMap := Multimap.fileRows CommunityRow.communityFiling
    tables.snmpCommunityTable.rows.values fun _ ↦ none
  tagAndCommunityToSecurityMap := Multimap.fileRows CommunityRow.tagAndCommunityFiling
    tables.snmpCommunityTable.rows.values fun _ ↦ none

theorem build_communityAssembly :
    build communityAssembly tables.communities = .ok (communityMaps tables) := by
  have hfold : ∀ (rows : List CommunityRow) (maps : CommunityMaps),
      rows.foldl (fun maps row ↦ communityAssembly.add row maps) maps =
        { communityToTagMap :=
            Multimap.fileRows CommunityRow.communityFiling rows maps.communityToTagMap
          tagAndCommunityToSecurityMap := Multimap.fileRows CommunityRow.tagAndCommunityFiling rows
            maps.tagAndCommunityToSecurityMap } := by
    intro rows
    induction rows with
    | nil => exact fun _ ↦ rfl
    | cons row rows ih => exact fun _ ↦ ih _
  exact build_eq_ok_iff.mpr ⟨_, rfl, hfold _ _⟩

/-- A community has the tags of its complete rows. -/
theorem mem_elements_communityToTagMap_iff {transportTag : Octets} :
    transportTag ∈ (communityMaps tables).communityToTagMap.elements communityName ↔
      ∃ entry row, IsRowOf tables communityName transportTag entry row := by
  rw [communityMaps, Multimap.mem_elements_fileRows_iff]
  constructor
  · rintro (hnone | ⟨row, hrow, tags, hfiling, htag⟩)
    · cases hnone
    · obtain ⟨other, entry, hname, htransportTag, hentry, rfl⟩ :=
        communityFiling_eq_some_iff.mp hfiling
      obtain rfl := List.mem_singleton.mp htag
      exact ⟨entry, row, hrow, hname, htransportTag, hentry⟩
  · rintro ⟨entry, row, hrow, hname, htransportTag, hentry⟩
    exact Or.inr ⟨row, hrow, _,
      communityFiling_eq_some_iff.mpr ⟨transportTag, entry, hname, htransportTag, hentry, rfl⟩,
      List.mem_singleton_self _⟩

/-- A tag and a community have the security entries of their complete rows. -/
theorem mem_elements_tagAndCommunityToSecurityMap_iff {transportTag : Octets}
    {entry : SecurityEntry} :
    entry ∈ (communityMaps tables).tagAndCommunityToSecurityMap.elements
        (transportTag, communityName) ↔
      ∃ row, IsRowOf tables communityName transportTag entry row := by
  rw [communityMaps, Multimap.mem_elements_fileRows_iff]
  constructor
  · rintro (hnone | ⟨row, hrow, entries, hfiling, hentry⟩)
    · cases hnone
    · obtain ⟨hname, htransportTag, rfl⟩ := tagAndCommunityFiling_eq_some_iff.mp hfiling
      exact ⟨row, hrow, hname, htransportTag, Option.mem_toList.mp hentry⟩
  · rintro ⟨row, hrow, hname, htransportTag, hentry⟩
    exact Or.inr ⟨row, hrow, _,
      tagAndCommunityFiling_eq_some_iff.mpr ⟨hname, htransportTag, rfl⟩,
      Option.mem_toList.mpr hentry⟩

/-! ### The lookup -/

/-- The tags under which a community is looked up: those of the source's target addresses, and the
empty tag where it has none. -/
def IsLookedUp (interpreter : Interpreter) (tables : CommunityTables)
    (source : TransportInformation) (transportTag : Octets) : Prop :=
  (∃ row ∈ tables.snmpTargetAddrTable.rows.values, IsSource interpreter source row ∧
      transportTag ∈ tagsOf row.snmpTargetAddrTagList) ∨
    transportTag = [] ∧
      ∀ row ∈ tables.snmpTargetAddrTable.rows.values, ¬ IsSource interpreter source row

theorem isLookedUp_iff {transportToTagMap : TransportToTagMap}
    (hbuild : build transportToTagAssembly (tables.targetAddrs interpreter) = .ok transportToTagMap)
    {transportTag : Octets} :
    IsLookedUp interpreter tables source transportTag ↔
      transportTag ∈ transportToTagMap.elements source ∨
        transportTag = [] ∧ transportToTagMap source = none := by
  rw [IsLookedUp, mem_elements_transportToTagMap_iff hbuild, ← Option.not_isSome_iff_eq_none,
    isSome_transportToTagMap_iff hbuild]
  simp only [not_exists, not_and]

/-- The tags of a lookup are those under which it is looked up that the community has; a lookup
without any fails here or later. -/
theorem mem_tagsFor {transportToTagMap : TransportToTagMap} {communityTags tags : List Octets}
    (htags : tagsFor interpreter transportToTagMap communityTags source = .ok tags)
    {transportTag : Octets} :
    transportTag ∈ tags ↔ transportTag ∈ communityTags ∧
      (transportTag ∈ transportToTagMap.elements source ∨
        transportTag = [] ∧ transportToTagMap source = none) := by
  rw [tagsFor] at htags
  cases hsource : transportToTagMap source with
  | some transportTags =>
    rw [hsource] at htags
    obtain rfl := Except.ok.inj htags
    simp [Multimap.elements, hsource, and_comm]
  | none =>
    rw [hsource] at htags
    dsimp only at htags
    split_ifs at htags with hempty
    obtain rfl := Except.ok.inj htags
    simp only [List.mem_singleton, Multimap.elements, hsource, Option.getD_none, List.not_mem_nil,
      and_true, false_or]
    constructor
    · rintro rfl
      exact ⟨hempty, rfl⟩
    · exact And.right

theorem exists_tagsFor (interpreter : Interpreter) {transportToTagMap : TransportToTagMap}
    {communityTags : List Octets}
    {transportTag : Octets} (htag : transportTag ∈ communityTags)
    (hlooked : transportTag ∈ transportToTagMap.elements source ∨
      transportTag = [] ∧ transportToTagMap source = none) :
    ∃ tags, tagsFor interpreter transportToTagMap communityTags source = .ok tags := by
  rw [tagsFor]
  rcases hlooked with htransport | ⟨rfl, hnone⟩
  · obtain ⟨transportTags, hsource⟩ :=
      Option.isSome_iff_exists.mp (Multimap.isSome_of_mem_elements htransport)
    rw [hsource]
    exact ⟨_, rfl⟩
  · rw [hnone]
    exact ⟨_, if_pos htag⟩

/-- Under tags that are there with the community, the candidates are their security entries. -/
theorem exists_candidates (interpreter : Interpreter)
    {securityEntries : Multimap (Octets × Octets) SecurityEntry} {tags : List Octets}
    (htags : ∀ tag ∈ tags, (securityEntries (tag, communityName)).isSome) :
    ∃ candidates,
      candidateSecurityNames interpreter securityEntries communityName tags = .ok candidates ∧
        ∀ entry, entry ∈ candidates ↔
          ∃ tag ∈ tags, entry ∈ securityEntries.elements (tag, communityName) := by
  induction tags with
  | nil => exact ⟨[], rfl, fun entry ↦ by simp⟩
  | cons tag tags ih =>
    obtain ⟨htag, hrest⟩ := List.forall_mem_cons.mp htags
    obtain ⟨entries, hentries⟩ := Option.isSome_iff_exists.mp htag
    obtain ⟨candidates, hcandidates, hmem⟩ := ih hrest
    refine ⟨interpreter.elements entries ++ candidates, ?_, fun entry ↦ ?_⟩
    · rw [candidateSecurityNames, hentries, hcandidates]
      rfl
    · rw [List.mem_append, interpreter.mem_elements, hmem, List.exists_mem_cons_iff,
        Multimap.elements_of_eq_some hentries]

/-- Under tags of the community, the candidates are the security entries of its complete rows. -/
theorem exists_candidates_communityMaps (interpreter : Interpreter) {tags : List Octets}
    (htags : ∀ tag ∈ tags,
      tag ∈ (communityMaps tables).communityToTagMap.elements communityName) :
    ∃ candidates, candidateSecurityNames interpreter
        (communityMaps tables).tagAndCommunityToSecurityMap communityName tags = .ok candidates ∧
      ∀ entry, entry ∈ candidates ↔
        ∃ tag ∈ tags, ∃ row, IsRowOf tables communityName tag entry row := by
  have hthere : ∀ tag ∈ tags,
      ((communityMaps tables).tagAndCommunityToSecurityMap (tag, communityName)).isSome := by
    intro tag htag
    obtain ⟨entry, row, hrow⟩ := mem_elements_communityToTagMap_iff.mp (htags tag htag)
    exact Multimap.isSome_of_mem_elements
      (mem_elements_tagAndCommunityToSecurityMap_iff.mpr ⟨row, hrow⟩)
  obtain ⟨candidates, hcandidates, hmem⟩ := exists_candidates interpreter hthere
  refine ⟨candidates, hcandidates, fun entry ↦ ?_⟩
  simp only [hmem, mem_elements_tagAndCommunityToSecurityMap_iff]

theorem mem_of_chosenSecurityName {nameToModelMap : NameToModelMap}
    {candidates : List SecurityEntry} {entry : SecurityEntry}
    (hchosen : chosenSecurityName securityModelID nameToModelMap candidates = .ok entry) :
    entry ∈ candidates := by
  rw [chosenSecurityName] at hchosen
  split at hchosen
  · cases hchosen
  · next chosen rest hsorted =>
    obtain rfl := Except.ok.inj hchosen
    exact LastMatch.mem_sortByKey.mp (hsorted ▸ List.mem_cons_self)

theorem exists_chosenSecurityName (securityModelID : ℤ) (nameToModelMap : NameToModelMap)
    {candidates : List SecurityEntry} {entry : SecurityEntry} (hentry : entry ∈ candidates) :
    ∃ chosen, chosenSecurityName securityModelID nameToModelMap candidates = .ok chosen := by
  rw [chosenSecurityName]
  split
  · next hsorted =>
    have hmem : entry ∈ LastMatch.sortByKey (candidateKey securityModelID nameToModelMap)
        candidates := LastMatch.mem_sortByKey.mpr hentry
    rw [hsorted] at hmem
    cases hmem
  · next chosen rest hsorted => exact ⟨chosen, rfl⟩

section LookUp

variable {transportToTagMap : TransportToTagMap} {nameToModelMap : NameToModelMap}
  (hbuild : build transportToTagAssembly (tables.targetAddrs interpreter) = .ok transportToTagMap)

include hbuild

/-- What is found is the security entry of a complete row, under a tag the source is looked up
with. -/
theorem exists_isRowOf_of_lookUp {entry : SecurityEntry}
    (hlookUp : lookUp interpreter securityModelID transportToTagMap nameToModelMap
      (communityMaps tables) communityName source = .ok entry) :
    ∃ transportTag row, IsRowOf tables communityName transportTag entry row ∧
      IsLookedUp interpreter tables source transportTag := by
  rw [lookUp] at hlookUp
  cases hcommunity : (communityMaps tables).communityToTagMap communityName with
  | none =>
    rw [hcommunity] at hlookUp
    cases hlookUp
  | some communityTags =>
    rw [hcommunity] at hlookUp
    obtain ⟨tags, htags, hlookUp⟩ := exists_of_bind_eq_ok hlookUp
    rw [← Multimap.elements_of_eq_some hcommunity] at htags
    obtain ⟨candidates, hcandidates, hmem⟩ := exists_candidates_communityMaps interpreter
      fun tag htag ↦ ((mem_tagsFor htags).mp htag).1
    rw [Multimap.elements_of_eq_some hcommunity] at htags
    simp only [hcandidates, bind, Except.bind] at hlookUp
    obtain ⟨tag, htag, row, hrow⟩ := (hmem entry).mp (mem_of_chosenSecurityName hlookUp)
    exact ⟨tag, row, hrow, (isLookedUp_iff hbuild).mpr ((mem_tagsFor htags).mp htag).2⟩

/-- A complete row whose tag the source is looked up with lets the source in. -/
theorem exists_lookUp {transportTag : Octets} {entry : SecurityEntry} {row : CommunityRow}
    (hrow : IsRowOf tables communityName transportTag entry row)
    (hlooked : IsLookedUp interpreter tables source transportTag) :
    ∃ chosen, lookUp interpreter securityModelID transportToTagMap nameToModelMap
      (communityMaps tables) communityName source = .ok chosen := by
  have htag : transportTag ∈ (communityMaps tables).communityToTagMap.elements communityName :=
    mem_elements_communityToTagMap_iff.mpr ⟨entry, row, hrow⟩
  have hsource := (isLookedUp_iff hbuild).mp hlooked
  obtain ⟨tags, htags⟩ := exists_tagsFor interpreter htag hsource
  obtain ⟨candidates, hcandidates, hmem⟩ := exists_candidates_communityMaps interpreter
    fun tag htag ↦ ((mem_tagsFor htags).mp htag).1
  have hentry : entry ∈ candidates :=
    (hmem entry).mpr ⟨transportTag, (mem_tagsFor htags).mpr ⟨htag, hsource⟩, row, hrow⟩
  obtain ⟨chosen, hchosen⟩ := exists_chosenSecurityName securityModelID nameToModelMap hentry
  obtain ⟨communityTags, hcommunity⟩ :=
    Option.isSome_iff_exists.mp (Multimap.isSome_of_mem_elements htag)
  rw [Multimap.elements_of_eq_some hcommunity] at htags
  refine ⟨chosen, ?_⟩
  rw [lookUp, hcommunity]
  simp only [htags, hcandidates, bind, Except.bind]
  exact hchosen

end LookUp

/-! ### The selection -/

/-- The lookup by a new model object, once the target addresses have a map. -/
theorem selection_eq_lookUp {transportToTagMap : TransportToTagMap}
    (hbuild : build transportToTagAssembly (tables.targetAddrs interpreter) =
      .ok transportToTagMap) :
    ∃ nameToModelMap, selection interpreter tables communityName source securityModelID =
      lookUp interpreter securityModelID transportToTagMap nameToModelMap (communityMaps tables)
        communityName source := by
  obtain ⟨nameToModelMap, hmodels⟩ : ∃ nameToModelMap,
      build nameToModelAssembly tables.targetParams = .ok nameToModelMap :=
    ⟨_, build_eq_ok_iff.mpr ⟨_, rfl, rfl⟩⟩
  refine ⟨nameToModelMap, ?_⟩
  rw [selection, com2sec_fst _ _ _ coherent_initial, com2secDecision, hbuild, hmodels,
    build_communityAssembly]
  rfl

/-- What is found is the security entry of a complete row, in tables that can be read. -/
theorem exists_isRowOf_of_selection {entry : SecurityEntry}
    (hselection : selection interpreter tables communityName source securityModelID =
      .ok entry) :
    IsReadable interpreter tables ∧ ∃ transportTag row,
      IsRowOf tables communityName transportTag entry row ∧
        IsLookedUp interpreter tables source transportTag := by
  cases hbuild : build transportToTagAssembly (tables.targetAddrs interpreter) with
  | error exception =>
    rw [selection, com2sec_fst _ _ _ coherent_initial, com2secDecision, hbuild] at hselection
    cases hselection
  | ok transportToTagMap =>
    obtain ⟨nameToModelMap, hlookUp⟩ := selection_eq_lookUp hbuild
    rw [hlookUp] at hselection
    exact ⟨isReadable_iff.mpr ⟨_, hbuild⟩, exists_isRowOf_of_lookUp hbuild hselection⟩

/-- The matching rows that are found are the complete ones the source is looked up with. -/
theorem isFound_iff {row : CommunityRow} :
    IsFound interpreter tables communityName source row ↔
      ∃ transportTag entry, IsRowOf tables communityName transportTag entry row ∧
        IsLookedUp interpreter tables source transportTag := by
  constructor
  · rintro ⟨⟨hmem, hname, transportTag, htag, hmatch⟩, hcomplete, hempty⟩
    obtain ⟨entry, hentry⟩ := Option.isSome_iff_exists.mp hcomplete
    refine ⟨transportTag, entry, ⟨hmem, hname, htag, hentry⟩, ?_⟩
    rcases hmatch with rfl | ⟨target, htarget, hsource, tagList, htagList, hword⟩
    · rcases hempty htag with hnone | ⟨target, htarget, hsource, hlist⟩
      · exact Or.inr ⟨rfl, hnone⟩
      · exact Or.inl ⟨target, htarget, hsource, mem_tagsOf_iff.mpr (Or.inl ⟨rfl, hlist⟩)⟩
    · exact Or.inl ⟨target, htarget, hsource,
        mem_tagsOf_iff.mpr (Or.inr ⟨tagList, htagList, hword⟩)⟩
  · rintro ⟨transportTag, entry, ⟨hmem, hname, htag, hentry⟩, hlooked⟩
    have hcomplete : row.securityEntry.isSome := Option.isSome_iff_exists.mpr ⟨entry, hentry⟩
    rcases hlooked with ⟨target, htarget, hsource, hfiled⟩ | ⟨rfl, hnone⟩
    · rcases mem_tagsOf_iff.mp hfiled with ⟨rfl, hlist⟩ | ⟨tagList, htagList, hword⟩
      · exact ⟨⟨hmem, hname, [], htag, Or.inl rfl⟩, hcomplete,
          fun _ ↦ Or.inr ⟨target, htarget, hsource, hlist⟩⟩
      · refine ⟨⟨hmem, hname, transportTag, htag,
          Or.inr ⟨target, htarget, hsource, tagList, htagList, hword⟩⟩, hcomplete, fun hempty ↦ ?_⟩
        exact absurd (Option.some.inj (htag.symm.trans hempty)) (ne_nil_of_mem_split hword)
    · exact ⟨⟨hmem, hname, [], htag, Or.inl rfl⟩, hcomplete, fun _ ↦ Or.inl hnone⟩

/-- A lookup accepts when the tables can be read and a matching row is found. -/
theorem exists_selection_iff :
    (∃ entry, selection interpreter tables communityName source securityModelID = .ok entry) ↔
      IsReadable interpreter tables ∧
        ∃ row, IsFound interpreter tables communityName source row := by
  constructor
  · rintro ⟨entry, hselection⟩
    obtain ⟨hreadable, transportTag, row, hrow, hlooked⟩ :=
      exists_isRowOf_of_selection hselection
    exact ⟨hreadable, row, isFound_iff.mpr ⟨transportTag, entry, hrow, hlooked⟩⟩
  · rintro ⟨hreadable, row, hfound⟩
    obtain ⟨transportToTagMap, hbuild⟩ := isReadable_iff.mp hreadable
    obtain ⟨transportTag, entry, hrow, hlooked⟩ := isFound_iff.mp hfound
    obtain ⟨nameToModelMap, hlookUp⟩ := selection_eq_lookUp hbuild
    rw [hlookUp]
    exact exists_lookUp hbuild hrow hlooked

/-- A row whose security entry is found gives its security name. -/
theorem snmpCommunitySecurityName_of_securityEntry {row : CommunityRow} {entry : SecurityEntry}
    (hentry : row.securityEntry = some entry) :
    row.snmpCommunitySecurityName = some entry.securityName := by
  rw [CommunityRow.securityEntry] at hentry
  cases hname : row.snmpCommunitySecurityName <;>
    cases hengine : row.snmpCommunityContextEngineID <;>
    cases hcontext : row.snmpCommunityContextName <;>
      simp only [hname, hengine, hcontext, bind, Option.bind, reduceCtorEq] at hentry
  cases hentry
  rfl

/-- A lookup selects a match exactly when there is no matching row, or the tables can be read and
one of the matching rows is found. -/
theorem selectsMatch_iff (interpreter : Interpreter) (tables : CommunityTables)
    (communityName : Octets) (source : TransportInformation) (securityModelID : ℤ) :
    SelectsMatch interpreter tables communityName source securityModelID ↔
      ((∃ row, IsMatch interpreter tables communityName source row) →
        IsReadable interpreter tables ∧
          ∃ row, IsFound interpreter tables communityName source row) := by
  constructor
  · intro hselects hmatch
    exact exists_selection_iff.mp (hselects.accepts_iff.mpr hmatch)
  · refine fun hfound ↦ ⟨⟨fun haccepts ↦ ?_, fun hmatch ↦
      exists_selection_iff.mpr (hfound hmatch)⟩, fun entry hselection ↦ ?_⟩
    · obtain ⟨-, row, hrow⟩ := exists_selection_iff.mp haccepts
      exact ⟨row, hrow.isMatch⟩
    · obtain ⟨-, transportTag, row, hrow, hlooked⟩ := exists_isRowOf_of_selection hselection
      exact ⟨row, (isFound_iff.mpr ⟨transportTag, entry, hrow, hlooked⟩).isMatch,
        snmpCommunitySecurityName_of_securityEntry hrow.securityEntry⟩

/-- A community for any source, and a target address that gives the source another tag. -/
def taggedTables : CommunityTables where
  snmpTargetAddrTable :=
    ⟨⟨[([1], ⟨some snmpUDPDomain, some [127, 0, 0, 1, 0, 161], some [116]⟩)], by decide⟩,
      fun _ ↦ 1⟩
  snmpTargetParamsTable := ⟨∅, fun _ ↦ 0⟩
  snmpCommunityTable :=
    ⟨⟨[([1], ⟨some [112], some [97], some [], some [], some []⟩)], by decide⟩, fun _ ↦ 1⟩

/-- The target address keeps the source from using a community that is meant for any source. -/
theorem not_selectsMatch_taggedTables :
    ¬ ∀ (interpreter : Interpreter) (tables : CommunityTables) (communityName : Octets)
        (source : TransportInformation) (securityModelID : ℤ),
      SelectsMatch interpreter tables communityName source securityModelID := by
  intro hall
  have hmatch : IsMatch .inOrder taggedTables [112] (snmpUDPDomain, .inet "127.0.0.1" 161)
      ⟨some [112], some [97], some [], some [], some []⟩ :=
    ⟨List.mem_singleton_self _, rfl, [], rfl, Or.inl rfl⟩
  have hselection : selection .inOrder taggedTables [112] (snmpUDPDomain, .inet "127.0.0.1" 161)
      1 = .error .unknownCommunityName := by decide
  obtain ⟨entry, haccepts⟩ := (hall .inOrder taggedTables [112] _ 1).accepts_iff.mpr ⟨_, hmatch⟩
  rw [hselection] at haccepts
  cases haccepts

end Pysnmp.Proto.Secmod.CommunitySelection
