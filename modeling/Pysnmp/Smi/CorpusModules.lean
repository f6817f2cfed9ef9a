import Mathlib.Data.Finset.Sort
import Mathlib.Data.List.ReduceOption
import Pysnmp.Foundation.Dict
import Pysnmp.Foundation.LongestPrefix
import Pysnmp.Smi.Corpus

/-!
# Which module answers for an object identifier

`find_module` of `MibCorpus` and `CompositeMibCorpus` in `smi/corpus.py`, and `rank_of`. A corpus
has an index of the identifiers that modules register. Of a composite every corpus is asked before
the identifier is shortened, and modules that several corpora name at one length are ranked. The
names they have are kept in a set, whose order is not determined.

`findModule_spec`: a composite answers as a search of all indices together would.
-/

set_option autoImplicit false
set_option relaxedAutoImplicit false

namespace Pysnmp.Smi.CorpusModules

open Foundation Proto OidKey Corpus

/-! ### Corpora -/

/-- The columns of the `node` table that `rank_of` reads. -/
structure NodeColumns where
  nodeClass : String
  status : Option String

/-- A row of the `module` table with its `tier`. A revision is a date in ASCII. -/
structure ModuleRecord extends ModuleRow where
  tier : Option String
  ascii : ∀ text ∈ revision, ∀ character ∈ text.toList, character.toNat < 128

/-- A corpus with its `oid_index`. -/
structure IndexedCorpus where
  moduleRecords : List ModuleRecord
  nodeRows : List (Node NodeColumns)
  oidIndex : Dict Key String

namespace IndexedCorpus

/-- The tables without the index. -/
def tables (corpus : IndexedCorpus) : MibCorpus NodeColumns where
  moduleRows := corpus.moduleRecords.map ModuleRecord.toModuleRow
  nodeRows := corpus.nodeRows

/-- `module`. -/
def module (corpus : IndexedCorpus) (name : String) : Option ModuleRecord :=
  corpus.moduleRecords.find? fun record ↦ record.name == name

/-- `nodes_of`. -/
def nodesOf (corpus : IndexedCorpus) (module : String) : List (Node NodeColumns) :=
  LastMatch.sortByKey Node.key (corpus.nodeRows.filter fun row ↦ row.module == module)

/-- `anchor`: which module registers exactly this OID. -/
def anchor (corpus : IndexedCorpus) (oid : Oid) : Except OidKeyError (Option String) :=
  (oidKey oid).map fun key ↦ corpus.oidIndex.lookup key

/-- `find_module`: chop an arc at a time until one resolves. -/
def findModule (corpus : IndexedCorpus) (oid : Oid) : Except OidKeyError (Option String) :=
  lookupLongest corpus.anchor oid

end IndexedCorpus

/-! ### Ranks -/

/-- `TIERS`. -/
def tiers : List String := ["standard", "draft", "vendor"]

/-- `OBJECT_CLASSES`. -/
def objectClasses : List String := ["objecttype", "notificationtype"]

/-- `revision_rank`. -/
def revisionRank (revision : Option String) : ℤ :=
  let stamp := (revision.getD "").toList.take 12
  if stamp ≠ [] ∧ stamp.all Char.isDigit then -(Nat.ofDigitChars 10 stamp 0) else 0

/-- A rank: whether the module is obsolete, its tier, its revision and its name. -/
def Rank := ℕ ×ₗ ℕ ×ₗ ℤ ×ₗ String

instance : LinearOrder Rank :=
  @Prod.Lex.instLinearOrder ℕ (ℕ ×ₗ ℤ ×ₗ String) _
    (@Prod.Lex.instLinearOrder ℕ (ℤ ×ₗ String) _
      (@Prod.Lex.instLinearOrder ℤ String Int.instLinearOrder _))

/-- `best_by_corpus_rank`. -/
def bestByCorpusRank (candidates : List (String × Rank)) : Option String :=
  (candidates.argmin Prod.snd).map Prod.fst

/-! ### Composites -/

/-- An order in which sets of names are run through. -/
structure SetOrder where
  elements : Finset String → List String
  mem_elements : ∀ names name, name ∈ elements names ↔ name ∈ names

/-- Several corpora searched as one, and what the references stand for. -/
structure IndexedComposite where
  corpora : List CorpusRef
  opened : CorpusRef → IndexedCorpus
  nonempty : corpora ≠ []

namespace IndexedComposite

/-- The composite of the tables without the indices. -/
def tables (composite : IndexedComposite) : CompositeMibCorpus NodeColumns where
  corpora := composite.corpora
  opened := fun ref ↦ (composite.opened ref).tables
  nonempty := composite.nonempty

/-- `owner`. -/
def owner (composite : IndexedComposite) (module : String) : Option CorpusRef :=
  composite.tables.owner module

/-- `module`. -/
def module (composite : IndexedComposite) (name : String) : Option ModuleRecord :=
  (composite.owner name).bind fun ref ↦ (composite.opened ref).module name

/-- `rank_of`: how a module ranks for an arc it registers, lower winning. -/
def rankOf (composite : IndexedComposite) (module : String) : Rank :=
  let record := composite.module module
  let nodes := ((composite.owner module).map fun ref ↦
    (composite.opened ref).nodesOf module).getD []
  let statuses := (nodes.filter fun node ↦ node.columns.nodeClass ∈ objectClasses).map
    fun node ↦ node.columns.status
  let obsolete := if statuses ≠ [] ∧ statuses.all (· = some "obsolete") then 1 else 0
  let tier := (record.bind ModuleRecord.tier).getD ""
  let rank := if tier ∈ tiers then tiers.idxOf tier else tiers.length
  toLex (obsolete, toLex (rank,
    toLex (revisionRank (record.bind fun record ↦ record.revision), module)))

/-- `anchor`: which module registers exactly this OID, across all corpora. -/
def anchor (composite : IndexedComposite) (order : SetOrder) (oid : Oid) :
    Except OidKeyError (Option String) := do
  let found ← composite.corpora.mapM fun ref ↦ (composite.opened ref).anchor oid
  let seen := found.reduceOption.toFinset
  .ok (bestByCorpusRank ((order.elements seen).map fun name ↦ (name, composite.rankOf name)))

/-- `find_module`: which module answers for an OID, by longest prefix across all corpora. -/
def findModule (composite : IndexedComposite) (order : SetOrder) (oid : Oid) :
    Except OidKeyError (Option String) :=
  lookupLongest (composite.anchor order) oid

/-! ### Anchored modules -/

/-- Some corpus anchors the module at the OID. -/
def AnchoredAt (composite : IndexedComposite) (oid : Oid) (module : String) : Prop :=
  ∃ ref ∈ composite.corpora, (composite.opened ref).oidIndex.lookup (arcsKey oid) = some module

/-- Some corpus anchors a module at the OID. -/
def IsAnchored (composite : IndexedComposite) (oid : Oid) : Prop :=
  ∃ module, composite.AnchoredAt oid module

/-- The module of least rank at the longest anchored prefix, or none where no prefix is anchored. -/
def IsLeastAnchored (composite : IndexedComposite) (oid : Oid) : Option String → Prop
  | none => ∀ key, key ≠ [] → key <+: oid → ¬ composite.IsAnchored key
  | some module => ∃ key, IsLongestPrefix composite.IsAnchored oid key ∧
      composite.AnchoredAt key module ∧
        ∀ other, composite.AnchoredAt key other → composite.rankOf module ≤ composite.rankOf other

/-- No module is carried by two corpora. -/
def CarriedOnce (composite : IndexedComposite) : Prop :=
  ∀ module, ∀ first ∈ composite.corpora, ∀ second ∈ composite.corpora,
    module ∈ (composite.opened first).tables.modules →
      module ∈ (composite.opened second).tables.modules → first = second

end IndexedComposite

/-! ### The best of a set -/

section Best

variable {rank : String → Rank} {names : Finset String} {name : String}

/-- The name of least rank, in whatever order the set is run through. -/
theorem bestByCorpusRank_eq_some_iff (order : SetOrder) (hrank : Function.Injective rank) :
    bestByCorpusRank ((order.elements names).map fun name ↦ (name, rank name)) = some name ↔
      name ∈ names ∧ ∀ other ∈ names, rank name ≤ rank other := by
  have hmem (other : String) : (other, rank other) ∈
      (order.elements names).map (fun name ↦ (name, rank name)) ↔ other ∈ names := by
    rw [← order.mem_elements names]
    simp
  constructor
  · intro hbest
    obtain ⟨⟨found, foundRank⟩, hargmin, rfl⟩ := Option.map_eq_some_iff.mp hbest
    obtain ⟨_, hfound, heq⟩ := List.mem_map.mp (List.argmin_mem hargmin)
    obtain ⟨rfl, rfl⟩ := Prod.mk.inj heq
    refine ⟨(order.mem_elements names _).mp hfound, fun other hother ↦ ?_⟩
    exact List.le_of_mem_argmin (f := Prod.snd) ((hmem other).mpr hother) hargmin
  · rintro ⟨hname, hleast⟩
    cases hargmin : ((order.elements names).map fun name ↦ (name, rank name)).argmin Prod.snd with
    | none =>
      have hnil := List.argmin_eq_none.mp hargmin
      exact absurd (hnil ▸ (hmem name).mpr hname) List.not_mem_nil
    | some found =>
      obtain ⟨other, hother, rfl⟩ := List.mem_map.mp (List.argmin_mem hargmin)
      have hle : rank other ≤ rank name :=
        List.le_of_mem_argmin (f := Prod.snd) ((hmem name).mpr hname) hargmin
      have heq := hrank (hle.antisymm (hleast other ((order.mem_elements names _).mp hother)))
      rw [bestByCorpusRank, hargmin, Option.map_some, heq]

theorem bestByCorpusRank_eq_none_iff (order : SetOrder) :
    bestByCorpusRank ((order.elements names).map fun name ↦ (name, rank name)) = none ↔
      names = ∅ := by
  rw [bestByCorpusRank, Option.map_eq_none_iff, List.argmin_eq_none, List.map_eq_nil_iff,
    List.eq_nil_iff_forall_not_mem, Finset.eq_empty_iff_forall_notMem]
  exact forall_congr' fun name ↦ not_congr (order.mem_elements names name)

end Best

/-! ### Owners -/

section Owners

variable {α : Type} {composite other : IndexedComposite} {module : String} {ref : CorpusRef}

theorem bestByRevision_mem {candidates : List (α × Option String)} {best : α}
    (hbest : bestByRevision candidates = some best) : best ∈ candidates.map Prod.fst := by
  cases candidates with
  | nil => cases hbest
  | cons candidate others =>
    rw [bestByRevision] at hbest
    split_ifs at hbest
    · obtain ⟨found, hfound, rfl⟩ := Option.map_eq_some_iff.mp hbest
      exact List.mem_map_of_mem (List.argmax_mem hfound)
    · rw [← Option.some.inj hbest]
      exact List.mem_map_of_mem List.mem_cons_self

theorem bestByRevision_eq_none {candidates : List (α × Option String)}
    (hbest : bestByRevision candidates = none) : candidates = [] := by
  cases candidates with
  | nil => rfl
  | cons candidate others =>
    rw [bestByRevision] at hbest
    split_ifs at hbest
    exact absurd (List.argmax_eq_none.mp (Option.map_eq_none_iff.mp hbest))
      (List.cons_ne_nil _ _)

theorem carries_of_owner (howner : composite.owner module = some ref) :
    ref ∈ composite.corpora ∧ module ∈ (composite.opened ref).tables.modules := by
  obtain ⟨⟨_, _⟩, hcandidate, rfl⟩ := List.mem_map.mp (bestByRevision_mem howner)
  obtain ⟨found, hfound, heq⟩ := List.mem_map.mp hcandidate
  obtain ⟨rfl, -⟩ := Prod.mk.inj heq
  obtain ⟨hmem, hcarries⟩ := List.mem_filter.mp hfound
  exact ⟨hmem, of_decide_eq_true hcarries⟩

theorem not_carries_of_owner (howner : composite.owner module = none)
    (hmem : ref ∈ composite.corpora) : module ∉ (composite.opened ref).tables.modules := by
  intro hcarries
  have hnil := List.map_eq_nil_iff.mp (bestByRevision_eq_none howner)
  have hfiltered : ref ∈ composite.corpora.filter fun ref ↦
      module ∈ (composite.opened ref).tables.modules :=
    List.mem_filter.mpr ⟨hmem, decide_eq_true hcarries⟩
  exact absurd (hnil ▸ hfiltered : ref ∈ []) List.not_mem_nil

/-- Where no module is carried twice, the order of the corpora does not decide its owner. -/
theorem owner_eq_of_perm (honce : composite.CarriedOnce)
    (hperm : other.corpora.Perm composite.corpora) (hopened : other.opened = composite.opened)
    (module : String) : other.owner module = composite.owner module := by
  cases howner : composite.owner module with
  | none =>
    cases hother : other.owner module with
    | none => rfl
    | some ref =>
      obtain ⟨hmem, hcarries⟩ := carries_of_owner hother
      rw [hopened] at hcarries
      exact absurd hcarries (not_carries_of_owner howner (hperm.mem_iff.mp hmem))
  | some ref =>
    obtain ⟨hmem, hcarries⟩ := carries_of_owner howner
    cases hother : other.owner module with
    | none =>
      have hnot := not_carries_of_owner hother (hperm.mem_iff.mpr hmem)
      rw [hopened] at hnot
      exact absurd hcarries hnot
    | some found =>
      obtain ⟨hfound, hfoundCarries⟩ := carries_of_owner hother
      rw [hopened] at hfoundCarries
      rw [honce module found (hperm.mem_iff.mp hfound) ref hmem hfoundCarries hcarries]

theorem rankOf_eq_of_perm (honce : composite.CarriedOnce)
    (hperm : other.corpora.Perm composite.corpora) (hopened : other.opened = composite.opened)
    (module : String) : other.rankOf module = composite.rankOf module := by
  unfold IndexedComposite.rankOf IndexedComposite.module
  rw [owner_eq_of_perm honce hperm hopened, hopened]

/-- The name is the last part of a rank. -/
theorem rankOf_injective (composite : IndexedComposite) :
    Function.Injective composite.rankOf :=
  fun _ _ heq ↦ congrArg (fun rank : ℕ × ℕ × ℤ × String ↦ rank.2.2.2) heq

end Owners

/-! ### Anchors -/

section Anchors

variable {composite other : IndexedComposite} {order : SetOrder} {oid : Oid}

/-- The modules that the corpora name at a key. -/
def seenAt (composite : IndexedComposite) (key : Key) : Finset String :=
  (composite.corpora.map fun ref ↦ (composite.opened ref).oidIndex.lookup key).reduceOption.toFinset

theorem mem_seenAt {module : String} :
    module ∈ seenAt composite (arcsKey oid) ↔ composite.AnchoredAt oid module := by
  rw [seenAt, List.mem_toFinset, List.reduceOption_mem_iff, List.mem_map]
  rfl

/-- All corpora encode an OID alike, or refuse it alike. -/
theorem mapM_anchor (opened : CorpusRef → IndexedCorpus) {refs : List CorpusRef}
    (hrefs : refs ≠ []) (oid : Oid) :
    (refs.mapM fun ref ↦ (opened ref).anchor oid) =
      (oidKey oid).map fun key ↦ refs.map fun ref ↦ (opened ref).oidIndex.lookup key := by
  cases hkey : oidKey oid with
  | error error =>
    obtain ⟨ref, rest, rfl⟩ := List.exists_cons_of_ne_nil hrefs
    rw [List.mapM_cons, IndexedCorpus.anchor, hkey]
    rfl
  | ok key =>
    have hanchor (ref : CorpusRef) :
        (opened ref).anchor oid = .ok ((opened ref).oidIndex.lookup key) := by
      rw [IndexedCorpus.anchor, hkey]
      rfl
    simp only [hanchor]
    exact List.mapM_pure

theorem anchor_eq (composite : IndexedComposite) (order : SetOrder) (oid : Oid) :
    composite.anchor order oid = (oidKey oid).map fun key ↦
      bestByCorpusRank ((order.elements (seenAt composite key)).map fun name ↦
        (name, composite.rankOf name)) := by
  rw [IndexedComposite.anchor, mapM_anchor composite.opened composite.nonempty]
  cases oidKey oid with
  | error error => rfl
  | ok key => rfl

/-- Neither the order of the corpora nor that of the sets shows in an answer. -/
theorem anchor_eq_of_perm (otherOrder : SetOrder) (honce : composite.CarriedOnce)
    (hperm : other.corpora.Perm composite.corpora) (hopened : other.opened = composite.opened) :
    other.anchor otherOrder = composite.anchor order := by
  funext oid
  rw [anchor_eq, anchor_eq]
  congr 1
  funext key
  have hseen : seenAt other key = seenAt composite key := by
    rw [seenAt, seenAt, hopened]
    exact List.toFinset_eq_of_perm _ _ ((hperm.map _).filterMap _)
  have hrank : other.rankOf = composite.rankOf := funext (rankOf_eq_of_perm honce hperm hopened)
  rw [hseen, hrank]
  apply Option.ext
  intro name
  exact (bestByCorpusRank_eq_some_iff otherOrder (rankOf_injective composite)).trans
    (bestByCorpusRank_eq_some_iff order (rankOf_injective composite)).symm

/-- A single corpus is asked as if it stood alone. -/
theorem anchor_eq_of_singleton {ref : CorpusRef} (hsingle : composite.corpora = [ref]) :
    composite.anchor order = (composite.opened ref).anchor := by
  funext oid
  rw [anchor_eq, IndexedCorpus.anchor]
  congr 1
  funext key
  apply Option.ext
  intro name
  rw [bestByCorpusRank_eq_some_iff order (rankOf_injective composite)]
  have hmem (other : String) : other ∈ seenAt composite key ↔
      (composite.opened ref).oidIndex.lookup key = some other := by
    rw [seenAt, hsingle, List.mem_toFinset, List.reduceOption_mem_iff, List.map_singleton,
      List.mem_singleton, eq_comm]
  rw [hmem]
  refine and_iff_left_of_imp fun hname other hother ↦ ?_
  rw [hmem, hname] at hother
  rw [Option.some.inj hother]

end Anchors

/-! ### The search -/

section Search

variable {composite : IndexedComposite} {order : SetOrder} {oid : Oid}

/-- What the composite answers at an OID that can be encoded. -/
def answerAt (composite : IndexedComposite) (order : SetOrder) (oid : Oid) : Option String :=
  bestByCorpusRank ((order.elements (seenAt composite (arcsKey oid))).map fun name ↦
    (name, composite.rankOf name))

theorem anchor_eq_ok (hoid : WellFormed oid) :
    composite.anchor order oid = .ok (answerAt composite order oid) := by
  rw [anchor_eq, oidKey_eq_ok hoid]
  rfl

theorem answerAt_eq_some_iff {module : String} :
    answerAt composite order oid = some module ↔
      composite.AnchoredAt oid module ∧
        ∀ other, composite.AnchoredAt oid other →
          composite.rankOf module ≤ composite.rankOf other := by
  rw [answerAt, bestByCorpusRank_eq_some_iff order (rankOf_injective composite)]
  simp only [mem_seenAt]

theorem answerAt_eq_none_iff (order : SetOrder) :
    answerAt composite order oid = none ↔ ¬ composite.IsAnchored oid := by
  rw [answerAt, bestByCorpusRank_eq_none_iff order, Finset.eq_empty_iff_forall_notMem]
  simp only [mem_seenAt, IndexedComposite.IsAnchored, not_exists]

theorem isAnchored_iff_answerAt :
    composite.IsAnchored oid ↔ (answerAt composite order oid).isSome = true := by
  rw [← not_iff_not, ← answerAt_eq_none_iff order, Bool.not_eq_true,
    Option.isSome_eq_false_iff, Option.isNone_iff_eq_none]

/-- A search of the corpora is a search of all their indices together. -/
theorem exists_findModule (hoid : ∀ arc ∈ oid, arc ≤ maxArc) :
    ∃ answer, composite.findModule order oid = .ok answer ∧
      composite.IsLeastAnchored oid answer := by
  have hanchor : ∀ key, key ≠ [] → key <+: oid →
      composite.anchor order key = .ok (answerAt composite order key) :=
    fun key hne hbegins ↦ anchor_eq_ok ⟨hne, fun arc harc ↦ hoid arc (hbegins.subset harc)⟩
  rcases lookupLongest_spec hanchor with ⟨hfind, hnone⟩ | ⟨key, module, hfind, hkey, hlongest⟩
  · refine ⟨none, hfind, fun key hne hbegins ↦ ?_⟩
    exact (answerAt_eq_none_iff order).mp (hnone key hne hbegins)
  · obtain ⟨hanchored, hleast⟩ := answerAt_eq_some_iff.mp hkey
    refine ⟨some module, hfind, key, ?_, hanchored, hleast⟩
    have hsame : (fun key ↦ (answerAt composite order key).isSome = true) =
        composite.IsAnchored :=
      funext fun key ↦ propext isAnchored_iff_answerAt.symm
    exact hsame ▸ hlongest

end Search

/-- A composite answers with the module of least rank at the longest anchored prefix, in whatever
order its corpora stand if no module is in two of them; and one corpus answers as it does alone. -/
theorem findModule_spec (composite : IndexedComposite) (order : SetOrder) {oid : Oid}
    (hoid : ∀ arc ∈ oid, arc ≤ maxArc) :
    (∃ answer, composite.findModule order oid = .ok answer ∧
      composite.IsLeastAnchored oid answer) ∧
    (composite.CarriedOnce → ∀ (other : IndexedComposite) (otherOrder : SetOrder),
      other.corpora.Perm composite.corpora → other.opened = composite.opened →
        other.findModule otherOrder oid = composite.findModule order oid) ∧
    ∀ ref, composite.corpora = [ref] →
      composite.findModule order oid = (composite.opened ref).findModule oid := by
  refine ⟨exists_findModule hoid, fun honce other otherOrder hperm hopened ↦ ?_,
    fun ref hsingle ↦ ?_⟩
  · exact congrArg (lookupLongest · oid) (anchor_eq_of_perm otherOrder honce hperm hopened)
  · exact congrArg (lookupLongest · oid) (anchor_eq_of_singleton hsingle)

/-- A set of names in their own order. -/
def alphabetical : SetOrder where
  elements := fun names ↦ names.sort (· ≤ ·)
  mem_elements := fun _ _ ↦ Finset.mem_sort _

/-- A corpus that anchors a module at an OID. -/
def anchoringCorpus (module : String) (oid : Oid) : IndexedCorpus where
  moduleRecords := []
  nodeRows := []
  oidIndex := AList.singleton (arcsKey oid) module

/-- A corpus that anchors an arc, and another one that anchors an arc below it. -/
def coreAndCustomer : IndexedComposite where
  corpora := [0, 1]
  opened := fun ref ↦
    if ref = 0 then anchoringCorpus "CORE-MIB" [1, 9] else anchoringCorpus "CUSTOMER-MIB" [1, 9, 5]
  nonempty := by decide

theorem findModule_spec_coreAndCustomer :
    (∃ answer, coreAndCustomer.findModule alphabetical [1, 9, 5, 2] = .ok answer ∧
      coreAndCustomer.IsLeastAnchored [1, 9, 5, 2] answer) ∧
    (coreAndCustomer.CarriedOnce → ∀ (other : IndexedComposite) (otherOrder : SetOrder),
      other.corpora.Perm coreAndCustomer.corpora → other.opened = coreAndCustomer.opened →
        other.findModule otherOrder [1, 9, 5, 2] =
          coreAndCustomer.findModule alphabetical [1, 9, 5, 2]) ∧
    ∀ ref, coreAndCustomer.corpora = [ref] →
      coreAndCustomer.findModule alphabetical [1, 9, 5, 2] =
        (coreAndCustomer.opened ref).findModule [1, 9, 5, 2] :=
  findModule_spec coreAndCustomer alphabetical (by decide)

end Pysnmp.Smi.CorpusModules
