import Pysnmp.Foundation.FiniteSuccessors
import Pysnmp.Smi.Corpus

/-!
# Walking over several corpora

What a layered corpus owes a walk: `next_node` answers with a node at the least OID after the given
one at which some corpus has a node of a module it owns, walking with it visits each such OID once
and in order, the OIDs that `subtree` lists, and `node` finds something at exactly these OIDs
(`EnumeratesFrom`).

A corpus shows, of its nodes at one OID, the first by the name of its module, and the composite
passes over that OID in the corpus when another corpus owns that module. So the OIDs that are found
are those where, in some corpus, the module of the first node is owned (`LeadsAt`): nothing is lost
exactly when these are all (`enumeratesFrom_iff`).
-/

set_option autoImplicit false
set_option relaxedAutoImplicit false

namespace Pysnmp.Smi.CorpusWalk

open Foundation Proto OidKey Corpus CompositeMibCorpus

variable {κ : Type}

/-! ### What is owed -/

/-- A node of a corpus that owns its module. -/
def OwnedNode (composite : CompositeMibCorpus κ) (node : Node κ) : Prop :=
  ∃ ref ∈ composite.corpora, node ∈ (composite.opened ref).nodeRows ∧
    composite.owned ref node = true

/-- Some corpus has a node at the OID whose module that corpus owns. -/
def OwnedAt (composite : CompositeMibCorpus κ) (oid : Oid) : Prop :=
  ∃ node, OwnedNode composite node ∧ node.arcs = oid

/-- A node at the least OID after the given one among some nodes, or nothing where there is none. -/
def IsNextOf (among : Node κ → Prop) (oid : Oid) : Option (Node κ) → Prop
  | some node => among node ∧ oid < node.arcs ∧
      ∀ other, among other → oid < other.arcs → node.arcs ≤ other.arcs
  | none => ∀ other, among other → ¬ oid < other.arcs

/-- The composite enumerates its nodes from an OID on without loss. -/
structure EnumeratesFrom (composite : CompositeMibCorpus κ) (oid : Oid) : Prop where
  nextNode : ∃ answer, composite.nextNode oid = .ok answer ∧
    IsNextOf (OwnedNode composite) oid answer
  visits : ∃ nodes, Visits composite oid nodes ∧
    (nodes.map Node.arcs).Pairwise (fun first second ↦ first < second) ∧
      ∀ arcs, arcs ∈ nodes.map Node.arcs ↔ OwnedAt composite arcs ∧ oid < arcs
  subtree : ∀ root, WellFormed root → (∀ arcs, OwnedAt composite arcs → root <+: arcs) →
    ∃ nodes found, Visits composite oid nodes ∧ composite.subtree root = .ok found ∧
      ∀ arcs, arcs ∈ nodes.map Node.arcs ↔ arcs ∈ found.map Node.arcs ∧ oid < arcs
  node : ∃ answer, composite.node oid none = .ok answer ∧
    (answer.isSome = true ↔ OwnedAt composite oid)

/-- Of the nodes of the corpus at its OID, the node is the first by the name of its module. -/
def Leads (corpus : MibCorpus κ) (node : Node κ) : Prop :=
  node ∈ corpus.nodeRows ∧
    ∀ other ∈ corpus.nodeRows, other.arcs = node.arcs → node.module ≤ other.module

/-- A node that its corpus shows and owns. -/
def Shown (composite : CompositeMibCorpus κ) (ref : CorpusRef) (node : Node κ) : Prop :=
  Leads (composite.opened ref) node ∧ composite.owned ref node = true

/-- In some corpus the first node at the OID by module name is of a module that corpus owns. -/
def LeadsAt (composite : CompositeMibCorpus κ) (oid : Oid) : Prop :=
  ∃ ref ∈ composite.corpora, ∃ node, Shown composite ref node ∧ node.arcs = oid

/-- A row that leads at an OID is owned there. -/
theorem ownedAt_of_leadsAt {composite : CompositeMibCorpus κ} {oid : Oid}
    (hleads : LeadsAt composite oid) : OwnedAt composite oid := by
  obtain ⟨ref, href, node, ⟨⟨hmem, -⟩, howned⟩, harcs⟩ := hleads
  exact ⟨node, ⟨ref, href, hmem, howned⟩, harcs⟩

/-! ### One corpus -/

section Corpus

variable {corpus : MibCorpus κ} {oid : Oid} {node : Node κ}

/-- The key of a node says which OID it has. -/
@[simp] theorem key_eq_arcsKey_iff : node.key = arcsKey oid ↔ node.arcs = oid :=
  arcsKey_injective.eq_iff

/-- Keys sort as the OIDs do. -/
@[simp] theorem arcsKey_lt_key_iff : arcsKey oid < node.key ↔ oid < node.arcs :=
  arcsKey_lt_arcsKey_iff

/-- The row that is found at an OID is the one that leads there. -/
theorem leads_of_nodeAt (hnode : corpus.nodeAt (arcsKey oid) = some node) :
    Leads corpus node ∧ node.arcs = oid := by
  have hmem := List.argmin_mem hnode
  simp only [List.mem_filter, beq_iff_eq, key_eq_arcsKey_iff] at hmem
  refine ⟨⟨hmem.1, fun other hother harcs ↦ ?_⟩, hmem.2⟩
  exact List.le_of_mem_argmin (by simp [hother, harcs, hmem.2]) hnode

/-- Some row is found at the OID of every row. -/
theorem nodeAt_of_mem (hmem : node ∈ corpus.nodeRows) :
    ∃ first, corpus.nodeAt (arcsKey node.arcs) = some first := by
  cases hfirst : corpus.nodeAt (arcsKey node.arcs) with
  | none =>
    have hnil := List.argmin_eq_none.mp hfirst
    exact absurd hnil (List.ne_nil_of_mem (List.mem_filter.mpr ⟨hmem, by simp⟩))
  | some first => exact ⟨first, rfl⟩

/-- The query for the node after an OID. -/
theorem isNextOf_nodeAfter (corpus : MibCorpus κ) (oid : Oid) :
    IsNextOf (Leads corpus) oid (corpus.nodeAfter (arcsKey oid)) ∧
      ∀ node, corpus.nodeAfter (arcsKey oid) = some node →
        ∀ other ∈ corpus.nodeRows, oid < other.arcs → node.arcs ≤ other.arcs := by
  have hafter : ∀ other ∈ corpus.nodeRows, oid < other.arcs →
      other ∈ corpus.nodeRows.filter fun row ↦ arcsKey oid < row.key :=
    fun other hother hlt ↦ List.mem_filter.mpr ⟨hother, by simpa using hlt⟩
  cases hnode : corpus.nodeAfter (arcsKey oid) with
  | none =>
    have hnil := List.argmin_eq_none.mp hnode
    refine ⟨fun other hother hlt ↦ ?_, fun _ habsurd ↦ nomatch habsurd⟩
    exact List.ne_nil_of_mem (hafter other hother.1 hlt) hnil
  | some node =>
    have hmem := List.argmin_mem hnode
    simp only [List.mem_filter, decide_eq_true_eq, arcsKey_lt_key_iff] at hmem
    have hleast : ∀ other ∈ corpus.nodeRows, oid < other.arcs →
        node.place ≤ other.place :=
      fun other hother hlt ↦ List.le_of_mem_argmin (hafter other hother hlt) hnode
    have harcs : ∀ other ∈ corpus.nodeRows, oid < other.arcs → node.arcs ≤ other.arcs := by
      intro other hother hlt
      refine not_lt.mp fun hbefore ↦ ?_
      rcases Prod.Lex.toLex_le_toLex.mp (hleast other hother hlt) with hkey | ⟨hkey, -⟩
      · exact lt_asymm hbefore (arcsKey_lt_arcsKey_iff.mp hkey)
      · exact hbefore.ne (arcsKey_injective hkey).symm
    refine ⟨⟨⟨hmem.1, fun other hother heq ↦ ?_⟩, hmem.2,
      fun other hother hlt ↦ harcs other hother.1 hlt⟩, ?_⟩
    · rcases Prod.Lex.toLex_le_toLex.mp (hleast other hother (heq ▸ hmem.2)) with hkey | ⟨-, hle⟩
      · exact absurd (arcsKey_lt_arcsKey_iff.mp hkey) (heq ▸ lt_irrefl _)
      · exact hle
    · intro found hfound
      obtain rfl := Option.some.inj hfound
      exact harcs

/-- A lookup of a well-formed OID is a lookup by its key. -/
theorem node_eq_ok (hoid : WellFormed oid) :
    corpus.node oid none = .ok (corpus.nodeAt (arcsKey oid)) := by
  rw [MibCorpus.node, oidKey_eq_ok hoid]
  rfl

/-- A step from a well-formed OID is a step from its key. -/
theorem nextNode_eq_ok (hoid : WellFormed oid) :
    corpus.nextNode oid = .ok (corpus.nodeAfter (arcsKey oid)) := by
  rw [MibCorpus.nextNode, oidKey_eq_ok hoid]
  rfl

/-- Two nodes that lead at one OID are of one module. -/
theorem module_eq_of_leads {other : Node κ} (hnode : Leads corpus node)
    (hother : Leads corpus other) (harcs : node.arcs = other.arcs) :
    node.module = other.module :=
  le_antisymm (hnode.2 other hother.1 harcs.symm) (hother.2 node hnode.1 harcs)

end Corpus

/-! ### One corpus within the composite -/

section Composite

variable {composite : CompositeMibCorpus κ} {ref : CorpusRef} {oid : Oid}

/-- The object identifiers of the nodes of a corpus. -/
def places (corpus : MibCorpus κ) : Finset Oid := (corpus.nodeRows.map Node.arcs).toFinset

/-- A row stands at one of the places of its corpus. -/
theorem mem_places {corpus : MibCorpus κ} {node : Node κ} (hmem : node ∈ corpus.nodeRows) :
    node.arcs ∈ places corpus :=
  List.mem_toFinset.mpr (List.mem_map_of_mem hmem)

/-- Stepping over what the corpus does not own ends at the next node that it shows and owns. Every
turn leaves a node behind. -/
theorem stepOver_spec {turns : ℕ} (hturns : rank (places (composite.opened ref)) oid < turns) :
    ∃ answer, composite.stepOver ref turns ((composite.opened ref).nodeAfter (arcsKey oid)) =
      .ok answer ∧ IsNextOf (Shown composite ref) oid answer := by
  induction turns generalizing oid with
  | zero => exact absurd hturns (Nat.not_lt_zero _)
  | succ turns ih =>
    obtain ⟨hnext, hleast⟩ := isNextOf_nodeAfter (composite.opened ref) oid
    cases hfound : (composite.opened ref).nodeAfter (arcsKey oid) with
    | none =>
      rw [hfound] at hnext
      exact ⟨none, by rw [stepOver], fun other hother ↦ hnext other hother.1⟩
    | some found =>
      rw [hfound] at hnext
      obtain ⟨hleads, hafter, -⟩ := hnext
      by_cases howned : composite.owned ref found = true
      · refine ⟨some found, by rw [stepOver, if_pos howned], ⟨hleads, howned⟩, hafter, ?_⟩
        exact fun other hother hlt ↦ hleast found hfound other hother.1.1 hlt
      · have hrank := rank_lt_rank (mem_places hleads.1) hafter
        obtain ⟨answer, hanswer, hspec⟩ := @ih found.arcs (by omega)
        refine ⟨answer, ?_, ?_⟩
        · rw [stepOver, if_neg howned, nextNode_eq_ok found.wellFormed]
          exact hanswer
        have hskips : ∀ other, Shown composite ref other → oid < other.arcs →
            found.arcs < other.arcs := by
          intro other hother hlt
          refine lt_of_le_of_ne (hleast found hfound other hother.1.1 hlt) fun harcs ↦ howned ?_
          rw [owned, module_eq_of_leads hleads hother.1 harcs]
          exact hother.2
        cases answer with
        | none => exact fun other hother hlt ↦ hspec other hother (hskips other hother hlt)
        | some node =>
          obtain ⟨hshown, hlater, hmin⟩ := hspec
          exact ⟨hshown, hafter.trans hlater,
            fun other hother hlt ↦ hmin other hother (hskips other hother hlt)⟩

/-- A corpus has no more places than rows. -/
theorem card_places_le (corpus : MibCorpus κ) : (places corpus).card ≤ corpus.nodeRows.length := by
  calc (places corpus).card ≤ (corpus.nodeRows.map Node.arcs).length := List.toFinset_card_le _
    _ = corpus.nodeRows.length := List.length_map _

/-- The next node that a corpus shows and owns. -/
theorem nextOwned_spec (composite : CompositeMibCorpus κ) (hoid : WellFormed oid)
    (ref : CorpusRef) : ∃ answer, composite.nextOwned oid ref = .ok answer ∧
      IsNextOf (Shown composite ref) oid answer := by
  have hrank : rank (places (composite.opened ref)) oid <
      (composite.opened ref).nodeRows.length + 1 := by
    apply Nat.lt_succ_of_le
    exact (rank_le_size _ _).trans (card_places_le (composite.opened ref))
  rw [nextOwned, nextNode_eq_ok hoid]
  exact stepOver_spec hrank

/-! ### The composite -/

/-- A node that some of the corpora shows and owns. -/
def ShownBy (composite : CompositeMibCorpus κ) (refs : List CorpusRef) (node : Node κ) : Prop :=
  ∃ ref ∈ refs, Shown composite ref node

/-- The next row depends only on which rows there are. -/
theorem isNextOf_congr {among other : Node κ → Prop} {answer : Option (Node κ)}
    (hiff : ∀ node, among node ↔ other node) :
    IsNextOf among oid answer ↔ IsNextOf other oid answer := by
  have hsame : among = other := funext fun node ↦ propext (hiff node)
  rw [hsame]

/-- The earlier of two next nodes is next among both kinds. -/
theorem isNextOf_earlier {among other : Node κ → Prop} {best found : Option (Node κ)}
    (hbest : IsNextOf among oid best) (hfound : IsNextOf other oid found) :
    IsNextOf (fun node ↦ among node ∨ other node) oid (earlier best found) := by
  cases found with
  | none =>
    cases best with
    | none => exact fun node hnode ↦ hnode.elim (hbest node) (hfound node)
    | some best =>
      obtain ⟨hmem, hafter, hleast⟩ := hbest
      exact ⟨Or.inl hmem, hafter, fun node hnode hlt ↦
        hnode.elim (fun hnode ↦ hleast node hnode hlt) fun hnode ↦ absurd hlt (hfound node hnode)⟩
  | some found =>
    obtain ⟨hmem, hafter, hleast⟩ := hfound
    cases best with
    | none =>
      exact ⟨Or.inr hmem, hafter, fun node hnode hlt ↦
        hnode.elim (fun hnode ↦ absurd hlt (hbest node hnode)) fun hnode ↦ hleast node hnode hlt⟩
    | some best =>
      obtain ⟨hbestMem, hbestAfter, hbestLeast⟩ := hbest
      by_cases hbefore : found.key < best.key
      · rw [earlier, if_pos hbefore]
        have hle := (arcsKey_lt_arcsKey_iff.mp hbefore).le
        exact ⟨Or.inr hmem, hafter, fun node hnode hlt ↦
          hnode.elim (fun hnode ↦ hle.trans (hbestLeast node hnode hlt))
            fun hnode ↦ hleast node hnode hlt⟩
      · rw [earlier, if_neg hbefore]
        have hle := not_lt.mp (mt arcsKey_lt_arcsKey_iff.mpr hbefore)
        exact ⟨Or.inl hbestMem, hbestAfter, fun node hnode hlt ↦
          hnode.elim (fun hnode ↦ hbestLeast node hnode hlt)
            fun hnode ↦ hle.trans (hleast node hnode hlt)⟩

/-- The loop over the corpora keeps the earliest row found. -/
theorem foldlM_nextOwned_spec (composite : CompositeMibCorpus κ) (hoid : WellFormed oid)
    {among : Node κ → Prop} {best : Option (Node κ)} (hbest : IsNextOf among oid best)
    (refs : List CorpusRef) :
    ∃ answer, refs.foldlM (fun best ref ↦ do
        let found ← composite.nextOwned oid ref
        .ok (earlier best found)) best = (.ok answer : Except OidKeyError (Option (Node κ))) ∧
      IsNextOf (fun node ↦ among node ∨ ShownBy composite refs node) oid answer := by
  induction refs generalizing among best with
  | nil =>
    refine ⟨best, rfl, (isNextOf_congr fun node ↦ ?_).mp hbest⟩
    simp [ShownBy]
  | cons ref refs ih =>
    obtain ⟨found, hfound, hspec⟩ := nextOwned_spec composite hoid ref
    obtain ⟨answer, hanswer, hnext⟩ := ih (isNextOf_earlier hbest hspec)
    refine ⟨answer, ?_, (isNextOf_congr fun node ↦ ?_).mp hnext⟩
    · rw [List.foldlM_cons, hfound]
      exact hanswer
    · simp [ShownBy, or_assoc]

/-- `next_node` answers with the next node among those that their corpora show and own. -/
theorem nextNode_spec (composite : CompositeMibCorpus κ) (hoid : WellFormed oid) :
    ∃ answer, composite.nextNode oid = .ok answer ∧
      IsNextOf (ShownBy composite composite.corpora) oid answer := by
  have hnone : IsNextOf (fun _ : Node κ ↦ False) oid none := fun _ habsurd ↦ habsurd.elim
  obtain ⟨answer, hanswer, hnext⟩ := foldlM_nextOwned_spec composite hoid hnone composite.corpora
  exact ⟨answer, hanswer, (isNextOf_congr fun node ↦ by simp).mp hnext⟩

/-- A row leads where the composite shows one. -/
theorem leadsAt_iff {arcs : Oid} :
    LeadsAt composite arcs ↔
      ∃ node, ShownBy composite composite.corpora node ∧ node.arcs = arcs := by
  constructor
  · rintro ⟨ref, href, node, hshown, harcs⟩
    exact ⟨node, ⟨ref, href, hshown⟩, harcs⟩
  · rintro ⟨node, ⟨ref, href, hshown⟩, harcs⟩
    exact ⟨ref, href, node, hshown, harcs⟩

/-- The object identifiers of the nodes of all corpora. -/
def allPlaces (composite : CompositeMibCorpus κ) : Finset Oid :=
  (composite.corpora.flatMap fun ref ↦ (composite.opened ref).nodeRows.map Node.arcs).toFinset

/-- A row that is shown stands at one of the places of the composite. -/
theorem mem_allPlaces {node : Node κ} (hshown : ShownBy composite composite.corpora node) :
    node.arcs ∈ allPlaces composite := by
  obtain ⟨ref, href, ⟨hmem, -⟩, -⟩ := hshown
  exact List.mem_toFinset.mpr (List.mem_flatMap.mpr ⟨ref, href, List.mem_map_of_mem hmem⟩)

/-- Walking from an OID ends, and visits in order the OIDs after it where a module of a first node
is owned. -/
theorem exists_visits (composite : CompositeMibCorpus κ) (hoid : WellFormed oid) :
    ∃ nodes, Visits composite oid nodes ∧
      (nodes.map Node.arcs).Pairwise (fun first second ↦ first < second) ∧
        ∀ arcs, arcs ∈ nodes.map Node.arcs ↔ LeadsAt composite arcs ∧ oid < arcs := by
  induction hleft : rank (allPlaces composite) oid using Nat.strong_induction_on
    generalizing oid with
  | _ left ih =>
    obtain ⟨answer, hanswer, hnext⟩ := nextNode_spec composite hoid
    cases answer with
    | none =>
      refine ⟨[], .stop hanswer, List.Pairwise.nil, fun arcs ↦ ?_⟩
      simp only [List.map_nil, List.not_mem_nil, false_iff, not_and]
      intro hleads
      obtain ⟨node, hshown, rfl⟩ := leadsAt_iff.mp hleads
      exact hnext node hshown
    | some node =>
      obtain ⟨hshown, hafter, hleast⟩ := hnext
      have hfalls := hleft ▸ rank_lt_rank (mem_allPlaces hshown) hafter
      obtain ⟨nodes, hvisits, hsorted, hmem⟩ := ih _ hfalls node.wellFormed rfl
      refine ⟨node :: nodes, .step hanswer hvisits, ?_, fun arcs ↦ ?_⟩
      · rw [List.map_cons, List.pairwise_cons]
        exact ⟨fun arcs harcs ↦ ((hmem arcs).mp harcs).2, hsorted⟩
      · rw [List.map_cons, List.mem_cons, hmem]
        constructor
        · rintro (rfl | ⟨hleads, hlt⟩)
          · exact ⟨leadsAt_iff.mpr ⟨node, hshown, rfl⟩, hafter⟩
          · exact ⟨hleads, hafter.trans hlt⟩
        · rintro ⟨hleads, hlt⟩
          obtain ⟨other, hother, rfl⟩ := leadsAt_iff.mp hleads
          rcases (hleast other hother hlt).lt_or_eq with hbefore | heq
          · exact Or.inr ⟨hleads, hbefore⟩
          · exact Or.inl heq.symm

/-- A walk visits its rows in one order. -/
theorem visits_unique {nodes others : List (Node κ)} (hnodes : Visits composite oid nodes)
    (hothers : Visits composite oid others) : nodes = others := by
  induction hnodes generalizing others with
  | stop hnone =>
    cases hothers with
    | stop => rfl
    | step hsome => cases hnone.symm.trans hsome
  | step hsome _ ih =>
    cases hothers with
    | stop hnone => cases hnone.symm.trans hsome
    | step hother hrest =>
      obtain rfl := Option.some.inj (Except.ok.inj (hsome.symm.trans hother))
      rw [ih hrest]

/-- The lookup of a node finds something where a module of a first node is owned. -/
theorem firstOwnedAt_spec (composite : CompositeMibCorpus κ) (hoid : WellFormed oid)
    (refs : List CorpusRef) :
    ∃ answer, composite.firstOwnedAt oid refs = .ok answer ∧
      (answer.isSome = true ↔ ∃ node, ShownBy composite refs node ∧ node.arcs = oid) := by
  induction refs with
  | nil => exact ⟨none, rfl, by simp [ShownBy]⟩
  | cons ref refs ih =>
    obtain ⟨answer, hanswer, hiff⟩ := ih
    have hcons : ∀ node, ShownBy composite (ref :: refs) node ↔
        Shown composite ref node ∨ ShownBy composite refs node := by simp [ShownBy]
    simp only [firstOwnedAt, node_eq_ok hoid, bind, Except.bind, hcons, or_and_right, exists_or]
    cases hfound : (composite.opened ref).nodeAt (arcsKey oid) with
    | none =>
      refine ⟨answer, hanswer, hiff.trans (or_iff_right ?_).symm⟩
      rintro ⟨node, hshown, rfl⟩
      obtain ⟨first, hfirst⟩ := nodeAt_of_mem hshown.1.1
      cases hfirst.symm.trans hfound
    | some found =>
      obtain ⟨hleads, harcs⟩ := leads_of_nodeAt hfound
      by_cases howned : composite.owned ref found = true
      · refine ⟨some found, if_pos howned, iff_of_true rfl (Or.inl ?_)⟩
        exact ⟨found, ⟨hleads, howned⟩, harcs⟩
      · refine ⟨answer, (if_neg howned).trans hanswer, hiff.trans (or_iff_right ?_).symm⟩
        rintro ⟨node, hshown, rfl⟩
        apply howned
        rw [owned, module_eq_of_leads hleads hshown.1 harcs]
        exact hshown.2

/-- A composite answers a lookup where a row leads. -/
theorem node_spec (composite : CompositeMibCorpus κ) (hoid : WellFormed oid) :
    ∃ answer, composite.node oid none = .ok answer ∧
      (answer.isSome = true ↔ LeadsAt composite oid) := by
  obtain ⟨answer, hanswer, hiff⟩ := firstOwnedAt_spec composite hoid composite.corpora
  exact ⟨answer, hanswer, hiff.trans leadsAt_iff.symm⟩

/-- A subtree has the owned nodes at or below its root. -/
theorem subtree_spec (composite : CompositeMibCorpus κ) {root : Oid} (hroot : WellFormed root) :
    ∃ found, composite.subtree root = .ok found ∧
      ∀ node, node ∈ found ↔ OwnedNode composite node ∧ root <+: node.arcs := by
  have hcorpus : ∀ ref, (composite.opened ref).subtree root =
      .ok ((composite.opened ref).nodesBetween (arcsKey root) (subtreeBound (arcsKey root))) := by
    intro ref
    rw [MibCorpus.subtree, oidKey_eq_ok hroot]
    rfl
  simp only [subtree, hcorpus, bind, Except.bind]
  have hpure := List.mapM_pure (m := Except OidKeyError) (l := composite.corpora)
    (f := fun ref ↦ ((composite.opened ref).nodesBetween (arcsKey root)
      (subtreeBound (arcsKey root))).filter (composite.owned ref))
  simp only [pure, Except.pure] at hpure
  rw [hpure]
  refine ⟨_, rfl, fun node ↦ ?_⟩
  simp only [LastMatch.mem_sortByKey, List.mem_flatten, List.mem_map, exists_exists_and_eq_and,
    List.mem_filter, MibCorpus.nodesBetween, Bool.and_eq_true, decide_eq_true_eq]
  have hbetween := between_subtreeBound_iff hroot node.wellFormed
  constructor
  · rintro ⟨ref, href, ⟨hmem, hrange⟩, howned⟩
    exact ⟨⟨ref, href, hmem, howned⟩, hbetween.mp hrange⟩
  · rintro ⟨⟨ref, href, hmem, howned⟩, hbegins⟩
    exact ⟨ref, href, ⟨hmem, hbetween.mpr hbegins⟩, howned⟩

/-- The nodes are enumerated from an OID on exactly when, at every OID from there on where a corpus
has a node of a module it owns, some corpus owns the module of its first node there. -/
theorem enumeratesFrom_iff (composite : CompositeMibCorpus κ) (hoid : WellFormed oid) :
    EnumeratesFrom composite oid ↔
      ∀ arcs, oid ≤ arcs → OwnedAt composite arcs → LeadsAt composite arcs := by
  obtain ⟨nodes, hvisits, hsorted, hmem⟩ := exists_visits composite hoid
  obtain ⟨found, hfound, hsome⟩ := node_spec composite hoid
  constructor
  · intro henumerates arcs hle howned
    rcases hle.eq_or_lt with rfl | hlt
    · obtain ⟨answer, hanswer, hiff⟩ := henumerates.node
      obtain rfl := Except.ok.inj (hfound.symm.trans hanswer)
      exact hsome.mp (hiff.mpr howned)
    · obtain ⟨others, hothers, -, hiff⟩ := henumerates.visits
      obtain rfl := visits_unique hvisits hothers
      exact ((hmem arcs).mp ((hiff arcs).mpr ⟨howned, hlt⟩)).1
  · intro hleads
    have hsame : ∀ arcs, arcs ∈ nodes.map Node.arcs ↔ OwnedAt composite arcs ∧ oid < arcs := by
      intro arcs
      rw [hmem]
      exact and_congr_left fun hlt ↦ ⟨ownedAt_of_leadsAt, hleads arcs hlt.le⟩
    refine ⟨?_, ⟨nodes, hvisits, hsorted, hsame⟩, fun root hroot hbegins ↦ ?_,
      found, hfound, hsome.trans ⟨ownedAt_of_leadsAt, hleads oid le_rfl⟩⟩
    · obtain ⟨answer, hanswer, hnext⟩ := nextNode_spec composite hoid
      refine ⟨answer, hanswer, ?_⟩
      cases answer with
      | none =>
        intro node hnode hlt
        obtain ⟨other, hother, harcs⟩ := leadsAt_iff.mp (hleads _ hlt.le ⟨node, hnode, rfl⟩)
        exact hnext other hother (harcs ▸ hlt)
      | some node =>
        obtain ⟨⟨ref, href, ⟨hrow, -⟩, howned⟩, hafter, hleast⟩ := hnext
        refine ⟨⟨ref, href, hrow, howned⟩, hafter, fun other hother hlt ↦ ?_⟩
        obtain ⟨shown, hshown, harcs⟩ := leadsAt_iff.mp (hleads _ hlt.le ⟨other, hother, rfl⟩)
        rw [← harcs]
        exact hleast shown hshown (harcs ▸ hlt)
    · obtain ⟨below, hbelow, hspec⟩ := subtree_spec composite hroot
      refine ⟨nodes, below, hvisits, hbelow, fun arcs ↦ (hsame arcs).trans ?_⟩
      refine and_congr_left fun _ ↦ ⟨?_, ?_⟩
      · rintro ⟨node, hnode, rfl⟩
        exact List.mem_map_of_mem ((hspec node).mpr ⟨hnode, hbegins _ ⟨node, hnode, rfl⟩⟩)
      · intro hin
        obtain ⟨node, hnode, rfl⟩ := List.mem_map.mp hin
        exact ⟨node, ((hspec node).mp hnode).1, rfl⟩

/-- A node of a module, with nothing but its name and place. -/
def plainNode (module name : String) (arcs : Oid) (wellFormed : WellFormed arcs) : Node Unit :=
  ⟨module, name, arcs, (), wellFormed⟩

/-- One corpus with one node. -/
def soleNode : CompositeMibCorpus Unit where
  corpora := [0]
  opened _ := ⟨[⟨"A-MIB", none⟩], [plainNode "A-MIB" "aNode" [1, 3] (by decide)]⟩
  nonempty := List.cons_ne_nil _ _

theorem enumeratesFrom_soleNode : EnumeratesFrom soleNode [1] := by
  refine (enumeratesFrom_iff soleNode (by decide)).mpr fun arcs _ howned ↦ ?_
  obtain ⟨node, ⟨ref, href, hmem, hown⟩, harcs⟩ := howned
  refine ⟨ref, href, node, ⟨⟨hmem, fun other hother _ ↦ ?_⟩, hown⟩, harcs⟩
  rw [List.mem_singleton.mp hmem, List.mem_singleton.mp hother]

theorem firstTwoCorpora_ne_nil : ([0, 1] : List CorpusRef) ≠ [] :=
  List.cons_ne_nil _ _

/-- Two corpora that carry one module at different states: only the second still has the node, which
another of its modules defines as well. -/
def movedNode : CompositeMibCorpus Unit where
  corpora := [0, 1]
  opened ref :=
    if ref = 0 then ⟨[⟨"A-MIB", none⟩], []⟩
    else ⟨[⟨"A-MIB", none⟩, ⟨"B-MIB", none⟩],
      [plainNode "A-MIB" "aNode" [1, 3] (by decide), plainNode "B-MIB" "bNode" [1, 3] (by decide)]⟩
  nonempty := firstTwoCorpora_ne_nil

/-- The node of the second module is owned and never found. -/
theorem not_enumeratesFrom_movedNode : ¬ EnumeratesFrom movedNode [1, 3] := by
  intro henumerates
  have howned : OwnedAt movedNode [1, 3] :=
    ⟨plainNode "B-MIB" "bNode" [1, 3] (by decide),
      ⟨1, by decide, List.mem_cons_of_mem _ List.mem_cons_self, by decide⟩, rfl⟩
  have hoid : WellFormed [1, 3] := by decide
  obtain ⟨answer, hanswer, hiff⟩ := henumerates.node
  obtain ⟨found, hfound, hsome⟩ := node_spec movedNode hoid
  obtain rfl := Except.ok.inj (hfound.symm.trans hanswer)
  obtain ⟨ref, href, node, ⟨⟨hmem, hfirst⟩, hown⟩, -⟩ := hsome.mp (hiff.mpr howned)
  simp only [movedNode, List.mem_cons, List.not_mem_nil, or_false] at href
  rcases href with rfl | rfl
  · exact List.not_mem_nil hmem
  · rcases List.mem_pair.mp hmem with rfl | rfl
    · exact absurd hown (by decide)
    · exact absurd (hfirst _ List.mem_cons_self rfl) (by decide)

end Composite

end Pysnmp.Smi.CorpusWalk
