import Mathlib.Data.List.Chain
import Mathlib.Tactic

/-!
# Lists with separators

A list whose separators stand apart: none at an end, no two in a row. `scan` reads a list from left
to right and remembers whether the last element was a separator, which is enough to tell
(`scan_eq_some_iff`). Writing each element as several does not change what the scan comes to, as
long as a separator stays one and the others stay something else (`scan_flatMap`).
-/

set_option autoImplicit false
set_option relaxedAutoImplicit false

namespace Pysnmp.Foundation.Separated

variable {α β : Type*} {isSeparator : α → Bool} {list rest : List α}

/-- No separator leads or ends the list, and no two are adjacent. -/
structure IsSeparated (isSeparator : α → Bool) (list : List α) : Prop where
  leading : ∀ element ∈ list.head?, isSeparator element = false
  trailing : ∀ element ∈ list.getLast?, isSeparator element = false
  adjacent : list.IsChain fun first second ↦ ¬ (isSeparator first ∧ isSeparator second)

/-- Read a list with its separators: whether the last element was one, or nothing where a separator
follows another. -/
def scan (isSeparator : α → Bool) : Bool → List α → Option Bool
  | afterSeparator, [] => some afterSeparator
  | afterSeparator, element :: rest =>
    if isSeparator element then
      if afterSeparator then none else scan isSeparator true rest
    else scan isSeparator false rest

theorem scan_append (afterSeparator : Bool) :
    scan isSeparator afterSeparator (list ++ rest) =
      (scan isSeparator afterSeparator list).bind fun last ↦ scan isSeparator last rest := by
  induction list generalizing afterSeparator with
  | nil => rfl
  | cons element list ih =>
    rw [List.cons_append, scan, scan]
    split_ifs
    · rfl
    · exact ih true
    · exact ih false

theorem scan_of_forall (hlist : ∀ element ∈ list, isSeparator element = false)
    (hne : list ≠ []) (afterSeparator : Bool) :
    scan isSeparator afterSeparator list = some false := by
  induction list generalizing afterSeparator with
  | nil => exact absurd rfl hne
  | cons element rest ih =>
    obtain ⟨helement, hrest⟩ := List.forall_mem_cons.mp hlist
    rw [scan, if_neg (Bool.eq_false_iff.mp helement)]
    cases rest with
    | nil => rfl
    | cons next rest => exact ih hrest (List.cons_ne_nil _ _) false

/-- Elements are written as several each: a separator as one, and the others without any. -/
structure IsSpelling (write : β → List α) (isWritten : β → Bool) (isSeparator : α → Bool) :
    Prop where
  separator : ∀ element, isWritten element = true →
    ∃ written, write element = [written] ∧ isSeparator written = true
  other : ∀ element, isWritten element = false →
    write element ≠ [] ∧ ∀ written ∈ write element, isSeparator written = false

section Spelling

variable {write : β → List α} {isWritten : β → Bool}

theorem scan_flatMap (hwrite : IsSpelling write isWritten isSeparator) (elements : List β)
    (afterSeparator : Bool) :
    scan isSeparator afterSeparator (elements.flatMap write) =
      scan isWritten afterSeparator elements := by
  induction elements generalizing afterSeparator with
  | nil => rfl
  | cons element rest ih =>
    rw [List.flatMap_cons, scan_append, scan]
    cases hwritten : isWritten element with
    | true =>
      obtain ⟨written, heq, hlast⟩ := hwrite.separator element hwritten
      rw [heq, scan, if_pos hlast, if_pos rfl]
      split_ifs
      · rfl
      · exact ih true
    | false =>
      obtain ⟨hne, hnone⟩ := hwrite.other element hwritten
      rw [scan_of_forall hnone hne, if_neg Bool.false_ne_true]
      exact ih false

theorem forall_mem_flatMap_iff (hwrite : IsSpelling write isWritten isSeparator)
    (elements : List β) :
    (∀ written ∈ elements.flatMap write, isSeparator written = false) ↔
      ∀ element ∈ elements, isWritten element = false := by
  simp only [List.mem_flatMap]
  constructor
  · intro hnone element hmem
    rw [Bool.eq_false_iff]
    intro hwritten
    obtain ⟨written, heq, hseparator⟩ := hwrite.separator element hwritten
    have hnot := hnone written ⟨element, hmem, heq ▸ List.mem_singleton_self written⟩
    rw [hseparator] at hnot
    exact nomatch hnot
  · rintro hnone written ⟨element, hmem, hwritten⟩
    exact (hwrite.other element (hnone element hmem)).2 written hwritten

end Spelling

/-- The scan goes through where no separator follows another, and ends with what the last element
is. -/
theorem scan_eq_some_iff {afterSeparator last : Bool} :
    scan isSeparator afterSeparator list = some last ↔
      (afterSeparator = true → ∀ element ∈ list.head?, isSeparator element = false) ∧
        (list.IsChain fun first second ↦ ¬ (isSeparator first ∧ isSeparator second)) ∧
        (list.getLast?.map isSeparator).getD afterSeparator = last := by
  induction list generalizing afterSeparator with
  | nil =>
    rw [scan, Option.some.injEq]
    exact ⟨fun heq ↦ ⟨fun _ _ hmem ↦ (nomatch hmem), List.isChain_nil, heq⟩, fun hall ↦ hall.2.2⟩
  | cons element rest ih =>
    have hhead : (∀ other ∈ (element :: rest).head?, isSeparator other = false) ↔
        isSeparator element = false := by
      simp only [List.head?_cons, Option.mem_some_iff, forall_eq']
    have hlast : ((element :: rest).getLast?.map isSeparator).getD afterSeparator =
        (rest.getLast?.map isSeparator).getD (isSeparator element) := by
      rw [List.getLast?_cons]
      cases rest.getLast? <;> rfl
    have hchain : ((element :: rest).IsChain fun first second ↦
        ¬ (isSeparator first ∧ isSeparator second)) ↔
          (isSeparator element = true → ∀ other ∈ rest.head?, isSeparator other = false) ∧
            rest.IsChain fun first second ↦ ¬ (isSeparator first ∧ isSeparator second) := by
      rw [List.isChain_cons]
      refine and_congr_left fun _ ↦ ⟨fun hall hfirst other hother ↦ ?_,
        fun hall other hother hboth ↦ ?_⟩
      · exact Bool.eq_false_iff.mpr fun hsecond ↦ hall other hother ⟨hfirst, hsecond⟩
      · exact Bool.eq_false_iff.mp (hall hboth.1 other hother) hboth.2
    rw [hhead, hchain, hlast, scan]
    cases hseparator : isSeparator element with
    | false =>
      rw [if_neg Bool.false_ne_true, ih]
      simp only [Bool.false_eq_true, false_implies, implies_true, true_and]
    | true =>
      cases afterSeparator with
      | true =>
        rw [if_pos rfl, if_pos rfl]
        exact iff_of_false (fun heq ↦ nomatch heq) fun hall ↦ nomatch hall.1 rfl
      | false =>
        rw [if_pos rfl, if_neg Bool.false_ne_true, ih]
        simp only [Bool.false_eq_true, false_implies, true_and, and_assoc]

theorem isSeparated_nil : IsSeparated isSeparator [] :=
  ⟨fun _ hmem ↦ (nomatch hmem), fun _ hmem ↦ (nomatch hmem), List.isChain_nil⟩

/-- A scan that starts as if after a separator and does not end after one. -/
theorem isSeparated_iff_scan (hne : list ≠ []) :
    IsSeparated isSeparator list ↔ scan isSeparator true list = some false := by
  rw [scan_eq_some_iff, List.getLast?_eq_some_getLast hne]
  constructor
  · intro hlist
    refine ⟨fun _ ↦ hlist.leading, hlist.adjacent, ?_⟩
    exact hlist.trailing _ (List.getLast?_eq_some_getLast hne)
  · rintro ⟨hleading, hadjacent, htrailing⟩
    refine ⟨hleading rfl, fun element hmem ↦ ?_, hadjacent⟩
    rw [List.getLast?_eq_some_getLast hne, Option.mem_some_iff] at hmem
    exact hmem ▸ htrailing

/-! ### The pieces between separators -/

theorem splitOnP_congr {isOther : α → Bool}
    (hagree : ∀ element ∈ list, isSeparator element = isOther element) :
    list.splitOnP isSeparator = list.splitOnP isOther := by
  induction list with
  | nil => rfl
  | cons element rest ih =>
    obtain ⟨helement, hrest⟩ := List.forall_mem_cons.mp hagree
    rw [List.splitOnP_cons_eq_if_modifyHead, List.splitOnP_cons_eq_if_modifyHead, helement,
      ih hrest]

/-- The pieces hold all that is no separator, and nothing else. -/
theorem exists_mem_splitOnP_iff {element : α} :
    (∃ piece ∈ list.splitOnP isSeparator, element ∈ piece) ↔
      element ∈ list ∧ isSeparator element = false := by
  induction list with
  | nil => simp
  | cons first rest ih =>
    rw [List.splitOnP_cons_eq_if_modifyHead]
    obtain ⟨piece, pieces, hpieces⟩ :=
      List.exists_cons_of_ne_nil (List.splitOnP_ne_nil isSeparator rest)
    rw [hpieces] at ih ⊢
    cases hfirst : isSeparator first with
    | true =>
      rw [if_pos rfl]
      simp only [List.mem_cons, exists_eq_or_imp, List.not_mem_nil, false_or] at ih ⊢
      rw [ih]
      refine ⟨fun hrest ↦ ⟨Or.inr hrest.1, hrest.2⟩, fun hall ↦ ⟨?_, hall.2⟩⟩
      refine hall.1.resolve_left fun heq ↦ ?_
      rw [heq, hfirst] at hall
      exact nomatch hall.2
    | false =>
      rw [if_neg Bool.false_ne_true, List.modifyHead_cons]
      simp only [List.mem_cons, exists_eq_or_imp] at ih ⊢
      rw [or_assoc, ih]
      constructor
      · rintro (rfl | hrest)
        · exact ⟨Or.inl rfl, hfirst⟩
        · exact ⟨Or.inr hrest.1, hrest.2⟩
      · rintro ⟨rfl | hrest, hnot⟩
        · exact Or.inl rfl
        · exact Or.inr ⟨hrest, hnot⟩

end Pysnmp.Foundation.Separated
