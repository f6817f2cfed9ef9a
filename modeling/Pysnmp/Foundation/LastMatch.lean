import Mathlib.Data.List.Sort
import Mathlib.Data.Prod.Lex
import Mathlib.Tactic

/-!
# Loops in which the last match decides

A loop over a list that lets each matching element override the decision so far returns the value
of the last match (`foldl_override`). In a list sorted strictly by a key the last match is the
matching element with the greatest key (`getLast?_filter_eq_some_iff`).

The list such a loop runs over is often itself the result of a stable sort. When the list was
strictly sorted by some rank before, sorting it stably by a key leaves it strictly sorted by the
key first and the rank second (`pairwise_sortByKey`).
-/

set_option autoImplicit false
set_option relaxedAutoImplicit false

namespace Pysnmp.Foundation.LastMatch

variable {α β κ ρ : Type*} [LinearOrder κ] [LinearOrder ρ]

/-- A matching element of the list whose key is the greatest among the matching ones. -/
def IsGreatestMatch (key : α → κ) (isMatch : α → Bool) (elements : List α) (element : α) : Prop :=
  element ∈ elements ∧ isMatch element = true ∧
    ∀ other ∈ elements, isMatch other = true → key other ≤ key element

/-- The list sorted by a key, elements of equal keys in the order they had. -/
def sortByKey (key : α → κ) (elements : List α) : List α :=
  elements.insertionSort fun first second ↦ key first ≤ key second

@[simp] theorem mem_sortByKey {key : α → κ} {elements : List α} {element : α} :
    element ∈ sortByKey key elements ↔ element ∈ elements :=
  List.mem_insertionSort _

theorem pairwise_le_sortByKey (key : α → κ) (elements : List α) :
    (sortByKey key elements).Pairwise fun first second ↦ key first ≤ key second := by
  have htotal : Std.Total fun first second : α ↦ key first ≤ key second :=
    ⟨fun first second ↦ le_total (key first) (key second)⟩
  have htrans : IsTrans α fun first second ↦ key first ≤ key second := ⟨fun _ _ _ ↦ le_trans⟩
  exact List.pairwise_insertionSort _ elements

/-- Sorting the images sorts the elements. -/
theorem sortByKey_map {γ : Type*} (image : γ → α) (key : α → κ) (elements : List γ) :
    sortByKey key (elements.map image) = (sortByKey (key ∘ image) elements).map image := by
  rw [sortByKey, sortByKey]
  exact (List.map_insertionSort (fun first second ↦ key (image first) ≤ key (image second))
    (fun first second ↦ key first ≤ key second) image elements fun _ _ _ _ ↦ Iff.rfl).symm

/-! ### Stable sorting -/

variable {key : α → κ} {rank : α → ρ}

/-- Inserting, in front of the elements whose key is not smaller, an element of smaller rank than
all others. -/
theorem pairwise_orderedInsert {element : α} {elements : List α}
    (hsorted : elements.Pairwise fun first second ↦
      toLex (key first, rank first) < toLex (key second, rank second))
    (hrank : ∀ other ∈ elements, rank element < rank other) :
    (elements.orderedInsert (fun first second ↦ key first ≤ key second) element).Pairwise
      fun first second ↦ toLex (key first, rank first) < toLex (key second, rank second) := by
  induction elements with
  | nil => simp
  | cons head tail ih =>
    obtain ⟨hhead, htail⟩ := List.pairwise_cons.mp hsorted
    rw [List.orderedInsert_cons]
    split_ifs with hkey
    · have hfirst : toLex (key element, rank element) < toLex (key head, rank head) := by
        rw [Prod.Lex.toLex_lt_toLex]
        exact hkey.lt_or_eq.imp_right fun heq ↦ ⟨heq, hrank head List.mem_cons_self⟩
      refine List.pairwise_cons.mpr ⟨fun other hother ↦ ?_, hsorted⟩
      rcases List.mem_cons.mp hother with rfl | hother
      · exact hfirst
      · exact hfirst.trans (hhead other hother)
    · refine List.pairwise_cons.mpr ⟨fun other hother ↦ ?_,
        ih htail fun other hother ↦ hrank other (List.mem_cons_of_mem _ hother)⟩
      rcases (List.mem_orderedInsert _).mp hother with rfl | hother
      · exact Prod.Lex.toLex_lt_toLex.mpr (Or.inl (not_le.mp hkey))
      · exact hhead other hother

/-- A stable sort by a key of a list strictly sorted by a rank. -/
theorem pairwise_sortByKey {elements : List α}
    (hrank : elements.Pairwise fun first second ↦ rank first < rank second) :
    (sortByKey key elements).Pairwise fun first second ↦
      toLex (key first, rank first) < toLex (key second, rank second) := by
  induction elements with
  | nil => exact List.Pairwise.nil
  | cons head tail ih =>
    obtain ⟨hhead, htail⟩ := List.pairwise_cons.mp hrank
    exact pairwise_orderedInsert (ih htail) fun other hother ↦
      hhead other (mem_sortByKey.mp hother)

/-! ### The last match -/

variable {isMatch : α → Bool}

/-- A loop in which each match overrides the decision returns the value of the last match. -/
theorem foldl_override (isMatch : α → Bool) (value : α → β) (initial : β) (elements : List α) :
    elements.foldl (fun decision element ↦ if isMatch element then value element else decision)
        initial =
      ((elements.filter isMatch).getLast?.map value).getD initial := by
  induction elements generalizing initial with
  | nil => rfl
  | cons element rest ih =>
    rw [List.foldl_cons, ih]
    by_cases hmatch : isMatch element
    · rw [if_pos hmatch, List.filter_cons_of_pos hmatch, List.getLast?_cons, Option.map_some,
        Option.getD_some, Option.getD_map]
    · rw [if_neg hmatch, List.filter_cons_of_neg hmatch]

/-- In a list sorted by a key the last match is a match with the greatest key. -/
theorem isGreatestMatch_of_getLast?_filter {elements : List α}
    (hsorted : elements.Pairwise fun first second ↦ key first ≤ key second) {element : α}
    (hlast : (elements.filter isMatch).getLast? = some element) :
    IsGreatestMatch key isMatch elements element := by
  have hfiltered := hsorted.filter isMatch
  obtain ⟨initial, hsplit⟩ := List.getLast?_eq_some_iff.mp hlast
  have hmem : element ∈ elements.filter isMatch := List.mem_of_getLast? hlast
  refine ⟨(List.mem_filter.mp hmem).1, (List.mem_filter.mp hmem).2, fun other hother hmatch ↦ ?_⟩
  have hotherMem : other ∈ elements.filter isMatch := List.mem_filter.mpr ⟨hother, hmatch⟩
  rw [hsplit] at hotherMem hfiltered
  rcases List.mem_append.mp hotherMem with hinitial | hsingle
  · exact (List.pairwise_append.mp hfiltered).2.2 other hinitial element List.mem_cons_self
  · rw [List.mem_singleton.mp hsingle]

/-- In a list strictly sorted by a key the last match is the match with the greatest key. -/
theorem getLast?_filter_eq_some_iff {elements : List α}
    (hsorted : elements.Pairwise fun first second ↦ key first < key second) {element : α} :
    (elements.filter isMatch).getLast? = some element ↔
      IsGreatestMatch key isMatch elements element := by
  have hfiltered := hsorted.filter isMatch
  constructor
  · exact isGreatestMatch_of_getLast?_filter (hsorted.imp le_of_lt)
  · rintro ⟨hmem, hmatch, hgreatest⟩
    have hfilterMem : element ∈ elements.filter isMatch := List.mem_filter.mpr ⟨hmem, hmatch⟩
    obtain ⟨last, hlast⟩ := Option.ne_none_iff_exists'.mp
      (mt List.getLast?_eq_none_iff.mp (List.ne_nil_of_mem hfilterMem))
    obtain ⟨initial, hsplit⟩ := List.getLast?_eq_some_iff.mp hlast
    rw [hlast]
    have hlastMem := List.mem_filter.mp (List.mem_of_getLast? hlast)
    rw [hsplit] at hfilterMem hfiltered
    rcases List.mem_append.mp hfilterMem with hinitial | hsingle
    · have hlt := (List.pairwise_append.mp hfiltered).2.2 element hinitial last
        List.mem_cons_self
      exact absurd (hgreatest last hlastMem.1 hlastMem.2) (not_le.mpr hlt)
    · rw [List.mem_singleton.mp hsingle]

/-- In a list strictly sorted by the key there is one greatest match at most. -/
theorem IsGreatestMatch.eq {elements : List α} {first second : α}
    (hfirst : IsGreatestMatch key isMatch elements first)
    (hsecond : IsGreatestMatch key isMatch elements second)
    (hsorted : elements.Pairwise fun first second ↦ key first < key second) : first = second :=
  Option.some.inj (((getLast?_filter_eq_some_iff hsorted).mpr hfirst).symm.trans
    ((getLast?_filter_eq_some_iff hsorted).mpr hsecond))

/-- There is a greatest match as soon as there is a match. -/
theorem exists_isGreatestMatch {elements : List α} {element : α} (hmem : element ∈ elements)
    (hmatch : isMatch element = true) :
    ∃ greatest, IsGreatestMatch key isMatch elements greatest := by
  have hfilterMem : element ∈ elements.filter isMatch := List.mem_filter.mpr ⟨hmem, hmatch⟩
  cases hgreatest : (elements.filter isMatch).argmax key with
  | none => exact absurd (List.argmax_eq_none.mp hgreatest) (List.ne_nil_of_mem hfilterMem)
  | some greatest =>
    have hgreatestMem := List.mem_filter.mp (List.argmax_mem hgreatest)
    refine ⟨greatest, hgreatestMem.1, hgreatestMem.2, fun other hother hotherMatch ↦ ?_⟩
    exact List.le_of_mem_argmax (List.mem_filter.mpr ⟨hother, hotherMatch⟩) hgreatest

end Pysnmp.Foundation.LastMatch
