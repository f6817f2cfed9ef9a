import Mathlib.Data.Finset.Card
import Mathlib.Data.List.Forall2
import Mathlib.Tactic

/-!
# Walking up a finite set

In a finite set of a linear order, `rank` counts the elements after a given one. Going to a greater
element of the set lowers it, so that the sum of the ranks of a list falls where no member goes back
and one advances (`sum_rank_lt`), and a sequence of states with a falling measure comes to its end
(`exists_eq_none_of_decreasing`).
-/

set_option autoImplicit false
set_option relaxedAutoImplicit false

namespace Pysnmp.Foundation

section Rank

variable {α : Type*} [LinearOrder α] {elements : Finset α}

/-- The number of elements of the set after a given one. -/
def rank (elements : Finset α) (place : α) : ℕ :=
  (elements.filter fun element ↦ place < element).card

theorem rank_le_size (elements : Finset α) (place : α) : rank elements place ≤ elements.card :=
  Finset.card_filter_le _ _

/-- An element of the set leaves itself behind. -/
theorem rank_lt_rank {place element : α} (hmem : element ∈ elements) (hlt : place < element) :
    rank elements element < rank elements place := by
  apply Finset.card_lt_card
  rw [Finset.ssubset_iff_of_subset]
  · refine ⟨element, Finset.mem_filter.mpr ⟨hmem, hlt⟩, fun hself ↦ ?_⟩
    exact lt_irrefl element (Finset.mem_filter.mp hself).2
  · intro other hother
    obtain ⟨hin, hafter⟩ := Finset.mem_filter.mp hother
    exact Finset.mem_filter.mpr ⟨hin, hlt.trans hafter⟩

variable {β : Type*} {key : β → α} {advances : β → Prop} {places : List α} {others : List β}

/-- The members of a list come after the places of another, one by one: none goes back, and those
that advance leave elements behind. -/
def Follows (elements : Finset α) (key : β → α) (advances : β → Prop) (place : α) (other : β) :
    Prop :=
  rank elements (key other) ≤ rank elements place ∧
    (advances other → rank elements (key other) < rank elements place)

/-- What follows the members of a list that follows the places follows the places. -/
theorem forall₂_follows_trans {lasts : List β}
    (hothers : List.Forall₂ (Follows elements key advances) places others)
    (hlasts : List.Forall₂ (Follows elements key advances) (others.map key) lasts) :
    List.Forall₂ (Follows elements key advances) places lasts := by
  induction hothers generalizing lasts with
  | nil =>
    cases hlasts
    exact .nil
  | cons hhead _ ih =>
    cases hlasts with
    | cons hlast hrest =>
      refine .cons ⟨hlast.1.trans hhead.1, fun hadvances ↦ ?_⟩ (ih hrest)
      exact (hlast.2 hadvances).trans_le hhead.1

theorem sum_rank_le (hfollows : List.Forall₂ (Follows elements key advances) places others) :
    (others.map fun other ↦ rank elements (key other)).sum ≤
      (places.map (rank elements)).sum := by
  induction hfollows with
  | nil => exact le_rfl
  | cons hhead _ ih => exact Nat.add_le_add hhead.1 ih

/-- Where one member advances, the sum of the ranks falls. -/
theorem sum_rank_lt (hfollows : List.Forall₂ (Follows elements key advances) places others)
    (hadvances : ∃ other ∈ others, advances other) :
    (others.map fun other ↦ rank elements (key other)).sum <
      (places.map (rank elements)).sum := by
  induction hfollows with
  | nil =>
    obtain ⟨other, hmem, -⟩ := hadvances
    exact absurd hmem List.not_mem_nil
  | @cons place other places others hhead htail ih =>
    obtain ⟨advanced, hmem, hadvanced⟩ := hadvances
    simp only [List.map_cons, List.sum_cons]
    rcases List.mem_cons.mp hmem with rfl | hmem
    · exact Nat.add_lt_add_of_lt_of_le (hhead.2 hadvanced) (sum_rank_le htail)
    · exact Nat.add_lt_add_of_le_of_lt hhead.1 (ih ⟨advanced, hmem, hadvanced⟩)

end Rank

/-- A sequence of states ends where each step lowers a measure. -/
theorem exists_eq_none_of_decreasing {σ : Type*} (states : ℕ → Option σ) (measure : σ → ℕ)
    (hstep : ∀ index state next, states index = some state → states (index + 1) = some next →
      measure next < measure state) : ∃ index, states index = none := by
  by_contra hnever
  push Not at hnever
  choose state hstate using fun index ↦ Option.ne_none_iff_exists'.mp (hnever index)
  have hfalls : ∀ index, measure (state (index + 1)) < measure (state index) := fun index ↦
    hstep index _ _ (hstate index) (hstate (index + 1))
  have hbound : ∀ index, measure (state index) + index ≤ measure (state 0) := by
    intro index
    induction index with
    | zero => exact le_rfl
    | succ index ih =>
      have hnext := hfalls index
      omega
  have hlast := hbound (measure (state 0) + 1)
  omega

end Pysnmp.Foundation
