import Mathlib.Data.List.Sort
import Mathlib.Tactic

/-!
# Bisection

`bisect` finds the place in a sorted list behind the elements whose key is not greater than a
target, by halving the part of the list that is left. `Separates` is the invariant of the loop: what
lies before the part is not greater, what lies behind it is. In a sorted list the element at the
place found is the first one whose key is greater (`getElem?_bisect`).
-/

set_option autoImplicit false
set_option relaxedAutoImplicit false

namespace Pysnmp.Foundation.Bisect

variable {α κ : Type*} [LinearOrder κ]

/-- The loop over the part of the list from `lo` on and before `hi`. -/
def bisectLoop (key : α → κ) (elements : List α) (target : κ) (lo hi : ℕ)
    (hhi : hi ≤ elements.length) : ℕ :=
  if hlt : lo < hi then
    let mid := (lo + hi) / 2
    if target < key (elements.get ⟨mid, by omega⟩) then
      bisectLoop key elements target lo mid (by omega)
    else
      bisectLoop key elements target (mid + 1) hi hhi
  else
    lo
termination_by hi - lo

/-- The place behind the elements whose key is not greater than the target. -/
def bisect (key : α → κ) (elements : List α) (target : κ) : ℕ :=
  bisectLoop key elements target 0 elements.length le_rfl

/-- Before `lo` no key is greater than the target, from `hi` on every key is. -/
def Separates (key : α → κ) (elements : List α) (target : κ) (lo hi : ℕ) : Prop :=
  ∀ (index : ℕ) (hindex : index < elements.length),
    (index < lo → key (elements.get ⟨index, hindex⟩) ≤ target) ∧
      (hi ≤ index → target < key (elements.get ⟨index, hindex⟩))

variable {key : α → κ} {elements : List α} {target : κ}

theorem key_get_le (hsorted : elements.Pairwise fun first second ↦ key first ≤ key second)
    {first second : ℕ} (hle : first ≤ second) (hsecond : second < elements.length) :
    key (elements.get ⟨first, hle.trans_lt hsecond⟩) ≤ key (elements.get ⟨second, hsecond⟩) := by
  rcases hle.eq_or_lt with rfl | hlt
  · exact le_rfl
  · exact List.pairwise_iff_get.mp hsorted _ _ hlt

/-- The loop narrows the part to the place that separates the list. -/
theorem separates_bisectLoop (hsorted : elements.Pairwise fun first second ↦ key first ≤ key second)
    {lo hi : ℕ} (hhi : hi ≤ elements.length) (hlohi : lo ≤ hi)
    (hseparates : Separates key elements target lo hi) :
    Separates key elements target (bisectLoop key elements target lo hi hhi)
      (bisectLoop key elements target lo hi hhi) := by
  fun_induction bisectLoop key elements target lo hi hhi with
  | case1 lo hi hhi hlt mid hgreater ih =>
    refine ih (by omega) fun index hindex ↦ ⟨(hseparates index hindex).1, fun hmid ↦ ?_⟩
    exact hgreater.trans_le (key_get_le hsorted hmid hindex)
  | case2 lo hi hhi hlt mid hgreater ih =>
    refine ih (by omega) fun index hindex ↦ ⟨fun hmid ↦ ?_, (hseparates index hindex).2⟩
    exact (key_get_le hsorted (Nat.le_of_lt_succ hmid) (by omega)).trans (not_lt.mp hgreater)
  | case3 lo hi hhi hlt =>
    obtain rfl : lo = hi := by omega
    exact hseparates

/-- The element at the place found is the first whose key is greater than the target. -/
theorem getElem?_bisect (hsorted : elements.Pairwise fun first second ↦ key first ≤ key second) :
    elements[bisect key elements target]? = elements.find? fun element ↦ target < key element := by
  have hseparates : Separates key elements target _ _ :=
    separates_bisectLoop hsorted le_rfl (Nat.zero_le _) fun index hindex ↦
      ⟨fun hlt ↦ absurd hlt (Nat.not_lt_zero _), fun hle ↦ absurd hindex (Nat.not_lt.mpr hle)⟩
  rw [← bisect] at hseparates
  cases hplace : elements[bisect key elements target]? with
  | none =>
    refine (List.find?_eq_none.mpr fun element helement ↦ ?_).symm
    obtain ⟨index, hindex, rfl⟩ := List.mem_iff_getElem.mp helement
    have hbefore : index < bisect key elements target :=
      hindex.trans_le (List.getElem?_eq_none_iff.mp hplace)
    simpa using ((hseparates index hindex).1 hbefore)
  | some element =>
    obtain ⟨hindex, rfl⟩ := List.getElem?_eq_some_iff.mp hplace
    refine (List.find?_eq_some_iff_getElem.mpr ⟨?_, _, hindex, rfl, fun index hbefore ↦ ?_⟩).symm
    · simpa using (hseparates _ hindex).2 le_rfl
    · simpa using (hseparates index (hbefore.trans hindex)).1 hbefore

end Pysnmp.Foundation.Bisect
