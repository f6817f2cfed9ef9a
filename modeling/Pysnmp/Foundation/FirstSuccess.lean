import Mathlib.Tactic

/-!
# The first attempt that succeeds

`firstSuccess` runs through attempts and returns the first result, passing over the exceptions it
is told to skip; any other exception ends the search, and so does the end of the list, with a final
result. Where each attempt is itself a search for the first candidate that serves (`Finds`), the
search goes through the candidates of all attempts (`firstSuccess_eq_of_finds`), and searches nest
(`finds_firstSuccess`).
-/

set_option autoImplicit false
set_option relaxedAutoImplicit false

namespace Pysnmp.Foundation

variable {ε α : Type}

/-- The first result, where the exceptions to skip are passed over. -/
def firstSuccess (skips : ε → Bool) (final : Except ε α) : List (Except ε α) → Except ε α
  | [] => final
  | .ok value :: _ => .ok value
  | .error exception :: attempts =>
    if skips exception then firstSuccess skips final attempts else .error exception

/-- Every exception of the attempt is skipped. -/
def Skipped (skips : ε → Bool) (attempt : Except ε α) : Prop :=
  ∀ exception, attempt = .error exception → skips exception = true

theorem skipped_ok (skips : ε → Bool) (value : α) : Skipped skips (.ok value : Except ε α) := by
  rintro exception ⟨⟩

/-! ### Searches for a candidate -/

section Finds

variable {β γ : Type} {skips : ε → Bool} {serves : β → Bool} {answer : β → α}

/-- An attempt that answers for the first of its candidates that serves, and raises a skipped
exception if none does. -/
def Finds (skips : ε → Bool) (serves : β → Bool) (answer : β → α) (attempt : Except ε α)
    (candidates : List β) : Prop :=
  Skipped skips attempt ∧ attempt.toOption = (candidates.find? serves).map answer

theorem finds_error {exception : ε} (hskips : skips exception = true) :
    Finds skips serves answer (.error exception) [] := by
  refine ⟨fun other hother ↦ ?_, rfl⟩
  cases hother
  exact hskips

/-- The first success of such attempts is found among the candidates of all of them. -/
theorem firstSuccess_eq_of_finds {elements : List γ} {attempt : γ → Except ε α}
    {candidates : γ → List β} {final : Except ε α}
    (hfinds : ∀ element ∈ elements,
      Finds skips serves answer (attempt element) (candidates element)) :
    firstSuccess skips final (elements.map attempt) =
      (((elements.flatMap candidates).find? serves).map (Except.ok ∘ answer)).getD final := by
  induction elements with
  | nil => rfl
  | cons element elements ih =>
    obtain ⟨hskipped, hfound⟩ := hfinds element List.mem_cons_self
    have hrest := ih fun other hother ↦ hfinds other (List.mem_cons_of_mem _ hother)
    rw [List.map_cons, List.flatMap_cons, List.find?_append]
    cases hattempt : attempt element with
    | ok value =>
      rw [hattempt] at hfound
      obtain ⟨candidate, hcandidate, hvalue⟩ := Option.map_eq_some_iff.mp hfound.symm
      rw [hcandidate, firstSuccess, ← hvalue]
      rfl
    | error exception =>
      rw [hattempt] at hfound
      rw [firstSuccess, if_pos (hskipped exception hattempt), hrest,
        Option.map_eq_none_iff.mp hfound.symm, Option.none_or]

theorem finds_firstSuccess {elements : List γ} {attempt : γ → Except ε α}
    {candidates : γ → List β} {exception : ε} (hskips : skips exception = true)
    (hfinds : ∀ element ∈ elements,
      Finds skips serves answer (attempt element) (candidates element)) :
    Finds skips serves answer (firstSuccess skips (.error exception) (elements.map attempt))
      (elements.flatMap candidates) := by
  rw [firstSuccess_eq_of_finds hfinds]
  cases hfound : (elements.flatMap candidates).find? serves with
  | none =>
    refine ⟨fun other hother ↦ ?_, by rw [hfound]; rfl⟩
    cases hother
    exact hskips
  | some candidate => exact ⟨skipped_ok skips _, by rw [hfound]; rfl⟩

end Finds

end Pysnmp.Foundation
