import Mathlib.Data.List.Lex
import Mathlib.Tactic

/-!
# The lexicographic order and prefixes

Lists over a linear order compare lexicographically, a proper prefix first. Two lists of which
neither is a prefix of the other differ at some position, and that decides for all their extensions
(`lt_of_lt_of_not_prefix`): the subtrees below such lists lie in the order of the lists.
-/

set_option autoImplicit false
set_option relaxedAutoImplicit false

namespace Pysnmp.Foundation.PrefixOrder

variable {α : Type*} [LinearOrder α]

theorem append_lt_append_iff {common first second : List α} :
    common ++ first < common ++ second ↔ first < second := by
  induction common with
  | nil => exact Iff.rfl
  | cons head common ih => simp [ih]

/-- A prefix comes first. -/
theorem le_of_prefix {first second : List α} (hbegins : first <+: second) : first ≤ second := by
  obtain ⟨rest, rfl⟩ := hbegins
  refine not_lt.mp fun hlt ↦ List.not_lt_nil rest ?_
  rwa [← append_lt_append_iff, List.append_nil]

theorem append_lt_append_of_not_prefix {first second : List α} (hlt : first < second)
    (hbegins : ¬ first <+: second) (rest other : List α) : first ++ rest < second ++ other := by
  induction first generalizing second with
  | nil => exact absurd List.nil_prefix hbegins
  | cons head first ih =>
    cases second with
    | nil => exact absurd hlt (List.not_lt_nil _)
    | cons otherHead second =>
      rw [List.cons_append, List.cons_append, List.cons_lt_cons_iff]
      rcases List.cons_lt_cons_iff.mp hlt with hhead | ⟨rfl, htail⟩
      · exact Or.inl hhead
      · exact Or.inr ⟨rfl, ih htail fun htailPrefix ↦
          hbegins (List.cons_prefix_cons.mpr ⟨rfl, htailPrefix⟩)⟩

/-- Extensions of a list come before those of a later list of which it is no prefix. -/
theorem lt_of_lt_of_not_prefix {first second below other : List α} (hlt : first < second)
    (hbegins : ¬ first <+: second) (hbelow : first <+: below) (hother : second <+: other) :
    below < other := by
  obtain ⟨rest, rfl⟩ := hbelow
  obtain ⟨otherRest, rfl⟩ := hother
  exact append_lt_append_of_not_prefix hlt hbegins rest otherRest

end Pysnmp.Foundation.PrefixOrder
