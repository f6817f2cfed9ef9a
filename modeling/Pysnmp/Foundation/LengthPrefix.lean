import Mathlib.Data.List.Infix
import Mathlib.Tactic

/-!
# Words with their lengths in front

A word of numbers is told apart from what follows it by its length in front. Read from the end this
fails: the number that says how long one word is may be a letter of a longer word, and a letter of a
word may be the length of a shorter one. `counted_suffix_append_iff` has all the ways in which a
text that ends in a counted word ends in another one too.
-/

set_option autoImplicit false
set_option relaxedAutoImplicit false

namespace Pysnmp.Foundation.LengthPrefix

/-- A word after its length. -/
def counted (word : List ℕ) : List ℕ :=
  word.length :: word

theorem counted_suffix_counted_iff {word other : List ℕ} :
    counted word <:+ counted other ↔ word = other ∨ counted word <:+ other := by
  constructor
  · intro hends
    rcases List.suffix_cons_iff.mp hends with heq | hinside
    · exact Or.inl (List.cons.inj heq).2
    · exact Or.inr hinside
  · rintro (rfl | hinside)
    · exact List.suffix_rfl
    · exact hinside.trans (List.suffix_cons _ _)

/-- A text that ends in a counted word ends in another one if that is the same, or lies within the
word, or ends in the counted word itself and begins within what is before it. -/
theorem counted_suffix_append_iff {front word other : List ℕ} :
    counted word <:+ front ++ counted other ↔
      word = other ∨ counted word <:+ other ∨
        ∃ head, word = head ++ counted other ∧ word.length :: head <:+ front := by
  constructor
  · intro hends
    rcases List.suffix_or_suffix_of_suffix hends (List.suffix_append front (counted other)) with
      hshort | hlong
    · exact (counted_suffix_counted_iff.mp hshort).imp_right Or.inl
    · rcases counted_suffix_counted_iff.mp hlong with heq | ⟨head, hhead⟩
      · exact Or.inl heq.symm
      · refine Or.inr (Or.inr ⟨head, hhead.symm, ?_⟩)
        have hwhole : counted word = (word.length :: head) ++ counted other := by
          rw [List.cons_append, hhead, counted]
        rw [hwhole] at hends
        obtain ⟨before, hbefore⟩ := hends
        rw [← List.append_assoc] at hbefore
        exact ⟨before, List.append_cancel_right hbefore⟩
  · rintro (rfl | hinside | ⟨head, hhead, before, hbefore⟩)
    · exact List.suffix_append _ _
    · exact hinside.trans ((List.suffix_cons _ _).trans (List.suffix_append _ _))
    · refine ⟨before, ?_⟩
      have hwhole : counted word = (word.length :: head) ++ counted other := by
        rw [List.cons_append, ← hhead, counted]
      rw [hwhole, ← List.append_assoc, hbefore]

end Pysnmp.Foundation.LengthPrefix
