import Mathlib.Data.List.Basic
import Mathlib.Data.List.Infix
import Mathlib.Tactic

/-!
# The first occurrence of a word in a list, and overwriting at it

`find needle haystack` is the least position at which `needle` occurs in `haystack`, and
`overwrite haystack position patch` puts `patch` in place of as many entries from `position` on.
`find_eq_some_iff` characterizes the least occurrence, `find_le_of_occursAt` bounds it by any
other one, and `overwrite_append` computes the overwriting of a middle part.

The last section answers when a search lands where it is meant to land: in a list
`head ++ middle ++ tail` overwriting the first run of one repeated letter gives the list with
`middle` replaced exactly when the run starts at `head.length` or the patch is that run itself
(`overwrite_run_eq_iff`).
-/

set_option autoImplicit false
set_option relaxedAutoImplicit false

namespace Pysnmp.Foundation.FirstOccurrence

variable {α : Type*}

/-- A word occurs at a position when the rest of the list from there begins with it. -/
def OccursAt (needle haystack : List α) (position : ℕ) : Prop :=
  needle <+: haystack.drop position

instance [DecidableEq α] (needle haystack : List α) (position : ℕ) :
    Decidable (OccursAt needle haystack position) :=
  inferInstanceAs (Decidable (needle <+: haystack.drop position))

/-- The least position at which the needle occurs, `none` when it does not. -/
def find [DecidableEq α] (needle : List α) : List α → Option ℕ
  | [] => if needle = [] then some 0 else none
  | letter :: rest =>
    if needle <+: letter :: rest then some 0 else (find needle rest).map (· + 1)

/-- The list with the entries from a position on replaced by those of the patch. -/
def overwrite (haystack : List α) (position : ℕ) (patch : List α) : List α :=
  haystack.take position ++ patch ++ haystack.drop (position + patch.length)

/-! ### The least occurrence -/

section LeastOccurrence

variable [DecidableEq α]

/-- A found position is an occurrence, and no earlier position is one. -/
theorem occursAt_of_find {needle haystack : List α} {position : ℕ}
    (hfind : find needle haystack = some position) :
    OccursAt needle haystack position ∧
      ∀ earlier < position, ¬ OccursAt needle haystack earlier := by
  induction haystack generalizing position with
  | nil =>
    simp only [find] at hfind
    split_ifs at hfind with hempty
    obtain rfl : 0 = position := Option.some.inj hfind
    exact ⟨by simp [OccursAt, hempty], fun _ hlt ↦ absurd hlt (Nat.not_lt_zero _)⟩
  | cons letter rest ih =>
    simp only [find] at hfind
    split_ifs at hfind with hhere
    · obtain rfl : 0 = position := Option.some.inj hfind
      exact ⟨hhere, fun _ hlt ↦ absurd hlt (Nat.not_lt_zero _)⟩
    · obtain ⟨previous, hprevious, rfl⟩ := Option.map_eq_some_iff.mp hfind
      obtain ⟨hoccurs, hleast⟩ := ih hprevious
      refine ⟨hoccurs, fun earlier hlt ↦ ?_⟩
      cases earlier with
      | zero => exact hhere
      | succ earlier => exact hleast earlier (Nat.lt_of_succ_lt_succ hlt)

/-- The search fails only when the needle occurs nowhere. -/
theorem not_occursAt_of_find_eq_none {needle haystack : List α}
    (hfind : find needle haystack = none) (position : ℕ) :
    ¬ OccursAt needle haystack position := by
  induction haystack generalizing position with
  | nil =>
    simp only [find] at hfind
    split_ifs at hfind with hempty
    simpa [OccursAt] using hempty
  | cons letter rest ih =>
    simp only [find] at hfind
    split_ifs at hfind with hhere
    cases position with
    | zero => exact hhere
    | succ position => exact ih (Option.map_eq_none_iff.mp hfind) position

/-- The search returns exactly the least occurrence. -/
theorem find_eq_some_iff {needle haystack : List α} {position : ℕ} :
    find needle haystack = some position ↔
      OccursAt needle haystack position ∧
        ∀ earlier < position, ¬ OccursAt needle haystack earlier := by
  refine ⟨occursAt_of_find, fun ⟨hoccurs, hleast⟩ ↦ ?_⟩
  cases hfound : find needle haystack with
  | none => exact absurd hoccurs (not_occursAt_of_find_eq_none hfound position)
  | some found =>
    obtain ⟨hfoundOccurs, hfoundLeast⟩ := occursAt_of_find hfound
    rcases lt_trichotomy found position with hlt | heq | hlt
    · exact absurd hfoundOccurs (hleast found hlt)
    · rw [heq]
    · exact absurd hoccurs (hfoundLeast position hlt)

/-- An occurrence anywhere makes the search succeed, no later than there. -/
theorem find_le_of_occursAt {needle haystack : List α} {position : ℕ}
    (hoccurs : OccursAt needle haystack position) :
    ∃ found ≤ position, find needle haystack = some found := by
  cases hfound : find needle haystack with
  | none => exact absurd hoccurs (not_occursAt_of_find_eq_none hfound position)
  | some found =>
    refine ⟨found, not_lt.mp fun hlt ↦ ?_, rfl⟩
    exact (occursAt_of_find hfound).2 position hlt hoccurs

end LeastOccurrence

/-- The middle part of a list occurs after its head. -/
theorem occursAt_append (head middle tail : List α) :
    OccursAt middle (head ++ middle ++ tail) head.length := by
  simp [OccursAt]

/-! ### Overwriting -/

/-- Overwriting the middle part of a list by a patch of the same length replaces it. -/
theorem overwrite_append (head middle tail : List α) {patch : List α}
    (hlength : patch.length = middle.length) :
    overwrite (head ++ middle ++ tail) head.length patch = head ++ patch ++ tail := by
  simp [overwrite, hlength, List.drop_append]

/-- A list is the overwriting of itself by the word that occurs there. -/
theorem overwrite_of_occursAt {needle haystack : List α} {position : ℕ}
    (hoccurs : OccursAt needle haystack position) :
    overwrite haystack position needle = haystack := by
  obtain ⟨rest, hrest⟩ := hoccurs
  have hdrop : haystack.drop (position + needle.length) = rest := by
    rw [← List.drop_drop, ← hrest, List.drop_left]
  rw [overwrite, hdrop, List.append_assoc, hrest, List.take_append_drop]

/-- The patch occurs where it was written, when the position lies inside the list. -/
theorem occursAt_overwrite {haystack patch : List α} {position : ℕ}
    (hposition : position ≤ haystack.length) :
    OccursAt patch (overwrite haystack position patch) position := by
  have hlength : (haystack.take position).length = position := by
    rw [List.length_take, min_eq_left hposition]
  have hoccurs := occursAt_append (haystack.take position) patch
    (haystack.drop (position + patch.length))
  rwa [hlength] at hoccurs

/-- The last of two patches of the same length stays. -/
theorem overwrite_overwrite {haystack first second : List α} {position : ℕ}
    (hposition : position ≤ haystack.length) (hlength : first.length = second.length) :
    overwrite (overwrite haystack position first) position second =
      overwrite haystack position second := by
  have htake : (haystack.take position).length = position := by
    rw [List.length_take, min_eq_left hposition]
  have hmiddle := overwrite_append (haystack.take position) first
    (haystack.drop (position + first.length)) hlength.symm
  rw [htake, hlength] at hmiddle
  unfold overwrite at hmiddle ⊢
  rw [hlength]
  exact hmiddle

/-! ### Overwriting a run of one letter -/

/-- The entries of a word that occurs at a position, read from the list. -/
theorem getElem?_of_occursAt {needle haystack : List α} {position : ℕ}
    (hoccurs : OccursAt needle haystack position) {index : ℕ} (hindex : index < needle.length) :
    haystack[position + index]? = needle[index]? := by
  obtain ⟨rest, hrest⟩ := hoccurs
  rw [← List.getElem?_drop, ← hrest, List.getElem?_append_left hindex]

/-- Let a run of one letter occur in `head ++ run ++ tail` before the end of the head. Overwriting
it there gives the list with the run after the head replaced only if the patch is the run: an entry
of the patch is read either in the head, where the run stands, or as an earlier entry of the
patch. -/
theorem patch_eq_run_of_overwrite_eq {head tail patch : List α} {letter : α} {position : ℕ}
    (hearly : position < head.length)
    (hrun : OccursAt (List.replicate patch.length letter)
      (head ++ List.replicate patch.length letter ++ tail) position)
    (heq : overwrite (head ++ List.replicate patch.length letter ++ tail) position patch =
      head ++ patch ++ tail) :
    patch = List.replicate patch.length letter := by
  have hpatch : OccursAt patch (head ++ patch ++ tail) position := by
    rw [← heq]
    exact occursAt_overwrite (by simp only [List.length_append]; omega)
  have hentry : ∀ index < patch.length, patch[index]? = some letter := by
    intro index
    -- The induction is on the entry of the patch; an entry past the head is an earlier one.
    induction index using Nat.strong_induction_on with
    | _ index ih =>
      intro hindex
      rw [← getElem?_of_occursAt hpatch hindex]
      by_cases hhead : position + index < head.length
      · have hzero := getElem?_of_occursAt hrun
          (show index < (List.replicate patch.length letter).length by simpa using hindex)
        rw [List.append_assoc, List.getElem?_append_left hhead] at hzero ⊢
        rw [hzero, List.getElem?_replicate, if_pos hindex]
      · rw [List.append_assoc, List.getElem?_append_right (not_lt.mp hhead),
          List.getElem?_append_left (by omega)]
        exact ih _ (by omega) (by omega)
  refine List.eq_replicate_iff.mpr ⟨rfl, fun entry hentryMem ↦ ?_⟩
  obtain ⟨index, hindex, rfl⟩ := List.mem_iff_getElem.mp hentryMem
  have hvalue := hentry index hindex
  rw [List.getElem?_eq_getElem hindex] at hvalue
  exact Option.some.inj hvalue

/-- The same the other way round: let a word occur in `head ++ word ++ tail` before the end of the
head. Overwriting it there by a run of one letter gives the list with the run after the head only if
the word is the run. -/
theorem word_eq_run_of_overwrite_eq {head tail word : List α} {letter : α} {position : ℕ}
    (hearly : position < head.length) (hword : OccursAt word (head ++ word ++ tail) position)
    (heq : overwrite (head ++ word ++ tail) position (List.replicate word.length letter) =
      head ++ List.replicate word.length letter ++ tail) :
    word = List.replicate word.length letter := by
  have hposition : position ≤ (head ++ word ++ tail).length := by
    simp only [List.length_append]
    omega
  have hrun : OccursAt (List.replicate word.length letter)
      (head ++ List.replicate word.length letter ++ tail) position := by
    rw [← heq]
    exact occursAt_overwrite hposition
  have hback : overwrite (head ++ List.replicate word.length letter ++ tail) position word =
      head ++ word ++ tail := by
    rw [← heq, overwrite_overwrite hposition (by simp)]
    exact overwrite_of_occursAt hword
  exact patch_eq_run_of_overwrite_eq hearly hrun hback

/-- Overwriting the first run of a letter in `head ++ run ++ tail` replaces the run after the head
exactly when that is the first run, or when the patch is the run itself. -/
theorem overwrite_run_eq_iff [DecidableEq α] {head tail patch : List α} {letter : α}
    {position : ℕ}
    (hfind : find (List.replicate patch.length letter)
      (head ++ List.replicate patch.length letter ++ tail) = some position) :
    overwrite (head ++ List.replicate patch.length letter ++ tail) position patch =
        head ++ patch ++ tail ↔
      position = head.length ∨ patch = List.replicate patch.length letter := by
  obtain ⟨hoccurs, hleast⟩ := find_eq_some_iff.mp hfind
  constructor
  · intro heq
    rcases lt_or_ge position head.length with hearly | hlate
    · exact Or.inr (patch_eq_run_of_overwrite_eq hearly hoccurs heq)
    · refine Or.inl (le_antisymm (not_lt.mp fun hlt ↦ ?_) hlate)
      exact hleast _ hlt (occursAt_append _ _ _)
  · rintro (rfl | hpatch)
    · exact overwrite_append head _ tail (by simp)
    · rw [← hpatch] at hoccurs ⊢
      exact overwrite_of_occursAt hoccurs

end Pysnmp.Foundation.FirstOccurrence
