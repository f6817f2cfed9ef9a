import Mathlib.Tactic

/-!
# Dictionaries of sets

A dictionary of sets is filled by going through a list of rows: a row names a key and the elements
that belong to its set, or nothing at all. `file` adds one row; the set of a key that was not there
starts empty, and a key can be there with an empty set. The two rules say what has been filed in the
end: which elements a key has (`mem_elements_fileRows_iff`), and which keys are there
(`isSome_fileRows_iff`). A set is kept as the list of the elements put into it.
-/

set_option autoImplicit false
set_option relaxedAutoImplicit false

namespace Pysnmp.Foundation

/-- A dictionary of sets. -/
abbrev Multimap (κ α : Type) := κ → Option (List α)

namespace Multimap

variable {κ α Row : Type} [DecidableEq κ]

/-- The set under a key, which is empty for a key that is not there. -/
def elements (multimap : Multimap κ α) (key : κ) : List α :=
  (multimap key).getD []

/-- Add elements to the set of a key. -/
def file : Option (κ × List α) → Multimap κ α → Multimap κ α
  | none, multimap => multimap
  | some (key, added), multimap =>
    Function.update multimap key (some (multimap.elements key ++ added))

/-- Add what each row of a list says. -/
def fileRows (filing : Row → Option (κ × List α)) (rows : List Row) (multimap : Multimap κ α) :
    Multimap κ α :=
  rows.foldl (fun multimap row ↦ file (filing row) multimap) multimap

omit [DecidableEq κ] in
theorem elements_of_eq_some {multimap : Multimap κ α} {key : κ} {set : List α}
    (hkey : multimap key = some set) : multimap.elements key = set := by
  rw [elements, hkey, Option.getD_some]

omit [DecidableEq κ] in
theorem isSome_of_mem_elements {multimap : Multimap κ α} {key : κ} {element : α}
    (hmem : element ∈ multimap.elements key) : (multimap key).isSome := by
  cases hkey : multimap key with
  | none => simp [elements, hkey] at hmem
  | some _ => rfl

theorem mem_elements_file_iff {entry : Option (κ × List α)} {multimap : Multimap κ α} {key : κ}
    {element : α} :
    element ∈ (file entry multimap).elements key ↔
      element ∈ multimap.elements key ∨ ∃ added, entry = some (key, added) ∧ element ∈ added := by
  rcases entry with _ | ⟨other, added⟩
  · simp [file]
  · by_cases hkey : key = other
    · subst hkey
      simp [file, elements]
    · simp [file, elements, Function.update_of_ne hkey, Ne.symm hkey]

theorem isSome_file_iff {entry : Option (κ × List α)} {multimap : Multimap κ α} {key : κ} :
    (file entry multimap key).isSome ↔
      (multimap key).isSome ∨ ∃ added, entry = some (key, added) := by
  rcases entry with _ | ⟨other, added⟩
  · simp [file]
  · by_cases hkey : key = other
    · subst hkey
      simp [file]
    · simp [file, Function.update_of_ne hkey, Ne.symm hkey]

variable {filing : Row → Option (κ × List α)}

/-- An element of the set of a key was there before, or a row has added it. -/
theorem mem_elements_fileRows_iff {rows : List Row} {multimap : Multimap κ α} {key : κ}
    {element : α} :
    element ∈ (fileRows filing rows multimap).elements key ↔
      element ∈ multimap.elements key ∨
        ∃ row ∈ rows, ∃ added, filing row = some (key, added) ∧ element ∈ added := by
  induction rows generalizing multimap with
  | nil => simp [fileRows]
  | cons row rows ih =>
    rw [fileRows, List.foldl_cons, ← fileRows, ih, mem_elements_file_iff,
      List.exists_mem_cons_iff, or_assoc]

/-- A key was there before, or a row has brought it. -/
theorem isSome_fileRows_iff {rows : List Row} {multimap : Multimap κ α} {key : κ} :
    (fileRows filing rows multimap key).isSome ↔
      (multimap key).isSome ∨ ∃ row ∈ rows, ∃ added, filing row = some (key, added) := by
  induction rows generalizing multimap with
  | nil => simp [fileRows]
  | cons row rows ih =>
    rw [fileRows, List.foldl_cons, ← fileRows, ih, isSome_file_iff, List.exists_mem_cons_iff,
      or_assoc]

end Multimap

end Pysnmp.Foundation
