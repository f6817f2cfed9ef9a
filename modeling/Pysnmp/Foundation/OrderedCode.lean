import Pysnmp.Foundation.PrefixOrder

/-!
# Codes that keep the order

A code writes a word for every letter. When no word begins another and the words lie in the order of
their letters, the texts compare as the lists of letters they write do (`text_lt_text_iff`), and one
text begins another exactly when its list does (`text_prefix_text_iff`).

A text of digits below a base begins those texts that lie from it up to `successor`, which cuts the
greatest digits off its end and raises the last one left (`between_successor_iff`).
-/

set_option autoImplicit false
set_option relaxedAutoImplicit false

namespace Pysnmp.Foundation.OrderedCode

open PrefixOrder

section Code

variable {α β : Type*} [LinearOrder α] [LinearOrder β]

/-- Words in the order of their letters, none of which begins another. -/
structure IsOrdered (word : α → List β) : Prop where
  word_ne_nil : ∀ letter, word letter ≠ []
  word_lt_word : ∀ {first second}, first < second → word first < word second
  eq_of_prefix : ∀ {first second}, word first <+: word second → first = second

variable {word : α → List β}

theorem text_lt_text (hcode : IsOrdered word) {first second : List α} (hlt : first < second) :
    first.flatMap word < second.flatMap word := by
  induction first generalizing second with
  | nil =>
    cases second with
    | nil => exact absurd hlt (lt_irrefl _)
    | cons letter second =>
      rw [List.flatMap_nil, List.flatMap_cons]
      cases hword : word letter with
      | nil => exact absurd hword (hcode.word_ne_nil letter)
      | cons => exact List.nil_lt_cons _ _
  | cons letter first ih =>
    cases second with
    | nil => exact absurd hlt (List.not_lt_nil _)
    | cons other second =>
      rw [List.flatMap_cons, List.flatMap_cons]
      rcases List.cons_lt_cons_iff.mp hlt with hhead | ⟨rfl, htail⟩
      · apply append_lt_append_of_not_prefix (hcode.word_lt_word hhead)
        exact fun hbegins ↦ hhead.ne (hcode.eq_of_prefix hbegins)
      · exact append_lt_append_iff.mpr (ih htail)

theorem text_lt_text_iff (hcode : IsOrdered word) {first second : List α} :
    first.flatMap word < second.flatMap word ↔ first < second :=
  StrictMono.lt_iff_lt (f := fun letters : List α ↦ letters.flatMap word)
    fun _ _ ↦ text_lt_text hcode

theorem text_injective (hcode : IsOrdered word) :
    Function.Injective fun letters : List α ↦ letters.flatMap word :=
  StrictMono.injective fun _ _ ↦ text_lt_text hcode

theorem text_prefix_text_iff (hcode : IsOrdered word) {first second : List α} :
    first.flatMap word <+: second.flatMap word ↔ first <+: second := by
  constructor
  · intro hbegins
    induction first generalizing second with
    | nil => exact List.nil_prefix
    | cons letter first ih =>
      rw [List.flatMap_cons] at hbegins
      cases second with
      | nil =>
        have hnil := List.prefix_nil.mp hbegins
        exact absurd (List.append_eq_nil_iff.mp hnil).1 (hcode.word_ne_nil letter)
      | cons other second =>
        rw [List.flatMap_cons] at hbegins
        obtain rfl : letter = other := by
          have hword : word letter <+: word other ++ second.flatMap word :=
            (List.prefix_append _ _).trans hbegins
          rcases List.prefix_or_prefix_of_prefix hword (List.prefix_append _ _) with hle | hle
          · exact hcode.eq_of_prefix hle
          · exact (hcode.eq_of_prefix hle).symm
        exact List.cons_prefix_cons.mpr ⟨rfl, ih ((List.prefix_append_right_inj _).mp hbegins)⟩
  · rintro ⟨rest, rfl⟩
    rw [List.flatMap_append]
    exact List.prefix_append _ _

end Code

section Successor

/-- The first text after all those that a text begins: the greatest digits at its end are cut off
and the last digit left is raised. A text of greatest digits only gets one more. -/
def successor (greatest : ℕ) (text : List ℕ) : List ℕ :=
  match text.reverse.dropWhile (· == greatest) with
  | [] => text ++ [greatest]
  | last :: rest => rest.reverse ++ [last + 1]

variable {greatest : ℕ}

theorem successor_append_replicate {head : List ℕ} {last : ℕ} (hlast : last ≠ greatest)
    (count : ℕ) :
    successor greatest (head ++ last :: List.replicate count greatest) = head ++ [last + 1] := by
  have hreversed : (head ++ last :: List.replicate count greatest).reverse =
      List.replicate count greatest ++ (last :: head.reverse) := by
    simp
  have hdropped : (List.replicate count greatest ++ (last :: head.reverse)).dropWhile
      (· == greatest) = last :: head.reverse := by
    rw [List.dropWhile_append_of_pos (by simp), List.dropWhile_cons_of_neg (by simpa using hlast)]
  rw [successor, hreversed, hdropped]
  simp

/-- A text with a digit that is not the greatest, cut behind the last such digit. -/
theorem exists_eq_append_replicate {text : List ℕ} (hdigit : ∃ digit ∈ text, digit ≠ greatest) :
    ∃ head last count, last ≠ greatest ∧
      text = head ++ last :: List.replicate count greatest := by
  induction text using List.reverseRecOn with
  | nil => simp at hdigit
  | append_singleton text digit ih =>
    by_cases hgreatest : digit = greatest
    · subst hgreatest
      obtain ⟨head, last, count, hlast, rfl⟩ := ih (by
        obtain ⟨other, hmem, hne⟩ := hdigit
        refine ⟨other, ?_, hne⟩
        simpa [hne] using hmem)
      refine ⟨head, last, count + 1, hlast, ?_⟩
      rw [List.replicate_succ', List.append_assoc, List.cons_append]
    · exact ⟨text, digit, 0, hgreatest, by simp⟩

theorem replicate_prefix_of_not_lt {count : ℕ} {text : List ℕ}
    (htext : ∀ digit ∈ text, digit ≤ greatest) (hnot : ¬ text < List.replicate count greatest) :
    List.replicate count greatest <+: text := by
  induction count generalizing text with
  | zero => exact List.nil_prefix
  | succ count ih =>
    rw [List.replicate_succ] at hnot ⊢
    cases text with
    | nil => exact absurd (List.nil_lt_cons _ _) hnot
    | cons digit text =>
      obtain ⟨hdigit, hrest⟩ := List.forall_mem_cons.mp htext
      rw [List.cons_lt_cons_iff, not_or, not_lt] at hnot
      obtain rfl : digit = greatest := le_antisymm hdigit hnot.1
      exact List.cons_prefix_cons.mpr ⟨rfl, ih hrest fun hlt ↦ hnot.2 ⟨rfl, hlt⟩⟩

theorem prefix_of_between {head other : List ℕ} {last count : ℕ}
    (hother : ∀ digit ∈ other, digit ≤ greatest)
    (hnot : ¬ other < head ++ last :: List.replicate count greatest)
    (hlt : other < head ++ [last + 1]) :
    head ++ last :: List.replicate count greatest <+: other := by
  induction head generalizing other with
  | nil =>
    cases other with
    | nil => exact absurd (List.nil_lt_cons _ _) hnot
    | cons digit other =>
      obtain ⟨-, hrest⟩ := List.forall_mem_cons.mp hother
      rw [List.nil_append, List.cons_lt_cons_iff, not_or, not_lt] at hnot
      have hdigit : digit ≤ last := by
        rcases List.cons_lt_cons_iff.mp hlt with hdigit | ⟨-, htail⟩
        · exact Nat.lt_succ_iff.mp hdigit
        · exact absurd htail (List.not_lt_nil _)
      obtain rfl : digit = last := le_antisymm hdigit hnot.1
      exact List.cons_prefix_cons.mpr ⟨rfl,
        replicate_prefix_of_not_lt hrest fun hlt ↦ hnot.2 ⟨rfl, hlt⟩⟩
  | cons first head ih =>
    cases other with
    | nil => exact absurd (List.nil_lt_cons _ _) hnot
    | cons digit other =>
      obtain ⟨-, hrest⟩ := List.forall_mem_cons.mp hother
      rw [List.cons_append, List.cons_lt_cons_iff, not_or] at hnot
      rcases List.cons_lt_cons_iff.mp hlt with hdigit | ⟨rfl, htail⟩
      · exact absurd hdigit hnot.1
      · exact List.cons_prefix_cons.mpr ⟨rfl, ih hrest (fun hlt ↦ hnot.2 ⟨rfl, hlt⟩) htail⟩

/-- The texts from one up to its successor are those that it begins. -/
theorem between_successor_iff {text other : List ℕ}
    (hdigit : ∃ digit ∈ text, digit ≠ greatest) (hother : ∀ digit ∈ other, digit ≤ greatest) :
    (¬ other < text ∧ other < successor greatest text) ↔ text <+: other := by
  obtain ⟨head, last, count, hlast, rfl⟩ := exists_eq_append_replicate hdigit
  rw [successor_append_replicate hlast]
  constructor
  · rintro ⟨hnot, hlt⟩
    exact prefix_of_between hother hnot hlt
  · rintro ⟨rest, rfl⟩
    have hle : head ++ last :: List.replicate count greatest ≤ _ :=
      le_of_prefix (List.prefix_append _ rest)
    refine ⟨not_lt.mpr hle, ?_⟩
    rw [List.append_assoc, append_lt_append_iff, List.cons_append]
    exact List.cons_lt_cons_iff.mpr (Or.inl (Nat.lt_succ_self last))

end Successor

end Pysnmp.Foundation.OrderedCode
