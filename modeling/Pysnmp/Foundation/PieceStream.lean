import Mathlib.Data.List.Infix
import Mathlib.Tactic

/-!
# Lists that grow by pieces

A list grows when a function makes another piece, which is appended. The piece can be made from
the whole list (`accumulated`) or from the piece before it (`chained`). Either way what is there
stays, so the lists are the beginnings of one stream, and a beginning of a given length does not
depend on how far the list has grown. The two streams agree on their first two pieces.
-/

set_option autoImplicit false
set_option relaxedAutoImplicit false

namespace Pysnmp.Foundation.PieceStream

variable {α : Type*} (next : List α → List α) (start : List α)

/-- The list with some more pieces, each made from all that is before it. -/
def accumulated (pieces : ℕ) : List α :=
  (fun list ↦ list ++ next list)^[pieces] start

/-- The list with some more pieces, each made from the one before it. -/
def chained (pieces : ℕ) : List α :=
  (List.range (pieces + 1)).flatMap fun piece ↦ next^[piece] start

@[simp] theorem accumulated_zero : accumulated next start 0 = start :=
  rfl

theorem accumulated_succ (pieces : ℕ) :
    accumulated next start (pieces + 1) =
      accumulated next start pieces ++ next (accumulated next start pieces) :=
  Function.iterate_succ_apply' _ _ _

theorem chained_zero : chained next start 0 = start := by
  rw [chained, List.range_one, List.flatMap_singleton, Function.iterate_zero, id]

theorem chained_succ (pieces : ℕ) :
    chained next start (pieces + 1) = chained next start pieces ++ next^[pieces + 1] start := by
  rw [chained, List.range_succ, List.flatMap_append, List.flatMap_singleton]
  rfl

/-- Two pieces are the same whichever way they are made. -/
theorem chained_one : chained next start 1 = accumulated next start 1 := by
  rw [chained_succ, chained_zero, accumulated_succ, accumulated_zero]
  rfl

section Prefix

variable {next start} {fewer pieces : ℕ}

theorem accumulated_begins (hle : fewer ≤ pieces) :
    accumulated next start fewer <+: accumulated next start pieces := by
  induction pieces, hle using Nat.le_induction with
  | base => exact List.prefix_rfl
  | succ pieces _ ih =>
    rw [accumulated_succ]
    exact ih.trans (List.prefix_append _ _)

theorem chained_begins (hle : fewer ≤ pieces) :
    chained next start fewer <+: chained next start pieces := by
  induction pieces, hle using Nat.le_induction with
  | base => exact List.prefix_rfl
  | succ pieces _ ih =>
    rw [chained_succ]
    exact ih.trans (List.prefix_append _ _)

/-- A start and pieces of one length. -/
theorem length_accumulated {width : ℕ} (hstart : start.length = width)
    (hnext : ∀ list, list ≠ [] → (next list).length = width) (hwidth : 0 < width) :
    (accumulated next start pieces).length = width * (pieces + 1) := by
  induction pieces with
  | zero => rw [accumulated_zero, hstart, zero_add, mul_one]
  | succ pieces ih =>
    have hne : accumulated next start pieces ≠ [] := by
      rw [← List.length_pos_iff, ih]
      positivity
    rw [accumulated_succ, List.length_append, ih, hnext _ hne]
    ring

/-- Of two beginnings of one stream the shorter is a beginning of the longer. -/
theorem prefix_of_begins {stream : ℕ → List α} {first second : List α} {more : ℕ}
    (hgrows : ∀ {fewer pieces : ℕ}, fewer ≤ pieces → stream fewer <+: stream pieces)
    (hfirst : first <+: stream pieces) (hsecond : second <+: stream more)
    (hlength : first.length ≤ second.length) : first <+: second :=
  List.prefix_of_prefix_length_le (hfirst.trans (hgrows (le_max_left pieces more)))
    (hsecond.trans (hgrows (le_max_right pieces more))) hlength

end Prefix

end Pysnmp.Foundation.PieceStream
