import Mathlib.Tactic

/-!
# Repeating a list without end

`repeated block` is the infinite repetition of a list, as a function of the position, and
`segment stream start count` a stretch of such a function. A list that is itself some copies of
another repeats to the same function (`repeated_flatten_replicate`). A stretch that starts inside
the list and does not go beyond the end of the next copy is one slice of the list or two
(`segment_eq_slice`, `segment_eq_slice_append`), and a stretch depends on its start only up to whole
copies (`segment_mod`).
-/

set_option autoImplicit false
set_option relaxedAutoImplicit false

namespace Pysnmp.Foundation.Repetition

variable {α : Type*}

/-- The list repeated without end. -/
def repeated (block : List α) (hblock : block ≠ []) (position : ℕ) : α :=
  block.get ⟨position % block.length, Nat.mod_lt _ (List.length_pos_iff.mpr hblock)⟩

/-- The elements from a position on. -/
def segment (stream : ℕ → α) (start count : ℕ) : List α :=
  (List.range count).map fun offset ↦ stream (start + offset)

/-- `elements[start:stop]`. -/
def slice (elements : List α) (start stop : ℕ) : List α :=
  (elements.take stop).drop start

@[simp] theorem segment_zero (stream : ℕ → α) (start : ℕ) : segment stream start 0 = [] :=
  rfl

@[simp] theorem length_segment (stream : ℕ → α) (start count : ℕ) :
    (segment stream start count).length = count := by
  rw [segment, List.length_map, List.length_range]

theorem segment_add (stream : ℕ → α) (start first second : ℕ) :
    segment stream start (first + second) =
      segment stream start first ++ segment stream (start + first) second := by
  simp only [segment, List.range_add, List.map_append, List.map_map, Function.comp_def, add_assoc]

section Repeated

variable {block : List α} (hblock : block ≠ [])

theorem repeated_of_lt {position : ℕ} (hlt : position < block.length) :
    repeated block hblock position = block.get ⟨position, hlt⟩ := by
  have hmod : position % block.length = position := Nat.mod_eq_of_lt hlt
  simp only [repeated, hmod]

theorem repeated_mod (position : ℕ) :
    repeated block hblock (position % block.length) = repeated block hblock position := by
  simp only [repeated, Nat.mod_mod]

theorem repeated_eq_of_mod_eq {first second : ℕ}
    (hmod : first % block.length = second % block.length) :
    repeated block hblock first = repeated block hblock second := by
  rw [← repeated_mod, hmod, repeated_mod]

/-- A stretch depends on its start up to whole copies of the list. -/
theorem segment_mod (start count : ℕ) :
    segment (repeated block hblock) (start % block.length) count =
      segment (repeated block hblock) start count := by
  refine List.map_congr_left fun offset _ ↦ ?_
  exact repeated_eq_of_mod_eq hblock (Nat.mod_add_mod start block.length offset)

/-- A stretch inside the list is a slice of it. -/
theorem segment_eq_slice {start stop : ℕ} (hstart : start ≤ stop) (hstop : stop ≤ block.length) :
    segment (repeated block hblock) start (stop - start) = slice block start stop := by
  apply List.ext_getElem
  · rw [length_segment, slice, List.length_drop, List.length_take, min_eq_left hstop]
  · intro offset hoffset _
    rw [length_segment] at hoffset
    have hlt : start + offset < block.length := by omega
    simp only [segment, slice, List.getElem_map, List.getElem_range, List.getElem_drop,
      List.getElem_take]
    exact repeated_of_lt hblock hlt

/-- A stretch that goes beyond the end of the list is a slice at the end and one at the start. -/
theorem segment_eq_slice_append {start stop : ℕ} (hstart : start ≤ block.length)
    (hstop : block.length ≤ stop) (hnext : stop - block.length ≤ block.length) :
    segment (repeated block hblock) start (stop - start) =
      slice block start block.length ++ slice block 0 (stop - block.length) := by
  have hcount : stop - start = (block.length - start) + (stop - block.length) := by omega
  have hend : start + (block.length - start) = block.length := by omega
  rw [hcount, segment_add, segment_eq_slice hblock hstart le_rfl, hend, ← segment_mod,
    Nat.mod_self]
  exact congrArg _ (segment_eq_slice hblock (Nat.zero_le _) hnext)

end Repeated

/-! ### Copies -/

theorem flatten_replicate_ne_nil {block : List α} (hblock : block ≠ []) (copies : ℕ) :
    (List.replicate (copies + 1) block).flatten ≠ [] := by
  rw [List.replicate_succ, List.flatten_cons]
  exact List.append_ne_nil_of_left_ne_nil hblock _

theorem getElem?_flatten_replicate (block : List α) (copies position : ℕ)
    (hposition : position < copies * block.length) :
    (List.replicate copies block).flatten[position]? = block[position % block.length]? := by
  induction copies generalizing position with
  | zero => omega
  | succ copies ih =>
    rw [List.replicate_succ, List.flatten_cons]
    by_cases hlt : position < block.length
    · rw [List.getElem?_append_left hlt, Nat.mod_eq_of_lt hlt]
    · have hle : block.length ≤ position := Nat.le_of_not_lt hlt
      rw [List.getElem?_append_right hle, ih _ (by rw [Nat.succ_mul] at hposition; omega),
        ← Nat.mod_eq_sub_mod hle]

/-- Some copies of a list repeat to what the list repeats to. -/
theorem repeated_flatten_replicate {block : List α} (hblock : block ≠ []) (copies : ℕ) :
    repeated (List.replicate (copies + 1) block).flatten
        (flatten_replicate_ne_nil hblock copies) = repeated block hblock := by
  funext position
  have hlength : (List.replicate (copies + 1) block).flatten.length =
      (copies + 1) * block.length := by
    rw [List.length_flatten, List.map_replicate, List.sum_replicate, smul_eq_mul]
  have hpos : 0 < (copies + 1) * block.length :=
    Nat.mul_pos copies.succ_pos (List.length_pos_iff.mpr hblock)
  have hread := getElem?_flatten_replicate block (copies + 1)
    (position % ((copies + 1) * block.length)) (Nat.mod_lt _ hpos)
  rw [Nat.mod_mul_left_mod] at hread
  simp only [repeated, hlength, List.get_eq_getElem]
  rw [List.getElem?_eq_getElem (by rw [hlength]; exact Nat.mod_lt _ hpos),
    List.getElem?_eq_getElem (Nat.mod_lt _ (List.length_pos_iff.mpr hblock))] at hread
  exact Option.some.inj hread

end Pysnmp.Foundation.Repetition
