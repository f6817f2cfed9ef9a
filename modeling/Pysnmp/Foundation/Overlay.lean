import Pysnmp.Foundation.Dict

/-!
# Entries laid over slots

A list of slots with keys, and entries with keys that come after it. An entry with the key of a slot
takes the place of the slot, and the others follow the slots in their order; where several entries
have one key, the last one stays, and where several slots have it, the last one is replaced.

`overlay_concat` is what one more entry does, and `Locates` the dictionary from keys to positions
that a program finds the slots with.
-/

set_option autoImplicit false
set_option relaxedAutoImplicit false

namespace Pysnmp.Foundation.Overlay

variable {α β : Type} [DecidableEq α]

/-- The position of the last slot with a key. -/
def lastIndex (key : α) : List (α × β) → Option ℕ
  | [] => none
  | slot :: slots =>
    match lastIndex key slots with
    | some index => some (index + 1)
    | none => if slot.1 = key then some 0 else none

/-- The last entry with the key of a slot, or the slot. -/
def replacement (entries : List (α × β)) (slot : α × β) : α × β :=
  (entries.reverse.find? fun entry ↦ entry.1 = slot.1).getD slot

/-- The slots with the entries that have their keys. -/
def inPlace (entries : List (α × β)) : List (α × β) → List (α × β)
  | [] => []
  | slot :: slots =>
    (if slot.1 ∈ slots.map Prod.fst then slot else replacement entries slot) ::
      inPlace entries slots

/-- The entries whose keys are those of no slot. -/
def beyond (slots entries : List (α × β)) : List (α × β) :=
  entries.filter fun entry ↦ entry.1 ∉ slots.map Prod.fst

def overlay (slots entries : List (α × β)) : List (α × β) :=
  inPlace entries slots ++ beyond slots entries

variable {key : α} {slot entry : α × β} {slots entries : List (α × β)} {index : ℕ}

/-! ### Positions -/

theorem lastIndex_eq_none_iff : lastIndex key slots = none ↔ key ∉ slots.map Prod.fst := by
  induction slots with
  | nil => simp [lastIndex]
  | cons slot slots ih =>
    rw [lastIndex]
    cases hlast : lastIndex key slots with
    | some index =>
      rw [hlast] at ih
      have hmem : key ∈ slots.map Prod.fst := by
        by_contra hnot
        exact nomatch ih.mpr hnot
      simp only [reduceCtorEq, List.map_cons, List.mem_cons, hmem, or_true, not_true_eq_false]
    | none =>
      rw [List.map_cons, List.mem_cons, not_or, ← ih, hlast]
      by_cases hkey : slot.1 = key
      · simp [hkey]
      · simp [hkey, Ne.symm hkey]

theorem mem_of_lastIndex (hlast : lastIndex key slots = some index) :
    key ∈ slots.map Prod.fst := by
  by_contra hnot
  rw [lastIndex_eq_none_iff.mpr hnot] at hlast
  cases hlast

theorem lastIndex_lt (hlast : lastIndex key slots = some index) : index < slots.length := by
  induction slots generalizing index with
  | nil => cases hlast
  | cons slot slots ih =>
    rw [lastIndex] at hlast
    cases hrest : lastIndex key slots with
    | some other =>
      rw [hrest] at hlast
      obtain rfl := Option.some.inj hlast
      exact Nat.succ_lt_succ (ih hrest)
    | none =>
      rw [hrest] at hlast
      simp only at hlast
      split_ifs at hlast
      obtain rfl := Option.some.inj hlast
      exact Nat.succ_pos _

theorem lastIndex_concat :
    lastIndex key (slots ++ [slot]) =
      if slot.1 = key then some slots.length else lastIndex key slots := by
  induction slots with
  | nil => simp [lastIndex]
  | cons first slots ih =>
    rw [List.cons_append, lastIndex, ih]
    by_cases hkey : slot.1 = key
    · simp [hkey]
    · rw [if_neg hkey, if_neg hkey, lastIndex]

/-- A dictionary has the positions of the slots of a list, counted from a number on. -/
def Locates (start : ℕ) (slots : List (α × β)) (dict : Dict α ℕ) : Prop :=
  ∀ key, dict.lookup key = (lastIndex key slots).map (start + ·)

theorem locates_nil (start : ℕ) : Locates start ([] : List (α × β)) ∅ :=
  fun _ ↦ rfl

theorem Locates.concat {start : ℕ} {dict : Dict α ℕ} (hlocates : Locates start slots dict)
    (slot : α × β) :
    Locates start (slots ++ [slot]) (dict.insert slot.1 (start + slots.length)) := by
  intro key
  rw [Dict.lookup_insert_ite, lastIndex_concat]
  by_cases hkey : key = slot.1
  · rw [if_pos hkey, if_pos hkey.symm]
    rfl
  · rw [if_neg hkey, if_neg (Ne.symm hkey), hlocates key]

/-! ### One more entry -/

@[simp] theorem inPlace_nil (slots : List (α × β)) : inPlace [] slots = slots := by
  induction slots with
  | nil => rfl
  | cons slot slots ih =>
    rw [inPlace, ih]
    split_ifs
    · rfl
    · rfl

@[simp] theorem length_inPlace (entries slots : List (α × β)) :
    (inPlace entries slots).length = slots.length := by
  induction slots with
  | nil => rfl
  | cons slot slots ih => rw [inPlace, List.length_cons, ih, List.length_cons]

theorem replacement_concat :
    replacement (entries ++ [entry]) slot =
      if entry.1 = slot.1 then entry else replacement entries slot := by
  unfold replacement
  rw [List.reverse_append, List.reverse_singleton, List.singleton_append]
  by_cases hkey : entry.1 = slot.1
  · simp [hkey]
  · simp [hkey]

theorem inPlace_concat_of_notMem (hnot : entry.1 ∉ slots.map Prod.fst) :
    inPlace (entries ++ [entry]) slots = inPlace entries slots := by
  induction slots with
  | nil => rfl
  | cons slot slots ih =>
    rw [List.map_cons, List.mem_cons, not_or] at hnot
    rw [inPlace, inPlace, ih hnot.2, replacement_concat, if_neg hnot.1]

theorem inPlace_concat_of_lastIndex (hlast : lastIndex entry.1 slots = some index) :
    inPlace (entries ++ [entry]) slots = (inPlace entries slots).set index entry := by
  induction slots generalizing index with
  | nil => cases hlast
  | cons slot slots ih =>
    rw [lastIndex] at hlast
    cases hrest : lastIndex entry.1 slots with
    | some other =>
      rw [hrest] at hlast
      obtain rfl := Option.some.inj hlast
      have hmem : entry.1 ∈ slots.map Prod.fst := mem_of_lastIndex hrest
      have hsame : (if slot.1 ∈ slots.map Prod.fst then slot
          else replacement (entries ++ [entry]) slot) =
            if slot.1 ∈ slots.map Prod.fst then slot else replacement entries slot := by
        by_cases hslot : slot.1 ∈ slots.map Prod.fst
        · rw [if_pos hslot, if_pos hslot]
        · have hne : entry.1 ≠ slot.1 := fun heq ↦ hslot (heq ▸ hmem)
          rw [if_neg hslot, if_neg hslot, replacement_concat, if_neg hne]
      rw [inPlace, inPlace, List.set_cons_succ, ih hrest, hsame]
    | none =>
      rw [hrest] at hlast
      simp only at hlast
      split_ifs at hlast with hkey
      obtain rfl := Option.some.inj hlast
      have hnot := lastIndex_eq_none_iff.mp hrest
      rw [inPlace, inPlace, List.set_cons_zero, if_neg (hkey ▸ hnot), replacement_concat,
        if_pos hkey.symm, inPlace_concat_of_notMem hnot]

/-- One more entry replaces the last slot with its key, or goes to the end. -/
theorem overlay_concat (slots entries : List (α × β)) (entry : α × β) :
    overlay slots (entries ++ [entry]) =
      match lastIndex entry.1 slots with
      | some index => (overlay slots entries).set index entry
      | none => overlay slots entries ++ [entry] := by
  unfold overlay beyond
  cases hlast : lastIndex entry.1 slots with
  | some index =>
    have hmem : entry.1 ∈ slots.map Prod.fst := mem_of_lastIndex hlast
    have hindex : index < (inPlace entries slots).length := by
      rw [length_inPlace]
      exact lastIndex_lt hlast
    rw [inPlace_concat_of_lastIndex hlast, List.filter_append]
    simp only
    rw [List.set_append_left _ _ hindex]
    simp [hmem]
  | none =>
    have hnot := lastIndex_eq_none_iff.mp hlast
    rw [inPlace_concat_of_notMem hnot, List.filter_append, List.append_assoc]
    simp [hnot]

@[simp] theorem overlay_nil (slots : List (α × β)) : overlay slots [] = slots := by
  rw [overlay, inPlace_nil, beyond, List.filter_nil, List.append_nil]

/-- Where the slots have different keys, each is replaced by its own entry. -/
theorem inPlace_eq_map (hnodup : (slots.map Prod.fst).Nodup) :
    inPlace entries slots = slots.map (replacement entries) := by
  induction slots with
  | nil => rfl
  | cons slot slots ih =>
    obtain ⟨hslot, hrest⟩ := List.nodup_cons.mp hnodup
    rw [inPlace, if_neg hslot, ih hrest, List.map_cons]

end Pysnmp.Foundation.Overlay
