import Mathlib.Data.List.AList
import Mathlib.Tactic
import Pysnmp.Foundation.Effect

/-!
# Dictionaries

A dictionary is an `AList` whose values have one type: finitely many keys, each with one value, the
newest first. The two lemmas on `lookup` speak of any key, so that `simp` can compute the lookups
after a change, and the naturals and the integers do not run out of keys. `forEach_erase_run` is the
loop that deletes keys from a dictionary which is a part of the state.
-/

set_option autoImplicit false
set_option relaxedAutoImplicit false

namespace Pysnmp.Foundation

/-- A dictionary from keys to values of one type. -/
abbrev Dict (κ ν : Type) := AList fun _ : κ ↦ ν

namespace Dict

variable {κ ν : Type} [DecidableEq κ]

@[simp] theorem lookup_insert_ite (dict : Dict κ ν) (key other : κ) (value : ν) :
    AList.lookup other (AList.insert key value dict) =
      if other = key then some value else AList.lookup other dict := by
  split_ifs with heq
  · rw [heq]
    exact AList.lookup_insert dict
  · exact AList.lookup_insert_ne heq

@[simp] theorem lookup_erase_ite (dict : Dict κ ν) (key other : κ) :
    AList.lookup other (AList.erase key dict) =
      if other = key then none else AList.lookup other dict := by
  split_ifs with heq
  · rw [heq]
    exact AList.lookup_erase key dict
  · exact AList.lookup_erase_ne heq

/-- Erasing what is not there changes nothing. -/
theorem erase_of_lookup_eq_none {dict : Dict κ ν} {key : κ}
    (hmissing : AList.lookup key dict = none) : AList.erase key dict = dict := by
  apply AList.ext
  exact List.kerase_of_notMem_keys (AList.lookup_eq_none.mp hmissing)

/-- Erasing a new entry gives the dictionary from before. -/
theorem erase_insert_of_lookup_eq_none {dict : Dict κ ν} {key : κ} (value : ν)
    (hmissing : AList.lookup key dict = none) :
    AList.erase key (AList.insert key value dict) = dict := by
  apply AList.ext
  have hkerase := List.kerase_of_notMem_keys (AList.lookup_eq_none.mp hmissing)
  refine Eq.trans ?_ hkerase
  exact List.kerase_cons_eq (s := (⟨key, value⟩ : Sigma fun _ : κ ↦ ν)) rfl

theorem erase_insert_of_ne {dict : Dict κ ν} {key other : κ} (value : ν) (hne : key ≠ other) :
    AList.erase key (AList.insert other value dict) =
      AList.insert other value (AList.erase key dict) := by
  apply AList.ext
  change List.kerase key (⟨other, value⟩ :: List.kerase other dict.entries) =
    ⟨other, value⟩ :: List.kerase other (List.kerase key dict.entries)
  rw [List.kerase_cons_ne hne, List.kerase_comm]

theorem keys_insert_of_lookup_eq_none {dict : Dict κ ν} {key : κ} (value : ν)
    (hmissing : AList.lookup key dict = none) :
    (AList.insert key value dict).keys = key :: dict.keys := by
  rw [AList.keys_insert, List.erase_of_not_mem]
  rwa [← AList.mem_keys, ← AList.lookup_eq_none]

/-- A key of the naturals beyond all keys of a dictionary. -/
def unusedKey {μ : Type} (dict : Dict ℕ μ) : ℕ :=
  dict.keys.sum + 1

theorem lookup_of_sum_lt {μ : Type} {dict : Dict ℕ μ} {key : ℕ} (hkey : dict.keys.sum < key) :
    AList.lookup key dict = none := by
  rw [AList.lookup_eq_none, AList.mem_keys]
  intro hmem
  exact absurd (List.single_le_sum (fun _ _ ↦ Nat.zero_le _) key hmem) (Nat.not_le.mpr hkey)

/-- A key of the integers beyond all keys of a dictionary. -/
def unusedIntKey {μ : Type} (dict : Dict ℤ μ) : ℤ :=
  ((dict.keys.map Int.natAbs).sum + 1 : ℕ)

theorem lookup_of_sum_lt_natAbs {μ : Type} {dict : Dict ℤ μ} {key : ℤ}
    (hkey : (dict.keys.map Int.natAbs).sum < key.natAbs) : AList.lookup key dict = none := by
  rw [AList.lookup_eq_none, AList.mem_keys]
  intro hmem
  have hle : key.natAbs ≤ (dict.keys.map Int.natAbs).sum :=
    List.single_le_sum (fun _ _ ↦ Nat.zero_le _) _ (List.mem_map_of_mem hmem)
  exact absurd hkey (Nat.not_lt.mpr hle)

theorem lookup_unusedIntKey {μ : Type} (dict : Dict ℤ μ) :
    AList.lookup dict.unusedIntKey dict = none := by
  apply lookup_of_sum_lt_natAbs
  unfold unusedIntKey
  omega

/-- Deleting keys that are all there, one after the other, from a part of the state. -/
theorem forEach_erase_run {σ ε : Type} {body : κ → Effect σ ε Unit} (part : σ → Dict κ ν)
    (replace : Dict κ ν → σ → σ) (hpart : ∀ dict state, part (replace dict state) = dict)
    (hself : ∀ state, replace (part state) state = state)
    (hreplace : ∀ dict other state, replace other (replace dict state) = replace other state)
    (hbody : ∀ state key, (AList.lookup key (part state)).isSome →
      (body key).run state = (.ok (), replace (AList.erase key (part state)) state))
    {state : σ} {keys : List κ} (hnodup : keys.Nodup)
    (hindexed : ∀ key ∈ keys, (AList.lookup key (part state)).isSome) :
    ∃ index, (Effect.forEach body keys).run state = (.ok (), replace index state) ∧
      ∀ key, AList.lookup key index =
        if key ∈ keys then none else AList.lookup key (part state) := by
  induction keys generalizing state with
  | nil => exact ⟨part state, by rw [hself]; rfl, fun key ↦ rfl⟩
  | cons key rest ih =>
    obtain ⟨hunlisted, hrestNodup⟩ := List.nodup_cons.mp hnodup
    have hrest : ∀ other ∈ rest, (AList.lookup other
        (part (replace (AList.erase key (part state)) state))).isSome := by
      intro other hother
      have hne : other ≠ key := fun heq ↦ hunlisted (heq ▸ hother)
      rw [hpart, lookup_erase_ite, if_neg hne]
      exact hindexed other (List.mem_cons_of_mem key hother)
    obtain ⟨index, hrun, hlookup⟩ := ih hrestNodup hrest
    refine ⟨index, ?_, fun other ↦ ?_⟩
    · rw [Effect.forEach_cons,
        Effect.bind_run_of_ok (hbody state key (hindexed key List.mem_cons_self)), hrun, hreplace]
    · rw [hlookup, hpart, lookup_erase_ite]
      by_cases hother : other = key
      · rw [if_pos hother, ite_self, if_pos (hother ▸ List.mem_cons_self)]
      · simp only [List.mem_cons, hother, false_or, if_false]

end Dict

end Pysnmp.Foundation
