import Mathlib.Data.List.Basic
import Mathlib.Tactic

/-!
# The longest prefix among the keys

A list that is looked up by its longest nonempty prefix among some keys. The lookup that drops the
last element until it meets a key finds that prefix and what follows it
(`longestPrefix_eq_some_iff`), and there is at most one (`IsLongestPrefix.eq`). The same search with
a lookup that can fail comes to what the lookup answers at the longest prefix at which it has an
answer (`lookupLongest_spec`).
-/

set_option autoImplicit false
set_option relaxedAutoImplicit false

namespace Pysnmp.Foundation

variable {α : Type*}

/-- The key is a nonempty prefix of the list, and no longer prefix of it is a key. -/
structure IsLongestPrefix (isKey : List α → Prop) (list key : List α) : Prop where
  ne_nil : key ≠ []
  mem : isKey key
  begins : key <+: list
  longest : ∀ other, isKey other → other <+: list → other.length ≤ key.length

/-- The longest prefix among the keys and the rest of the list, of a list in reverse. -/
def longestPrefixOfReverse (isKey : List α → Prop) [DecidablePred isKey] :
    List α → Option (List α × List α)
  | [] => none
  | last :: before =>
    if isKey (before.reverse ++ [last]) then
      some (before.reverse ++ [last], [])
    else
      (longestPrefixOfReverse isKey before).map fun found ↦ (found.1, found.2 ++ [last])

/-- The longest prefix among the keys and the rest of the list. -/
def longestPrefix (isKey : List α → Prop) [DecidablePred isKey] (list : List α) :
    Option (List α × List α) :=
  longestPrefixOfReverse isKey list.reverse

variable {isKey : List α → Prop} {list key other : List α}

theorem IsLongestPrefix.eq (hkey : IsLongestPrefix isKey list key)
    (hother : IsLongestPrefix isKey list other) : key = other := by
  have hlength : key.length = other.length :=
    le_antisymm (hother.longest key hkey.mem hkey.begins)
      (hkey.longest other hother.mem hother.begins)
  exact (List.prefix_of_prefix_length_le hkey.begins hother.begins hlength.le).eq_of_length hlength

theorem isLongestPrefix_self (hne : list ≠ []) (hlist : isKey list) :
    IsLongestPrefix isKey list list where
  ne_nil := hne
  mem := hlist
  begins := List.prefix_refl list
  longest _ _ hbegins := hbegins.length_le

/-- Where the list is no key itself, its longest prefix is that of the list without its last
element. -/
theorem isLongestPrefix_concat_iff {last : α} (hnot : ¬ isKey (list ++ [last])) :
    IsLongestPrefix isKey (list ++ [last]) key ↔ IsLongestPrefix isKey list key := by
  have hbelow : ∀ other, isKey other → (other <+: list ++ [last] ↔ other <+: list) := by
    intro other hother
    rw [List.prefix_concat_iff]
    exact or_iff_right fun heq ↦ hnot (heq ▸ hother)
  constructor
  · intro hkey
    exact ⟨hkey.ne_nil, hkey.mem, (hbelow key hkey.mem).mp hkey.begins,
      fun other hother hbegins ↦ hkey.longest other hother ((hbelow other hother).mpr hbegins)⟩
  · intro hkey
    exact ⟨hkey.ne_nil, hkey.mem, (hbelow key hkey.mem).mpr hkey.begins,
      fun other hother hbegins ↦ hkey.longest other hother ((hbelow other hother).mp hbegins)⟩

variable [DecidablePred isKey]

theorem longestPrefixOfReverse_eq_some_iff {reversed rest : List α} :
    longestPrefixOfReverse isKey reversed = some (key, rest) ↔
      IsLongestPrefix isKey reversed.reverse key ∧ key ++ rest = reversed.reverse := by
  induction reversed generalizing rest with
  | nil =>
    constructor
    · intro hfound
      cases hfound
    · rintro ⟨hlongest, happend⟩
      exact absurd (List.append_eq_nil_iff.mp happend).1 hlongest.ne_nil
  | cons last before ih =>
    rw [longestPrefixOfReverse, List.reverse_cons]
    split_ifs with hkey
    · have hself := isLongestPrefix_self (by simp) hkey
      constructor
      · intro hfound
        obtain ⟨rfl, rfl⟩ := Prod.mk.inj (Option.some.inj hfound)
        exact ⟨hself, List.append_nil _⟩
      · rintro ⟨hlongest, happend⟩
        obtain rfl := hlongest.eq hself
        rw [List.append_cancel_left (happend.trans (List.append_nil _).symm)]
    · rw [isLongestPrefix_concat_iff hkey, Option.map_eq_some_iff]
      constructor
      · rintro ⟨⟨found, rest⟩, hfound, heq⟩
        obtain ⟨rfl, rfl⟩ := Prod.mk.inj heq
        obtain ⟨hlongest, happend⟩ := ih.mp hfound
        exact ⟨hlongest, by rw [← happend, List.append_assoc]⟩
      · rintro ⟨hlongest, happend⟩
        obtain ⟨found, hfound⟩ := hlongest.begins
        have hrest : rest = found ++ [last] := by
          rw [← hfound, List.append_assoc] at happend
          exact List.append_cancel_left happend
        exact ⟨(key, found), ih.mpr ⟨hlongest, hfound⟩, by rw [hrest]⟩

/-- The lookup finds the longest prefix and what follows it. -/
theorem longestPrefix_eq_some_iff {rest : List α} :
    longestPrefix isKey list = some (key, rest) ↔
      IsLongestPrefix isKey list key ∧ key ++ rest = list := by
  rw [longestPrefix, longestPrefixOfReverse_eq_some_iff, List.reverse_reverse]

theorem longestPrefix_nil : longestPrefix isKey ([] : List α) = none :=
  rfl

theorem longestPrefix_concat (list : List α) (last : α) :
    longestPrefix isKey (list ++ [last]) =
      if isKey (list ++ [last]) then some (list ++ [last], [])
      else (longestPrefix isKey list).map fun found ↦ (found.1, found.2 ++ [last]) := by
  rw [longestPrefix, List.reverse_append, List.reverse_singleton, List.singleton_append,
    longestPrefixOfReverse, List.reverse_reverse, longestPrefix]

theorem longestPrefix_eq_none_iff :
    longestPrefix isKey list = none ↔ ∀ key, key ≠ [] → isKey key → ¬ key <+: list := by
  induction list using List.reverseRecOn with
  | nil =>
    exact iff_of_true longestPrefix_nil fun key hne _ hbegins ↦ hne (List.prefix_nil.mp hbegins)
  | append_singleton list last ih =>
    rw [longestPrefix_concat]
    split_ifs with hlist
    · exact iff_of_false id fun hnone ↦ hnone _ (by simp) hlist (List.prefix_refl _)
    · rw [Option.map_eq_none_iff, ih]
      refine forall_congr' fun key ↦ forall_congr' fun _ ↦ forall_congr' fun hkey ↦ not_congr ?_
      have hne : key ≠ list ++ [last] := fun heq ↦ hlist (heq ▸ hkey)
      rw [List.prefix_concat_iff, or_iff_right hne]

/-- Only the keys that are prefixes of the list matter. -/
theorem longestPrefix_congr {isOther : List α → Prop} [DecidablePred isOther]
    (hagree : ∀ key, key <+: list → (isKey key ↔ isOther key)) :
    longestPrefix isKey list = longestPrefix isOther list := by
  induction list using List.reverseRecOn with
  | nil => rfl
  | append_singleton list last ih =>
    rw [longestPrefix_concat, longestPrefix_concat,
      ih fun key hbegins ↦ hagree key (hbegins.trans (List.prefix_append list [last]))]
    exact if_congr (hagree _ (List.prefix_refl _)) rfl rfl

/-! ### Searching with a lookup -/

section Lookup

variable {ε β : Type*} {lookup : List α → Except ε (Option β)}

/-- What a lookup first answers while the last element is dropped, of a list in reverse. -/
def lookupLongestOfReverse (lookup : List α → Except ε (Option β)) :
    List α → Except ε (Option β)
  | [] => .ok none
  | last :: before =>
    match lookup (before.reverse ++ [last]) with
    | .error error => .error error
    | .ok (some value) => .ok (some value)
    | .ok none => lookupLongestOfReverse lookup before

/-- What a lookup answers at the longest nonempty prefix at which it has an answer. -/
def lookupLongest (lookup : List α → Except ε (Option β)) (list : List α) : Except ε (Option β) :=
  lookupLongestOfReverse lookup list.reverse

theorem lookupLongest_concat (list : List α) (last : α) :
    lookupLongest lookup (list ++ [last]) =
      match lookup (list ++ [last]) with
      | .error error => .error error
      | .ok (some value) => .ok (some value)
      | .ok none => lookupLongest lookup list := by
  rw [lookupLongest, List.reverse_append, List.reverse_singleton, List.singleton_append,
    lookupLongestOfReverse, List.reverse_reverse]
  rfl

/-- A search that comes to an end without an exception. -/
theorem lookupLongest_spec {answer : List α → Option β}
    (hlookup : ∀ key, key ≠ [] → key <+: list → lookup key = .ok (answer key)) :
    (lookupLongest lookup list = .ok none ∧ ∀ key, key ≠ [] → key <+: list → answer key = none) ∨
      ∃ key value, lookupLongest lookup list = .ok (some value) ∧ answer key = some value ∧
        IsLongestPrefix (fun key ↦ (answer key).isSome) list key := by
  induction list using List.reverseRecOn with
  | nil => exact Or.inl ⟨rfl, fun key hne hbegins ↦ absurd (List.prefix_nil.mp hbegins) hne⟩
  | append_singleton list last ih =>
    have hwhole := hlookup (list ++ [last]) (by simp) List.prefix_rfl
    rw [lookupLongest_concat, hwhole]
    cases hanswer : answer (list ++ [last]) with
    | some value =>
      have hself : IsLongestPrefix (fun key ↦ (answer key).isSome) (list ++ [last])
          (list ++ [last]) :=
        isLongestPrefix_self (by simp) (by rw [hanswer]; rfl)
      exact Or.inr ⟨_, value, rfl, hanswer, hself⟩
    | none =>
      have hnot : ¬ (answer (list ++ [last])).isSome := by
        rw [hanswer]
        exact Bool.false_ne_true
      rcases ih fun key hne hbegins ↦ hlookup key hne (hbegins.trans (List.prefix_append _ _)) with
        ⟨hnone, hall⟩ | ⟨key, value, hsome, hkey, hlongest⟩
      · refine Or.inl ⟨hnone, fun key hne hbegins ↦ ?_⟩
        rcases List.prefix_concat_iff.mp hbegins with rfl | hshorter
        · exact hanswer
        · exact hall key hne hshorter
      · exact Or.inr ⟨key, value, hsome, hkey, (isLongestPrefix_concat_iff hnot).mpr hlongest⟩

end Lookup

end Pysnmp.Foundation
