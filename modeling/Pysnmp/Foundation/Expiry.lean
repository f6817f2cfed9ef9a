import Mathlib.Data.List.Nodup
import Mathlib.Tactic

/-!
# Entries that expire

An index holds values under keys, each with the tick it expires at, and a queue lists the keys that
expire at each tick. What the two should tell is known from a record of what was pushed, when, and
not popped since: `remaining` of it is what has not expired yet. `Tracks` says that the index holds
exactly that and that each of its keys is on the queue once, at its tick.

Pushing a new key (`Tracks.push`), popping one (`Tracks.pop`) and the passing of a tick
(`Tracks.expire`) keep it so. `Tracks.congr` carries it over to an index and a queue with the same
contents.
-/

set_option autoImplicit false
set_option relaxedAutoImplicit false

namespace Pysnmp.Foundation.Expiry

variable {κ ν : Type} {lifetime tick : ℕ}

/-- What has not expired at a tick of the values that were pushed, each with the tick it was pushed
at; it goes with the tick it expires at. -/
def remaining (lifetime tick : ℕ) (pushed : κ → Option (ν × ℕ)) (key : κ) : Option (ν × ℕ) :=
  match pushed key with
  | none => none
  | some (value, pushedAt) =>
    if tick ≤ pushedAt + lifetime then some (value, pushedAt + lifetime) else none

/-- An index and a queue tell what remains of the values that were pushed. -/
structure Tracks (lifetime tick : ℕ) (pushed : κ → Option (ν × ℕ)) (index : κ → Option (ν × ℕ))
    (queue : ℕ → List κ) : Prop where
  indexed : ∀ key, index key = remaining lifetime tick pushed key
  scheduled : ∀ expireAt key, key ∈ queue expireAt ↔ ∃ value, index key = some (value, expireAt)
  nodup : ∀ expireAt, (queue expireAt).Nodup
  ahead : ∀ expireAt, ∀ key ∈ queue expireAt, tick ≤ expireAt

theorem remaining_eq_some_iff {pushed : κ → Option (ν × ℕ)} {key : κ} {value : ν} {expireAt : ℕ} :
    remaining lifetime tick pushed key = some (value, expireAt) ↔
      ∃ pushedAt, pushed key = some (value, pushedAt) ∧ tick ≤ pushedAt + lifetime ∧
        pushedAt + lifetime = expireAt := by
  unfold remaining
  cases hpushed : pushed key with
  | none => simp
  | some entry =>
    obtain ⟨found, pushedAt⟩ := entry
    simp only [Option.ite_none_right_eq_some, Option.some.injEq, Prod.mk.injEq]
    constructor
    · rintro ⟨hle, rfl, hexpire⟩
      exact ⟨pushedAt, ⟨rfl, rfl⟩, hle, hexpire⟩
    · rintro ⟨_, ⟨rfl, rfl⟩, hle, hexpire⟩
      exact ⟨hle, rfl, hexpire⟩

theorem le_of_remaining {pushed : κ → Option (ν × ℕ)} {key : κ} {value : ν} {expireAt : ℕ}
    (hremaining : remaining lifetime tick pushed key = some (value, expireAt)) :
    tick ≤ expireAt := by
  obtain ⟨pushedAt, -, hle, rfl⟩ := remaining_eq_some_iff.mp hremaining
  exact hle

/-- What remains after a tick is what does not expire at it. -/
theorem remaining_succ (pushed : κ → Option (ν × ℕ)) (key : κ) :
    remaining lifetime (tick + 1) pushed key =
      match remaining lifetime tick pushed key with
      | none => none
      | some (value, expireAt) => if expireAt = tick then none else some (value, expireAt) := by
  unfold remaining
  cases pushed key with
  | none => rfl
  | some entry =>
    obtain ⟨value, pushedAt⟩ := entry
    dsimp only
    rcases Nat.lt_trichotomy tick (pushedAt + lifetime) with hlt | heq | hgt
    · rw [if_pos (by omega), if_pos hlt.le]
      dsimp only
      rw [if_neg hlt.ne']
    · rw [if_neg (by omega), if_pos heq.le]
      dsimp only
      rw [if_pos heq.symm]
    · rw [if_neg (by omega), if_neg (by omega)]

namespace Tracks

variable {pushed : κ → Option (ν × ℕ)} {index : κ → Option (ν × ℕ)} {queue : ℕ → List κ}

theorem empty : Tracks lifetime tick (fun _ ↦ none : κ → Option (ν × ℕ)) (fun _ ↦ none)
    fun _ ↦ [] where
  indexed := fun _ ↦ rfl
  scheduled := fun _ _ ↦ iff_of_false List.not_mem_nil fun ⟨_, hvalue⟩ ↦ by cases hvalue
  nodup := fun _ ↦ List.nodup_nil
  ahead := fun _ _ hmem ↦ absurd hmem List.not_mem_nil

/-- Another index and another queue with the same contents. -/
theorem congr {other : κ → Option (ν × ℕ)} {rest : ℕ → List κ}
    (htracks : Tracks lifetime tick pushed index queue) (hindex : ∀ key, other key = index key)
    (hqueue : ∀ expireAt, rest expireAt = queue expireAt) :
    Tracks lifetime tick pushed other rest := by
  rw [funext hindex, funext hqueue]
  exact htracks

/-- An index and a queue with what remains, where the queue is as the index has it. -/
theorem of_scheduled (hindexed : ∀ key, index key = remaining lifetime tick pushed key)
    (hscheduled : ∀ expireAt key, key ∈ queue expireAt ↔
      ∃ value, index key = some (value, expireAt))
    (hnodup : ∀ expireAt, (queue expireAt).Nodup) :
    Tracks lifetime tick pushed index queue where
  indexed := hindexed
  scheduled := hscheduled
  nodup := hnodup
  ahead := by
    intro expireAt key hmem
    obtain ⟨value, hvalue⟩ := (hscheduled expireAt key).mp hmem
    exact le_of_remaining ((hindexed key).symm.trans hvalue)

/-- A record of which the same remains. -/
theorem of_remaining {record : κ → Option (ν × ℕ)}
    (htracks : Tracks lifetime tick pushed index queue)
    (hrecord : ∀ key, remaining lifetime tick record key = remaining lifetime tick pushed key) :
    Tracks lifetime tick record index queue :=
  { htracks with indexed := fun key ↦ (htracks.indexed key).trans (hrecord key).symm }

/-- A record without some values that the index does not have. -/
theorem filter (htracks : Tracks lifetime tick pushed index queue) {keep : ν → Bool}
    (hkeep : ∀ key value expireAt, index key = some (value, expireAt) → keep value = true) :
    Tracks lifetime tick (fun key ↦ (pushed key).filter fun entry ↦ keep entry.1) index queue := by
  refine htracks.of_remaining fun key ↦ Option.ext fun ⟨value, expireAt⟩ ↦ ?_
  rw [remaining_eq_some_iff, remaining_eq_some_iff]
  refine exists_congr fun pushedAt ↦ and_congr_left fun hexpire ↦ ?_
  rw [Option.filter_eq_some_iff]
  refine and_iff_left_of_imp fun hpushed ↦ hkeep key value expireAt ?_
  rw [htracks.indexed]
  exact remaining_eq_some_iff.mpr ⟨pushedAt, hpushed, hexpire⟩

variable [DecidableEq κ]

/-- Pushing a value under a key that the index does not have. -/
theorem push (htracks : Tracks lifetime tick pushed index queue) {key : κ} (value : ν)
    (hfresh : index key = none) :
    Tracks lifetime tick (Function.update pushed key (some (value, tick)))
      (Function.update index key (some (value, tick + lifetime)))
      (Function.update queue (tick + lifetime) (queue (tick + lifetime) ++ [key])) := by
  have hunlisted : ∀ expireAt, key ∉ queue expireAt := by
    intro expireAt hmem
    obtain ⟨found, hfound⟩ := (htracks.scheduled expireAt key).mp hmem
    rw [hfresh] at hfound
    cases hfound
  refine of_scheduled (fun other ↦ ?_) (fun expireAt other ↦ ?_) fun expireAt ↦ ?_
  · by_cases hother : other = key
    · rw [hother, Function.update_self, remaining, Function.update_self]
      exact (if_pos (Nat.le_add_right _ _)).symm
    · rw [Function.update_of_ne hother, htracks.indexed, remaining, remaining,
        Function.update_of_ne hother]
  · rw [Function.update_apply]
    by_cases hother : other = key
    · subst hother
      rw [Function.update_self]
      split_ifs with htick
      · exact iff_of_true (List.mem_append_right _ List.mem_cons_self) ⟨value, by rw [htick]⟩
      · refine iff_of_false (hunlisted expireAt) ?_
        rintro ⟨_, hfound⟩
        exact htick (Prod.mk.inj (Option.some.inj hfound)).2.symm
    · rw [Function.update_of_ne hother, ← htracks.scheduled]
      split_ifs with htick
      · rw [htick, List.mem_append, List.mem_singleton, or_iff_left hother]
      · exact Iff.rfl
  · rw [Function.update_apply]
    split_ifs with htick
    · exact List.nodup_append'.mpr ⟨htracks.nodup _, List.nodup_singleton _,
        List.disjoint_singleton.mpr (hunlisted _)⟩
    · exact htracks.nodup expireAt

/-- Popping a key that the index has. -/
theorem pop (htracks : Tracks lifetime tick pushed index queue) {key : κ} {value : ν}
    {expireAt : ℕ} (hentry : index key = some (value, expireAt)) :
    Tracks lifetime tick (Function.update pushed key none) (Function.update index key none)
      (Function.update queue expireAt ((queue expireAt).erase key)) := by
  refine of_scheduled (fun other ↦ ?_) (fun otherAt other ↦ ?_) fun otherAt ↦ ?_
  · by_cases hother : other = key
    · rw [hother, Function.update_self, remaining, Function.update_self]
    · rw [Function.update_of_ne hother, htracks.indexed, remaining, remaining,
        Function.update_of_ne hother]
  · rw [Function.update_apply]
    by_cases hother : other = key
    · subst hother
      rw [Function.update_self]
      refine iff_of_false ?_ fun ⟨_, hfound⟩ ↦ by cases hfound
      split_ifs with htick
      · exact (htracks.nodup expireAt).not_mem_erase
      · intro hmem
        obtain ⟨found, hfound⟩ := (htracks.scheduled otherAt other).mp hmem
        rw [hentry, Option.some.injEq, Prod.mk.injEq] at hfound
        exact htick hfound.2.symm
    · rw [Function.update_of_ne hother, ← htracks.scheduled]
      split_ifs with htick
      · rw [htick, List.mem_erase_of_ne hother]
      · exact Iff.rfl
  · rw [Function.update_apply]
    split_ifs with htick
    · exact (htracks.nodup expireAt).erase key
    · exact htracks.nodup otherAt

/-- Popping a key that the index does not have. -/
theorem pop_of_missing (htracks : Tracks lifetime tick pushed index queue) {key : κ}
    (hmissing : index key = none) :
    Tracks lifetime tick (Function.update pushed key none) index queue := by
  refine htracks.of_remaining fun other ↦ ?_
  by_cases hother : other = key
  · rw [hother, ← htracks.indexed, hmissing, remaining, Function.update_self]
  · rw [remaining, remaining, Function.update_of_ne hother]

/-- The passing of a tick, which drops the keys that expire at it. -/
theorem expire (htracks : Tracks lifetime tick pushed index queue) :
    Tracks lifetime (tick + 1) pushed (fun key ↦ if key ∈ queue tick then none else index key)
      (Function.update queue tick []) := by
  have hlisted : ∀ key value expireAt, index key = some (value, expireAt) →
      (key ∈ queue tick ↔ expireAt = tick) := by
    intro key value expireAt hentry
    rw [htracks.scheduled, hentry]
    constructor
    · rintro ⟨_, hfound⟩
      exact (Prod.mk.inj (Option.some.inj hfound)).2
    · rintro rfl
      exact ⟨value, rfl⟩
  have hkept : ∀ key value expireAt,
      (if key ∈ queue tick then none else index key) = some (value, expireAt) ↔
        expireAt ≠ tick ∧ index key = some (value, expireAt) := by
    intro key value expireAt
    rw [Option.ite_none_left_eq_some]
    exact and_congr_left fun hentry ↦ not_congr (hlisted key value expireAt hentry)
  refine of_scheduled (fun key ↦ ?_) (fun expireAt key ↦ ?_) fun expireAt ↦ ?_
  · rw [remaining_succ, ← htracks.indexed]
    cases hentry : index key with
    | none => exact ite_self none
    | some entry =>
      obtain ⟨value, expireAt⟩ := entry
      exact if_congr (hlisted key value expireAt hentry) rfl rfl
  · simp only [hkept, exists_and_left]
    by_cases htick : expireAt = tick
    · subst htick
      rw [Function.update_self]
      exact iff_of_false List.not_mem_nil fun hboth ↦ hboth.1 rfl
    · rw [Function.update_of_ne htick, htracks.scheduled, and_iff_right htick]
  · rw [Function.update_apply]
    split_ifs
    · exact List.nodup_nil
    · exact htracks.nodup expireAt

end Tracks

end Pysnmp.Foundation.Expiry
