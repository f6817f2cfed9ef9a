import Pysnmp.Foundation.Effect

/-!
# Readings cached against a version

A table that changes rarely is read name by name, and each reading is kept with the version the
table had. `remember` is how such a memo is used: the readings of another version are given up, a
name that has no reading is read, and only a reading that succeeds is kept and makes the version the
table's. A reading that raises leaves the memo empty under the old version.

A memo is `Coherent` with a table when the readings it would hand out at the table's version are
those the table gives, and `Sound` when besides it is not ahead of the table. A sound memo yields
what the table gives and stays sound (`yields_remember`); one that is not coherent gives itself away
(`coherent_iff`). A change of the table that raises its version leaves a memo sound
(`Sound.of_lt`), and `Coherent.congr_iff` says which changes under one version do.
-/

set_option autoImplicit false
set_option relaxedAutoImplicit false

namespace Pysnmp.Foundation

open Effect

/-- Readings by name, and the version of the table they were made at. -/
structure VersionedMemo (κ α : Type) where
  version : ℤ
  readings : κ → Option α

namespace VersionedMemo

variable {κ α ε : Type}

/-- A memo without readings, whose version no table has. -/
def empty : VersionedMemo κ α := ⟨-1, fun _ ↦ none⟩

/-- Give up the readings of another version. -/
def discard (version : ℤ) : Effect (VersionedMemo κ α) ε Unit := do
  let remembered ← gets VersionedMemo.version
  runIf (remembered ≠ version) (modify fun memo ↦ { memo with readings := fun _ ↦ none })

/-- Hand out the reading of a name, made at the table's version. -/
def remember [DecidableEq κ] (version : ℤ) (read : κ → Except ε α) (name : κ) :
    Effect (VersionedMemo κ α) ε α := do
  discard version
  match ← gets fun memo ↦ memo.readings name with
  | some reading => pure reading
  | none => do
    let reading ← liftExcept (read name)
    modify fun memo ↦
      { version, readings := Function.update memo.readings name (some reading) }
    pure reading

/-- The readings that are not given up at a version. -/
def kept (version : ℤ) (memo : VersionedMemo κ α) : κ → Option α :=
  if memo.version = version then memo.readings else fun _ ↦ none

/-- The memo with the readings of another version given up. -/
def discarded (version : ℤ) (memo : VersionedMemo κ α) : VersionedMemo κ α :=
  { memo with readings := memo.kept version }

/-- The readings that are not given up are those of the table. -/
def Coherent (version : ℤ) (read : κ → Except ε α) (memo : VersionedMemo κ α) : Prop :=
  ∀ name reading, memo.kept version name = some reading → read name = .ok reading

/-- The memo is coherent with the table, and not ahead of it. -/
structure Sound (version : ℤ) (read : κ → Except ε α) (memo : VersionedMemo κ α) : Prop where
  coherent : Coherent version read memo
  notAhead : memo.version ≤ version

variable {version : ℤ} {read : κ → Except ε α} {memo : VersionedMemo κ α} {name : κ}

theorem kept_of_eq (hversion : memo.version = version) : memo.kept version = memo.readings :=
  if_pos hversion

theorem kept_mk (version : ℤ) (readings : κ → Option α) :
    kept version ⟨version, readings⟩ = readings :=
  if_pos rfl

theorem kept_of_ne (hversion : memo.version ≠ version) : memo.kept version name = none :=
  congrFun (if_neg hversion) name

theorem discard_run (version : ℤ) (memo : VersionedMemo κ α) :
    (discard version : Effect (VersionedMemo κ α) ε Unit).run memo =
      (.ok (), memo.discarded version) := by
  rw [discard, bind_run_of_ok (gets_run _ _), discarded]
  by_cases hversion : memo.version = version
  · rw [runIf_of_false _ (not_not.mpr hversion), kept_of_eq hversion]
    rfl
  · rw [runIf_of_true _ hversion, modify_run, kept, if_neg hversion]

/-- What is given up is not there to be given up again. -/
theorem kept_discarded (version : ℤ) (memo : VersionedMemo κ α) :
    (memo.discarded version).kept version = memo.kept version := by
  by_cases hversion : memo.version = version
  · exact kept_of_eq hversion
  · rw [discarded, kept, kept, if_neg hversion, if_neg hversion]

section Remember

variable [DecidableEq κ]

/-- A reading that has been kept is handed out. -/
theorem remember_run_of_some {reading : α} (hkept : memo.kept version name = some reading) :
    (remember version read name).run memo = (.ok reading, memo.discarded version) := by
  have hgets : (gets fun memo : VersionedMemo κ α ↦ memo.readings name :
      Effect (VersionedMemo κ α) ε (Option α)).run (memo.discarded version) =
        (.ok (some reading), memo.discarded version) := by
    simp only [gets_run, discarded, hkept]
  rw [remember, bind_run_of_ok (discard_run version memo), bind_run_of_ok hgets]
  rfl

/-- A name without a reading is read. -/
theorem remember_run_of_none (hkept : memo.kept version name = none) :
    (remember version read name).run memo =
      (read name, match read name with
        | .error _ => memo.discarded version
        | .ok reading =>
          ⟨version, Function.update (memo.kept version) name (some reading)⟩) := by
  have hgets : (gets fun memo : VersionedMemo κ α ↦ memo.readings name :
      Effect (VersionedMemo κ α) ε (Option α)).run (memo.discarded version) =
        (.ok none, memo.discarded version) := by
    simp only [gets_run, discarded, hkept]
  rw [remember, bind_run_of_ok (discard_run version memo), bind_run_of_ok hgets]
  cases hread : read name with
  | error exception => rfl
  | ok reading => rfl

/-- A reading of the table can be added. -/
theorem coherent_update {reading : α} (hcoherent : Coherent version read memo)
    (hread : read name = .ok reading) :
    Coherent version read
      ⟨version, Function.update (memo.kept version) name (some reading)⟩ := by
  intro other found hfound
  rw [kept_mk] at hfound
  by_cases hother : other = name
  · subst hother
    rw [Function.update_self] at hfound
    rw [hread, Option.some.inj hfound]
  · rw [Function.update_of_ne hother] at hfound
    exact hcoherent other found hfound

/-- A coherent memo hands out what the table gives, and stays coherent, also when the reading
raises. -/
theorem remember_run (name : κ) (hcoherent : Coherent version read memo) :
    ∃ after, (remember version read name).run memo = (read name, after) ∧
      Coherent version read after ∧ (after.version = memo.version ∨ after.version = version) := by
  have hstays : Coherent version read (memo.discarded version) := by
    rwa [Coherent, kept_discarded]
  cases hkept : memo.kept version name with
  | some reading =>
    rw [remember_run_of_some hkept, hcoherent name reading hkept]
    exact ⟨_, rfl, hstays, Or.inl rfl⟩
  | none =>
    rw [remember_run_of_none hkept]
    cases hread : read name with
    | error exception => exact ⟨_, rfl, hstays, Or.inl rfl⟩
    | ok reading => exact ⟨_, rfl, coherent_update hcoherent hread, Or.inr rfl⟩

/-- A sound memo hands out what the table gives, and stays sound. -/
theorem yields_remember (version : ℤ) (read : κ → Except ε α) (name : κ) :
    Yields (Sound version read) (remember version read name) (read name) := by
  intro memo hsound
  obtain ⟨after, hrun, hcoherent, hkept | hread⟩ := remember_run name hsound.coherent
  · exact ⟨after, ⟨hcoherent, hkept.trans_le hsound.notAhead⟩, hrun⟩
  · exact ⟨after, ⟨hcoherent, hread.le⟩, hrun⟩

/-- A memo is coherent if no lookup can tell it from the table. -/
theorem coherent_iff :
    Coherent version read memo ↔ ∀ name, ((remember version read name).run memo).1 = read name := by
  constructor
  · intro hcoherent name
    obtain ⟨after, hrun, -⟩ := remember_run name hcoherent
    rw [hrun]
  · intro hall name reading hkept
    rw [← hall name, remember_run_of_some hkept]

end Remember

/-! ### Changes of the table -/

/-- A memo of another version says nothing. -/
theorem coherent_of_ne (hversion : memo.version ≠ version) : Coherent version read memo := by
  intro name reading hkept
  rw [kept_of_ne hversion] at hkept
  cases hkept

theorem sound_empty (hversion : 0 ≤ version) :
    Sound version read (empty : VersionedMemo κ α) :=
  have hbehind : (-1 : ℤ) < version := neg_one_lt_zero.trans_le hversion
  ⟨coherent_of_ne hbehind.ne, hbehind.le⟩

/-- A memo sees a change that raises the version. -/
theorem Sound.of_lt {later : ℤ} {changed : κ → Except ε α} (hsound : Sound version read memo)
    (hlater : version < later) : Sound later changed memo :=
  have hbehind : memo.version < later := hsound.notAhead.trans_lt hlater
  ⟨coherent_of_ne hbehind.ne, hbehind.le⟩

/-- At the table's version, the memo survives a change that it cannot see if the names it has
readings of are read as they were. -/
theorem Coherent.congr_iff {changed : κ → Except ε α} (hcoherent : Coherent version read memo) :
    Coherent version changed memo ↔ (memo.version = version →
      ∀ name reading, memo.readings name = some reading → changed name = read name) := by
  constructor
  · intro hchanged hversion name reading hreading
    rw [Coherent, kept_of_eq hversion] at hcoherent hchanged
    rw [hchanged name reading hreading, hcoherent name reading hreading]
  · intro hsame
    by_cases hversion : memo.version = version
    · intro name reading hkept
      have hread := hcoherent name reading hkept
      rw [kept_of_eq hversion] at hkept
      rw [hsame hversion name reading hkept, hread]
    · exact coherent_of_ne hversion

end VersionedMemo

end Pysnmp.Foundation
