import Mathlib.Tactic
import Pysnmp.Proto.Messages

/-!
# Counting retries

A command generator and a notification originator count the failed attempts of a request alike. An
`unknownEngineID` or a `notInTimeWindow` is counted as a discovery retry and starts the ordinary
count anew, any other failure is counted as an ordinary retry and starts the discovery count anew;
the request is given up when either count exceeds its limit.

Since each kind of failure resets the other count, the limits bound the attempts only where one of
them leaves no room for a retry: `attempts_bounded_iff`. With room for both kinds, failures that
alternate are never given up (`attempts_alternating`).
-/

set_option autoImplicit false
set_option relaxedAutoImplicit false

namespace Pysnmp.Entity.Rfc3413.Retries

open Proto

/-! ### The counts -/

/-- The retries of a request since the last failure of the other kind. -/
structure RetryCounts where
  retries : ℤ
  discoveryRetries : ℤ
  deriving DecidableEq, Repr

/-- The limits: the target's for ordinary retries, the requester's for discovery. -/
structure RetryLimits where
  retryCount : ℤ
  discoveryRetries : ℤ
  deriving DecidableEq, Repr

/-- The counts of a request that has just been sent for the first time. -/
def RetryCounts.zero : RetryCounts where
  retries := 0
  discoveryRetries := 0

/-- A failure that teaches about the peer. -/
def isDiscovery (errorIndication : ErrorIndication) : Bool :=
  errorIndication = .notInTimeWindow ∨ errorIndication = .unknownEngineID

/-- Count a failed attempt. -/
def countFailure (errorIndication : ErrorIndication) (counts : RetryCounts) : RetryCounts :=
  if isDiscovery errorIndication then
    { retries := 0, discoveryRetries := counts.discoveryRetries + 1 }
  else
    { retries := counts.retries + 1, discoveryRetries := 0 }

/-- Count a failed attempt; there are no counts for a next one when a limit is exceeded. -/
def nextAttempt (limits : RetryLimits) (errorIndication : ErrorIndication)
    (counts : RetryCounts) : Option RetryCounts :=
  let counted := countFailure errorIndication counts
  if limits.retryCount < counted.retries ∨ limits.discoveryRetries < counted.discoveryRetries then
    none
  else
    some counted

theorem nextAttempt_eq_some_iff {limits : RetryLimits} {errorIndication : ErrorIndication}
    {counts counted : RetryCounts} :
    nextAttempt limits errorIndication counts = some counted ↔
      countFailure errorIndication counts = counted ∧ counted.retries ≤ limits.retryCount ∧
        counted.discoveryRetries ≤ limits.discoveryRetries := by
  unfold nextAttempt
  simp only [Option.ite_none_left_eq_some, not_or, not_lt, Option.some.injEq]
  constructor
  · rintro ⟨hlimits, rfl⟩
    exact ⟨rfl, hlimits⟩
  · rintro ⟨rfl, hlimits⟩
    exact ⟨hlimits, rfl⟩

theorem countFailure_of_discovery {errorIndication : ErrorIndication}
    (hkind : isDiscovery errorIndication) (counts : RetryCounts) :
    countFailure errorIndication counts = ⟨0, counts.discoveryRetries + 1⟩ :=
  if_pos hkind

theorem countFailure_of_not_discovery {errorIndication : ErrorIndication}
    (hkind : ¬ isDiscovery errorIndication) (counts : RetryCounts) :
    countFailure errorIndication counts = ⟨counts.retries + 1, 0⟩ :=
  if_neg hkind

/-! ### Attempts -/

/-- How many attempts follow one with the counts, when the attempts fail as listed. -/
def attemptsAfter (limits : RetryLimits) : RetryCounts → List ErrorIndication → ℕ
  | _, [] => 0
  | counts, errorIndication :: later =>
    match nextAttempt limits errorIndication counts with
    | none => 0
    | some counted => attemptsAfter limits counted later + 1

/-- One of the two kinds of failures ends the attempts at once. -/
def RetryLimits.Ends (limits : RetryLimits) : Prop :=
  limits.retryCount ≤ 0 ∨ limits.discoveryRetries ≤ 0

/-- The attempts that limits leave for one request, if they leave a bounded number. -/
def RetryLimits.bound (limits : RetryLimits) : ℕ :=
  1 + limits.retryCount.toNat + limits.discoveryRetries.toNat

/-- The counts of an attempt, and the number of attempts up to it, in a request with limits that
end. -/
structure Counted (limits : RetryLimits) (counts : RetryCounts) (attempts : ℕ) : Prop where
  retries_nonneg : 0 ≤ counts.retries
  discoveryRetries_nonneg : 0 ≤ counts.discoveryRetries
  retries_le : counts.retries ≤ limits.retryCount.toNat
  discoveryRetries_le : counts.discoveryRetries ≤ limits.discoveryRetries.toNat
  attempts_eq : (attempts : ℤ) = 1 + counts.retries + counts.discoveryRetries

theorem counted_zero (limits : RetryLimits) : Counted limits .zero 1 where
  retries_nonneg := le_refl 0
  discoveryRetries_nonneg := le_refl 0
  retries_le := by simp [RetryCounts.zero]
  discoveryRetries_le := by simp [RetryCounts.zero]
  attempts_eq := rfl

theorem Counted.attempts_le {limits : RetryLimits} {counts : RetryCounts} {attempts : ℕ}
    (hcounted : Counted limits counts attempts) : attempts ≤ limits.bound := by
  have hretries := hcounted.retries_le
  have hdiscovery := hcounted.discoveryRetries_le
  have hattempts := hcounted.attempts_eq
  unfold RetryLimits.bound
  omega

/-- One more attempt: where one limit is zero, only the other count moves, and the failure that
would reset it ends the request. -/
theorem Counted.nextAttempt {limits : RetryLimits} {counts counted : RetryCounts} {attempts : ℕ}
    (hends : limits.Ends) (hcounted : Counted limits counts attempts)
    {errorIndication : ErrorIndication}
    (hnext : nextAttempt limits errorIndication counts = some counted) :
    Counted limits counted (attempts + 1) := by
  obtain ⟨hretries, hdiscovery, hretriesLe, hdiscoveryLe, hattempts⟩ := hcounted
  obtain ⟨rfl, hretryCount, hdiscoveryRetries⟩ := nextAttempt_eq_some_iff.mp hnext
  by_cases hkind : isDiscovery errorIndication
  · rw [countFailure_of_discovery hkind] at hretryCount hdiscoveryRetries ⊢
    have hzero : counts.retries = 0 := by
      rcases hends with hcount | hcount
      · omega
      · simp only at hdiscoveryRetries
        omega
    constructor <;> simp only at * <;> omega
  · rw [countFailure_of_not_discovery hkind] at hretryCount hdiscoveryRetries ⊢
    have hzero : counts.discoveryRetries = 0 := by
      rcases hends with hcount | hcount
      · simp only at hretryCount
        omega
      · omega
    constructor <;> simp only at * <;> omega

theorem Counted.attemptsAfter_add_le {limits : RetryLimits} (hends : limits.Ends)
    (failures : List ErrorIndication) {counts : RetryCounts} {attempts : ℕ}
    (hcounted : Counted limits counts attempts) :
    attemptsAfter limits counts failures + attempts ≤ limits.bound := by
  induction failures generalizing counts attempts with
  | nil =>
    unfold attemptsAfter
    rw [Nat.zero_add]
    exact hcounted.attempts_le
  | cons errorIndication later ih =>
    unfold attemptsAfter
    cases hnext : Retries.nextAttempt limits errorIndication counts with
    | none =>
      show 0 + attempts ≤ limits.bound
      rw [Nat.zero_add]
      exact hcounted.attempts_le
    | some counted =>
      have hlater := ih (hcounted.nextAttempt hends hnext)
      show Retries.attemptsAfter limits counted later + 1 + attempts ≤ limits.bound
      omega

/-- Failures of both kinds in turn. -/
def alternating : ℕ → List ErrorIndication
  | 0 => []
  | rounds + 1 => .requestTimedOut :: .notInTimeWindow :: alternating rounds

/-- With room for a retry of each kind, failures that alternate are never given up. -/
theorem attempts_alternating {limits : RetryLimits} (hends : ¬ limits.Ends) (rounds : ℕ)
    {counts : RetryCounts} (hcounts : counts.retries = 0) :
    attemptsAfter limits counts (alternating rounds) = 2 * rounds := by
  obtain ⟨hretryCount, hdiscoveryRetries⟩ := not_or.mp hends
  induction rounds generalizing counts with
  | zero => rfl
  | succ rounds ih =>
    have hfirst : nextAttempt limits .requestTimedOut counts = some ⟨1, 0⟩ := by
      rw [nextAttempt_eq_some_iff, countFailure_of_not_discovery (by decide), hcounts]
      refine ⟨rfl, ?_, ?_⟩
      · show 1 ≤ limits.retryCount
        omega
      · show 0 ≤ limits.discoveryRetries
        omega
    have hsecond : nextAttempt limits .notInTimeWindow ⟨1, 0⟩ = some ⟨0, 1⟩ := by
      rw [nextAttempt_eq_some_iff, countFailure_of_discovery (by decide)]
      refine ⟨rfl, ?_, ?_⟩
      · show 0 ≤ limits.retryCount
        omega
      · show 1 ≤ limits.discoveryRetries
        omega
    unfold alternating
    simp only [attemptsAfter, hfirst, hsecond]
    rw [ih rfl]
    omega

/-- The attempts of one request are bounded, however they fail, exactly when one of the two limits
leaves no room for a retry. -/
theorem attempts_bounded_iff (limits : RetryLimits) :
    (∃ bound, ∀ failures, attemptsAfter limits .zero failures ≤ bound) ↔ limits.Ends := by
  constructor
  · rintro ⟨bound, hbound⟩
    by_contra hends
    have hfailures := hbound (alternating (bound + 1))
    rw [attempts_alternating hends (bound + 1) rfl] at hfailures
    omega
  · intro hends
    refine ⟨limits.bound, fun failures ↦ ?_⟩
    have hall := (counted_zero limits).attemptsAfter_add_le hends failures
    omega

end Pysnmp.Entity.Rfc3413.Retries
