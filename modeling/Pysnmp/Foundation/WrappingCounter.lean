import Mathlib.Data.List.Chain
import Mathlib.Tactic

/-!
# Counters that wrap

A counter counts up and goes back to zero at its maximum. One that may overstep the maximum before
it does still takes its values in turn: of `maximum + 1` values in a row no two are equal
(`Counts.ne`). If it never oversteps it, its values are the remainders (`Counts.eq_mod`).
-/

set_option autoImplicit false
set_option relaxedAutoImplicit false

namespace Pysnmp.Foundation.WrappingCounter

variable {maximum : ℕ}

/-- What may come after a value: the next one, or zero where the maximum is reached. -/
def Follows (maximum value next : ℕ) : Prop :=
  next = value + 1 ∨ next = 0 ∧ maximum ≤ value

/-- Every value of a counter is followed by one that may come after it. -/
def Counts (maximum : ℕ) (counter : ℕ → ℕ) : Prop :=
  ∀ n, Follows maximum (counter n) (counter (n + 1))

theorem isChain_range' (first length : ℕ) :
    (List.range' first length).IsChain (Follows maximum) :=
  (List.isChain_range' first length 1).imp fun _ _ heq ↦ Or.inl heq

namespace Counts

variable {counter : ℕ → ℕ}

/-- Some values later the counter is as much higher, or it is lower by what it counted to, or
more. -/
theorem add (hcounts : Counts maximum counter) (n steps : ℕ) :
    counter (n + steps) = counter n + steps ∨
      counter (n + steps) + maximum + 1 ≤ counter n + steps := by
  induction steps with
  | zero => exact Or.inl rfl
  | succ steps ih =>
    have hnext := hcounts (n + steps)
    rw [← Nat.add_assoc]
    rcases hnext with hnext | ⟨hnext, hmaximum⟩
    · omega
    · omega

/-- Of `maximum + 1` values in a row no two are equal. -/
theorem ne (hcounts : Counts maximum counter) {m n : ℕ} (hlt : m < n) (hle : n ≤ m + maximum) :
    counter m ≠ counter n := by
  have hadd := hcounts.add m (n - m)
  rw [Nat.add_sub_cancel' hlt.le] at hadd
  omega

/-- A counter that never exceeds its maximum takes the remainders. -/
theorem eq_mod (hcounts : Counts maximum counter) (hle : ∀ n, counter n ≤ maximum) (n : ℕ) :
    counter n = (counter 0 + n) % (maximum + 1) := by
  induction n with
  | zero => exact (Nat.mod_eq_of_lt (Nat.lt_succ_of_le (hle 0))).symm
  | succ n ih =>
    rw [← Nat.add_assoc, ← Nat.mod_add_mod, ← ih]
    rcases hcounts n with hnext | ⟨hnext, hmaximum⟩
    · rw [← hnext]
      exact (Nat.mod_eq_of_lt (Nat.lt_succ_of_le (hle (n + 1)))).symm
    · rw [hnext, le_antisymm (hle n) hmaximum, Nat.mod_self]

end Counts

end Pysnmp.Foundation.WrappingCounter
