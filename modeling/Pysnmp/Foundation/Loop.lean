import Mathlib.Tactic

/-!
# Loops turn by turn

A loop is a function that makes one turn: it goes on from another state or ends with a result.
`within` makes a number of turns. The rule for total correctness has an invariant and a measure that
each turn lowers (`within_of_measure`), that for partial correctness has the invariant alone
(`post_of_within`); a loop does not end from a state that lies in a set of
states no turn leads out of and none ends (`within_eq_none`).
-/

set_option autoImplicit false
set_option relaxedAutoImplicit false

namespace Pysnmp.Foundation.Loop

variable {σ ρ : Type*} {turn : σ → σ ⊕ ρ}

/-- The result of a loop, if it ends in a number of turns. -/
def within (turn : σ → σ ⊕ ρ) : ℕ → σ → Option ρ
  | 0, _ => none
  | turns + 1, state =>
    match turn state with
    | .inl next => within turn turns next
    | .inr result => some result

/-- The loop ends with a result. -/
def EndsWith (turn : σ → σ ⊕ ρ) (state : σ) (result : ρ) : Prop :=
  ∃ turns, within turn turns state = some result

theorem within_of_inl {state next : σ} (hturn : turn state = .inl next) (turns : ℕ) :
    within turn (turns + 1) state = within turn turns next := by
  rw [within, hturn]

theorem within_of_inr {state : σ} {result : ρ} (hturn : turn state = .inr result) (turns : ℕ) :
    within turn (turns + 1) state = some result := by
  rw [within, hturn]

/-- A loop that has ended has ended with more turns too. -/
theorem within_mono {state : σ} {result : ρ} {turns more : ℕ} (hle : turns ≤ more)
    (hwithin : within turn turns state = some result) :
    within turn more state = some result := by
  induction turns generalizing state more with
  | zero => cases hwithin
  | succ turns ih =>
    obtain ⟨more, rfl⟩ : ∃ fewer, more = fewer + 1 := ⟨more - 1, by omega⟩
    cases hturn : turn state with
    | inl next =>
      rw [within_of_inl hturn] at hwithin ⊢
      exact ih (by omega) hwithin
    | inr last =>
      rw [within_of_inr hturn] at hwithin ⊢
      exact hwithin

/-- A loop has one result. -/
theorem EndsWith.unique {state : σ} {first second : ρ} (hfirst : EndsWith turn state first)
    (hsecond : EndsWith turn state second) : first = second := by
  obtain ⟨turns, hturns⟩ := hfirst
  obtain ⟨more, hmore⟩ := hsecond
  have hboth := within_mono (le_max_left turns more) hturns
  rw [within_mono (le_max_right turns more) hmore] at hboth
  exact (Option.some.inj hboth).symm

/-- Total correctness: the invariant is kept, the measure is lowered by each turn, and what the last
turn ends with satisfies the postcondition. -/
theorem within_of_measure {invariant : σ → Prop} {measure : σ → ℕ} {post : ρ → Prop}
    (hnext : ∀ state next, invariant state → turn state = .inl next →
      invariant next ∧ measure next < measure state)
    (hlast : ∀ state result, invariant state → turn state = .inr result → post result)
    {state : σ} (hstate : invariant state) {turns : ℕ} (hturns : measure state < turns) :
    ∃ result, within turn turns state = some result ∧ post result := by
  induction turns generalizing state with
  | zero => exact absurd hturns (Nat.not_lt_zero _)
  | succ turns ih =>
    cases hturn : turn state with
    | inl next =>
      obtain ⟨hkept, hlower⟩ := hnext state next hstate hturn
      rw [within_of_inl hturn]
      exact ih hkept (by omega)
    | inr result => exact ⟨result, within_of_inr hturn turns, hlast state result hstate hturn⟩

/-- Partial correctness: the invariant is kept, and what the last turn ends with satisfies the
postcondition. -/
theorem post_of_within {invariant : σ → Prop} {post : ρ → Prop}
    (hnext : ∀ state next, invariant state → turn state = .inl next → invariant next)
    (hlast : ∀ state result, invariant state → turn state = .inr result → post result)
    {state : σ} (hstate : invariant state) {turns : ℕ} {result : ρ}
    (hwithin : within turn turns state = some result) : post result := by
  induction turns generalizing state with
  | zero => cases hwithin
  | succ turns ih =>
    cases hturn : turn state with
    | inl next =>
      rw [within_of_inl hturn] at hwithin
      exact ih (hnext state next hstate hturn) hwithin
    | inr last =>
      rw [within_of_inr hturn] at hwithin
      rw [← Option.some.inj hwithin]
      exact hlast state last hstate hturn

/-- A loop does not end from a trap. -/
theorem within_eq_none {trap : σ → Prop}
    (hnext : ∀ state, trap state → ∃ next, turn state = .inl next ∧ trap next) {state : σ}
    (hstate : trap state) (turns : ℕ) : within turn turns state = none := by
  induction turns generalizing state with
  | zero => rfl
  | succ turns ih =>
    obtain ⟨next, hturn, htrap⟩ := hnext state hstate
    rw [within_of_inl hturn]
    exact ih htrap

end Pysnmp.Foundation.Loop
