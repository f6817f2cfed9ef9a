import Mathlib.Tactic

/-!
# Runs of a state machine

A deterministic machine is a step function `σ → ι → σ`, and a run of it is a list of inputs consumed
from a state. `EveryStep step holds state inputs` says that `holds` is true at every step of the
run, of the state before the step and the input consumed there.

The rules: `EveryStep.append_iff` cuts a run in two, `EveryStep.congr` replaces the predicate by one
that is equivalent at the steps of the run, `EveryStep.of_invariant` proves a predicate of every
step from an invariant that the steps of the run preserve, `EveryStep.foldl_invariant` has the
invariant where the run ends, and `EveryStep.iff_of_invariant` exchanges predicates that are
equivalent under an invariant. Where steps can fail, `foldlM_invariant` is the same rule for the
runs that do not.
-/

set_option autoImplicit false
set_option relaxedAutoImplicit false

namespace Pysnmp.Foundation

variable {σ ι : Type*} {step : σ → ι → σ}

/-- A predicate holds at every step of a run. -/
def EveryStep (step : σ → ι → σ) (holds : σ → ι → Prop) : σ → List ι → Prop
  | _, [] => True
  | state, input :: inputs => holds state input ∧ EveryStep step holds (step state input) inputs

instance EveryStep.decidable (step : σ → ι → σ) (holds : σ → ι → Prop)
    [∀ state, DecidablePred (holds state)] :
    ∀ state inputs, Decidable (EveryStep step holds state inputs)
  | _, [] => .isTrue trivial
  | state, input :: inputs =>
    have := EveryStep.decidable step holds (step state input) inputs
    inferInstanceAs (Decidable (_ ∧ _))

namespace EveryStep

variable {holds other : σ → ι → Prop}

/-- A run is a first part and the rest from where that ends. -/
theorem append_iff {state : σ} {inputs rest : List ι} :
    EveryStep step holds state (inputs ++ rest) ↔
      EveryStep step holds state inputs ∧
        EveryStep step holds (inputs.foldl step state) rest := by
  induction inputs generalizing state with
  | nil => exact ⟨fun hrest ↦ ⟨trivial, hrest⟩, And.right⟩
  | cons input inputs ih =>
    exact Iff.trans (and_congr_right fun _ ↦ ih) and_assoc.symm

/-- What holds of every input in every state holds at every step. -/
theorem of_forall {state : σ} {inputs : List ι}
    (hholds : ∀ state, ∀ input ∈ inputs, holds state input) :
    EveryStep step holds state inputs := by
  induction inputs generalizing state with
  | nil => trivial
  | cons input inputs ih =>
    exact ⟨hholds state input List.mem_cons_self,
      ih fun other rest hmem ↦ hholds other rest (List.mem_cons_of_mem _ hmem)⟩

/-- Predicates that are equivalent wherever the run's steps satisfy a third one are
interchangeable. -/
theorem congr {condition : σ → ι → Prop} {state : σ} {inputs : List ι}
    (hcondition : EveryStep step condition state inputs)
    (hiff : ∀ state input, condition state input → (holds state input ↔ other state input)) :
    EveryStep step holds state inputs ↔ EveryStep step other state inputs := by
  induction inputs generalizing state with
  | nil => exact Iff.rfl
  | cons input inputs ih =>
    obtain ⟨hhere, hrest⟩ := hcondition
    exact and_congr (hiff state input hhere) (ih hrest)

/-- The induction rule: an invariant that the steps of the run preserve, and that gives the
predicate at each of them. -/
theorem of_invariant {condition : σ → ι → Prop} {state : σ} {inputs : List ι}
    (hcondition : EveryStep step condition state inputs) (invariant : σ → Prop)
    (hstate : invariant state)
    (hstep : ∀ state input, invariant state → condition state input →
      holds state input ∧ invariant (step state input)) :
    EveryStep step holds state inputs := by
  induction inputs generalizing state with
  | nil => trivial
  | cons input inputs ih =>
    obtain ⟨hhere, hrest⟩ := hcondition
    obtain ⟨hholds, hnext⟩ := hstep state input hstate hhere
    exact ⟨hholds, ih hrest hnext⟩

/-- An invariant that the steps of the run preserve holds where it ends. -/
theorem foldl_invariant {condition : σ → ι → Prop} {state : σ} {inputs : List ι}
    (hcondition : EveryStep step condition state inputs) (invariant : σ → Prop)
    (hstate : invariant state)
    (hstep : ∀ state input, invariant state → condition state input →
      invariant (step state input)) :
    invariant (inputs.foldl step state) := by
  induction inputs generalizing state with
  | nil => exact hstate
  | cons input inputs ih =>
    obtain ⟨hhere, hrest⟩ := hcondition
    exact ih hrest (hstep state input hstate hhere)

/-- Two predicates that are equivalent under an invariant, which a step that satisfies the first
preserves, hold of the same runs. -/
theorem iff_of_invariant {condition : σ → ι → Prop} {state : σ} {inputs : List ι}
    (hcondition : EveryStep step condition state inputs) (invariant : σ → Prop)
    (hstate : invariant state)
    (hstep : ∀ state input, invariant state → condition state input →
      (holds state input ↔ other state input) ∧
        (holds state input → invariant (step state input))) :
    EveryStep step holds state inputs ↔ EveryStep step other state inputs := by
  induction inputs generalizing state with
  | nil => exact Iff.rfl
  | cons input inputs ih =>
    obtain ⟨hhere, hrest⟩ := hcondition
    obtain ⟨hiff, hnext⟩ := hstep state input hstate hhere
    rw [EveryStep, EveryStep, ← hiff]
    exact and_congr_right fun hholds ↦ ih hrest (hnext hholds)

end EveryStep

/-! ### Runs that can fail -/

/-- An invariant that every successful step of a run preserves holds where the run ends, if it does
not fail. -/
theorem foldlM_invariant {σ ι ε : Type} {step : σ → ι → Except ε σ} {inputs : List ι}
    {state after : σ} (hrun : inputs.foldlM step state = .ok after) (invariant : σ → Prop)
    (hstate : invariant state)
    (hstep : ∀ state, ∀ input ∈ inputs, ∀ next, invariant state → step state input = .ok next →
      invariant next) :
    invariant after := by
  induction inputs generalizing state with
  | nil =>
    cases hrun
    exact hstate
  | cons input inputs ih =>
    rw [List.foldlM_cons] at hrun
    cases hnext : step state input with
    | error exception =>
      rw [hnext] at hrun
      cases hrun
    | ok next =>
      rw [hnext] at hrun
      exact ih hrun (hstep state input List.mem_cons_self next hstate hnext)
        fun state other hother ↦ hstep state other (List.mem_cons_of_mem _ hother)

end Pysnmp.Foundation
