import Mathlib.Tactic

/-!
# Machines that answer

A machine takes a state and an input to an answer and the next state, and `respond` runs it over a
list of inputs. A relation between the states of two machines that every allowed input preserves,
with equal answers, gives equal answers over whole runs and related states where they end
(`respond_eq_of_related`): the one machine cannot be told from the other by what it answers.
-/

set_option autoImplicit false
set_option relaxedAutoImplicit false

namespace Pysnmp.Foundation

variable {σ τ ι ο : Type*}

/-- The answers of a run, and the state where it ends. -/
def respond (machine : σ → ι → ο × σ) : σ → List ι → List ο × σ
  | state, [] => ([], state)
  | state, input :: inputs =>
    ((machine state input).1 :: (respond machine (machine state input).2 inputs).1,
      (respond machine (machine state input).2 inputs).2)

/-- The induction rule: inputs that keep the states of two machines related, with equal answers. -/
theorem respond_eq_of_related {machine : σ → ι → ο × σ} {model : τ → ι → ο × τ}
    (relation : σ → τ → Prop) (allowed : ι → Prop)
    (hstep : ∀ state image input, allowed input → relation state image →
      (machine state input).1 = (model image input).1 ∧
        relation (machine state input).2 (model image input).2)
    {state : σ} {image : τ} (hrelated : relation state image) {inputs : List ι}
    (hallowed : ∀ input ∈ inputs, allowed input) :
    (respond machine state inputs).1 = (respond model image inputs).1 ∧
      relation (respond machine state inputs).2 (respond model image inputs).2 := by
  induction inputs generalizing state image with
  | nil => exact ⟨rfl, hrelated⟩
  | cons input inputs ih =>
    obtain ⟨hanswer, hnext⟩ := hstep state image input (hallowed input List.mem_cons_self) hrelated
    obtain ⟨hanswers, hlast⟩ :=
      ih hnext fun other hother ↦ hallowed other (List.mem_cons_of_mem _ hother)
    exact ⟨congrArg₂ List.cons hanswer hanswers, hlast⟩

end Pysnmp.Foundation
