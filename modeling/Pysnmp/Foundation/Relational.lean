import Pysnmp.Foundation.Effect

/-!
# Programs that do not tell related states apart

A program respects a relation when from related states it ends alike, with the same value or the
same exception, and in related states again. The rules compose such programs; `Respects.get_bind` is
the one for a program that reads the whole state and must then not depend on the rest of it.
-/

set_option autoImplicit false
set_option relaxedAutoImplicit false

namespace Pysnmp.Foundation.Effect

variable {σ ε α β : Type} {relation : σ → σ → Prop}

/-- From related states the program ends alike, in related states. -/
def Respects (relation : σ → σ → Prop) (program : Effect σ ε α) : Prop :=
  ∀ state other, relation state other →
    (program.run state).1 = (program.run other).1 ∧
      relation (program.run state).2 (program.run other).2

theorem respects_pure (value : α) : Respects relation (pure value : Effect σ ε α) :=
  fun _ _ hrelated ↦ ⟨rfl, hrelated⟩

theorem respects_raise (exception : ε) : Respects relation (raise exception : Effect σ ε α) :=
  fun _ _ hrelated ↦ ⟨rfl, hrelated⟩

theorem respects_liftExcept (result : Except ε α) :
    Respects relation (liftExcept result : Effect σ ε α) :=
  fun _ _ hrelated ↦ ⟨rfl, hrelated⟩

theorem respects_modify {change : σ → σ}
    (hchange : ∀ state other, relation state other → relation (change state) (change other)) :
    Respects relation (modify change : Effect σ ε Unit) :=
  fun state other hrelated ↦ ⟨rfl, hchange state other hrelated⟩

theorem Respects.bind {program : Effect σ ε α} {next : α → Effect σ ε β}
    (hprogram : Respects relation program) (hnext : ∀ value, Respects relation (next value)) :
    Respects relation (program >>= next) := by
  intro state other hrelated
  obtain ⟨hresult, hafter⟩ := hprogram state other hrelated
  rcases ok_or_error program other with ⟨value, after, hok⟩ | ⟨exception, after, herror⟩
  · have hrun : program.run state = (.ok value, (program.run state).2) :=
      Prod.ext (by rw [hresult, hok]) rfl
    rw [bind_run_of_ok hok, bind_run_of_ok hrun]
    exact hnext value _ _ (by rwa [hok] at hafter)
  · have hrun : program.run state = (.error exception, (program.run state).2) :=
      Prod.ext (by rw [hresult, herror]) rfl
    rw [bind_run_of_error herror, bind_run_of_error hrun]
    exact ⟨rfl, by rwa [herror] at hafter⟩

/-- After reading two related states the program goes on as one that respects the relation. -/
theorem Respects.get_bind {next : σ → Effect σ ε β}
    (hnext : ∀ state other, relation state other → next state = next other)
    (hrespects : ∀ state, Respects relation (next state)) :
    Respects relation (get >>= next) := by
  intro state other hrelated
  have hsame := hrespects state state other hrelated
  have hother := hnext state other hrelated
  change ((next state).run state).1 = ((next other).run other).1 ∧
    relation ((next state).run state).2 ((next other).run other).2
  rwa [← hother]

theorem Respects.ite {condition : Prop} [Decidable condition] {program other : Effect σ ε α}
    (hprogram : Respects relation program) (hother : Respects relation other) :
    Respects relation (if condition then program else other) := by
  split_ifs
  · exact hprogram
  · exact hother

theorem Respects.runIf {condition : Prop} [Decidable condition] {program : Effect σ ε Unit}
    (hprogram : Respects relation program) :
    Respects relation (Effect.runIf condition program) :=
  hprogram.ite (respects_pure ())

theorem Respects.forEach {body : α → Effect σ ε Unit} {elements : List α}
    (hbody : ∀ element ∈ elements, Respects relation (body element)) :
    Respects relation (Effect.forEach body elements) := by
  induction elements with
  | nil => exact respects_pure ()
  | cons element rest ih =>
    rw [forEach_cons]
    exact (hbody element List.mem_cons_self).bind
      fun _ ↦ ih fun other hother ↦ hbody other (List.mem_cons_of_mem _ hother)

end Pysnmp.Foundation.Effect
