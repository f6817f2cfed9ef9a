import Mathlib.Order.Defs.Unbundled
import Mathlib.Tactic

/-!
# Programs with state and exceptions

An `Effect σ ε α` reads and writes a state of type `σ` and either returns a value or raises an
exception. Raising does not undo what was written before it: the state at the moment of the
exception is what a handler, and whoever runs the program, sees. This is how object-oriented
programs behave whose objects survive an exception, and it is why every rule below also speaks of
the state in which an exception leaves the program.

There are several ways to reason about a program. `bind_eq_ok_iff` and `bind_eq_error_iff` take a
run of a sequence apart into the runs of its parts. `Keeps R` says that the states before and after,
on return and on exception alike, are related by a preorder `R`; it is closed under the program
constructors, so frame conditions are proved by composing the parts. `Triple` is partial
correctness with a second postcondition for exceptions, and `Triple.forEach` is its loop rule with
an invariant over the elements already processed.

A program that only caches what it computes has the same result from every state in which the caches
are sound. `Yields` says so, and replaces the program by a computation without effect.
-/

set_option autoImplicit false
set_option relaxedAutoImplicit false

namespace Pysnmp.Foundation

/-- A sequence of computations without a state succeeds when both of them do. -/
theorem exists_of_bind_eq_ok {ε α β : Type} {first : Except ε α} {next : α → Except ε β}
    {result : β} (hbind : first >>= next = .ok result) :
    ∃ value, first = .ok value ∧ next value = .ok result := by
  cases first with
  | error exception => cases hbind
  | ok value => exact ⟨value, rfl, hbind⟩

/-- A program over a state, with exceptions that do not undo what was written. -/
structure Effect (σ ε α : Type) where
  run : σ → Except ε α × σ

namespace Effect

variable {σ ε α β : Type}

instance : Monad (Effect σ ε) where
  pure := fun value ↦ ⟨fun state ↦ (.ok value, state)⟩
  bind := fun program next ↦ ⟨fun state ↦
    match program.run state with
    | (.ok value, state) => (next value).run state
    | (.error exception, state) => (.error exception, state)⟩

/-- Raise an exception. -/
def raise (exception : ε) : Effect σ ε α :=
  ⟨fun state ↦ (.error exception, state)⟩

/-- Run a program and, if it raises, the handler in the state it left. -/
def handle (program : Effect σ ε α) (handler : ε → Effect σ ε α) : Effect σ ε α :=
  ⟨fun state ↦
    match program.run state with
    | (.ok value, state) => (.ok value, state)
    | (.error exception, state) => (handler exception).run state⟩

/-- Run a program and return what comes of it, a value or an exception. -/
def outcomeOf (program : Effect σ ε α) : Effect σ ε (Except ε α) :=
  ⟨fun state ↦ (.ok (program.run state).1, (program.run state).2)⟩

/-- Read the state. -/
def get : Effect σ ε σ :=
  ⟨fun state ↦ (.ok state, state)⟩

/-- Read a part of the state. -/
def gets (part : σ → α) : Effect σ ε α :=
  ⟨fun state ↦ (.ok (part state), state)⟩

/-- Replace the state. -/
def modify (change : σ → σ) : Effect σ ε Unit :=
  ⟨fun state ↦ (.ok (), change state)⟩

/-- The value of a computation without effect, or its exception. -/
def liftExcept (result : Except ε α) : Effect σ ε α :=
  ⟨fun state ↦ (result, state)⟩

/-- Run a program on a part of the state. -/
def focus {τ : Type} (part : σ → τ) (update : τ → σ → σ) (program : Effect τ ε α) :
    Effect σ ε α :=
  ⟨fun state ↦
    let result := program.run (part state)
    (result.1, update result.2 state)⟩

/-- Run a program only under a condition. -/
def runIf (condition : Prop) [Decidable condition] (program : Effect σ ε Unit) :
    Effect σ ε Unit :=
  if condition then program else pure ()

/-- Run a program for each element of a list, in order, until one raises. -/
def forEach (body : α → Effect σ ε Unit) : List α → Effect σ ε Unit
  | [] => pure ()
  | element :: rest => do
    body element
    forEach body rest

/-! ### Runs of the program constructors -/

@[simp] theorem pure_run (value : α) (state : σ) :
    (pure value : Effect σ ε α).run state = (.ok value, state) :=
  rfl

@[simp] theorem raise_run (exception : ε) (state : σ) :
    (raise exception : Effect σ ε α).run state = (.error exception, state) :=
  rfl

@[simp] theorem outcomeOf_run (program : Effect σ ε α) (state : σ) :
    (outcomeOf program).run state = (.ok (program.run state).1, (program.run state).2) :=
  rfl

@[simp] theorem get_run (state : σ) : (get : Effect σ ε σ).run state = (.ok state, state) :=
  rfl

@[simp] theorem gets_run (part : σ → α) (state : σ) :
    (gets part : Effect σ ε α).run state = (.ok (part state), state) :=
  rfl

@[simp] theorem modify_run (change : σ → σ) (state : σ) :
    (modify change : Effect σ ε Unit).run state = (.ok (), change state) :=
  rfl

@[simp] theorem liftExcept_run (result : Except ε α) (state : σ) :
    (liftExcept result : Effect σ ε α).run state = (result, state) :=
  rfl

@[simp] theorem focus_run {τ : Type} (part : σ → τ) (update : τ → σ → σ)
    (program : Effect τ ε α) (state : σ) :
    (focus part update program).run state =
      ((program.run (part state)).1, update (program.run (part state)).2 state) :=
  rfl

@[simp] theorem forEach_nil (body : α → Effect σ ε Unit) : forEach body [] = pure () :=
  rfl

theorem runIf_of_true {condition : Prop} [Decidable condition] (program : Effect σ ε Unit)
    (hcondition : condition) : runIf condition program = program :=
  if_pos hcondition

theorem runIf_of_false {condition : Prop} [Decidable condition] (program : Effect σ ε Unit)
    (hcondition : ¬ condition) : runIf condition program = pure () :=
  if_neg hcondition

theorem forEach_cons (body : α → Effect σ ε Unit) (element : α) (rest : List α) :
    forEach body (element :: rest) = (body element >>= fun _ ↦ forEach body rest) :=
  rfl

/-- A program that succeeds goes on with its value, in the state it left. -/
theorem bind_run_of_ok {program : Effect σ ε α} {next : α → Effect σ ε β} {state after : σ}
    {value : α} (hrun : program.run state = (.ok value, after)) :
    (program >>= next).run state = (next value).run after := by
  change (match program.run state with
    | (.ok value, state) => (next value).run state
    | (.error exception, state) => (.error exception, state)) = _
  rw [hrun]

/-- A program that raises does not go on. -/
theorem bind_run_of_error {program : Effect σ ε α} {next : α → Effect σ ε β}
    {state after : σ} {exception : ε} (hrun : program.run state = (.error exception, after)) :
    (program >>= next).run state = (.error exception, after) := by
  change (match program.run state with
    | (.ok value, state) => (next value).run state
    | (.error exception, state) => (.error exception, state)) = _
  rw [hrun]

/-- A handler is not asked where the program succeeds. -/
theorem handle_run_of_ok {program : Effect σ ε α} {handler : ε → Effect σ ε α}
    {state after : σ} {value : α} (hrun : program.run state = (.ok value, after)) :
    (handle program handler).run state = (.ok value, after) := by
  simp only [handle, hrun]

/-- A handler goes on where the program raised, in the state it left. -/
theorem handle_run_of_error {program : Effect σ ε α} {handler : ε → Effect σ ε α}
    {state after : σ} {exception : ε} (hrun : program.run state = (.error exception, after)) :
    (handle program handler).run state = (handler exception).run after := by
  simp only [handle, hrun]

/-- Programs with the same runs are equal. -/
@[ext] theorem ext {program other : Effect σ ε α}
    (hrun : ∀ state, program.run state = other.run state) : program = other := by
  cases program
  cases other
  congr 1
  exact funext hrun

/-- Every run of a program returns or raises. -/
theorem ok_or_error (program : Effect σ ε α) (state : σ) :
    (∃ value after, program.run state = (.ok value, after)) ∨
      ∃ exception after, program.run state = (.error exception, after) := by
  rcases program.run state with ⟨exception | value, after⟩
  · exact Or.inr ⟨exception, after, rfl⟩
  · exact Or.inl ⟨value, after, rfl⟩

/-- Programs with the same run from a state have it with what follows them. -/
theorem bind_run_congr {program other : Effect σ ε α} {next : α → Effect σ ε β} {state : σ}
    (hrun : program.run state = other.run state) :
    (program >>= next).run state = (other >>= next).run state := by
  rcases ok_or_error other state with ⟨value, after, hok⟩ | ⟨exception, after, herror⟩
  · rw [bind_run_of_ok hok, bind_run_of_ok (hrun.trans hok)]
  · rw [bind_run_of_error herror, bind_run_of_error (hrun.trans herror)]

/-- The result of a sequence, when the second part's result is known in the state it starts in. -/
theorem bind_run_fst {program : Effect σ ε α} {next : α → Effect σ ε β} {state : σ}
    {result : Except ε α} {follow : α → Except ε β} (hresult : (program.run state).1 = result)
    (hnext : ∀ value, ((next value).run (program.run state).2).1 = follow value) :
    ((program >>= next).run state).1 = result >>= follow := by
  subst hresult
  rcases ok_or_error program state with ⟨value, after, hok⟩ | ⟨exception, after, herror⟩
  · rw [bind_run_of_ok hok, hok]
    have hafter := hnext value
    rwa [hok] at hafter
  · rw [bind_run_of_error herror, herror]
    rfl

/-- Returning a value after a program leaves the state as the program does. -/
theorem bind_pure_run_snd (program : Effect σ ε α) (value : β) (state : σ) :
    ((program >>= fun _ ↦ pure value).run state).2 = (program.run state).2 := by
  rcases ok_or_error program state with ⟨_, after, hok⟩ | ⟨exception, after, herror⟩
  · rw [bind_run_of_ok hok, hok, pure_run]
  · rw [bind_run_of_error herror, herror]

/-- A sequence returns when both parts do, the second from the state the first left. -/
theorem bind_eq_ok_iff {program : Effect σ ε α} {next : α → Effect σ ε β} {state last : σ}
    {result : β} :
    (program >>= next).run state = (.ok result, last) ↔
      ∃ value after, program.run state = (.ok value, after) ∧
        (next value).run after = (.ok result, last) := by
  constructor
  · intro hrun
    rcases ok_or_error program state with ⟨value, after, hok⟩ | ⟨exception, after, herror⟩
    · exact ⟨value, after, hok, by rwa [bind_run_of_ok hok] at hrun⟩
    · rw [bind_run_of_error herror] at hrun
      cases hrun
  · rintro ⟨value, after, hok, hnext⟩
    rwa [bind_run_of_ok hok]

/-- A sequence raises when its first part does, or its second from the state the first left. -/
theorem bind_eq_error_iff {program : Effect σ ε α} {next : α → Effect σ ε β} {state last : σ}
    {exception : ε} :
    (program >>= next).run state = (.error exception, last) ↔
      program.run state = (.error exception, last) ∨
        ∃ value after, program.run state = (.ok value, after) ∧
          (next value).run after = (.error exception, last) := by
  constructor
  · intro hrun
    rcases ok_or_error program state with ⟨value, after, hok⟩ | ⟨raised, after, herror⟩
    · exact Or.inr ⟨value, after, hok, by rwa [bind_run_of_ok hok] at hrun⟩
    · rw [bind_run_of_error herror] at hrun
      cases hrun
      exact Or.inl herror
  · rintro (herror | ⟨value, after, hok, hnext⟩)
    · exact bind_run_of_error herror
    · rwa [bind_run_of_ok hok]

theorem id_map_eq (program : Effect σ ε α) : id <$> program = program := by
  ext1 state
  change (program >>= fun value ↦ pure (id value)).run state = _
  rcases ok_or_error program state with ⟨value, after, hok⟩ | ⟨exception, after, herror⟩
  · rw [bind_run_of_ok hok, hok, pure_run, id]
  · rw [bind_run_of_error herror, herror]

theorem bind_bind {γ : Type} (program : Effect σ ε α) (next : α → Effect σ ε β)
    (last : β → Effect σ ε γ) :
    program >>= next >>= last = program >>= fun value ↦ next value >>= last := by
  ext1 state
  rcases ok_or_error program state with ⟨value, after, hok⟩ | ⟨exception, after, herror⟩
  · rw [bind_run_of_ok hok]
    rcases ok_or_error (next value) after with ⟨_, _, hnext⟩ | ⟨_, _, hnext⟩
    · rw [bind_run_of_ok hnext, bind_run_of_ok (by rw [bind_run_of_ok hok, hnext])]
    · rw [bind_run_of_error hnext, bind_run_of_error (by rw [bind_run_of_ok hok, hnext])]
  · rw [bind_run_of_error herror, bind_run_of_error (bind_run_of_error herror)]

instance : LawfulMonad (Effect σ ε) :=
  LawfulMonad.mk' _ id_map_eq (fun _ _ ↦ rfl) bind_bind

/-- The result of a program under a function. -/
theorem map_run_fst (image : α → β) (program : Effect σ ε α) (state : σ) :
    ((image <$> program).run state).1 = (program.run state).1.map image := by
  rw [← bind_pure_comp]
  rcases ok_or_error program state with ⟨value, after, hok⟩ | ⟨exception, after, herror⟩
  · rw [bind_run_of_ok hok, hok]
    rfl
  · rw [bind_run_of_error herror, herror]
    rfl

/-! ### Relations between the states before and after -/

/-- The state in which a program ends, by returning or by raising, is related to the one it starts
in. -/
def Keeps (relation : σ → σ → Prop) (program : Effect σ ε α) : Prop :=
  ∀ state, relation state (program.run state).2

section Keeps

variable {relation : σ → σ → Prop}

/-- What a program keeps relates the two ends of any of its runs. -/
theorem Keeps.of_run {program : Effect σ ε α} (hkeeps : Keeps relation program) {state after : σ}
    {result : Except ε α} (hrun : program.run state = (result, after)) : relation state after := by
  have hrelated := hkeeps state
  rwa [hrun] at hrelated

/-- A program that keeps a relation keeps every weaker one. -/
theorem Keeps.mono {stronger : σ → σ → Prop} {program : Effect σ ε α}
    (hkeeps : Keeps stronger program) (himp : ∀ before after, stronger before after →
      relation before after) : Keeps relation program :=
  fun state ↦ himp _ _ (hkeeps state)

section Refl

variable [Std.Refl relation]

theorem keeps_pure (value : α) : Keeps relation (pure value : Effect σ ε α) :=
  fun state ↦ refl_of relation state

theorem keeps_raise (exception : ε) : Keeps relation (raise exception : Effect σ ε α) :=
  fun state ↦ refl_of relation state

theorem keeps_get : Keeps relation (get : Effect σ ε σ) :=
  fun state ↦ refl_of relation state

theorem keeps_gets (part : σ → α) : Keeps relation (gets part : Effect σ ε α) :=
  fun state ↦ refl_of relation state

theorem keeps_liftExcept (result : Except ε α) :
    Keeps relation (liftExcept result : Effect σ ε α) :=
  fun state ↦ refl_of relation state

end Refl

theorem keeps_modify {change : σ → σ} (hchange : ∀ state, relation state (change state)) :
    Keeps relation (modify change : Effect σ ε Unit) :=
  hchange

/-- The states before and after a sequence are related when the first part relates them on this
run and the second part on every run. -/
theorem related_bind_run [IsTrans σ relation] {program : Effect σ ε α}
    {next : α → Effect σ ε β} {state : σ} (hprogram : relation state (program.run state).2)
    (hnext : ∀ value, Keeps relation (next value)) :
    relation state ((program >>= next).run state).2 := by
  rcases ok_or_error program state with ⟨value, after, hok⟩ | ⟨exception, after, herror⟩
  · rw [hok] at hprogram
    rw [bind_run_of_ok hok]
    exact trans_of relation hprogram (hnext value after)
  · rw [herror] at hprogram
    rwa [bind_run_of_error herror]

/-- Two programs one after the other keep what both keep. -/
theorem Keeps.bind [IsTrans σ relation] {program : Effect σ ε α} {next : α → Effect σ ε β}
    (hprogram : Keeps relation program) (hnext : ∀ value, Keeps relation (next value)) :
    Keeps relation (program >>= next) :=
  fun state ↦ related_bind_run (hprogram state) hnext

/-- A program with its handler keeps what both keep. -/
theorem Keeps.handle [IsTrans σ relation] {program : Effect σ ε α}
    {handler : ε → Effect σ ε α} (hprogram : Keeps relation program)
    (hhandler : ∀ exception, Keeps relation (handler exception)) :
    Keeps relation (handle program handler) := by
  intro state
  have hfirst := hprogram state
  rcases ok_or_error program state with ⟨value, after, hok⟩ | ⟨exception, after, herror⟩
  · rw [hok] at hfirst
    rwa [handle_run_of_ok hok]
  · rw [herror] at hfirst
    rw [handle_run_of_error herror]
    exact trans_of relation hfirst (hhandler exception after)

/-- A program on a part of the state keeps what its changes of that part amount to. -/
theorem Keeps.focus {τ : Type} {part : σ → τ} {update : τ → σ → σ} {inner : τ → τ → Prop}
    {program : Effect τ ε α} (hprogram : Keeps inner program)
    (hupdate : ∀ state after, inner (part state) after → relation state (update after state)) :
    Keeps relation (focus part update program) :=
  fun state ↦ hupdate state _ (hprogram (part state))

theorem Keeps.ite {condition : Prop} [Decidable condition] {program other : Effect σ ε α}
    (hprogram : Keeps relation program) (hother : Keeps relation other) :
    Keeps relation (if condition then program else other) := by
  split_ifs
  · exact hprogram
  · exact hother

theorem Keeps.runIf [Std.Refl relation] {condition : Prop} [Decidable condition]
    {program : Effect σ ε Unit} (hprogram : Keeps relation program) :
    Keeps relation (runIf condition program) :=
  hprogram.ite (keeps_pure ())

/-- A loop keeps what its body keeps. -/
theorem Keeps.forEach [Std.Refl relation] [IsTrans σ relation] {body : α → Effect σ ε Unit}
    {elements : List α} (hbody : ∀ element ∈ elements, Keeps relation (body element)) :
    Keeps relation (forEach body elements) := by
  induction elements with
  | nil => exact keeps_pure ()
  | cons element rest ih =>
    rw [forEach_cons]
    exact (hbody element List.mem_cons_self).bind
      fun _ ↦ ih fun other hother ↦ hbody other (List.mem_cons_of_mem _ hother)

end Keeps

/-! ### Exceptions -/

/-- Whatever a program raises satisfies the predicate. -/
def Raises (allowed : ε → Prop) (program : Effect σ ε α) : Prop :=
  ∀ state after exception, program.run state = (.error exception, after) → allowed exception

section Raises

variable {allowed : ε → Prop}

/-- A program that always succeeds raises nothing. -/
theorem raises_of_ok {program : Effect σ ε α}
    (hok : ∀ state, ∃ value, (program.run state).1 = .ok value) : Raises allowed program := by
  intro state after exception hrun
  obtain ⟨value, hvalue⟩ := hok state
  rw [hrun] at hvalue
  cases hvalue

theorem raises_pure (value : α) : Raises allowed (pure value : Effect σ ε α) :=
  raises_of_ok fun _ ↦ ⟨value, rfl⟩

theorem raises_gets (part : σ → α) : Raises allowed (gets part : Effect σ ε α) :=
  raises_of_ok fun state ↦ ⟨part state, rfl⟩

theorem raises_modify (change : σ → σ) : Raises allowed (modify change : Effect σ ε Unit) :=
  raises_of_ok fun _ ↦ ⟨(), rfl⟩

theorem raises_raise {exception : ε} (hallowed : allowed exception) :
    Raises allowed (raise exception : Effect σ ε α) := by
  intro state after other hrun
  rw [raise_run, Prod.mk.injEq, Except.error.injEq] at hrun
  exact hrun.1 ▸ hallowed

/-- Two programs one after the other raise what either may. -/
theorem Raises.bind {program : Effect σ ε α} {next : α → Effect σ ε β}
    (hprogram : Raises allowed program) (hnext : ∀ value, Raises allowed (next value)) :
    Raises allowed (program >>= next) := by
  intro state after exception hrun
  rcases bind_eq_error_iff.mp hrun with herror | ⟨value, middle, hok, herror⟩
  · exact hprogram _ _ _ herror
  · exact hnext value _ _ _ herror

/-- A handler that raises what is allowed keeps the program to that. -/
theorem Raises.handle {program : Effect σ ε α} {handler : ε → Effect σ ε α} {raised : ε → Prop}
    (hprogram : Raises raised program)
    (hhandler : ∀ exception, raised exception → Raises allowed (handler exception)) :
    Raises allowed (handle program handler) := by
  intro state after exception hrun
  rcases ok_or_error program state with ⟨value, middle, hok⟩ | ⟨first, middle, herror⟩
  · rw [handle_run_of_ok hok] at hrun
    cases hrun
  · rw [handle_run_of_error herror] at hrun
    exact hhandler first (hprogram _ _ _ herror) _ _ _ hrun

/-- A handler that only raises again what the program raises is not seen. -/
theorem Raises.handle_eq {program : Effect σ ε α} {handler : ε → Effect σ ε α}
    (hprogram : Raises allowed program)
    (hhandler : ∀ exception, allowed exception → handler exception = raise exception) :
    Effect.handle program handler = program := by
  ext1 state
  rcases ok_or_error program state with ⟨value, after, hok⟩ | ⟨exception, after, herror⟩
  · rw [handle_run_of_ok hok, hok]
  · rw [handle_run_of_error herror, hhandler exception (hprogram _ _ _ herror), raise_run, herror]

end Raises

/-! ### Partial correctness -/

/-- Started where the precondition holds, a program that returns ends where `post` holds of its
value, and a program that raises ends where `raises` holds of its exception. -/
def Triple (pre : σ → Prop) (program : Effect σ ε α) (post : α → σ → Prop)
    (raises : ε → σ → Prop) : Prop :=
  ∀ state, pre state →
    (∀ value after, program.run state = (.ok value, after) → post value after) ∧
      ∀ exception after, program.run state = (.error exception, after) → raises exception after

section Triple

variable {pre : σ → Prop} {raises : ε → σ → Prop}

/-- A triple holds with a stronger precondition and weaker postconditions. -/
theorem Triple.consequence {program : Effect σ ε α} {post : α → σ → Prop}
    {pre' : σ → Prop} {post' : α → σ → Prop} {raises' : ε → σ → Prop}
    (htriple : Triple pre program post raises) (hpre : ∀ state, pre' state → pre state)
    (hpost : ∀ value state, post value state → post' value state)
    (hraises : ∀ exception state, raises exception state → raises' exception state) :
    Triple pre' program post' raises' :=
  fun state hstate ↦
    ⟨fun value after hrun ↦ hpost _ _ ((htriple state (hpre state hstate)).1 value after hrun),
      fun exception after hrun ↦
        hraises _ _ ((htriple state (hpre state hstate)).2 exception after hrun)⟩

/-- The precondition of a value is the postcondition at it. -/
theorem triple_pure (value : α) (post : α → σ → Prop) :
    Triple (post value) (pure value : Effect σ ε α) post raises := by
  intro state hstate
  constructor
  · intro result after hrun
    rw [pure_run, Prod.mk.injEq, Except.ok.injEq] at hrun
    rwa [← hrun.1, ← hrun.2]
  · intro exception after hrun
    rw [pure_run, Prod.mk.injEq] at hrun
    cases hrun.1

/-- The precondition of an exception is what may hold where it is raised. -/
theorem triple_raise (exception : ε) (post : α → σ → Prop) :
    Triple (raises exception) (raise exception : Effect σ ε α) post raises := by
  intro state hstate
  constructor
  · intro result after hrun
    rw [raise_run, Prod.mk.injEq] at hrun
    cases hrun.1
  · intro other after hrun
    rw [raise_run, Prod.mk.injEq, Except.error.injEq] at hrun
    rwa [← hrun.1, ← hrun.2]

/-- A triple of a program that returns or raises on every run. -/
theorem Triple.of_run {program : Effect σ ε α} {post : α → σ → Prop}
    (hrun : ∀ state, pre state →
      match program.run state with
      | (.ok value, after) => post value after
      | (.error exception, after) => raises exception after) :
    Triple pre program post raises := by
  intro state hstate
  have hresult := hrun state hstate
  constructor
  · intro value after heq
    rwa [heq] at hresult
  · intro exception after heq
    rwa [heq] at hresult

/-- The precondition of a read is the postcondition at what is read. -/
theorem triple_gets (part : σ → α) (post : α → σ → Prop) :
    Triple (fun state ↦ post (part state) state) (gets part : Effect σ ε α) post raises :=
  Triple.of_run fun _ hstate ↦ hstate

/-- The precondition of a change is the postcondition after it. -/
theorem triple_modify (change : σ → σ) (post : Unit → σ → Prop) :
    Triple (fun state ↦ post () (change state)) (modify change : Effect σ ε Unit) post raises :=
  Triple.of_run fun _ hstate ↦ hstate

/-- A fact that does not speak of the state. -/
theorem Triple.of_fact {fact : Prop} {program : Effect σ ε α} {post : α → σ → Prop}
    (htriple : fact → Triple pre program post raises) :
    Triple (fun state ↦ fact ∧ pre state) program post raises :=
  fun state hstate ↦ htriple hstate.1 state hstate.2

/-- A computation without effect keeps the precondition, and its exception has to be allowed. -/
theorem triple_liftExcept {result : Except ε α}
    (hraises : ∀ exception state, result = .error exception → pre state → raises exception state) :
    Triple pre (liftExcept result : Effect σ ε α) (fun value state ↦ result = .ok value ∧ pre state)
      raises := by
  refine Triple.of_run fun state hstate ↦ ?_
  rw [liftExcept_run]
  cases result with
  | ok value => exact ⟨rfl, hstate⟩
  | error exception => exact hraises exception state rfl hstate

/-- Triples compose where the first leaves what the second asks for. -/
theorem Triple.bind {program : Effect σ ε α} {next : α → Effect σ ε β} {middle : α → σ → Prop}
    {post : β → σ → Prop} (hprogram : Triple pre program middle raises)
    (hnext : ∀ value, Triple (middle value) (next value) post raises) :
    Triple pre (program >>= next) post raises := by
  intro state hstate
  constructor
  · intro result last hrun
    obtain ⟨value, after, hok, hlast⟩ := bind_eq_ok_iff.mp hrun
    exact (hnext value after ((hprogram state hstate).1 value after hok)).1 result last hlast
  · intro exception last hrun
    rcases bind_eq_error_iff.mp hrun with herror | ⟨value, after, hok, hlast⟩
    · exact (hprogram state hstate).2 exception last herror
    · exact (hnext value after ((hprogram state hstate).1 value after hok)).2 exception last hlast

/-- The loop rule: the invariant speaks of the elements already processed, and each turn of the
loop moves one element of the list over to them. -/
theorem Triple.forEach {body : α → Effect σ ε Unit} {elements : List α}
    (invariant : List α → σ → Prop)
    (hbody : ∀ done element rest, elements = done ++ element :: rest →
      Triple (invariant done) (body element) (fun _ ↦ invariant (done ++ [element])) raises) :
    Triple (invariant []) (forEach body elements) (fun _ ↦ invariant elements) raises := by
  suffices hgeneral : ∀ rest done, elements = done ++ rest →
      Triple (invariant done) (Effect.forEach body rest) (fun _ ↦ invariant elements) raises from
    hgeneral elements [] rfl
  intro rest
  induction rest with
  | nil =>
    intro done hsplit state hstate
    rw [List.append_nil] at hsplit
    subst hsplit
    refine ⟨fun value after hrun ↦ ?_, fun exception after hrun ↦ ?_⟩
    · rw [forEach_nil, pure_run, Prod.mk.injEq] at hrun
      exact hrun.2 ▸ hstate
    · rw [forEach_nil, pure_run, Prod.mk.injEq] at hrun
      cases hrun.1
  | cons element rest ih =>
    intro done hsplit
    rw [forEach_cons]
    exact (hbody done element rest hsplit).bind
      fun _ ↦ ih (done ++ [element]) (by rw [hsplit, List.append_assoc, List.singleton_append])

end Triple

/-! ### Results that do not depend on the state -/

/-- From every state with the invariant the program ends in one, with this result. -/
def Yields (invariant : σ → Prop) (program : Effect σ ε α) (result : Except ε α) : Prop :=
  ∀ state, invariant state → ∃ after, invariant after ∧ program.run state = (result, after)

section Yields

variable {invariant : σ → Prop}

theorem yields_pure (value : α) :
    Yields invariant (pure value : Effect σ ε α) (.ok value) :=
  fun state hstate ↦ ⟨state, hstate, rfl⟩

theorem yields_raise (exception : ε) :
    Yields invariant (raise exception : Effect σ ε α) (.error exception) :=
  fun state hstate ↦ ⟨state, hstate, rfl⟩

theorem yields_liftExcept (result : Except ε α) :
    Yields invariant (liftExcept result : Effect σ ε α) result :=
  fun state hstate ↦ ⟨state, hstate, rfl⟩

/-- The outcome of two programs in a row is that of the two results in a row. -/
theorem Yields.bind {program : Effect σ ε α} {next : α → Effect σ ε β} {result : Except ε α}
    {nextResult : α → Except ε β} (hprogram : Yields invariant program result)
    (hnext : ∀ value, result = .ok value → Yields invariant (next value) (nextResult value)) :
    Yields invariant (program >>= next) (result >>= nextResult) := by
  intro state hstate
  obtain ⟨middle, hmiddle, hrun⟩ := hprogram state hstate
  cases result with
  | error exception => exact ⟨middle, hmiddle, bind_run_of_error hrun⟩
  | ok value =>
    obtain ⟨after, hafter, hlast⟩ := hnext value rfl middle hmiddle
    exact ⟨after, hafter, (bind_run_of_ok hrun).trans hlast⟩

/-- A function of the value is one of the outcome. -/
theorem Yields.map {program : Effect σ ε α} {result : Except ε α}
    (hprogram : Yields invariant program result) (image : α → β) :
    Yields invariant (image <$> program) (result.map image) := by
  rw [← bind_pure_comp]
  have hbind := hprogram.bind fun value _ ↦
    (yields_pure (image value) : Yields invariant (pure (image value)) _)
  cases result with
  | error exception => exact hbind
  | ok value => exact hbind

/-- The handler decides what comes of an exception. -/
theorem Yields.handle {program : Effect σ ε α} {handler : ε → Effect σ ε α} {result : Except ε α}
    {handled : ε → Except ε α} (hprogram : Yields invariant program result)
    (hhandler : ∀ exception, Yields invariant (handler exception) (handled exception)) :
    Yields invariant (handle program handler) (tryCatch result handled) := by
  intro state hstate
  obtain ⟨middle, hmiddle, hrun⟩ := hprogram state hstate
  cases result with
  | ok value => exact ⟨middle, hmiddle, handle_run_of_ok hrun⟩
  | error exception =>
    obtain ⟨after, hafter, hlast⟩ := hhandler exception middle hmiddle
    exact ⟨after, hafter, (handle_run_of_error hrun).trans hlast⟩

/-- A program of a part of the state, where the invariant of the state gives that of the part and
survives its replacement. -/
theorem Yields.focus {τ : Type} {part : σ → τ} {update : τ → σ → σ} {inner : τ → Prop}
    {program : Effect τ ε α} {result : Except ε α} (hprogram : Yields inner program result)
    (hpart : ∀ state, invariant state → inner (part state))
    (hupdate : ∀ value state, invariant state → inner value → invariant (update value state)) :
    Yields invariant (Effect.focus part update program) result := by
  intro state hstate
  obtain ⟨after, hafter, hrun⟩ := hprogram (part state) (hpart state hstate)
  exact ⟨update after state, hupdate after state hstate hafter, by rw [focus_run, hrun]⟩

end Yields

end Effect

end Pysnmp.Foundation
