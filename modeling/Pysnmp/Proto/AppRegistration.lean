import Pysnmp.Foundation.Dict
import Pysnmp.Proto.Types

/-!
# Applications of the dispatcher

`registerContextEngineId`, `unregisterContextEngineId` and `getRegisteredApp` of
`MsgAndPduDispatcher` in `proto/rfc3412.py`. An application is registered under one key after the
other, each made of the context engine identifier and a PDU type, and a key that is taken ends the
registration where it is. To unregister, the absent identifier is replaced by an object of the MIB,
which defines `__eq__` and no `__hash__` and is no part of a key.

`registersCleanly_iff` says when a registration leaves nothing behind.
-/

set_option autoImplicit false
set_option relaxedAutoImplicit false

namespace Pysnmp.Proto.AppRegistration

open Foundation Foundation.Effect

/-! ### The registry -/

/-- What a key begins with: the argument of a call, which may be `None`, or the object
`snmpEngineID`. -/
inductive ContextKey
  | argument (contextEngineId : Option Octets)
  | mibObject
  deriving DecidableEq, Repr

/-- The tuple can be hashed. -/
def ContextKey.isHashable : ContextKey → Bool
  | argument _ => true
  | mibObject => false

/-- `__appsRegistration`. -/
abbrev Registry (π α : Type) := Dict (ContextKey × π) α

/-- How a call fails. -/
inductive RegistrationError (π : Type)
  | duplicateRegistration (contextEngineId : Option Octets) (pduType : π)
  | typeError
  deriving DecidableEq, Repr

variable {π α : Type} [DecidableEq π]

/-- Methods of the dispatcher that use the registry. -/
abbrev RegistryOp (π α β : Type) := Effect (Registry π α) (RegistrationError π) β

/-- `k in self.__appsRegistration`. -/
def isRegistered (key : ContextKey × π) : RegistryOp π α Bool :=
  if key.1.isHashable then gets fun registry ↦ (registry.lookup key).isSome
  else raise .typeError

/-- `registerContextEngineId`. -/
def registerContextEngineId (contextEngineId : Option Octets) (pduTypes : List π)
    (processPdu : α) : RegistryOp π α Unit :=
  forEach (fun pduType ↦ do
    let taken ← isRegistered (.argument contextEngineId, pduType)
    if taken then
      raise (.duplicateRegistration contextEngineId pduType)
    else
      modify fun registry ↦ registry.insert (.argument contextEngineId, pduType) processPdu)
    pduTypes

/-- The identifier that `unregisterContextEngineId` looks for. -/
def unregisteredContext : Option Octets → ContextKey
  | none => .mibObject
  | some contextEngineId => .argument (some contextEngineId)

/-- `unregisterContextEngineId`. -/
def unregisterContextEngineId (contextEngineId : Option Octets) (pduTypes : List π) :
    RegistryOp π α Unit :=
  forEach (fun pduType ↦ do
    let registered ← isRegistered (unregisteredContext contextEngineId, pduType)
    runIf registered
      (modify fun registry ↦ registry.erase (unregisteredContext contextEngineId, pduType)))
    pduTypes

/-- `getRegisteredApp`: the empty identifier stands for any. -/
def getRegisteredApp (registry : Registry π α) (contextEngineId : Option Octets) (pduType : π) :
    Option α :=
  (registry.lookup (.argument contextEngineId, pduType)).or
    (registry.lookup (.argument (some []), pduType))

/-! ### Clean registrations -/

/-- A registration that raises changes nothing, and one that succeeds is undone by unregistering
with the same arguments. -/
structure RegistersCleanly (registry : Registry π α) (contextEngineId : Option Octets)
    (pduTypes : List π) (processPdu : α) : Prop where
  atomic : ∀ exception after,
    (registerContextEngineId contextEngineId pduTypes processPdu).run registry =
      (.error exception, after) → after = registry
  reversible : ∀ after,
    (registerContextEngineId contextEngineId pduTypes processPdu).run registry = (.ok (), after) →
      (unregisterContextEngineId contextEngineId pduTypes).run after = (.ok (), registry)

/-- The PDU type is taken under the identifier. -/
def IsTaken (registry : Registry π α) (contextEngineId : Option Octets) (pduType : π) : Prop :=
  (registry.lookup (.argument contextEngineId, pduType)).isSome

/-- The first PDU type is taken; or none is taken or given twice, and there is an identifier or
nothing to register. -/
def IsOrderly (registry : Registry π α) (contextEngineId : Option Octets) (pduTypes : List π) :
    Prop :=
  (∃ pduType, pduTypes.head? = some pduType ∧ IsTaken registry contextEngineId pduType) ∨
    pduTypes.Nodup ∧ (∀ pduType ∈ pduTypes, ¬ IsTaken registry contextEngineId pduType) ∧
      (contextEngineId = none → pduTypes = [])

/-! ### Registering -/

section Register

variable {registry after : Registry π α} {contextEngineId : Option Octets} {pduType : π}
  {pduTypes : List π} {processPdu : α}

/-- The registry with an application under each PDU type. -/
def added (contextEngineId : Option Octets) (processPdu : α) (pduTypes : List π)
    (registry : Registry π α) : Registry π α :=
  pduTypes.foldl (fun registry pduType ↦
    registry.insert (.argument contextEngineId, pduType) processPdu) registry

theorem register_run_of_isTaken (pduTypes : List π) (processPdu : α)
    (htaken : IsTaken registry contextEngineId pduType) :
    (registerContextEngineId contextEngineId (pduType :: pduTypes) processPdu).run registry =
      (.error (.duplicateRegistration contextEngineId pduType), registry) := by
  have hread : (isRegistered (.argument contextEngineId, pduType)).run registry =
      (.ok true, registry) :=
    congrArg (fun taken ↦ (Except.ok taken, registry)) htaken
  refine bind_run_of_error ?_
  exact (bind_run_of_ok hread).trans rfl

theorem register_run_of_not_isTaken (hfree : ¬ IsTaken registry contextEngineId pduType) :
    (registerContextEngineId contextEngineId (pduType :: pduTypes) processPdu).run registry =
      (registerContextEngineId contextEngineId pduTypes processPdu).run
        (registry.insert (.argument contextEngineId, pduType) processPdu) := by
  have hread : (isRegistered (.argument contextEngineId, pduType)).run registry =
      (.ok false, registry) :=
    congrArg (fun taken ↦ (Except.ok taken, registry)) ((Bool.not_eq_true _).mp hfree)
  refine @bind_run_of_ok _ _ _ _ _ _ _ _ () ?_
  exact (bind_run_of_ok hread).trans rfl

theorem isTaken_insert :
    IsTaken (registry.insert (.argument contextEngineId, pduType) processPdu) contextEngineId
      pduType := by
  rw [IsTaken, Dict.lookup_insert_ite, if_pos rfl, Option.isSome_some]

theorem isTaken_insert_iff_of_ne {other : π} (hne : other ≠ pduType) :
    IsTaken (registry.insert (.argument contextEngineId, pduType) processPdu) contextEngineId
      other ↔ IsTaken registry contextEngineId other := by
  rw [IsTaken, Dict.lookup_insert_ite, if_neg fun heq ↦ hne (congrArg Prod.snd heq), IsTaken]

/-- A registration of PDU types that are free and differ makes an entry for each. -/
theorem register_run_of_free (processPdu : α) (hnodup : pduTypes.Nodup)
    (hfree : ∀ pduType ∈ pduTypes, ¬ IsTaken registry contextEngineId pduType) :
    (registerContextEngineId contextEngineId pduTypes processPdu).run registry =
      (.ok (), added contextEngineId processPdu pduTypes registry) := by
  induction pduTypes generalizing registry with
  | nil => rfl
  | cons pduType rest ih =>
    obtain ⟨hunlisted, hrestNodup⟩ := List.nodup_cons.mp hnodup
    rw [register_run_of_not_isTaken (hfree pduType List.mem_cons_self)]
    refine ih hrestNodup fun other hother htaken ↦ ?_
    have hne : other ≠ pduType := fun heq ↦ hunlisted (heq ▸ hother)
    exact hfree other (List.mem_cons_of_mem _ hother) ((isTaken_insert_iff_of_ne hne).mp htaken)

/-- Only such a registration succeeds. -/
theorem free_of_register_run
    (hrun : (registerContextEngineId contextEngineId pduTypes processPdu).run registry =
      (.ok (), after)) :
    pduTypes.Nodup ∧ ∀ pduType ∈ pduTypes, ¬ IsTaken registry contextEngineId pduType := by
  induction pduTypes generalizing registry with
  | nil => exact ⟨List.nodup_nil, fun pduType hmem ↦ absurd hmem List.not_mem_nil⟩
  | cons pduType rest ih =>
    by_cases htaken : IsTaken registry contextEngineId pduType
    · rw [register_run_of_isTaken _ _ htaken] at hrun
      cases hrun
    · rw [register_run_of_not_isTaken htaken] at hrun
      obtain ⟨hnodup, hfree⟩ := ih hrun
      have hunlisted : pduType ∉ rest := fun hmem ↦ hfree pduType hmem isTaken_insert
      refine ⟨List.nodup_cons.mpr ⟨hunlisted, hnodup⟩, fun other hother ↦ ?_⟩
      rcases List.mem_cons.mp hother with rfl | hrest
      · exact htaken
      · have hne : other ≠ pduType := fun heq ↦ hunlisted (heq ▸ hrest)
        exact mt (isTaken_insert_iff_of_ne hne).mpr (hfree other hrest)

/-- What is taken stays taken, whether the registration succeeds or raises. -/
theorem isTaken_of_register_run {result : Except (RegistrationError π) Unit}
    (hrun : (registerContextEngineId contextEngineId pduTypes processPdu).run registry =
      (result, after)) (htaken : IsTaken registry contextEngineId pduType) :
    IsTaken after contextEngineId pduType := by
  induction pduTypes generalizing registry with
  | nil =>
    cases hrun
    exact htaken
  | cons head rest ih =>
    by_cases hhead : IsTaken registry contextEngineId head
    · rw [register_run_of_isTaken _ _ hhead] at hrun
      cases hrun
      exact htaken
    · rw [register_run_of_not_isTaken hhead] at hrun
      have hne : pduType ≠ head := fun heq ↦ hhead (heq ▸ htaken)
      exact ih hrun ((isTaken_insert_iff_of_ne hne).mpr htaken)

/-- A registration that raises after its first PDU type leaves an entry behind. -/
theorem ne_of_register_run {exception : RegistrationError π}
    (hfree : ¬ IsTaken registry contextEngineId pduType)
    (hrun : (registerContextEngineId contextEngineId (pduType :: pduTypes) processPdu).run
      registry = (.error exception, after)) : after ≠ registry := by
  rintro rfl
  rw [register_run_of_not_isTaken hfree] at hrun
  exact hfree (isTaken_of_register_run hrun isTaken_insert)

end Register

/-! ### Unregistering -/

section Unregister

variable {registry : Registry π α} {contextEngineId : Octets} {pduType : π} {pduTypes : List π}
  {processPdu : α}

theorem unregister_run_cons :
    (unregisterContextEngineId (some contextEngineId) (pduType :: pduTypes)).run registry =
      (unregisterContextEngineId (some contextEngineId) pduTypes).run
        (registry.erase (.argument (some contextEngineId), pduType)) := by
  have hread : (isRegistered (.argument (some contextEngineId), pduType)).run registry =
      (.ok (registry.lookup (.argument (some contextEngineId), pduType)).isSome, registry) := rfl
  refine @bind_run_of_ok _ _ _ _ _ _ _ _ () ?_
  refine (bind_run_of_ok hread).trans ?_
  by_cases hregistered :
      (registry.lookup (.argument (some contextEngineId), pduType)).isSome = true
  · exact congrArg (Effect.run · registry) (runIf_of_true _ hregistered)
  · have hmissing := Option.isSome_eq_false_iff.mp ((Bool.not_eq_true _).mp hregistered)
    rw [Dict.erase_of_lookup_eq_none (Option.isNone_iff_eq_none.mp hmissing)]
    exact congrArg (Effect.run · registry) (runIf_of_false _ hregistered)

theorem erase_added (hunlisted : pduType ∉ pduTypes) :
    (added (some contextEngineId) processPdu pduTypes registry).erase
        (.argument (some contextEngineId), pduType) =
      added (some contextEngineId) processPdu pduTypes
        (registry.erase (.argument (some contextEngineId), pduType)) := by
  induction pduTypes generalizing registry with
  | nil => rfl
  | cons head rest ih =>
    obtain ⟨hne, hrest⟩ := not_or.mp (mt List.mem_cons.mpr hunlisted)
    refine (ih hrest).trans (congrArg _ ?_)
    exact Dict.erase_insert_of_ne processPdu fun heq ↦ hne (congrArg Prod.snd heq)

theorem unregister_run_added (hnodup : pduTypes.Nodup)
    (hfree : ∀ pduType ∈ pduTypes, ¬ IsTaken registry (some contextEngineId) pduType) :
    (unregisterContextEngineId (some contextEngineId) pduTypes).run
      (added (some contextEngineId) processPdu pduTypes registry) = (.ok (), registry) := by
  induction pduTypes with
  | nil => rfl
  | cons pduType rest ih =>
    obtain ⟨hunlisted, hrestNodup⟩ := List.nodup_cons.mp hnodup
    have hmissing := Option.isSome_eq_false_iff.mp
      ((Bool.not_eq_true _).mp (hfree pduType List.mem_cons_self))
    have herase : (added (some contextEngineId) processPdu (pduType :: rest) registry).erase
        (.argument (some contextEngineId), pduType) =
          added (some contextEngineId) processPdu rest registry := by
      refine (erase_added hunlisted).trans (congrArg _ ?_)
      exact Dict.erase_insert_of_lookup_eq_none _ (Option.isNone_iff_eq_none.mp hmissing)
    rw [unregister_run_cons, herase]
    exact ih hrestNodup fun other hother ↦ hfree other (List.mem_cons_of_mem _ hother)

/-- The absent identifier cannot be unregistered. -/
theorem unregister_run_none :
    (unregisterContextEngineId none (pduType :: pduTypes)).run registry =
      (.error .typeError, registry) :=
  rfl

end Unregister

/-! ### When a registration is clean -/

section Clean

variable (registry : Registry π α) (contextEngineId : Option Octets) (pduTypes : List π)
  (processPdu : α)

/-- A registration leaves nothing behind exactly when it is orderly. -/
theorem registersCleanly_iff :
    RegistersCleanly registry contextEngineId pduTypes processPdu ↔
      IsOrderly registry contextEngineId pduTypes := by
  constructor
  · intro hclean
    cases pduTypes with
    | nil =>
      exact Or.inr ⟨List.nodup_nil, fun pduType hmem ↦ absurd hmem List.not_mem_nil, fun _ ↦ rfl⟩
    | cons pduType rest =>
      by_cases htaken : IsTaken registry contextEngineId pduType
      · exact Or.inl ⟨pduType, rfl, htaken⟩
      · rcases ok_or_error (registerContextEngineId contextEngineId (pduType :: rest) processPdu)
          registry with ⟨⟨⟩, after, hok⟩ | ⟨exception, after, herror⟩
        · obtain ⟨hnodup, hfree⟩ := free_of_register_run hok
          refine Or.inr ⟨hnodup, hfree, ?_⟩
          rintro rfl
          have hundone := hclean.reversible after hok
          rw [unregister_run_none] at hundone
          cases hundone
        · exact absurd (hclean.atomic exception after herror) (ne_of_register_run htaken herror)
  · rintro (⟨pduType, hhead, htaken⟩ | ⟨hnodup, hfree, hidentifier⟩)
    · obtain ⟨rest, rfl⟩ := List.head?_eq_some_iff.mp hhead
      have hrun := register_run_of_isTaken rest processPdu htaken
      constructor
      · intro exception after herror
        rw [hrun] at herror
        cases herror
        rfl
      · intro after hok
        rw [hrun] at hok
        cases hok
    · have hrun := register_run_of_free processPdu hnodup hfree
      constructor
      · intro exception after herror
        rw [hrun] at herror
        cases herror
      · intro after hok
        rw [hrun] at hok
        cases hok
        cases contextEngineId with
        | none =>
          rw [hidentifier rfl]
          rfl
        | some contextEngineId => exact unregister_run_added hnodup hfree

end Clean

/-- The second of two PDU types is taken, and the first stays registered. -/
theorem not_registersCleanly_secondTaken :
    ¬ RegistersCleanly (α := Unit) (AList.singleton (.argument (some [0x80]), 1) ()) (some [0x80])
      [0, 1] () := by
  intro hclean
  have hafter := hclean.atomic (.duplicateRegistration (some [0x80]) 1)
    (AList.insert (.argument (some [0x80]), 0) ()
      (AList.singleton (.argument (some [0x80]), 1) ())) rfl
  exact absurd (congrArg AList.keys hafter) (by decide)

end Pysnmp.Proto.AppRegistration
