import Pysnmp.Foundation.Overlay
import Pysnmp.Foundation.Run
import Pysnmp.Proto.Messages
import Pysnmp.Smi.ManagedObjects

/-!
# Expanding notifications

`NotificationType.resolveWithMib` of `smi/rfc1902.py`, with the `ObjectType.resolveWithMib` that it
calls for every binding. What a name stands for is left open: a `MibResolution` may look it up in
any way, load modules on the way and fail, and find something else at the next attempt.

The bindings are an attribute that an attempt adds to as it goes, and an attempt that fails leaves
there what it has added. `gather` resolves the same names and values and adds nothing. The bindings
after a successful attempt are laid out as they should be exactly if every earlier attempt failed
before it had the binding of `snmpTrapOID` (`expands_iff`).
-/

set_option autoImplicit false
set_option relaxedAutoImplicit false

namespace Pysnmp.Smi.NotificationExpansion

open Foundation Foundation.Effect Foundation.Overlay Proto

/-- `v2c.apiTrapPDU.snmpTrapOID`. -/
def snmpTrapOID : Oid := [1, 3, 6, 1, 6, 3, 1, 1, 4, 1, 0]

/-! ### Names and values -/

/-- A MIB node, as far as bindings look at it: a `MibScalar` or `MibTableColumn` with `clone` of its
syntax, or a notification with its objects. -/
inductive MibNode (ω : Type)
  | objectType (clone : ω → Except PythonError ω)
  | notificationType (objects : List (String × String))
  | other

/-- `getSyntax`; only a `MibScalar` or a `MibTableColumn` is asked. -/
def MibNode.getSyntax {ω : Type} : MibNode ω → Option (ω → Except PythonError ω)
  | .objectType clone => some clone
  | _ => none

/-- `getObjects`; only a notification is asked. -/
def MibNode.getObjects {ω : Type} : MibNode ω → List (String × String)
  | .notificationType objects => objects
  | _ => []

/-- The arguments of an `ObjectIdentity`: some of the caller's own, a symbol with an instance index,
or an object identifier. -/
inductive IdentityArgs (ν κ : Type)
  | caller (args : ν)
  | symbol (modName symName : String) (instanceIndex : List κ)
  | oid (oid : Oid)

/-- What resolving depends on: the preparations of an `ObjectIdentity` (MIB sources, the compiler,
modules to load), what its arguments stand for, and the classes of the values. -/
structure MibResolution (σ ν κ ω : Type) where
  prepare : IdentityArgs ν κ → Effect σ MibException Unit
  callerName : Bool → ν → Effect σ MibException (Oid × MibNode ω)
  symbolName : Bool → String → String → List κ → Effect σ MibException (Oid × MibNode ω)
  nodeAt : Oid → Effect σ MibException (MibNode ω)
  isSimpleAsn1Type : ω → Bool
  isException : ω → Bool
  unSpecified : ω
  objectIdentifier : ω → Option Oid
  identity : Oid → ω

/-- An `ObjectIdentity`, with what it has been resolved to. -/
structure ObjectIdentity (ν κ ω : Type) where
  args : IdentityArgs ν κ
  resolved : Option (Oid × MibNode ω)

/-- A binding: the name and the value. -/
abbrev VarBind (ω : Type) := Oid × ω

/-- An `ObjectType`. -/
inductive ObjectType (ν κ ω : Type)
  | dirty (objectIdentity : ObjectIdentity ν κ ω) (objectSyntax : ω)
  | clean (varBind : VarBind ω)

variable {σ ν κ ω : Type} (resolution : MibResolution σ ν κ ω)

/-- `ObjectIdentity.resolveWithMib`. -/
def ObjectIdentity.resolveWithMib (objectIdentity : ObjectIdentity ν κ ω) (ignoreErrors : Bool) :
    Effect σ MibException (Oid × MibNode ω) := do
  resolution.prepare objectIdentity.args
  match objectIdentity.resolved, objectIdentity.args with
  | some found, _ => pure found
  | none, .caller args => resolution.callerName ignoreErrors args
  | none, .symbol modName symName instanceIndex =>
    resolution.symbolName ignoreErrors modName symName instanceIndex
  | none, .oid oid => do
    let mibNode ← resolution.nodeAt oid
    pure (oid, mibNode)

/-- `getSyntax().clone(value)`. A value that does not fit is kept, if it has a type and errors are
ignored. -/
def castValue (clone : ω → Except PythonError ω) (ignoreValueErrors : Bool) (value : ω) :
    Except MibException ω :=
  match clone value with
  | .ok cast => .ok cast
  | .error .pyAsn1Error =>
    if ¬ ignoreValueErrors ∨ ¬ resolution.isSimpleAsn1Type value then
      .error (.smi { kind := .smiError })
    else
      .ok value
  | .error error => .error (.python error)

/-- An object identifier as a value is resolved, where it can be. -/
def resolvePointer (value : ω) : Effect σ MibException ω :=
  match resolution.objectIdentifier value with
  | none => pure value
  | some oid =>
    handle
      (do
        let (oid, _) ← ObjectIdentity.resolveWithMib resolution ⟨.oid oid, none⟩ true
        pure (resolution.identity oid))
      fun
      | .smi _ => pure value
      | .python error => raise (.python error)

/-- Programs of an `ObjectType`. -/
abbrev ObjectOp (σ ν κ ω α : Type) := Effect (ObjectType ν κ ω × σ) MibException α

def onWorld {α : Type} (program : Effect σ MibException α) : ObjectOp σ ν κ ω α :=
  focus Prod.snd (fun world state ↦ (state.1, world)) program

def become (objectType : ObjectType ν κ ω) : ObjectOp σ ν κ ω Unit :=
  modify fun state ↦ (objectType, state.2)

/-- The value of a binding whose name has been resolved. -/
def resolveSyntax (ignoreValueErrors : Bool) (objectIdentity : ObjectIdentity ν κ ω)
    (mibNode : MibNode ω) (objectSyntax : ω) : ObjectOp σ ν κ ω ω :=
  match mibNode.getSyntax with
  | none =>
    if resolution.isSimpleAsn1Type objectSyntax then
      pure objectSyntax
    else
      raise (.smi { kind := .smiError })
  | some clone =>
    if resolution.isException objectSyntax then
      pure objectSyntax
    else do
      let cast ← liftExcept (castValue resolution clone ignoreValueErrors objectSyntax)
      become (.dirty objectIdentity cast)
      onWorld (resolvePointer resolution cast)

/-- `ObjectType.resolveWithMib`. -/
def ObjectType.resolveWithMib (ignoreValueErrors : Bool) : ObjectOp σ ν κ ω (VarBind ω) := do
  match ← gets Prod.fst with
  | .clean varBind => pure varBind
  | .dirty objectIdentity objectSyntax => do
    let (oid, mibNode) ← onWorld (objectIdentity.resolveWithMib resolution true)
    let objectIdentity := { objectIdentity with resolved := some (oid, mibNode) }
    become (.dirty objectIdentity objectSyntax)
    let value ← resolveSyntax resolution ignoreValueErrors objectIdentity mibNode objectSyntax
    become (.clean (oid, value))
    pure (oid, value)

/-! ### Notifications -/

/-- The views and the `ObjectType` objects of the caller, by reference. -/
structure Environment (σ ν κ ω : Type) where
  world : σ
  objectTypes : ℕ → ObjectType ν κ ω

/-- An additional binding: an `ObjectType` of the caller, or a pair that one is made of. -/
inductive AdditionalVarBind (ν ω : Type)
  | objectType (reference : ℕ)
  | pair (name : ν) (value : ω)

/-- A `NotificationType`; the objects are a mapping of the caller. -/
structure NotificationType (σ ν κ ω : Type) where
  objectIdentity : ObjectIdentity ν κ ω
  instanceIndex : List κ
  objects : σ → String × String → Option ω
  varBinds : List (VarBind ω)
  additionalVarBinds : List (AdditionalVarBind ν ω)
  isClean : Bool

/-- `NotificationType.__init__`. -/
def NotificationType.init (objectIdentity : ObjectIdentity ν κ ω) (instanceIndex : List κ)
    (objects : σ → String × String → Option ω) : NotificationType σ ν κ ω where
  objectIdentity := objectIdentity
  instanceIndex := instanceIndex
  objects := objects
  varBinds := []
  additionalVarBinds := []
  isClean := false

abbrev EnvironmentOp (σ ν κ ω α : Type) := Effect (Environment σ ν κ ω) MibException α

def inWorld {α : Type} (program : Effect σ MibException α) : EnvironmentOp σ ν κ ω α :=
  focus Environment.world (fun world environment ↦ { environment with world := world }) program

/-- Resolve a new `ObjectType`. -/
def resolveNew (ignoreValueErrors : Bool) (objectType : ObjectType ν κ ω) :
    EnvironmentOp σ ν κ ω (VarBind ω) :=
  focus (fun environment ↦ (objectType, environment.world))
    (fun state environment ↦ { environment with world := state.2 })
    (ObjectType.resolveWithMib resolution ignoreValueErrors)

/-- Resolve an `ObjectType` of the caller. -/
def resolveReferenced (ignoreValueErrors : Bool) (reference : ℕ) :
    EnvironmentOp σ ν κ ω (VarBind ω) :=
  focus (fun environment ↦ (environment.objectTypes reference, environment.world))
    (fun state environment ↦
      { world := state.2
        objectTypes := Function.update environment.objectTypes reference state.1 })
    (ObjectType.resolveWithMib resolution ignoreValueErrors)

/-- The binding of `snmpTrapOID`. -/
def trapOIDVarBind (ignoreValueErrors : Bool) (notificationOid : Oid) :
    EnvironmentOp σ ν κ ω (VarBind ω) :=
  resolveNew resolution ignoreValueErrors
    (.dirty ⟨.oid snmpTrapOID, none⟩ (resolution.identity notificationOid))

/-- The name and the binding of an object of the notification. -/
def objectVarBind (notification : NotificationType σ ν κ ω) (ignoreErrors ignoreValueErrors : Bool)
    (notificationObject : String × String) : EnvironmentOp σ ν κ ω (Oid × VarBind ω) := do
  let args := .symbol notificationObject.1 notificationObject.2 notification.instanceIndex
  let found ← inWorld (ObjectIdentity.resolveWithMib resolution ⟨args, none⟩ ignoreErrors)
  let value ← gets fun environment ↦ notification.objects environment.world notificationObject
  let varBind ← resolveNew resolution ignoreValueErrors
    (.dirty ⟨args, some found⟩ (value.getD resolution.unSpecified))
  pure (found.1, varBind)

def additionalVarBind (ignoreValueErrors : Bool) :
    AdditionalVarBind ν ω → EnvironmentOp σ ν κ ω (VarBind ω)
  | .objectType reference => resolveReferenced resolution ignoreValueErrors reference
  | .pair name value => resolveNew resolution ignoreValueErrors (.dirty ⟨.caller name, none⟩ value)

/-- A `NotificationType` and its environment. -/
structure Session (σ ν κ ω : Type) where
  environment : Environment σ ν κ ω
  notification : NotificationType σ ν κ ω

abbrev SessionOp (σ ν κ ω α : Type) := Effect (Session σ ν κ ω) MibException α

def inEnvironment {α : Type} (program : EnvironmentOp σ ν κ ω α) : SessionOp σ ν κ ω α :=
  focus Session.environment (fun environment session ↦ { session with environment := environment })
    program

def update (change : NotificationType σ ν κ ω → NotificationType σ ν κ ω) :
    SessionOp σ ν κ ω Unit :=
  modify fun session ↦ { session with notification := change session.notification }

/-- `self.__varBinds.append`. -/
def appendVarBind (varBind : VarBind ω) : SessionOp σ ν κ ω Unit :=
  update fun notification ↦ { notification with varBinds := notification.varBinds ++ [varBind] }

/-- The loop over the objects, with `varBindsLocation`. -/
def appendObjects (notification : NotificationType σ ν κ ω)
    (ignoreErrors ignoreValueErrors : Bool) :
    List (String × String) → Dict Oid ℕ → SessionOp σ ν κ ω (Dict Oid ℕ)
  | [], varBindsLocation => pure varBindsLocation
  | notificationObject :: others, varBindsLocation => do
    let (objectIdentity, varBind) ← inEnvironment
      (objectVarBind resolution notification ignoreErrors ignoreValueErrors notificationObject)
    appendVarBind varBind
    let length ← gets fun session ↦ session.notification.varBinds.length
    appendObjects notification ignoreErrors ignoreValueErrors others
      (varBindsLocation.insert objectIdentity (length - 1))

/-- One turn of the loop over the additional bindings. -/
def mergeVarBind (ignoreValueErrors : Bool) (varBindsLocation : Dict Oid ℕ)
    (varBinds : AdditionalVarBind ν ω) : SessionOp σ ν κ ω Unit := do
  let varBind ← inEnvironment (additionalVarBind resolution ignoreValueErrors varBinds)
  match varBindsLocation.lookup varBind.1 with
  | some location =>
    update fun notification ↦
      { notification with varBinds := notification.varBinds.set location varBind }
  | none => appendVarBind varBind

/-- `NotificationType.resolveWithMib`, from the objects of the node on. -/
def expandVarBinds (notification : NotificationType σ ν κ ω) (ignoreErrors ignoreValueErrors : Bool)
    (mibNode : MibNode ω) : SessionOp σ ν κ ω Unit := do
  let varBindsLocation ← appendObjects resolution notification ignoreErrors ignoreValueErrors
    mibNode.getObjects ∅
  forEach (mergeVarBind resolution ignoreValueErrors varBindsLocation)
    notification.additionalVarBinds
  update fun notification ↦ { notification with additionalVarBinds := [], isClean := true }

/-- `NotificationType.resolveWithMib`. -/
def resolveWithMib (ignoreErrors : Bool) (ignoreValueErrors : Option Bool) :
    SessionOp σ ν κ ω Unit := do
  let ignoreValueErrors := ignoreValueErrors.getD ignoreErrors
  let notification ← gets Session.notification
  if notification.isClean then
    pure ()
  else do
    let (oid, mibNode) ← inEnvironment
      (inWorld (notification.objectIdentity.resolveWithMib resolution true))
    update fun notification ↦
      { notification with
        objectIdentity := ⟨notification.objectIdentity.args, some (oid, mibNode)⟩ }
    let trapOID ← inEnvironment (trapOIDVarBind resolution ignoreValueErrors oid)
    appendVarBind trapOID
    expandVarBinds resolution notification ignoreErrors ignoreValueErrors mibNode

/-- `NotificationType.addVarBinds`. -/
def addVarBinds (varBinds : List (AdditionalVarBind ν ω)) : SessionOp σ ν κ ω Unit := do
  let notification ← gets Session.notification
  if notification.isClean then
    raise (.smi { kind := .smiError })
  else
    update fun notification ↦
      { notification with additionalVarBinds := notification.additionalVarBinds ++ varBinds }

/-! ### The expansion of a notification -/

/-- The bindings of a notification before they are laid out. -/
structure Expansion (ω : Type) where
  trapOID : VarBind ω
  objects : List (VarBind ω)
  additional : List (VarBind ω)

/-- The binding of `snmpTrapOID`, each object once and in order, replaced by the additional binding
of the same instance, and the additional bindings that are left in their order. -/
def Expansion.varBinds (expansion : Expansion ω) : List (VarBind ω) :=
  expansion.trapOID :: overlay expansion.objects expansion.additional

/-- Objects of different names are each replaced by the additional binding of their own name. -/
theorem Expansion.varBinds_of_nodup {expansion : Expansion ω}
    (hnodup : (expansion.objects.map Prod.fst).Nodup) :
    expansion.varBinds = expansion.trapOID ::
      (expansion.objects.map (replacement expansion.additional) ++
        beyond expansion.objects expansion.additional) := by
  rw [Expansion.varBinds, overlay, inPlace_eq_map hnodup]

/-- The values of a program for the elements of a list. -/
def collect {τ ε α β : Type} (program : α → Effect τ ε β) : List α → Effect τ ε (List β)
  | [] => pure []
  | element :: others => do
    let value ← program element
    let values ← collect program others
    pure (value :: values)

/-- The notification's own name and the binding of `snmpTrapOID`. -/
def resolveHead (notification : NotificationType σ ν κ ω) (ignoreValueErrors : Bool) :
    EnvironmentOp σ ν κ ω ((Oid × MibNode ω) × VarBind ω) := do
  let found ← inWorld (notification.objectIdentity.resolveWithMib resolution true)
  let trapOID ← trapOIDVarBind resolution ignoreValueErrors found.1
  pure (found, trapOID)

/-- The objects of a node and the additional bindings. -/
def resolveRest (notification : NotificationType σ ν κ ω) (ignoreErrors ignoreValueErrors : Bool)
    (mibNode : MibNode ω) : EnvironmentOp σ ν κ ω (List (VarBind ω) × List (VarBind ω)) := do
  let objects ← collect
    (objectVarBind resolution notification ignoreErrors ignoreValueErrors) mibNode.getObjects
  let additional ← collect (additionalVarBind resolution ignoreValueErrors)
    notification.additionalVarBinds
  pure (objects.map Prod.snd, additional)

/-- Everything that an attempt resolves, in its order. -/
def gather (notification : NotificationType σ ν κ ω) (ignoreErrors ignoreValueErrors : Bool) :
    EnvironmentOp σ ν κ ω (Expansion ω) := do
  let (found, trapOID) ← resolveHead resolution notification ignoreValueErrors
  let (objects, additional) ← resolveRest resolution notification ignoreErrors ignoreValueErrors
    found.2
  pure { trapOID := trapOID, objects := objects, additional := additional }

/-- What happens to a notification: an attempt to resolve it, more additional bindings, or something
elsewhere, such as a module that is loaded or an `ObjectType` that is resolved. -/
inductive Step (σ ν κ ω : Type)
  | resolveWithMib (ignoreErrors : Bool) (ignoreValueErrors : Option Bool)
  | addVarBinds (varBinds : List (AdditionalVarBind ν ω))
  | elsewhere (change : Environment σ ν κ ω → Environment σ ν κ ω)

def perform (session : Session σ ν κ ω) : Step σ ν κ ω → Session σ ν κ ω
  | .resolveWithMib ignoreErrors ignoreValueErrors =>
    ((resolveWithMib resolution ignoreErrors ignoreValueErrors).run session).2
  | .addVarBinds varBinds => ((addVarBinds varBinds).run session).2
  | .elsewhere change => { session with environment := change session.environment }

/-- An attempt leaves the bindings of what it has resolved, laid out as they should be. -/
def Expands (session : Session σ ν κ ω) (ignoreErrors : Bool) (ignoreValueErrors : Option Bool) :
    Prop :=
  ∃ expansion environment, (gather resolution session.notification ignoreErrors
      (ignoreValueErrors.getD ignoreErrors)).run session.environment =
        (.ok expansion, environment) ∧
    expansion.trapOID.1 = snmpTrapOID ∧
    (perform resolution session
      (.resolveWithMib ignoreErrors ignoreValueErrors)).notification.varBinds = expansion.varBinds

/-- An attempt fails at the notification's own name or at the binding of `snmpTrapOID`. -/
def FailsEarly (session : Session σ ν κ ω) : Step σ ν κ ω → Prop
  | .resolveWithMib ignoreErrors ignoreValueErrors =>
    ∃ exception environment, (resolveHead resolution session.notification
      (ignoreValueErrors.getD ignoreErrors)).run session.environment =
        (.error exception, environment)
  | _ => True

/-! ### One binding -/

section Bindings

variable {resolution} {objectIdentity : ObjectIdentity ν κ ω} {objectSyntax : ω}
  {varBind : VarBind ω} {oid : Oid} {mibNode : MibNode ω} {ignoreErrors ignoreValueErrors : Bool}

/-- A resolved name stays what it was resolved to. -/
theorem resolveWithMib_of_resolved {world after : σ} {found found' : Oid × MibNode ω}
    (hresolved : objectIdentity.resolved = some found)
    (hrun : (objectIdentity.resolveWithMib resolution ignoreErrors).run world =
      (.ok found', after)) : found' = found := by
  obtain ⟨_, _, -, hnext⟩ := bind_eq_ok_iff.mp hrun
  rw [hresolved] at hnext
  exact (Except.ok.inj (Prod.mk.inj hnext).1).symm

/-- The name of a new binding is what its `ObjectIdentity` is resolved to. -/
theorem exists_identity_run {world : σ} {state : ObjectType ν κ ω × σ}
    (hrun : (ObjectType.resolveWithMib resolution ignoreValueErrors).run
      (.dirty objectIdentity objectSyntax, world) = (.ok varBind, state)) :
    ∃ found after, (objectIdentity.resolveWithMib resolution true).run world = (.ok found, after) ∧
      varBind.1 = found.1 := by
  obtain ⟨_, _, hget, hrun⟩ := bind_eq_ok_iff.mp hrun
  obtain ⟨hobject, rfl⟩ := Prod.mk.inj hget
  obtain rfl := Except.ok.inj hobject
  obtain ⟨found, _, hfound, hrun⟩ := bind_eq_ok_iff.mp hrun
  obtain ⟨_, _, -, hrun⟩ := bind_eq_ok_iff.mp hrun
  obtain ⟨value, _, -, hrun⟩ := bind_eq_ok_iff.mp hrun
  obtain ⟨_, _, -, hrun⟩ := bind_eq_ok_iff.mp hrun
  refine ⟨found, _, Prod.ext (Prod.mk.inj hfound).1 rfl, ?_⟩
  exact congrArg Prod.fst (Except.ok.inj (Prod.mk.inj hrun).1).symm

theorem fst_of_trapOIDVarBind_run {environment after : Environment σ ν κ ω} {notificationOid : Oid}
    (hrun : (trapOIDVarBind resolution ignoreValueErrors notificationOid).run environment =
      (.ok varBind, after)) : varBind.1 = snmpTrapOID := by
  rw [trapOIDVarBind, resolveNew, focus_run] at hrun
  obtain ⟨found, _, hfound, hname⟩ := exists_identity_run (Prod.ext (Prod.mk.inj hrun).1 rfl)
  obtain ⟨_, _, -, hnext⟩ := bind_eq_ok_iff.mp hfound
  obtain ⟨mibNode, _, -, hnode⟩ := bind_eq_ok_iff.mp hnext
  rw [hname, ← Except.ok.inj (Prod.mk.inj hnode).1]

/-- An object is found again under the name of its binding. -/
theorem fst_of_objectVarBind_run {notification : NotificationType σ ν κ ω}
    {notificationObject : String × String} {environment after : Environment σ ν κ ω}
    (hrun : (objectVarBind resolution notification ignoreErrors ignoreValueErrors
      notificationObject).run environment = (.ok (oid, varBind), after)) : varBind.1 = oid := by
  obtain ⟨found, _, -, hrun⟩ := bind_eq_ok_iff.mp hrun
  obtain ⟨value, _, -, hrun⟩ := bind_eq_ok_iff.mp hrun
  obtain ⟨other, _, hresolve, hrun⟩ := bind_eq_ok_iff.mp hrun
  obtain ⟨rfl, rfl⟩ := Prod.mk.inj (Except.ok.inj (Prod.mk.inj hrun).1)
  rw [resolveNew, focus_run] at hresolve
  obtain ⟨found', _, hfound, hname⟩ := exists_identity_run (Prod.ext (Prod.mk.inj hresolve).1 rfl)
  rw [hname, resolveWithMib_of_resolved rfl hfound]

end Bindings

/-! ### The loops -/

section Loops

variable {resolution} {notification : NotificationType σ ν κ ω} {session : Session σ ν κ ω}
  {ignoreErrors ignoreValueErrors : Bool}

/-- The session with another environment and other bindings. -/
def Session.withVarBinds (session : Session σ ν κ ω) (environment : Environment σ ν κ ω)
    (varBinds : List (VarBind ω)) : Session σ ν κ ω where
  environment := environment
  notification := { session.notification with varBinds := varBinds }

theorem inEnvironment_run {α : Type} {program : EnvironmentOp σ ν κ ω α} {result : Except _ α}
    {environment : Environment σ ν κ ω}
    (hrun : program.run session.environment = (result, environment)) :
    (inEnvironment program).run session =
      (result, session.withVarBinds environment session.notification.varBinds) := by
  rw [inEnvironment, focus_run, hrun]
  rfl

theorem update_run (change : NotificationType σ ν κ ω → NotificationType σ ν κ ω)
    (session : Session σ ν κ ω) : (update change).run session =
      (.ok (), { session with notification := change session.notification }) :=
  rfl

/-- A turn of the loop over the objects adds a binding, and keeps its position. -/
theorem appendObjects_cons_run {start : ℕ} {slots : List (VarBind ω)}
    {varBindsLocation : Dict Oid ℕ} {notificationObject : String × String} {oid : Oid}
    {varBind : VarBind ω} {after : Environment σ ν κ ω} (others : List (String × String))
    (hlength : session.notification.varBinds.length = start + slots.length)
    (hlocates : Locates start slots varBindsLocation)
    (hok : (objectVarBind resolution notification ignoreErrors ignoreValueErrors
      notificationObject).run session.environment = (.ok (oid, varBind), after)) :
    ∃ located, (appendObjects resolution notification ignoreErrors ignoreValueErrors
        (notificationObject :: others) varBindsLocation).run session =
          (appendObjects resolution notification ignoreErrors ignoreValueErrors others
            located).run (session.withVarBinds after
              (session.notification.varBinds ++ [varBind])) ∧
      Locates start (slots ++ [varBind]) located := by
  have hname : varBind.1 = oid := fst_of_objectVarBind_run hok
  let appended := session.withVarBinds after (session.notification.varBinds ++ [varBind])
  refine ⟨varBindsLocation.insert oid (appended.notification.varBinds.length - 1), ?_, ?_⟩
  · rw [appendObjects, bind_run_of_ok (inEnvironment_run hok)]
    rfl
  · have hposition : appended.notification.varBinds.length - 1 = start + slots.length := by
      simp [appended, Session.withVarBinds, hlength]
    rw [hposition, ← hname]
    exact hlocates.concat varBind

/-- The loop over the objects adds their bindings, and keeps their positions. -/
theorem appendObjects_run (resolution : MibResolution σ ν κ ω)
    (notification : NotificationType σ ν κ ω) (ignoreErrors ignoreValueErrors : Bool) {start : ℕ}
    {slots : List (VarBind ω)} {varBindsLocation : Dict Oid ℕ} (objects : List (String × String))
    (hlength : session.notification.varBinds.length = start + slots.length)
    (hlocates : Locates start slots varBindsLocation) :
    match (collect (objectVarBind resolution notification ignoreErrors ignoreValueErrors)
      objects).run session.environment with
    | (.ok found, environment) => ∃ locations,
      (appendObjects resolution notification ignoreErrors ignoreValueErrors objects
        varBindsLocation).run session = (.ok locations, session.withVarBinds environment
          (session.notification.varBinds ++ found.map Prod.snd)) ∧
        Locates start (slots ++ found.map Prod.snd) locations
    | (.error exception, environment) => ∃ kept,
      (appendObjects resolution notification ignoreErrors ignoreValueErrors objects
        varBindsLocation).run session = (.error exception, session.withVarBinds environment
          (session.notification.varBinds ++ kept)) := by
  induction objects generalizing session slots varBindsLocation with
  | nil =>
    refine ⟨varBindsLocation, ?_, ?_⟩
    · simp [appendObjects, Session.withVarBinds]
    · simpa using hlocates
  | cons notificationObject others ih =>
    rw [collect]
    rcases ok_or_error (objectVarBind resolution notification ignoreErrors ignoreValueErrors
      notificationObject) session.environment with
      ⟨⟨oid, varBind⟩, after, hok⟩ | ⟨ex, after, herror⟩
    · obtain ⟨located, hturn, hkept⟩ := appendObjects_cons_run others hlength hlocates hok
      let appended := session.withVarBinds after (session.notification.varBinds ++ [varBind])
      have hlast : appended.notification.varBinds.length = start + (slots ++ [varBind]).length := by
        simp [appended, Session.withVarBinds, hlength, Nat.add_assoc]
      have henvironment : appended.environment = after := rfl
      have hfollowing := ih hlast hkept
      rw [henvironment] at hfollowing
      rw [bind_run_of_ok hok, hturn]
      rcases ok_or_error (collect (objectVarBind resolution notification ignoreErrors
        ignoreValueErrors) others) after with ⟨found, last, hcollect⟩ | ⟨ex, last, hcollect⟩
      · rw [hcollect] at hfollowing
        rw [bind_run_of_ok hcollect]
        obtain ⟨locations, hrun, hlocated⟩ := hfollowing
        refine ⟨locations, hrun.trans ?_, ?_⟩
        · simp [appended, Session.withVarBinds]
        · simpa using hlocated
      · rw [hcollect] at hfollowing
        rw [bind_run_of_error hcollect]
        obtain ⟨kept, hrun⟩ := hfollowing
        refine ⟨varBind :: kept, hrun.trans ?_⟩
        simp [appended, Session.withVarBinds]
    · rw [bind_run_of_error herror, appendObjects, bind_run_of_error (inEnvironment_run herror)]
      exact ⟨[], by rw [List.append_nil]⟩

/-- One additional binding is laid over the objects. -/
theorem mergeVarBind_run {front slots entries : List (VarBind ω)} {varBindsLocation : Dict Oid ℕ}
    {varBinds : AdditionalVarBind ν ω} {varBind : VarBind ω} {after : Environment σ ν κ ω}
    (hvarBinds : session.notification.varBinds = front ++ overlay slots entries)
    (hlocates : Locates front.length slots varBindsLocation)
    (hok : (additionalVarBind resolution ignoreValueErrors varBinds).run session.environment =
      (.ok varBind, after)) :
    (mergeVarBind resolution ignoreValueErrors varBindsLocation varBinds).run session =
      (.ok (), session.withVarBinds after (front ++ overlay slots (entries ++ [varBind]))) := by
  rw [mergeVarBind, bind_run_of_ok (inEnvironment_run hok), hlocates varBind.1, overlay_concat]
  cases lastIndex varBind.1 slots with
  | none =>
    rw [← List.append_assoc, ← hvarBinds]
    rfl
  | some index =>
    have hset : front ++ (overlay slots entries).set index varBind =
        session.notification.varBinds.set (front.length + index) varBind := by
      rw [hvarBinds, List.set_append_right _ _ (Nat.le_add_right _ _), Nat.add_sub_cancel_left]
    simp only [hset]
    rfl

/-- The loop over the additional bindings lays them over the objects. -/
theorem forEach_mergeVarBind_run (resolution : MibResolution σ ν κ ω) (ignoreValueErrors : Bool)
    {front slots entries : List (VarBind ω)} {varBindsLocation : Dict Oid ℕ}
    (additional : List (AdditionalVarBind ν ω))
    (hvarBinds : session.notification.varBinds = front ++ overlay slots entries)
    (hlocates : Locates front.length slots varBindsLocation) :
    match (collect (additionalVarBind resolution ignoreValueErrors) additional).run
      session.environment with
    | (.ok found, environment) =>
      (forEach (mergeVarBind resolution ignoreValueErrors varBindsLocation) additional).run
        session = (.ok (), session.withVarBinds environment
          (front ++ overlay slots (entries ++ found)))
    | (.error exception, environment) => ∃ kept,
      (forEach (mergeVarBind resolution ignoreValueErrors varBindsLocation) additional).run
        session = (.error exception, session.withVarBinds environment (front ++ kept)) := by
  induction additional generalizing session entries with
  | nil =>
    show (pure () : SessionOp σ ν κ ω Unit).run session = _
    rw [List.append_nil, ← hvarBinds]
    rfl
  | cons varBinds others ih =>
    rw [collect, forEach_cons]
    rcases ok_or_error (additionalVarBind resolution ignoreValueErrors varBinds)
      session.environment with ⟨varBind, after, hok⟩ | ⟨ex, after, herror⟩
    · let merged := session.withVarBinds after (front ++ overlay slots (entries ++ [varBind]))
      have henvironment : merged.environment = after := rfl
      have hfollowing := ih (rfl : merged.notification.varBinds = _)
      rw [henvironment] at hfollowing
      rw [bind_run_of_ok hok, bind_run_of_ok (mergeVarBind_run hvarBinds hlocates hok)]
      rcases ok_or_error (collect (additionalVarBind resolution ignoreValueErrors) others) after
        with ⟨found, last, hcollect⟩ | ⟨ex, last, hcollect⟩
      · rw [hcollect] at hfollowing
        rw [bind_run_of_ok hcollect]
        refine Eq.trans hfollowing ?_
        rw [List.append_assoc]
        rfl
      · rw [hcollect] at hfollowing
        rw [bind_run_of_error hcollect]
        exact hfollowing
    · have hfails : (mergeVarBind resolution ignoreValueErrors varBindsLocation varBinds).run
          session = _ := bind_run_of_error (inEnvironment_run herror)
      rw [bind_run_of_error herror, bind_run_of_error hfails, hvarBinds]
      exact ⟨overlay slots entries, rfl⟩

end Loops

/-! ### An attempt -/

section Attempt

variable {resolution} {session : Session σ ν κ ω} {ignoreErrors : Bool}
  {ignoreValueErrors : Option Bool}

theorem resolveWithMib_of_clean (hclean : session.notification.isClean = true) :
    (resolveWithMib resolution ignoreErrors ignoreValueErrors).run session = (.ok (), session) := by
  refine (bind_run_of_ok (gets_run _ _)).trans ?_
  rw [if_pos hclean]
  rfl

/-- What follows the binding of `snmpTrapOID` adds what is resolved, laid out, or some of it. -/
theorem expandVarBinds_run (notification : NotificationType σ ν κ ω) (ignoreErrors flag : Bool)
    (mibNode : MibNode ω) :
    match (resolveRest resolution notification ignoreErrors flag mibNode).run
      session.environment with
    | (.ok (objects, additional), _) => ∃ after,
      (expandVarBinds resolution notification ignoreErrors flag mibNode).run session =
        (.ok (), after) ∧ after.notification.isClean = true ∧
        after.notification.varBinds = session.notification.varBinds ++ overlay objects additional
    | (.error exception, _) => ∃ after kept,
      (expandVarBinds resolution notification ignoreErrors flag mibNode).run session =
        (.error exception, after) ∧
        after.notification.isClean = session.notification.isClean ∧
        after.notification.varBinds = session.notification.varBinds ++ kept := by
  have hobjects := appendObjects_run resolution notification ignoreErrors flag mibNode.getObjects
    (rfl : session.notification.varBinds.length = _ + ([] : List (VarBind ω)).length)
    (locates_nil _)
  unfold resolveRest expandVarBinds
  rcases ok_or_error (collect (objectVarBind resolution notification ignoreErrors flag)
    mibNode.getObjects) session.environment with ⟨found, reached, hfound⟩ | ⟨ex, reached, hfound⟩
  · rw [hfound] at hobjects
    obtain ⟨locations, hrun, hlocates⟩ := hobjects
    let appended := session.withVarBinds reached
      (session.notification.varBinds ++ found.map Prod.snd)
    have hvarBinds : appended.notification.varBinds =
        session.notification.varBinds ++ overlay (found.map Prod.snd) [] := by
      rw [overlay_nil]
      rfl
    have hadditional := forEach_mergeVarBind_run resolution flag
      notification.additionalVarBinds hvarBinds hlocates
    have henvironment : appended.environment = reached := rfl
    rw [henvironment] at hadditional
    rw [bind_run_of_ok hfound, bind_run_of_ok hrun]
    rcases ok_or_error (collect (additionalVarBind resolution flag)
      notification.additionalVarBinds) reached with ⟨taken, last, htaken⟩ | ⟨ex, last, htaken⟩
    · rw [htaken] at hadditional
      rw [bind_run_of_ok htaken, bind_run_of_ok hadditional]
      exact ⟨_, rfl, rfl, rfl⟩
    · rw [htaken] at hadditional
      obtain ⟨kept, hfails⟩ := hadditional
      rw [bind_run_of_error htaken, bind_run_of_error hfails]
      exact ⟨_, kept, rfl, rfl, rfl⟩
  · rw [hfound] at hobjects
    obtain ⟨kept, hfails⟩ := hobjects
    rw [bind_run_of_error hfound, bind_run_of_error hfails]
    exact ⟨_, kept, rfl, rfl, rfl⟩

/-- An attempt that has not resolved its head adds nothing. -/
theorem resolveWithMib_run_of_head_error {exception : MibException} {last : Environment σ ν κ ω}
    (hdirty : session.notification.isClean = false)
    (hhead : (resolveHead resolution session.notification
      (ignoreValueErrors.getD ignoreErrors)).run session.environment = (.error exception, last)) :
    ∃ after, (resolveWithMib resolution ignoreErrors ignoreValueErrors).run session =
        (.error exception, after) ∧ after.notification.isClean = false ∧
      after.notification.varBinds = session.notification.varBinds := by
  unfold resolveWithMib
  rw [bind_run_of_ok (gets_run _ _), hdirty]
  simp only [Bool.false_eq_true, if_false]
  rcases bind_eq_error_iff.mp hhead with hfails | ⟨⟨oid, mibNode⟩, reached, hfound, hnext⟩
  · rw [bind_run_of_error (inEnvironment_run hfails)]
    exact ⟨_, rfl, hdirty, rfl⟩
  · let named : Session σ ν κ ω :=
      { environment := reached
        notification :=
          { session.notification with
            objectIdentity := ⟨session.notification.objectIdentity.args, some (oid, mibNode)⟩ } }
    have hfails := (bind_eq_error_iff.mp hnext).resolve_right fun ⟨_, _, _, hpure⟩ ↦ nomatch hpure
    have hnamed : (inEnvironment (trapOIDVarBind resolution
        (ignoreValueErrors.getD ignoreErrors) oid)).run named =
          (.error exception, named.withVarBinds last named.notification.varBinds) :=
      inEnvironment_run hfails
    rw [bind_run_of_ok (inEnvironment_run hfound)]
    refine ⟨named.withVarBinds last named.notification.varBinds, ?_, hdirty, rfl⟩
    exact (bind_run_of_ok (update_run _ _)).trans (bind_run_of_error hnamed)

/-- An attempt that has resolved its head adds the binding of `snmpTrapOID` and goes on. -/
theorem resolveWithMib_run_of_head {oid : Oid} {mibNode : MibNode ω} {trapOID : VarBind ω}
    {reached : Environment σ ν κ ω} (hdirty : session.notification.isClean = false)
    (hhead : (resolveHead resolution session.notification
      (ignoreValueErrors.getD ignoreErrors)).run session.environment =
        (.ok ((oid, mibNode), trapOID), reached)) :
    ∃ started : Session σ ν κ ω, (resolveWithMib resolution ignoreErrors ignoreValueErrors).run
        session = (expandVarBinds resolution session.notification ignoreErrors
          (ignoreValueErrors.getD ignoreErrors) mibNode).run started ∧
      started.environment = reached ∧ started.notification.isClean = false ∧
      started.notification.varBinds = session.notification.varBinds ++ [trapOID] ∧
      trapOID.1 = snmpTrapOID := by
  obtain ⟨_, found, hfound, hnext⟩ := bind_eq_ok_iff.mp hhead
  obtain ⟨trapOID, last, htrapOID, hpure⟩ := bind_eq_ok_iff.mp hnext
  obtain ⟨hpair, rfl⟩ := Prod.mk.inj hpure
  obtain ⟨rfl, rfl⟩ := Prod.mk.inj (Except.ok.inj hpair)
  let named : Session σ ν κ ω :=
    { environment := found
      notification :=
        { session.notification with
          objectIdentity := ⟨session.notification.objectIdentity.args, some (oid, mibNode)⟩ } }
  have hnamed : (inEnvironment (trapOIDVarBind resolution
      (ignoreValueErrors.getD ignoreErrors) oid)).run named =
        (.ok trapOID, named.withVarBinds last named.notification.varBinds) :=
    inEnvironment_run htrapOID
  refine ⟨named.withVarBinds last (session.notification.varBinds ++ [trapOID]), ?_, rfl, hdirty,
    rfl, fst_of_trapOIDVarBind_run htrapOID⟩
  unfold resolveWithMib
  rw [bind_run_of_ok (gets_run _ _), hdirty]
  simp only [Bool.false_eq_true, if_false]
  rw [bind_run_of_ok (inEnvironment_run hfound)]
  exact (bind_run_of_ok (update_run _ _)).trans
    ((bind_run_of_ok hnamed).trans (bind_run_of_ok (update_run _ _)))

/-- An attempt adds what is gathered to the bindings there are. One that fails leaves no binding
only if there was none and it fails early. -/
theorem resolveWithMib_run_of_dirty (hdirty : session.notification.isClean = false) :
    match (gather resolution session.notification ignoreErrors
      (ignoreValueErrors.getD ignoreErrors)).run session.environment with
    | (.ok expansion, _) => ∃ after,
      (resolveWithMib resolution ignoreErrors ignoreValueErrors).run session = (.ok (), after) ∧
        after.notification.isClean = true ∧ expansion.trapOID.1 = snmpTrapOID ∧
        after.notification.varBinds = session.notification.varBinds ++ expansion.varBinds
    | (.error exception, _) => ∃ after,
      (resolveWithMib resolution ignoreErrors ignoreValueErrors).run session =
        (.error exception, after) ∧ after.notification.isClean = false ∧
        (after.notification.varBinds = [] ↔ session.notification.varBinds = [] ∧
          FailsEarly resolution session (.resolveWithMib ignoreErrors ignoreValueErrors)) := by
  unfold gather
  rcases ok_or_error (resolveHead resolution session.notification
    (ignoreValueErrors.getD ignoreErrors)) session.environment with
    ⟨⟨⟨oid, mibNode⟩, trapOID⟩, last, hhead⟩ | ⟨exception, last, hhead⟩
  · obtain ⟨started, hrun, rfl, hopen, hbinds, hname⟩ := resolveWithMib_run_of_head hdirty hhead
    have hexpand := @expandVarBinds_run _ _ _ _ resolution started session.notification
      ignoreErrors (ignoreValueErrors.getD ignoreErrors) mibNode
    rw [bind_run_of_ok hhead, hrun]
    rcases ok_or_error (resolveRest resolution session.notification ignoreErrors
      (ignoreValueErrors.getD ignoreErrors) mibNode) started.environment with
      ⟨⟨objects, additional⟩, ended, hrest⟩ | ⟨exception, ended, hrest⟩
    · rw [hrest] at hexpand
      obtain ⟨after, hafter, hclean, hvarBinds⟩ := hexpand
      rw [bind_run_of_ok hrest]
      refine ⟨after, hafter, hclean, hname, ?_⟩
      rw [hvarBinds, hbinds, Expansion.varBinds]
      exact List.append_assoc _ [trapOID] _
    · rw [hrest] at hexpand
      obtain ⟨after, kept, hafter, hclean, hvarBinds⟩ := hexpand
      rw [bind_run_of_error hrest]
      refine ⟨after, hafter, hclean.trans hopen, ?_⟩
      rw [hvarBinds, hbinds]
      refine iff_of_false ?_ ?_
      · simp
      · rintro ⟨-, _, _, hfailed⟩
        cases hhead.symm.trans hfailed
  · obtain ⟨after, hrun, hopen, hbinds⟩ := resolveWithMib_run_of_head_error hdirty hhead
    rw [bind_run_of_error hhead]
    refine ⟨after, hrun, hopen, ?_⟩
    rw [hbinds]
    exact (and_iff_left ⟨exception, last, hhead⟩).symm

end Attempt

/-! ### Attempts after attempts -/

section Runs

variable {resolution} {session : Session σ ν κ ω}

theorem addVarBinds_run (varBinds : List (AdditionalVarBind ν ω)) (session : Session σ ν κ ω) :
    (addVarBinds varBinds).run session =
      if session.notification.isClean then (.error (.smi { kind := .smiError }), session)
      else (.ok (), { session with notification :=
        { session.notification with
          additionalVarBinds := session.notification.additionalVarBinds ++ varBinds } }) := by
  refine (bind_run_of_ok (gets_run _ _)).trans ?_
  split_ifs
  · rfl
  · rfl

/-- A notification that is resolved stays so. -/
theorem isClean_perform (hclean : session.notification.isClean = true) (step : Step σ ν κ ω) :
    (perform resolution session step).notification.isClean = true := by
  cases step with
  | resolveWithMib ignoreErrors ignoreValueErrors =>
    rw [perform, resolveWithMib_of_clean hclean]
    exact hclean
  | addVarBinds varBinds =>
    rw [perform, addVarBinds_run, if_pos hclean]
    exact hclean
  | elsewhere change => exact hclean

theorem isClean_foldl (hclean : session.notification.isClean = true) (steps : List (Step σ ν κ ω)) :
    (steps.foldl (perform resolution) session).notification.isClean = true := by
  induction steps generalizing session with
  | nil => exact hclean
  | cons step steps ih => exact ih (isClean_perform hclean step)

/-- Bindings are left by a step that does not resolve the notification, unless it fails early. -/
theorem varBinds_perform_eq_nil_iff {step : Step σ ν κ ω}
    (hdirty : (perform resolution session step).notification.isClean = false) :
    (perform resolution session step).notification.varBinds = [] ↔
      session.notification.varBinds = [] ∧ FailsEarly resolution session step := by
  have hbefore : session.notification.isClean = false := by
    by_contra hclean
    rw [isClean_perform (Bool.eq_true_of_not_eq_false hclean)] at hdirty
    cases hdirty
  cases step with
  | resolveWithMib ignoreErrors ignoreValueErrors =>
    have hrun := @resolveWithMib_run_of_dirty _ _ _ _ resolution _ ignoreErrors ignoreValueErrors
      hbefore
    rw [perform] at hdirty ⊢
    rcases ok_or_error (gather resolution session.notification ignoreErrors
      (ignoreValueErrors.getD ignoreErrors)) session.environment with
      ⟨expansion, reached, hgather⟩ | ⟨exception, reached, hgather⟩
    · rw [hgather] at hrun
      obtain ⟨after, hafter, hclean, -⟩ := hrun
      rw [hafter, hclean] at hdirty
      cases hdirty
    · rw [hgather] at hrun
      obtain ⟨after, hafter, -, hiff⟩ := hrun
      rw [hafter]
      exact hiff
  | addVarBinds varBinds =>
    rw [perform, addVarBinds_run, if_neg (Bool.eq_false_iff.mp hbefore)]
    exact (and_iff_left trivial).symm
  | elsewhere change => exact (and_iff_left trivial).symm

theorem varBinds_foldl_eq_nil_iff {steps : List (Step σ ν κ ω)}
    (hdirty : (steps.foldl (perform resolution) session).notification.isClean = false) :
    (steps.foldl (perform resolution) session).notification.varBinds = [] ↔
      session.notification.varBinds = [] ∧
        EveryStep (perform resolution) (FailsEarly resolution) session steps := by
  induction steps generalizing session with
  | nil => exact (and_iff_left trivial).symm
  | cons step steps ih =>
    have hbetween : (perform resolution session step).notification.isClean = false := by
      by_contra hclean
      rw [List.foldl_cons, isClean_foldl (Bool.eq_true_of_not_eq_false hclean)] at hdirty
      cases hdirty
    rw [List.foldl_cons, ih hdirty, varBinds_perform_eq_nil_iff hbetween, and_assoc]
    exact Iff.rfl

/-- A notification that nothing has happened to. -/
def Session.start (environment : Environment σ ν κ ω) (objectIdentity : ObjectIdentity ν κ ω)
    (instanceIndex : List κ) (objects : σ → String × String → Option ω) : Session σ ν κ ω where
  environment := environment
  notification := .init objectIdentity instanceIndex objects

/-- The bindings after a successful attempt are those of what it has resolved, laid out, exactly if
every attempt before it failed before it had the binding of `snmpTrapOID`. -/
theorem expands_iff (resolution : MibResolution σ ν κ ω) (environment : Environment σ ν κ ω)
    (objectIdentity : ObjectIdentity ν κ ω) (instanceIndex : List κ)
    (objects : σ → String × String → Option ω) (steps : List (Step σ ν κ ω)) (ignoreErrors : Bool)
    (ignoreValueErrors : Option Bool)
    (hdirty : (steps.foldl (perform resolution) (.start environment objectIdentity instanceIndex
      objects)).notification.isClean = false)
    (hresolved : ((resolveWithMib resolution ignoreErrors ignoreValueErrors).run
      (steps.foldl (perform resolution) (.start environment objectIdentity instanceIndex
        objects))).1 = .ok ()) :
    Expands resolution (steps.foldl (perform resolution) (.start environment objectIdentity
        instanceIndex objects)) ignoreErrors ignoreValueErrors ↔
      EveryStep (perform resolution) (FailsEarly resolution)
        (.start environment objectIdentity instanceIndex objects) steps := by
  have hleft := varBinds_foldl_eq_nil_iff hdirty
  have hearly : EveryStep (perform resolution) (FailsEarly resolution)
        (.start environment objectIdentity instanceIndex objects) steps ↔
      (steps.foldl (perform resolution) (.start environment objectIdentity instanceIndex
        objects)).notification.varBinds = [] :=
    (hleft.trans (and_iff_right rfl)).symm
  rw [hearly]
  generalize steps.foldl (perform resolution) (.start environment objectIdentity instanceIndex
    objects) = session at hdirty hresolved ⊢
  have hrun := @resolveWithMib_run_of_dirty _ _ _ _ resolution session ignoreErrors
    ignoreValueErrors hdirty
  rcases ok_or_error (gather resolution session.notification ignoreErrors
    (ignoreValueErrors.getD ignoreErrors)) session.environment with
    ⟨expansion, reached, hgather⟩ | ⟨exception, reached, hgather⟩
  · rw [hgather] at hrun
    obtain ⟨after, hafter, -, hname, hvarBinds⟩ := hrun
    constructor
    · rintro ⟨other, last, hother, -, hlaid⟩
      rw [hgather] at hother
      obtain rfl := Except.ok.inj (Prod.mk.inj hother).1
      rw [perform, hafter, hvarBinds] at hlaid
      exact List.append_left_eq_self.mp hlaid
    · intro hempty
      refine ⟨expansion, reached, hgather, hname, ?_⟩
      rw [perform, hafter, hvarBinds, hempty, List.nil_append]
  · rw [hgather] at hrun
    obtain ⟨after, hafter, -⟩ := hrun
    rw [hafter] at hresolved
    cases hresolved

end Runs

/-! ### A sample notification -/

/-- `linkDown` with one object, which takes integers. The world is whether `SNMPv2-MIB` is loaded;
a value is one of a class of its own, or an `ObjectIdentity`. -/
def sampleResolution : MibResolution Bool Unit ℕ (BindingValue ⊕ Oid) where
  prepare _ := pure ()
  callerName _ _ := pure ([1, 3, 6, 1, 6, 3, 1, 1, 5, 3], .notificationType [("IF-MIB", "ifIndex")])
  symbolName _ _ _ instanceIndex :=
    pure ([1, 3, 6, 1, 2, 1, 2, 2, 1, 1] ++ instanceIndex, .objectType fun
      | .inl (.integer value) => .ok (.inl (.integer value))
      | _ => .error .pyAsn1Error)
  nodeAt _ := do
    let loaded ← get
    pure (if loaded then
      .objectType fun
        | .inr oid => .ok (.inl (.objectIdentifier oid))
        | value => .ok value
    else
      .other)
  isSimpleAsn1Type value := value.isLeft
  isException value := value = .inl .null
  unSpecified := .inl .null
  objectIdentifier
    | .inl (.objectIdentifier oid) => some oid
    | _ => none
  identity oid := .inr oid

/-- The notification of the interface 7. -/
def sampleStart (loaded : Bool) (value : BindingValue) : Session Bool Unit ℕ (BindingValue ⊕ Oid) :=
  .start ⟨loaded, fun _ ↦ .clean ([], .inl .null)⟩ ⟨.caller (), none⟩ [7]
    fun _ _ ↦ some (.inl value)

theorem expands_iff_linkDown :
    let steps : List (Step Bool Unit ℕ (BindingValue ⊕ Oid)) :=
      [.resolveWithMib false none, .elsewhere fun environment ↦ { environment with world := true }]
    Expands sampleResolution
        (steps.foldl (perform sampleResolution) (sampleStart false (.integer 7))) false none ↔
      EveryStep (perform sampleResolution) (FailsEarly sampleResolution)
        (sampleStart false (.integer 7)) steps :=
  expands_iff sampleResolution _ _ _ _ _ false none rfl rfl

/-- A value that does not fit is refused, and the next attempt keeps it: the binding of
`snmpTrapOID` is there twice. -/
theorem not_expands_secondAttempt :
    ¬ ∀ (resolution : MibResolution Bool Unit ℕ (BindingValue ⊕ Oid))
      (environment : Environment Bool Unit ℕ (BindingValue ⊕ Oid))
      (objectIdentity : ObjectIdentity Unit ℕ (BindingValue ⊕ Oid)) (instanceIndex : List ℕ)
      (objects : Bool → String × String → Option (BindingValue ⊕ Oid))
      (steps : List (Step Bool Unit ℕ (BindingValue ⊕ Oid))) (ignoreErrors : Bool)
      (ignoreValueErrors : Option Bool),
      (steps.foldl (perform resolution) (.start environment objectIdentity instanceIndex
        objects)).notification.isClean = false →
      ((resolveWithMib resolution ignoreErrors ignoreValueErrors).run
        (steps.foldl (perform resolution) (.start environment objectIdentity instanceIndex
          objects))).1 = .ok () →
      Expands resolution (steps.foldl (perform resolution) (.start environment objectIdentity
        instanceIndex objects)) ignoreErrors ignoreValueErrors := by
  intro hall
  obtain ⟨expansion, reached, hgather, -, hvarBinds⟩ := hall sampleResolution
    ⟨true, fun _ ↦ .clean ([], .inl .null)⟩ ⟨.caller (), none⟩ [7]
    (fun _ _ ↦ some (.inl (.octetString [120]))) [.resolveWithMib false none] true none rfl rfl
  obtain rfl := Except.ok.inj (Prod.mk.inj hgather).1
  have hlength := congrArg List.length hvarBinds
  exact absurd hlength (by decide)

end Pysnmp.Smi.NotificationExpansion
