import Pysnmp.Hlapi.SubtreeWalk
import Pysnmp.Proto.Secmod.DhAgreement

/-!
# Changing a key by agreement

`dh_key_change` of `hlapi/asyncio/dh.py`. It reads the parameters and the public value that the
agent has published, and sets the value that makes the agent install the key. The commands that read
answer as they like or raise; the command that sets answers as it likes, but does not raise. Every
answer may depend on all exchanges before it.

All that the result needs is derived before the set. So no exception before it leaves a set behind,
and what comes after it carries the key that the agent installs if it applies the set
(`dhKeyChange_outcome`).
-/

set_option autoImplicit false
set_option relaxedAutoImplicit false

namespace Pysnmp.Hlapi.KeyChange

open Foundation Foundation.Effect Foundation.BigEndian Proto Proto.Secmod.DhAgreement
open SubtreeWalk (Indication)

/-! ### Objects -/

/-- `usmDHParameters`. -/
def usmDHParameters : Oid := [1, 3, 6, 1, 3, 101, 1, 1, 1]

/-- `usmDHUserAuthKeyChange`. -/
def usmDHUserAuthKeyChange : Oid := [1, 3, 6, 1, 3, 101, 1, 1, 2, 1, 1]

/-- `usmDHUserOwnAuthKeyChange`. -/
def usmDHUserOwnAuthKeyChange : Oid := [1, 3, 6, 1, 3, 101, 1, 1, 2, 1, 2]

/-- `usmDHUserPrivKeyChange`. -/
def usmDHUserPrivKeyChange : Oid := [1, 3, 6, 1, 3, 101, 1, 1, 2, 1, 3]

/-- `usmDHUserOwnPrivKeyChange`. -/
def usmDHUserOwnPrivKeyChange : Oid := [1, 3, 6, 1, 3, 101, 1, 1, 2, 1, 4]

/-- `_AUTH_KEY_LENGTHS`. -/
def authKeyLengths : List (Oid × ℕ) :=
  [([1, 3, 6, 1, 6, 3, 10, 1, 1, 2], 16), ([1, 3, 6, 1, 6, 3, 10, 1, 1, 3], 20),
    ([1, 3, 6, 1, 6, 3, 10, 1, 1, 4], 28), ([1, 3, 6, 1, 6, 3, 10, 1, 1, 5], 32),
    ([1, 3, 6, 1, 6, 3, 10, 1, 1, 6], 48), ([1, 3, 6, 1, 6, 3, 10, 1, 1, 7], 64)]

/-- `_PRIV_KEY_LENGTHS`. -/
def privKeyLengths : List (Oid × ℕ) :=
  [([1, 3, 6, 1, 6, 3, 10, 1, 2, 2], 16), ([1, 3, 6, 1, 6, 3, 10, 1, 2, 3], 32),
    ([1, 3, 6, 1, 6, 3, 10, 1, 2, 4], 16), ([1, 3, 6, 1, 4, 1, 9, 12, 6, 1, 1], 24),
    ([1, 3, 6, 1, 4, 1, 9, 12, 6, 1, 101], 24), ([1, 3, 6, 1, 4, 1, 9, 12, 6, 1, 2], 32),
    ([1, 3, 6, 1, 4, 1, 9, 12, 6, 1, 102], 32)]

/-- `_ROW_SCAN_LIMIT`. -/
def rowScanLimit : ℕ := 256

/-! ### Arguments, results and errors -/

/-- The `keyType` of a call. -/
inductive KeyType
  | auth
  | priv
  | other (keyType : String)
  deriving DecidableEq, Repr

/-- A user name, as octets or as a text. -/
inductive UserName
  | octets (value : Octets)
  | text (value : String)

/-- The octets of a user name. -/
def UserName.encode : UserName → Octets
  | .octets value => value
  | .text value => value.toUTF8.toList

/-- The credentials, where they have these attributes. -/
structure AuthData where
  userName : Option UserName
  authProtocol : Option Oid
  privProtocol : Option Oid

/-- The arguments of `dh_key_change`. -/
structure Arguments where
  authData : AuthData
  keyType : KeyType
  own : Bool
  userName : Option UserName
  securityEngineId : Option Octets
  keyLength : Option ℤ

/-- `DHKeyChangeResult`. -/
structure DHKeyChangeResult where
  key : Octets
  securityEngineId : Octets
  keyInstance : Oid
  parameters : DHParameters
  deriving DecidableEq, Repr

/-- What a `DHKeyChangeError` says. -/
inductive Reason
  | errorIndication (what : String) (errorIndication : Indication)
  | errorStatus (what : String) (errorStatus : ℤ)
  | notAvailable (what : String)
  | notOctetString (what : String) (value : BindingValue)
  | noKeyLength (keyType : KeyType) (protocol : Oid)
  | noFittingKeyPair (error : ValueError)
  | badParameters (error : ValueError)
  | noRow (userName : Octets)
  | noUserName
  | notDerivable (error : ValueError)
  deriving DecidableEq, Repr

/-- What a call raises. -/
inductive Exception
  | keyChange (reason : Reason) (candidate : Option DHKeyChangeResult)
  | badKeyType (keyType : String)
  | valueError (error : ValueError)
  | indexError
  | ofCommand (exception : String)
  deriving DecidableEq, Repr

/-- The candidate that an exception carries. -/
def Exception.candidate : Exception → Option DHKeyChangeResult
  | .keyChange _ candidate => candidate
  | _ => none

/-! ### Exchanges with the agent -/

/-- What a command returns. -/
structure CommandResult (β : Type) where
  errorIndication : Option Indication
  errorStatus : ℤ
  varBinds : β

/-- A request and its answer. -/
inductive Exchange
  | get (name : Oid) (answer : Except String (CommandResult (List VarBind)))
  | next (name : Oid) (answer : Except String (CommandResult (List (List VarBind))))
  | set (name : Oid) (value : Octets) (answer : CommandResult (List VarBind))

/-- The request is a set. -/
def Exchange.isSet : Exchange → Bool
  | .set _ _ _ => true
  | _ => false

/-- How an agent, and the way to it, answers after the exchanges before. -/
structure Agent where
  get : List Exchange → Oid → Except String (CommandResult (List VarBind))
  next : List Exchange → Oid → Except String (CommandResult (List (List VarBind)))
  set : List Exchange → Oid → Octets → CommandResult (List VarBind)

/-- Programs that exchange messages with the agent. -/
abbrev KeyChangeOp (α : Type) := Effect (List Exchange) Exception α

/-- `get_cmd`. -/
def getCmd (agent : Agent) (name : Oid) : KeyChangeOp (CommandResult (List VarBind)) := do
  let log ← Effect.get
  modify (· ++ [.get name (agent.get log name)])
  Effect.liftExcept ((agent.get log name).mapError .ofCommand)

/-- `next_cmd`. -/
def nextCmd (agent : Agent) (name : Oid) : KeyChangeOp (CommandResult (List (List VarBind))) := do
  let log ← Effect.get
  modify (· ++ [.next name (agent.next log name)])
  Effect.liftExcept ((agent.next log name).mapError .ofCommand)

/-- `set_cmd`. -/
def setCmd (agent : Agent) (name : Oid) (value : Octets) :
    KeyChangeOp (CommandResult (List VarBind)) := do
  let log ← Effect.get
  modify (· ++ [.set name value (agent.set log name value)])
  pure (agent.set log name value)

/-! ### Steps -/

/-- A `DHKeyChangeError` without a candidate. -/
def keyChangeError (reason : Reason) : Exception :=
  .keyChange reason none

/-- `_failed`. -/
def failed {β : Type} (result : CommandResult β) (what : String) : Except Exception Unit :=
  match result.errorIndication with
  | some errorIndication => .error (keyChangeError (.errorIndication what errorIndication))
  | none =>
    if result.errorStatus ≠ 0 then .error (keyChangeError (.errorStatus what result.errorStatus))
    else .ok ()

/-- The octets of a value that is an octet string; an address is one. -/
def octetsOf : BindingValue → Option Octets
  | .octetString value | .ipAddress value => some value
  | _ => none

/-- `_octets`. -/
def octets (value : BindingValue) (what : String) : Except Exception Octets :=
  if value.isException then .error (keyChangeError (.notAvailable what))
  else
    match octetsOf value with
    | some octets => .ok octets
    | none => .error (keyChangeError (.notOctetString what value))

/-- `_column`. -/
def keyColumn (keyType : KeyType) (own : Bool) : Except Exception Oid :=
  match keyType with
  | .auth => .ok (if own then usmDHUserOwnAuthKeyChange else usmDHUserAuthKeyChange)
  | .priv => .ok (if own then usmDHUserOwnPrivKeyChange else usmDHUserPrivKeyChange)
  | .other keyType => .error (.badKeyType keyType)

/-- The protocol that a key is for, and the lengths of keys. -/
def protocolOf (keyType : KeyType) (authData : AuthData) : Oid × List (Oid × ℕ) :=
  match keyType with
  | .auth => (authData.authProtocol.getD [], authKeyLengths)
  | _ => (authData.privProtocol.getD [], privKeyLengths)

/-- `_keyLength`. -/
def wantedLength (arguments : Arguments) : Except Exception ℤ :=
  match arguments.keyLength with
  | some keyLength => .ok keyLength
  | none =>
    let (protocol, lengths) := protocolOf arguments.keyType arguments.authData
    match lengths.lookup protocol with
    | some keyLength => .ok keyLength
    | none => .error (keyChangeError (.noKeyLength arguments.keyType protocol))

/-- The user whose row is changed. -/
def userNameOf (arguments : Arguments) : Except Exception Octets :=
  match arguments.userName.or arguments.authData.userName with
  | some userName => .ok userName.encode
  | none => .error (keyChangeError .noUserName)

/-- `_drawKeyPairFitting`. -/
def drawKeyPairFitting (secrets : Secrets) (parameters : DHParameters) (width : ℕ) :
    Except Exception DHKeyPair :=
  (generateKeyPairFitting secrets parameters width).mapError fun error ↦
    keyChangeError (.noFittingKeyPair error)

/-- The first binding of a response, and its value. -/
def firstValue (varBinds : List VarBind) : Except Exception BindingValue :=
  match varBinds with
  | varBind :: _ => .ok varBind.2
  | [] => .error .indexError

/-- `_readParameters`. -/
def readParameters (derDecode : DerDecoder) (agent : Agent) : KeyChangeOp DHParameters := do
  let result ← getCmd agent (usmDHParameters ++ [0])
  liftExcept (failed result "Reading usmDHParameters")
  let value ← liftExcept (firstValue result.varBinds)
  let substrate ← liftExcept (octets value "usmDHParameters")
  liftExcept ((decodeDHParameters derDecode substrate).mapError fun error ↦
    keyChangeError (.badParameters error))

/-- The end of the index of a row of the user. -/
def userSuffix (userName : Octets) : Oid :=
  userName.length :: userName.map UInt8.toNat

/-- The loop of `_findRow`, with the turns left. -/
def findRowFrom (agent : Agent) (column : Oid) (userName : Octets) :
    ℕ → Oid → KeyChangeOp (Oid × Octets)
  | 0, _ => raise (keyChangeError (.noRow userName))
  | turns + 1, name => do
    let result ← nextCmd agent name
    liftExcept (failed result "Walking usmDHUserKeyTable")
    match result.varBinds with
    | ((keyInstance, value) :: _) :: _ =>
      if keyInstance.take column.length ≠ column then
        raise (keyChangeError (.noRow userName))
      else if value = .endOfMibView then
        raise (keyChangeError (.noRow userName))
      else if keyInstance.drop (keyInstance.length - (userSuffix userName).length) =
          userSuffix userName then do
        let agentPublic ← liftExcept (octets value "usmDHUserKeyTable cell")
        pure (keyInstance, agentPublic)
      else
        findRowFrom agent column userName turns keyInstance
    | _ => raise (keyChangeError (.noRow userName))

/-- `_findRow`. -/
def findRow (agent : Agent) (column : Oid) (userName : Octets) : KeyChangeOp (Oid × Octets) :=
  findRowFrom agent column userName rowScanLimit column

/-- `_readCell`. -/
def readCell (agent : Agent) (keyInstance : Oid) : KeyChangeOp Octets := do
  let result ← getCmd agent keyInstance
  liftExcept (failed result "Reading usmDHUserKeyTable")
  let value ← liftExcept (firstValue result.varBinds)
  liftExcept (octets value "usmDHUserKeyTable cell")

/-- The row and the public value in it. -/
def locateRow (agent : Agent) (column : Oid) (securityEngineId : Option Octets)
    (userName : Octets) : KeyChangeOp (Oid × Octets) :=
  match securityEngineId with
  | none => findRow agent column userName
  | some securityEngineId => do
    let keyInstance := keyChangeInstance column securityEngineId userName
    let agentPublic ← readCell agent keyInstance
    pure (keyInstance, agentPublic)

/-- The result, as it is derived before the set. -/
def deriveCandidate (parameters : DHParameters) (keyPair : DHKeyPair) (column keyInstance : Oid)
    (agentPublic : Octets) (wanted : ℤ) : Except ValueError DHKeyChangeResult := do
  let secret ← computeSharedSecret parameters keyPair.privateValue agentPublic
  let key ← deriveKey secret wanted
  let (securityEngineId, _) ← parseKeyChangeInstance column keyInstance
  pure ⟨key, securityEngineId, keyInstance, parameters⟩

/-- What the answer to the set comes to. -/
def concludeSet (candidate : DHKeyChangeResult) (answer : CommandResult (List VarBind)) :
    Except Exception DHKeyChangeResult :=
  match answer.errorIndication with
  | some errorIndication =>
    .error (.keyChange (.errorIndication "Setting the DHKeyChange object" errorIndication)
      candidate)
  | none =>
    if answer.errorStatus ≠ 0 then
      .error (.keyChange (.errorStatus "Setting the DHKeyChange object" answer.errorStatus)
        candidate)
    else .ok candidate

/-- `dh_key_change`. -/
def dhKeyChange (derDecode : DerDecoder) (secrets : Secrets) (agent : Agent)
    (arguments : Arguments) : KeyChangeOp DHKeyChangeResult := do
  let column ← liftExcept (keyColumn arguments.keyType arguments.own)
  let wanted ← liftExcept (wantedLength arguments)
  let userName ← liftExcept (userNameOf arguments)
  let parameters ← readParameters derDecode agent
  let (keyInstance, agentPublic) ← locateRow agent column arguments.securityEngineId userName
  let keyPair ← liftExcept (drawKeyPairFitting secrets parameters agentPublic.length)
  let candidate ← liftExcept
    ((deriveCandidate parameters keyPair column keyInstance agentPublic wanted).mapError fun error ↦
      keyChangeError (.notDerivable error))
  let value ← Effect.liftExcept
    ((buildKeyChangeValue agentPublic keyPair.publicValue).mapError .valueError)
  let answer ← setCmd agent keyInstance value
  liftExcept (concludeSet candidate answer)

/-! ### What the agent has published -/

/-- The exchange reads the octets at a name: it asks for the name, or is answered with it. -/
def Exchange.Publishes (exchange : Exchange) (name : Oid) (published : Octets) : Prop :=
  match exchange with
  | .get asked (.ok result) =>
    asked = name ∧ (result.varBinds.head?.bind fun varBind ↦ octetsOf varBind.2) = some published
  | .next _ (.ok result) => ∃ value, octetsOf value = some published ∧
    (result.varBinds.head?.bind List.head?) = some (name, value)
  | _ => False

/-- No exchange sets anything. -/
def OnlyReads (log : List Exchange) : Prop :=
  ∀ exchange ∈ log, exchange.isSet = false

/-- After some reads, the last of which read the value at the instance and the first of which read
the parameters, the exchanges end in one set. An agent with a private value behind what it published
that applies the set installs the key of the result. -/
def IsAgreed (derDecode : DerDecoder) (wanted : ℕ) (log : List Exchange)
    (result : DHKeyChangeResult) : Prop :=
  ∃ reads value answer, log = reads ++ [.set result.keyInstance value answer] ∧ OnlyReads reads ∧
    ∃ first substrate last published, reads.head? = some first ∧
      first.Publishes (usmDHParameters ++ [0]) substrate ∧
      decodeDHParameters derDecode substrate = .ok result.parameters ∧
      reads.getLast? = some last ∧ last.Publishes result.keyInstance published ∧
      ∀ privateValue, fromBytes published =
          result.parameters.base ^ privateValue % result.parameters.prime →
        installedKey result.parameters privateValue published wanted value = some result.key

/-! ### Exceptions without a candidate -/

/-- An exception before the set: no candidate, and nothing set. -/
def FailsBefore (exception : Exception) (log : List Exchange) : Prop :=
  exception.candidate = none ∧ OnlyReads log

/-- Another read leaves it at reads. -/
theorem OnlyReads.append {log : List Exchange} {exchange : Exchange} (hlog : OnlyReads log)
    (hexchange : exchange.isSet = false) : OnlyReads (log ++ [exchange]) := by
  intro other hother
  rcases List.mem_append.mp hother with hmem | hlast
  · exact hlog other hmem
  · exact List.mem_singleton.mp hlast ▸ hexchange

/-- No step but the set has a candidate to carry. -/
theorem candidate_of_mapError {ε α : Type} {result : Except ε α} {image : ε → Exception}
    (himage : ∀ error, (image error).candidate = none) {exception : Exception}
    (herror : result.mapError image = .error exception) : exception.candidate = none := by
  cases result with
  | ok value => cases herror
  | error error => exact Except.error.inj herror ▸ himage error

/-- A command that failed leaves no candidate. -/
theorem candidate_of_failed {β : Type} {result : CommandResult β} {what : String}
    {exception : Exception} (hfailed : failed result what = .error exception) :
    exception.candidate = none := by
  rw [failed] at hfailed
  split at hfailed
  · exact Except.error.inj hfailed ▸ rfl
  · split_ifs at hfailed
    exact Except.error.inj hfailed ▸ rfl

/-- A value that is no octets leaves no candidate. -/
theorem candidate_of_octets {value : BindingValue} {what : String} {exception : Exception}
    (hoctets : octets value what = .error exception) : exception.candidate = none := by
  rw [octets] at hoctets
  split_ifs at hoctets
  · exact Except.error.inj hoctets ▸ rfl
  · split at hoctets
    · cases hoctets
    · exact Except.error.inj hoctets ▸ rfl

/-- What passes as octets has them. -/
theorem octetsOf_of_octets {value : BindingValue} {what : String} {published : Octets}
    (hoctets : octets value what = .ok published) : octetsOf value = some published := by
  rw [octets] at hoctets
  split_ifs at hoctets
  split at hoctets
  · next found hfound => rw [hfound, Except.ok.inj hoctets]
  · cases hoctets

theorem candidate_of_firstValue {varBinds : List VarBind} {exception : Exception}
    (hfirst : firstValue varBinds = .error exception) : exception.candidate = none := by
  cases varBinds with
  | nil => exact Except.error.inj hfirst ▸ rfl
  | cons varBind varBinds => cases hfirst

/-- A column that is not there leaves no candidate. -/
theorem candidate_of_keyColumn {keyType : KeyType} {own : Bool} {exception : Exception}
    (hcolumn : keyColumn keyType own = .error exception) : exception.candidate = none := by
  cases keyType with
  | auth => cases hcolumn
  | priv => cases hcolumn
  | other keyType => exact Except.error.inj hcolumn ▸ rfl

/-- Nor does a length that is not known. -/
theorem candidate_of_wantedLength {arguments : Arguments} {exception : Exception}
    (hwanted : wantedLength arguments = .error exception) : exception.candidate = none := by
  rw [wantedLength] at hwanted
  split at hwanted
  · cases hwanted
  · simp only at hwanted
    split at hwanted
    · cases hwanted
    · exact Except.error.inj hwanted ▸ rfl

/-- Nor does a user without a name. -/
theorem candidate_of_userNameOf {arguments : Arguments} {exception : Exception}
    (huserName : userNameOf arguments = .error exception) : exception.candidate = none := by
  rw [userNameOf] at huserName
  split at huserName
  · cases huserName
  · exact Except.error.inj huserName ▸ rfl

/-! ### Steps before the set -/

variable {agent : Agent} {pre : List Exchange → Prop}

/-- A computation between the reads. -/
theorem triple_between {α : Type} {result : Except Exception α}
    (hpre : ∀ log, pre log → OnlyReads log)
    (hcandidate : ∀ exception, result = .error exception → exception.candidate = none) :
    Triple pre (Effect.liftExcept result) (fun value log ↦ result = .ok value ∧ pre log)
      FailsBefore :=
  triple_liftExcept fun exception log herror hlog ↦ ⟨hcandidate exception herror, hpre log hlog⟩

theorem getCmd_run (agent : Agent) (name : Oid) (log : List Exchange) :
    (getCmd agent name).run log =
      ((agent.get log name).mapError .ofCommand, log ++ [.get name (agent.get log name)]) :=
  rfl

theorem nextCmd_run (agent : Agent) (name : Oid) (log : List Exchange) :
    (nextCmd agent name).run log =
      ((agent.next log name).mapError .ofCommand, log ++ [.next name (agent.next log name)]) :=
  rfl

theorem setCmd_run (agent : Agent) (name : Oid) (value : Octets) (log : List Exchange) :
    (setCmd agent name value).run log =
      (.ok (agent.set log name value), log ++ [.set name value (agent.set log name value)]) :=
  rfl

/-- A GET adds itself to the log, and fails before any SET. -/
theorem triple_getCmd (hpre : ∀ log, pre log → OnlyReads log) (name : Oid) :
    Triple pre (getCmd agent name) (fun result log ↦ ∃ before, pre before ∧
      log = before ++ [.get name (.ok result)]) FailsBefore := by
  refine Triple.of_run fun log hlog ↦ ?_
  rw [getCmd_run]
  cases hanswer : agent.get log name with
  | ok result => exact ⟨log, hlog, rfl⟩
  | error exception => exact ⟨rfl, (hpre log hlog).append rfl⟩

/-- So does a GETNEXT. -/
theorem triple_nextCmd (hpre : ∀ log, pre log → OnlyReads log) (name : Oid) :
    Triple pre (nextCmd agent name) (fun result log ↦ ∃ before, pre before ∧
      log = before ++ [.next name (.ok result)]) FailsBefore := by
  refine Triple.of_run fun log hlog ↦ ?_
  rw [nextCmd_run]
  cases hanswer : agent.next log name with
  | ok result => exact ⟨log, hlog, rfl⟩
  | error exception => exact ⟨rfl, (hpre log hlog).append rfl⟩

/-- Reading one value: the last exchange publishes it. -/
theorem triple_readValue (hpre : ∀ log, pre log → OnlyReads log) (name : Oid)
    (what failure : String) :
    Triple pre
      (do
        let result ← getCmd agent name
        Effect.liftExcept (failed result failure)
        let value ← Effect.liftExcept (firstValue result.varBinds)
        Effect.liftExcept (octets value what))
      (fun published log ↦ ∃ before exchange, pre before ∧ log = before ++ [exchange] ∧
        exchange.isSet = false ∧ exchange.Publishes name published) FailsBefore := by
  have hreads : ∀ result, ∀ log, (∃ before, pre before ∧
      log = before ++ [Exchange.get name (.ok result)]) → OnlyReads log := by
    rintro result log ⟨before, hbefore, rfl⟩
    exact (hpre before hbefore).append rfl
  refine (triple_getCmd hpre name).bind fun result ↦ ?_
  refine (triple_between (hreads result) fun _ ↦ candidate_of_failed).bind fun _ ↦ ?_
  refine (triple_between (fun log hlog ↦ hreads result log hlog.2)
    fun _ ↦ candidate_of_firstValue).bind fun value ↦ ?_
  refine (triple_between (fun log hlog ↦ hreads result log hlog.2.2)
    fun _ ↦ candidate_of_octets).consequence (fun _ hlog ↦ hlog) ?_ fun _ _ hraises ↦ hraises
  rintro published log ⟨hoctets, hvalue, -, before, hbefore, rfl⟩
  refine ⟨before, _, hbefore, rfl, rfl, rfl, ?_⟩
  cases hbinds : result.varBinds with
  | nil =>
    rw [hbinds] at hvalue
    cases hvalue
  | cons varBind varBinds =>
    rw [hbinds] at hvalue
    rw [List.head?_cons, Option.bind_some, Except.ok.inj hvalue]
    exact octetsOf_of_octets hoctets

/-- The parameters have been read first, and nothing has been set. -/
def KnowsParameters (derDecode : DerDecoder) (parameters : DHParameters) (log : List Exchange) :
    Prop :=
  OnlyReads log ∧ ∃ first substrate, log.head? = some first ∧
    first.Publishes (usmDHParameters ++ [0]) substrate ∧
    decodeDHParameters derDecode substrate = .ok parameters

theorem KnowsParameters.append {derDecode : DerDecoder} {parameters : DHParameters}
    {log : List Exchange} {exchange : Exchange} (hlog : KnowsParameters derDecode parameters log)
    (hexchange : exchange.isSet = false) :
    KnowsParameters derDecode parameters (log ++ [exchange]) := by
  obtain ⟨hreads, first, substrate, hfirst, hpublished⟩ := hlog
  refine ⟨hreads.append hexchange, first, substrate, ?_, hpublished⟩
  rw [List.head?_append, hfirst, Option.some_or]

/-- Reading the parameters leaves the log with the value they came from, and fails before any
SET. -/
theorem triple_readParameters (derDecode : DerDecoder) :
    Triple (· = []) (readParameters derDecode agent)
      (fun parameters ↦ KnowsParameters derDecode parameters) FailsBefore := by
  have hnil : ∀ log : List Exchange, log = [] → OnlyReads log := by
    rintro log rfl exchange hmem
    cases hmem
  have hshape : readParameters derDecode agent = (do
      let substrate ← (do
        let result ← getCmd agent (usmDHParameters ++ [0])
        Effect.liftExcept (failed result "Reading usmDHParameters")
        let value ← Effect.liftExcept (firstValue result.varBinds)
        Effect.liftExcept (octets value "usmDHParameters"))
      Effect.liftExcept ((decodeDHParameters derDecode substrate).mapError fun error ↦
        keyChangeError (.badParameters error))) := by
    simp only [readParameters, bind_assoc]
  rw [hshape]
  refine (triple_readValue hnil _ _ _).bind fun substrate ↦ ?_
  refine (triple_between ?_ fun _ ↦ candidate_of_mapError fun _ ↦ rfl).consequence
    (fun _ hlog ↦ hlog) ?_ fun _ _ hraises ↦ hraises
  · rintro log ⟨before, exchange, rfl, rfl, hexchange, -⟩
    exact OnlyReads.append (hnil [] rfl) hexchange
  · rintro parameters log ⟨hdecoded, before, exchange, rfl, rfl, hexchange, hpublishes⟩
    refine ⟨OnlyReads.append (hnil [] rfl) hexchange, exchange, substrate, rfl, hpublishes, ?_⟩
    cases hresult : decodeDHParameters derDecode substrate with
    | ok decoded =>
      rw [hresult] at hdecoded
      exact congrArg Except.ok (Except.ok.inj hdecoded)
    | error error =>
      rw [hresult] at hdecoded
      cases hdecoded

/-- The last exchange has read the value at the instance. -/
def KnowsRow (found : Oid × Octets) (log : List Exchange) : Prop :=
  ∃ last, log.getLast? = some last ∧ last.Publishes found.1 found.2

/-- The search for the row keeps the parameters known. -/
theorem triple_findRowFrom {column : Oid} {userName : Octets} {derDecode : DerDecoder}
    {parameters : DHParameters} (turns : ℕ) (name : Oid) :
    Triple (KnowsParameters derDecode parameters) (findRowFrom agent column userName turns name)
      (fun found log ↦ KnowsParameters derDecode parameters log ∧ KnowsRow found log)
      FailsBefore := by
  have hraise : ∀ reason, Triple (KnowsParameters derDecode parameters)
      (raise (keyChangeError reason) : KeyChangeOp (Oid × Octets))
      (fun found log ↦ KnowsParameters derDecode parameters log ∧ KnowsRow found log)
      FailsBefore := fun reason ↦
    (triple_raise _ _).consequence (fun _ hlog ↦ ⟨rfl, hlog.1⟩) (fun _ _ hpost ↦ hpost)
      fun _ _ hraises ↦ hraises
  induction turns generalizing name with
  | zero => exact hraise _
  | succ turns ih =>
    rw [findRowFrom]
    refine (triple_nextCmd (fun _ hlog ↦ hlog.1) name).bind fun result ↦ ?_
    have hknows : ∀ log, (∃ before, KnowsParameters derDecode parameters before ∧
        log = before ++ [Exchange.next name (.ok result)]) →
        KnowsParameters derDecode parameters log := by
      rintro log ⟨before, hbefore, rfl⟩
      exact hbefore.append rfl
    refine (triple_between (fun log hlog ↦ (hknows log hlog).1)
      fun _ ↦ candidate_of_failed).bind fun _ ↦ ?_
    have hdrop : ∀ {program : KeyChangeOp (Oid × Octets)} {post : Oid × Octets → _ → Prop},
        Triple (KnowsParameters derDecode parameters) program post FailsBefore →
        Triple (fun log ↦ failed result "Walking usmDHUserKeyTable" = .ok () ∧
          ∃ before, KnowsParameters derDecode parameters before ∧
            log = before ++ [Exchange.next name (.ok result)]) program post FailsBefore :=
      fun htriple ↦ htriple.consequence (fun log hlog ↦ hknows log hlog.2) (fun _ _ hpost ↦ hpost)
        fun _ _ hraises ↦ hraises
    split
    · next keyInstance value row table hbinds =>
      split_ifs with hcolumn hend hsuffix
      · exact hdrop (hraise _)
      · exact hdrop (hraise _)
      · refine (triple_between (fun log hlog ↦ (hknows log hlog.2).1)
          fun _ ↦ candidate_of_octets).bind fun agentPublic ↦ ?_
        refine (triple_pure _ _).consequence ?_ (fun _ _ hpost ↦ hpost) fun _ _ hraises ↦ hraises
        rintro log ⟨hoctets, -, before, hbefore, rfl⟩
        refine ⟨hbefore.append rfl, _, List.getLast?_concat, value, octetsOf_of_octets hoctets, ?_⟩
        rw [hbinds]
        rfl
      · exact hdrop (ih keyInstance)
    · exact hdrop (hraise _)

/-- So does finding the row by its name. -/
theorem triple_locateRow {column : Oid} {securityEngineId : Option Octets} {userName : Octets}
    {derDecode : DerDecoder} {parameters : DHParameters} :
    Triple (KnowsParameters derDecode parameters)
      (locateRow agent column securityEngineId userName)
      (fun found log ↦ KnowsParameters derDecode parameters log ∧ KnowsRow found log)
      FailsBefore := by
  cases securityEngineId with
  | none => exact triple_findRowFrom rowScanLimit column
  | some securityEngineId =>
    refine (triple_readValue (fun _ hlog ↦ hlog.1) _ _ _).bind fun agentPublic ↦ ?_
    refine (triple_pure _ _).consequence ?_ (fun _ _ hpost ↦ hpost) fun _ _ hraises ↦ hraises
    rintro log ⟨before, exchange, hbefore, rfl, hexchange, hpublishes⟩
    exact ⟨hbefore.append hexchange, exchange, List.getLast?_concat, hpublishes⟩

/-! ### The set -/

/-- Nothing is lost: a result and a candidate are agreed on, and an exception without a candidate
leaves no set behind. -/
def Outcome (derDecode : DerDecoder) (arguments : Arguments) :
    Except Exception DHKeyChangeResult → List Exchange → Prop
  | .ok result, log => ∃ wanted, wantedLength arguments = .ok wanted ∧
    IsAgreed derDecode wanted.toNat log result
  | .error exception, log =>
    match exception.candidate with
    | some candidate => ∃ wanted, wantedLength arguments = .ok wanted ∧
      IsAgreed derDecode wanted.toNat log candidate
    | none => OnlyReads log

/-- A failure before any SET is one of the three endings. -/
theorem Outcome.of_failsBefore {derDecode : DerDecoder} {arguments : Arguments}
    {exception : Exception} {log : List Exchange} (hfails : FailsBefore exception log) :
    Outcome derDecode arguments (.error exception) log := by
  rw [Outcome, hfails.1]
  exact hfails.2

theorem mapError_eq_ok {ε δ α : Type} {result : Except ε α} {image : ε → δ} {value : α}
    (hok : result.mapError image = .ok value) : result = .ok value := by
  cases result with
  | ok found => exact congrArg Except.ok (Except.ok.inj hok)
  | error error => cases hok

/-- The candidate is about the instance and the parameters, and has the derived key. -/
theorem deriveCandidate_eq_ok {parameters : DHParameters} {keyPair : DHKeyPair}
    {column keyInstance : Oid} {agentPublic : Octets} {wanted : ℤ} {candidate : DHKeyChangeResult}
    (hcandidate : deriveCandidate parameters keyPair column keyInstance agentPublic wanted =
      .ok candidate) :
    candidate.keyInstance = keyInstance ∧ candidate.parameters = parameters ∧
      ∃ secret, computeSharedSecret parameters keyPair.privateValue agentPublic = .ok secret ∧
        deriveKey secret wanted = .ok candidate.key := by
  rw [deriveCandidate] at hcandidate
  obtain ⟨secret, hsecret, hcandidate⟩ := exists_of_bind_eq_ok hcandidate
  obtain ⟨key, hkey, hcandidate⟩ := exists_of_bind_eq_ok hcandidate
  obtain ⟨parsed, -, hcandidate⟩ := exists_of_bind_eq_ok hcandidate
  obtain rfl := Except.ok.inj hcandidate
  exact ⟨rfl, rfl, secret, hsecret, hkey⟩

/-- With the candidate derived and the value built, the set makes them agreed on. -/
theorem triple_set {derDecode : DerDecoder} {arguments : Arguments} {secrets : Secrets}
    {parameters : DHParameters} {column keyInstance : Oid} {agentPublic value : Octets}
    {keyPair : DHKeyPair} {candidate : DHKeyChangeResult} {wanted : ℤ}
    (hwanted : wantedLength arguments = .ok wanted)
    (hkeyPair : generateKeyPairFitting secrets parameters agentPublic.length = .ok keyPair)
    (hcandidate : deriveCandidate parameters keyPair column keyInstance agentPublic wanted =
      .ok candidate)
    (hvalue : buildKeyChangeValue agentPublic keyPair.publicValue = .ok value) :
    Triple (fun log ↦ KnowsParameters derDecode parameters log ∧
      KnowsRow (keyInstance, agentPublic) log)
      (do
        let answer ← setCmd agent keyInstance value
        Effect.liftExcept (concludeSet candidate answer))
      (fun result log ↦ Outcome derDecode arguments (.ok result) log)
      (fun exception log ↦ Outcome derDecode arguments (.error exception) log) := by
  refine Triple.of_run fun log hlog ↦ ?_
  rw [bind_run_of_ok (setCmd_run agent keyInstance value log), liftExcept_run]
  obtain ⟨⟨hreads, first, substrate, hfirst, hsubstrate, hdecoded⟩, last, hlast, hpublished⟩ := hlog
  obtain ⟨rfl, rfl, secret, hsecret, hkey⟩ := deriveCandidate_eq_ok hcandidate
  obtain ⟨hwidth, hfitting⟩ := isFitting_of_generateKeyPairFitting hkeyPair
  have hagreed : ∃ wanted, wantedLength arguments = .ok wanted ∧ IsAgreed derDecode wanted.toNat
      (log ++ [.set candidate.keyInstance value (agent.set log candidate.keyInstance value)])
      candidate :=
    ⟨wanted, hwanted, log, value, _, rfl, hreads, first, substrate, last, agentPublic, hfirst,
      hsubstrate, hdecoded, hlast, hpublished, fun privateValue hprivate ↦
        installedKey_buildKeyChangeValue (List.ne_nil_of_length_pos hwidth) hfitting hprivate hvalue
          hsecret hkey⟩
  cases hanswer : concludeSet candidate (agent.set log candidate.keyInstance value) with
  | ok result =>
    obtain rfl : candidate = result := by
      rw [concludeSet] at hanswer
      split at hanswer
      · cases hanswer
      · split_ifs at hanswer
        exact Except.ok.inj hanswer
    exact hagreed
  | error exception =>
    have hcarried : exception.candidate = some candidate := by
      rw [concludeSet] at hanswer
      split at hanswer
      · exact Except.error.inj hanswer ▸ rfl
      · split_ifs at hanswer
        exact Except.error.inj hanswer ▸ rfl
    simp only [Outcome, hcarried]
    exact hagreed

/-- However the agent answers, the key is not lost: a result and the candidate of an error have the
key that the agent installs when it applies the one set that was sent, and without a candidate no
set was sent. -/
theorem dhKeyChange_outcome (derDecode : DerDecoder) (secrets : Secrets) (agent : Agent)
    (arguments : Arguments) :
    Outcome derDecode arguments ((dhKeyChange derDecode secrets agent arguments).run []).1
      ((dhKeyChange derDecode secrets agent arguments).run []).2 := by
  have hnil : ∀ log : List Exchange, log = [] → OnlyReads log := by
    rintro log rfl exchange hmem
    cases hmem
  have hbefore : ∀ {α : Type} {pre : List Exchange → Prop} {program : KeyChangeOp α}
      {post : α → List Exchange → Prop}, Triple pre program post FailsBefore →
      Triple pre program post
        (fun exception log ↦ Outcome derDecode arguments (.error exception) log) :=
    fun htriple ↦ htriple.consequence (fun _ hlog ↦ hlog) (fun _ _ hpost ↦ hpost)
      fun _ _ hfails ↦ Outcome.of_failsBefore hfails
  have htriple : Triple (· = []) (dhKeyChange derDecode secrets agent arguments)
      (fun result log ↦ Outcome derDecode arguments (.ok result) log)
      (fun exception log ↦ Outcome derDecode arguments (.error exception) log) := by
    rw [dhKeyChange]
    refine (hbefore (triple_between hnil fun _ ↦ candidate_of_keyColumn)).bind fun column ↦ ?_
    refine (hbefore (triple_between (fun log hlog ↦ hnil log hlog.2)
      fun _ ↦ candidate_of_wantedLength)).bind fun wanted ↦ ?_
    refine (hbefore (triple_between (fun log hlog ↦ hnil log hlog.2.2)
      fun _ ↦ candidate_of_userNameOf)).bind fun userName ↦ ?_
    refine Triple.of_fact fun _ ↦ Triple.of_fact fun hwanted ↦ Triple.of_fact fun _ ↦ ?_
    refine (hbefore (triple_readParameters derDecode)).bind fun parameters ↦ ?_
    refine (hbefore triple_locateRow).bind fun found ↦ ?_
    obtain ⟨keyInstance, agentPublic⟩ := found
    refine (hbefore (triple_between (fun log hlog ↦ hlog.1.1)
      fun _ ↦ candidate_of_mapError fun _ ↦ rfl)).bind fun keyPair ↦ ?_
    refine (hbefore (triple_between (fun log hlog ↦ hlog.2.1.1)
      fun _ ↦ candidate_of_mapError fun _ ↦ rfl)).bind fun candidate ↦ ?_
    refine (hbefore (triple_between (fun log hlog ↦ hlog.2.2.1.1)
      fun _ ↦ candidate_of_mapError fun _ ↦ rfl)).bind fun value ↦ ?_
    exact Triple.of_fact fun hvalue ↦ Triple.of_fact fun hcandidate ↦ Triple.of_fact fun hkeyPair ↦
      triple_set hwanted (mapError_eq_ok hkeyPair) (mapError_eq_ok hcandidate)
        (mapError_eq_ok hvalue)
  rcases ok_or_error (dhKeyChange derDecode secrets agent arguments) [] with
    ⟨result, after, hrun⟩ | ⟨exception, after, hrun⟩
  · rw [hrun]
    exact (htriple [] rfl).1 result after hrun
  · rw [hrun]
    exact (htriple [] rfl).2 exception after hrun

end Pysnmp.Hlapi.KeyChange
