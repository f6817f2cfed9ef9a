import Pysnmp.Foundation.Dict
import Pysnmp.Foundation.Effect
import Pysnmp.Proto.Messages

/-!
# The cache of a message processing model

`mpmod/cache.py`: what a model keeps of the requests it serves, under state references, and of the
requests it sent, under message identifiers and under the handle of the dispatcher. Both kinds are
put on a queue that drops them after 600 ticks.

The references and identifiers come from generators that all caches share; here a caller passes the
value drawn. A bucket of the queue lists the keys that expire at its tick, oldest first.
-/

set_option autoImplicit false
set_option relaxedAutoImplicit false

namespace Pysnmp.Proto.Mpmod.Cache

open Foundation Foundation.Effect

/-- What is kept of a request that was sent. The original identifier is the message identifier
itself in SNMPv3, and the request-id that the application chose in SNMPv1 and SNMPv2c. -/
structure SentRequest where
  sendPduHandle : ℕ
  originalID : ℤ
  snmpEngineID : Octets
  securityModel : ℕ
  securityName : Octets
  securityLevel : SecurityLevel
  contextEngineId : Octets
  contextName : Octets
  peer : Peer
  deriving DecidableEq, Repr

/-- What is kept of a request that is served. -/
structure ServedRequest where
  msgVersion : ℕ
  msgID : ℤ
  reqID : Option ℤ
  contextEngineId : Octets
  contextName : Octets
  securityModel : ℕ
  securityName : Option Octets
  securityLevel : SecurityLevel
  securityStateReference : ℕ
  reportableFlag : Bool
  msgMaxSize : ℤ
  maxSizeResponseScopedPDU : ℤ
  peer : Peer
  deriving DecidableEq, Repr

/-- The keys that expire at one tick. -/
structure Bucket where
  stateReferences : List ℕ := []
  msgIds : List ℤ := []
  deriving DecidableEq, Repr

/-- The state of a cache; an entry goes with the tick it expires at. -/
structure CacheState where
  stateReferenceIndex : Dict ℕ (ServedRequest × ℕ)
  msgIdIndex : Dict ℤ (SentRequest × ℕ)
  sendPduHandleIdx : Dict ℕ ℤ
  expirationQueue : ℕ → Bucket
  expirationTimer : ℕ

/-- The cache without an entry of the message identifier index. -/
def CacheState.dropMsgId (cache : CacheState) (msgId : ℤ) : CacheState :=
  { cache with msgIdIndex := cache.msgIdIndex.erase msgId }

/-- The cache without an entry of the handle index. -/
def CacheState.dropHandle (cache : CacheState) (sendPduHandle : ℕ) : CacheState :=
  { cache with sendPduHandleIdx := cache.sendPduHandleIdx.erase sendPduHandle }

/-- The cache with a message identifier taken off the queue. -/
def CacheState.unschedule (cache : CacheState) (expireAt : ℕ) (msgId : ℤ) : CacheState :=
  let bucket := cache.expirationQueue expireAt
  { cache with
    expirationQueue := Function.update cache.expirationQueue expireAt
      { bucket with msgIds := bucket.msgIds.erase msgId } }

/-- The cache with a request that was sent at this tick. -/
def CacheState.withSent (cache : CacheState) (msgId : ℤ) (msgInfo : SentRequest) : CacheState :=
  let expireAt := cache.expirationTimer + 600
  let bucket := cache.expirationQueue expireAt
  { cache with
    msgIdIndex := cache.msgIdIndex.insert msgId (msgInfo, expireAt)
    sendPduHandleIdx := cache.sendPduHandleIdx.insert msgInfo.sendPduHandle msgId
    expirationQueue := Function.update cache.expirationQueue expireAt
      { bucket with msgIds := bucket.msgIds ++ [msgId] } }

/-- A cache without entries. -/
def CacheState.empty : CacheState where
  stateReferenceIndex := ∅
  msgIdIndex := ∅
  sendPduHandleIdx := ∅
  expirationQueue := fun _ ↦ {}
  expirationTimer := 0

/-- Programs of the cache. -/
abbrev CacheOp (α : Type) := Effect CacheState Raised α

/-! ### Server mode -/

/-- `del self.__stateReferenceIndex[...]`. -/
def deleteStateReference (stateReference : ℕ) : CacheOp Unit := do
  match ← gets fun cache ↦ cache.stateReferenceIndex.lookup stateReference with
  | none => raise .keyError
  | some _ => modify fun cache ↦ { cache with
      stateReferenceIndex := cache.stateReferenceIndex.erase stateReference }

/-- `pushByStateRef`. -/
def pushByStateRef (stateReference : ℕ) (msgInfo : ServedRequest) : CacheOp Unit := do
  match ← gets fun cache ↦ cache.stateReferenceIndex.lookup stateReference with
  | some _ => raise .protocolError
  | none => modify fun cache ↦
      let expireAt := cache.expirationTimer + 600
      let bucket := cache.expirationQueue expireAt
      { cache with
        stateReferenceIndex := cache.stateReferenceIndex.insert stateReference (msgInfo, expireAt)
        expirationQueue := Function.update cache.expirationQueue expireAt
          { bucket with stateReferences := bucket.stateReferences ++ [stateReference] } }

/-- Take a state reference off the queue. -/
def unscheduleStateReference (expireAt stateReference : ℕ) : CacheOp Unit := do
  let bucket ← gets fun cache ↦ cache.expirationQueue expireAt
  if stateReference ∈ bucket.stateReferences then
    modify fun cache ↦ { cache with
      expirationQueue := Function.update cache.expirationQueue expireAt
        { bucket with stateReferences := bucket.stateReferences.erase stateReference } }
  else
    raise .keyError

/-- `popByStateRef`. -/
def popByStateRef (stateReference : ℕ) : CacheOp ServedRequest := do
  match ← gets fun cache ↦ cache.stateReferenceIndex.lookup stateReference with
  | none => raise .protocolError
  | some (cacheEntry, expireAt) => do
    deleteStateReference stateReference
    unscheduleStateReference expireAt stateReference
    pure cacheEntry

/-! ### Client mode -/

/-- `del self.__msgIdIndex[...]`. -/
def deleteMsgId (msgId : ℤ) : CacheOp Unit := do
  match ← gets fun cache ↦ cache.msgIdIndex.lookup msgId with
  | none => raise .keyError
  | some _ => modify fun cache ↦ cache.dropMsgId msgId

/-- `del self.__sendPduHandleIdx[...]`. -/
def deleteSendPduHandle (sendPduHandle : ℕ) : CacheOp Unit := do
  match ← gets fun cache ↦ cache.sendPduHandleIdx.lookup sendPduHandle with
  | none => raise .keyError
  | some _ => modify fun cache ↦ cache.dropHandle sendPduHandle

/-- `pushByMsgId`. -/
def pushByMsgId (msgId : ℤ) (msgInfo : SentRequest) : CacheOp Unit := do
  match ← gets fun cache ↦ cache.msgIdIndex.lookup msgId with
  | some _ => raise .protocolError
  | none => modify fun cache ↦ cache.withSent msgId msgInfo

/-- Take a message identifier off the queue. -/
def unscheduleMsgId (expireAt : ℕ) (msgId : ℤ) : CacheOp Unit := do
  let bucket ← gets fun cache ↦ cache.expirationQueue expireAt
  if msgId ∈ bucket.msgIds then
    modify fun cache ↦ cache.unschedule expireAt msgId
  else
    raise .keyError

/-- `popByMsgId`. -/
def popByMsgId (msgId : ℤ) : CacheOp SentRequest := do
  match ← gets fun cache ↦ cache.msgIdIndex.lookup msgId with
  | none => raise .protocolError
  | some (cacheEntry, expireAt) => do
    deleteSendPduHandle cacheEntry.sendPduHandle
    deleteMsgId msgId
    unscheduleMsgId expireAt msgId
    pure cacheEntry

/-- `popBySendPduHandle`. -/
def popBySendPduHandle (sendPduHandle : ℕ) : CacheOp Unit := do
  match ← gets fun cache ↦ cache.sendPduHandleIdx.lookup sendPduHandle with
  | none => pure ()
  | some msgId => do
    let _ ← popByMsgId msgId
    pure ()

/-- `expireCaches`: the handle index is left as it is. -/
def expireCaches : CacheOp Unit := do
  let cacheInfo ← gets fun cache ↦ cache.expirationQueue cache.expirationTimer
  forEach deleteStateReference cacheInfo.stateReferences
  forEach deleteMsgId cacheInfo.msgIds
  modify fun cache ↦ { cache with
    expirationQueue := Function.update cache.expirationQueue cache.expirationTimer {}
    expirationTimer := cache.expirationTimer + 1 }

/-! ### What the operations on sent requests do -/

/-- The cache without a sent request, in the two indices and on the queue. -/
def CacheState.withoutSent (cache : CacheState) (msgId : ℤ) (sent : SentRequest)
    (expireAt : ℕ) : CacheState :=
  ((cache.dropHandle sent.sendPduHandle).dropMsgId msgId).unschedule expireAt msgId

theorem deleteMsgId_eq_ok_iff {cache after : CacheState} {msgId : ℤ} {done : Unit} :
    (deleteMsgId msgId).run cache = (.ok done, after) ↔
      (cache.msgIdIndex.lookup msgId).isSome ∧ cache.dropMsgId msgId = after := by
  unfold deleteMsgId
  rw [bind_run_of_ok (gets_run _ _)]
  cases cache.msgIdIndex.lookup msgId with
  | none => simp
  | some _ => simp

theorem deleteSendPduHandle_eq_ok_iff {cache after : CacheState} {sendPduHandle : ℕ}
    {done : Unit} :
    (deleteSendPduHandle sendPduHandle).run cache = (.ok done, after) ↔
      (cache.sendPduHandleIdx.lookup sendPduHandle).isSome ∧
        cache.dropHandle sendPduHandle = after := by
  unfold deleteSendPduHandle
  rw [bind_run_of_ok (gets_run _ _)]
  cases cache.sendPduHandleIdx.lookup sendPduHandle with
  | none => simp
  | some _ => simp

theorem unscheduleMsgId_eq_ok_iff {cache after : CacheState} {expireAt : ℕ} {msgId : ℤ}
    {done : Unit} :
    (unscheduleMsgId expireAt msgId).run cache = (.ok done, after) ↔
      msgId ∈ (cache.expirationQueue expireAt).msgIds ∧
        cache.unschedule expireAt msgId = after := by
  unfold unscheduleMsgId
  rw [bind_run_of_ok (gets_run _ _)]
  by_cases hscheduled : msgId ∈ (cache.expirationQueue expireAt).msgIds
  · simp [hscheduled]
  · simp [hscheduled]

@[simp] theorem withoutSent_msgIdIndex (cache : CacheState) (msgId : ℤ) (sent : SentRequest)
    (expireAt : ℕ) :
    (cache.withoutSent msgId sent expireAt).msgIdIndex = cache.msgIdIndex.erase msgId :=
  rfl

@[simp] theorem withoutSent_sendPduHandleIdx (cache : CacheState) (msgId : ℤ)
    (sent : SentRequest) (expireAt : ℕ) :
    (cache.withoutSent msgId sent expireAt).sendPduHandleIdx =
      cache.sendPduHandleIdx.erase sent.sendPduHandle :=
  rfl

/-- A sent request is taken back when both indices and the queue have it, and then none of them has
it any more. -/
theorem popByMsgId_eq_ok_iff {cache after : CacheState} {msgId : ℤ} {sent : SentRequest} :
    (popByMsgId msgId).run cache = (.ok sent, after) ↔
      ∃ expireAt, cache.msgIdIndex.lookup msgId = some (sent, expireAt) ∧
        (cache.sendPduHandleIdx.lookup sent.sendPduHandle).isSome ∧
        msgId ∈ (cache.expirationQueue expireAt).msgIds ∧
        cache.withoutSent msgId sent expireAt = after := by
  unfold popByMsgId
  rw [bind_run_of_ok (gets_run _ _)]
  cases hentry : cache.msgIdIndex.lookup msgId with
  | none => simp
  | some entry =>
    obtain ⟨cacheEntry, expireAt⟩ := entry
    constructor
    · intro hrun
      obtain ⟨_, _, hfirst, hrun⟩ := bind_eq_ok_iff.mp hrun
      obtain ⟨hhandle, rfl⟩ := deleteSendPduHandle_eq_ok_iff.mp hfirst
      obtain ⟨_, _, hsecond, hrun⟩ := bind_eq_ok_iff.mp hrun
      obtain ⟨-, rfl⟩ := deleteMsgId_eq_ok_iff.mp hsecond
      obtain ⟨_, _, hthird, hrun⟩ := bind_eq_ok_iff.mp hrun
      obtain ⟨hscheduled, rfl⟩ := unscheduleMsgId_eq_ok_iff.mp hthird
      rw [pure_run, Prod.mk.injEq, Except.ok.injEq] at hrun
      obtain ⟨rfl, rfl⟩ := hrun
      exact ⟨expireAt, rfl, hhandle, hscheduled, rfl⟩
    · rintro ⟨_, heq, hhandle, hscheduled, rfl⟩
      rw [Option.some.injEq, Prod.mk.injEq] at heq
      obtain ⟨rfl, rfl⟩ := heq
      have hindexed :
          ((cache.dropHandle cacheEntry.sendPduHandle).msgIdIndex.lookup msgId).isSome := by
        show (cache.msgIdIndex.lookup msgId).isSome
        rw [hentry]
        rfl
      have hfirst : (deleteSendPduHandle cacheEntry.sendPduHandle).run cache =
          (.ok (), cache.dropHandle cacheEntry.sendPduHandle) :=
        deleteSendPduHandle_eq_ok_iff.mpr ⟨hhandle, rfl⟩
      have hsecond : (deleteMsgId msgId).run (cache.dropHandle cacheEntry.sendPduHandle) =
          (.ok (), (cache.dropHandle cacheEntry.sendPduHandle).dropMsgId msgId) :=
        deleteMsgId_eq_ok_iff.mpr ⟨hindexed, rfl⟩
      have hthird : (unscheduleMsgId expireAt msgId).run
          ((cache.dropHandle cacheEntry.sendPduHandle).dropMsgId msgId) =
            (.ok (), cache.withoutSent msgId cacheEntry expireAt) :=
        unscheduleMsgId_eq_ok_iff.mpr ⟨hscheduled, rfl⟩
      rw [bind_run_of_ok hfirst, bind_run_of_ok hsecond, bind_run_of_ok hthird, pure_run]

theorem deleteMsgId_eq_error {cache after : CacheState} {msgId : ℤ} {exception : Raised}
    (hrun : (deleteMsgId msgId).run cache = (.error exception, after)) :
    exception = .keyError := by
  unfold deleteMsgId at hrun
  rw [bind_run_of_ok (gets_run _ _)] at hrun
  cases hentry : cache.msgIdIndex.lookup msgId with
  | none => simp_all
  | some _ => simp [hentry] at hrun

theorem deleteSendPduHandle_eq_error {cache after : CacheState} {sendPduHandle : ℕ}
    {exception : Raised}
    (hrun : (deleteSendPduHandle sendPduHandle).run cache = (.error exception, after)) :
    exception = .keyError := by
  unfold deleteSendPduHandle at hrun
  rw [bind_run_of_ok (gets_run _ _)] at hrun
  cases hentry : cache.sendPduHandleIdx.lookup sendPduHandle with
  | none => simp_all
  | some _ => simp [hentry] at hrun

theorem unscheduleMsgId_eq_error {cache after : CacheState} {expireAt : ℕ} {msgId : ℤ}
    {exception : Raised}
    (hrun : (unscheduleMsgId expireAt msgId).run cache = (.error exception, after)) :
    exception = .keyError := by
  unfold unscheduleMsgId at hrun
  rw [bind_run_of_ok (gets_run _ _)] at hrun
  by_cases hscheduled : msgId ∈ (cache.expirationQueue expireAt).msgIds
  · simp [hscheduled] at hrun
  · simp_all

/-- A request that the index has is taken back, or the other index or the queue lacks it. -/
theorem popByMsgId_eq_error_of_indexed {cache after : CacheState} {msgId : ℤ}
    {exception : Raised} (hindexed : (cache.msgIdIndex.lookup msgId).isSome)
    (hrun : (popByMsgId msgId).run cache = (.error exception, after)) :
    exception = .keyError := by
  obtain ⟨⟨cacheEntry, expireAt⟩, hentry⟩ := Option.isSome_iff_exists.mp hindexed
  unfold popByMsgId at hrun
  rw [bind_run_of_ok (gets_run _ _), hentry] at hrun
  rcases bind_eq_error_iff.mp hrun with hfirst | ⟨_, _, _, hrun⟩
  · exact deleteSendPduHandle_eq_error hfirst
  rcases bind_eq_error_iff.mp hrun with hsecond | ⟨_, _, _, hrun⟩
  · exact deleteMsgId_eq_error hsecond
  rcases bind_eq_error_iff.mp hrun with hthird | ⟨_, _, _, hrun⟩
  · exact unscheduleMsgId_eq_error hthird
  · cases hrun

theorem popByMsgId_run_of_missing {cache : CacheState} {msgId : ℤ}
    (hmissing : cache.msgIdIndex.lookup msgId = none) :
    (popByMsgId msgId).run cache = (.error .protocolError, cache) := by
  unfold popByMsgId
  rw [bind_run_of_ok (gets_run _ _), hmissing, raise_run]

end Pysnmp.Proto.Mpmod.Cache
