import Pysnmp.Foundation.Expiry
import Pysnmp.Foundation.Run
import Pysnmp.Proto.Mpmod.SentRequests

/-!
# Histories of a message processing cache

The six operations of the cache in any order, beside a record of what was pushed, when, and not
popped since. `IndicesAgree` says that the cache holds what of the record is not older than 600
ticks, that its queue has each of these entries once, at its tick, and that the index by handle
leads to the requests sent and to nothing else.

`everyStep_agrees_iff`: the cache agrees after every operation of a history exactly when no sent
request is still there at the tick at which it expires. `expireCaches` drops such a request and
leaves its handle, and releasing the handle then raises.
-/

set_option autoImplicit false
set_option relaxedAutoImplicit false

namespace Pysnmp.Proto.Mpmod.CacheHistory

open Foundation Foundation.Effect Foundation.Expiry Cache SentRequests

/-! ### Operations and records -/

/-- A call of an operation of the cache. -/
inductive CacheCall
  | pushByStateRef (stateReference : ℕ) (msgInfo : ServedRequest)
  | popByStateRef (stateReference : ℕ)
  | pushByMsgId (msgId : ℤ) (msgInfo : SentRequest)
  | popByMsgId (msgId : ℤ)
  | popBySendPduHandle (sendPduHandle : ℕ)
  | expireCaches

/-- What was pushed and not popped since, with the tick current when it was pushed. -/
structure Record where
  served : ℕ → Option (ServedRequest × ℕ)
  sent : ℤ → Option (SentRequest × ℕ)
  tick : ℕ

/-- A cache and the record of its history. -/
structure CacheRun where
  cache : CacheState
  record : Record

/-- A new cache. -/
def CacheRun.initial : CacheRun where
  cache := .empty
  record := ⟨fun _ ↦ none, fun _ ↦ none, 0⟩

/-- The cache after a call, whether it returns or raises. -/
def perform (cache : CacheState) : CacheCall → CacheState
  | .pushByStateRef stateReference msgInfo => ((pushByStateRef stateReference msgInfo).run cache).2
  | .popByStateRef stateReference => ((popByStateRef stateReference).run cache).2
  | .pushByMsgId msgId msgInfo => ((pushByMsgId msgId msgInfo).run cache).2
  | .popByMsgId msgId => ((popByMsgId msgId).run cache).2
  | .popBySendPduHandle sendPduHandle => ((popBySendPduHandle sendPduHandle).run cache).2
  | .expireCaches => (expireCaches.run cache).2

/-- The record after a call. -/
def note (record : Record) : CacheCall → Record
  | .pushByStateRef stateReference msgInfo =>
    { record with
      served := Function.update record.served stateReference (some (msgInfo, record.tick)) }
  | .popByStateRef stateReference =>
    { record with served := Function.update record.served stateReference none }
  | .pushByMsgId msgId msgInfo =>
    { record with sent := Function.update record.sent msgId (some (msgInfo, record.tick)) }
  | .popByMsgId msgId => { record with sent := Function.update record.sent msgId none }
  | .popBySendPduHandle sendPduHandle =>
    { record with sent := fun msgId ↦
        (record.sent msgId).filter fun entry ↦ entry.1.sendPduHandle != sendPduHandle }
  | .expireCaches => { record with tick := record.tick + 1 }

/-- One call. -/
def step (run : CacheRun) (call : CacheCall) : CacheRun :=
  ⟨perform run.cache call, note run.record call⟩

/-- What is pushed goes under identifiers that the cache does not have. -/
def Fresh (run : CacheRun) : CacheCall → Prop
  | .pushByStateRef stateReference _ => run.cache.stateReferenceIndex.lookup stateReference = none
  | .pushByMsgId msgId msgInfo =>
    run.cache.msgIdIndex.lookup msgId = none ∧
      run.cache.sendPduHandleIdx.lookup msgInfo.sendPduHandle = none
  | _ => True

/-- No request sent 600 ticks ago is still to be popped when the tick passes. -/
def PoppedInTime (run : CacheRun) : CacheCall → Prop
  | .expireCaches => ∀ msgId sent pushedAt, run.record.sent msgId = some (sent, pushedAt) →
      pushedAt + 600 ≠ run.record.tick
  | _ => True

/-! ### Agreement -/

/-- The cache holds what remains of the record, its queue has each entry once, at its tick, and its
handles are those of the requests sent. -/
structure IndicesAgree (run : CacheRun) : Prop where
  timer : run.cache.expirationTimer = run.record.tick
  served : Tracks 600 run.record.tick run.record.served
    (fun stateReference ↦ run.cache.stateReferenceIndex.lookup stateReference)
    fun expireAt ↦ (run.cache.expirationQueue expireAt).stateReferences
  sent : Tracks 600 run.record.tick run.record.sent
    (fun msgId ↦ run.cache.msgIdIndex.lookup msgId)
    fun expireAt ↦ (run.cache.expirationQueue expireAt).msgIds
  handles : ∀ sendPduHandle msgId,
    run.cache.sendPduHandleIdx.lookup sendPduHandle = some msgId ↔
      ∃ sent expireAt, run.cache.msgIdIndex.lookup msgId = some (sent, expireAt) ∧
        sent.sendPduHandle = sendPduHandle

/-- Releasing a handle, known or not, does not raise. -/
def ReleasesSilently (cache : CacheState) : Prop :=
  ∀ sendPduHandle, ((popBySendPduHandle sendPduHandle).run cache).1 = .ok ()

/-- The indices of a new cache agree. -/
theorem indicesAgree_initial : IndicesAgree .initial where
  timer := rfl
  served := Tracks.empty
  sent := Tracks.empty
  handles := by
    refine fun sendPduHandle msgId ↦ iff_of_false (fun hhandle ↦ by cases hhandle) ?_
    rintro ⟨sent, expireAt, hentry, -⟩
    cases hentry

section Agree

variable {run : CacheRun}

/-- A cache whose indices agree is consistent. -/
theorem IndicesAgree.consistent (hagree : IndicesAgree run) : Consistent run.cache where
  indexed := fun msgId sent expireAt hentry ↦
    (hagree.handles sent.sendPduHandle msgId).mpr ⟨sent, expireAt, hentry, rfl⟩
  scheduled := fun msgId sent expireAt hentry ↦
    (hagree.sent.scheduled expireAt msgId).mpr ⟨sent, hentry⟩
  entered := fun expireAt msgId hmem ↦ (hagree.sent.scheduled expireAt msgId).mp hmem
  nodup := hagree.sent.nodup

/-- Releasing a handle takes the request sent with it back, or finds none and changes nothing. -/
theorem IndicesAgree.popBySendPduHandle_run (hagree : IndicesAgree run) (sendPduHandle : ℕ) :
    ((∀ msgId sent expireAt, run.cache.msgIdIndex.lookup msgId = some (sent, expireAt) →
        sent.sendPduHandle ≠ sendPduHandle) ∧
      (popBySendPduHandle sendPduHandle).run run.cache = (.ok (), run.cache)) ∨
    ∃ msgId sent expireAt, run.cache.msgIdIndex.lookup msgId = some (sent, expireAt) ∧
      sent.sendPduHandle = sendPduHandle ∧
      (popBySendPduHandle sendPduHandle).run run.cache =
        (.ok (), run.cache.withoutSent msgId sent expireAt) := by
  unfold popBySendPduHandle
  rw [bind_run_of_ok (gets_run _ _)]
  cases hhandle : run.cache.sendPduHandleIdx.lookup sendPduHandle with
  | none =>
    refine Or.inl ⟨fun msgId sent expireAt hentry hsame ↦ ?_, pure_run _ _⟩
    rw [(hagree.handles sendPduHandle msgId).mpr ⟨sent, expireAt, hentry, hsame⟩] at hhandle
    cases hhandle
  | some msgId =>
    obtain ⟨sent, expireAt, hentry, hsame⟩ := (hagree.handles sendPduHandle msgId).mp hhandle
    exact Or.inr ⟨msgId, sent, expireAt, hentry, hsame,
      bind_run_of_ok (hagree.consistent.popByMsgId_run hentry)⟩

/-- A cache whose indices agree lets its entries expire without an exception. -/
theorem IndicesAgree.releasesSilently (hagree : IndicesAgree run) : ReleasesSilently run.cache := by
  intro sendPduHandle
  rcases hagree.popBySendPduHandle_run sendPduHandle with ⟨-, hrun⟩ | ⟨_, _, _, -, -, hrun⟩
  · rw [hrun]
  · rw [hrun]

end Agree

/-! ### Calls for served requests -/

section Served

variable {run : CacheRun}

/-- A change of what is kept of the served requests. -/
theorem IndicesAgree.of_sameSent (hagree : IndicesAgree run) {cache : CacheState}
    {served : ℕ → Option (ServedRequest × ℕ)} (hsame : SameSent run.cache cache)
    (hserved : Tracks 600 run.record.tick served
      (fun stateReference ↦ cache.stateReferenceIndex.lookup stateReference)
      fun expireAt ↦ (cache.expirationQueue expireAt).stateReferences) :
    IndicesAgree ⟨cache, { run.record with served }⟩ where
  timer := hsame.expirationTimer.trans hagree.timer
  served := hserved
  sent := hagree.sent.congr (fun msgId ↦ by rw [hsame.msgIdIndex]) hsame.msgIds
  handles := by
    intro sendPduHandle msgId
    rw [hsame.sendPduHandleIdx, hsame.msgIdIndex]
    exact hagree.handles sendPduHandle msgId

/-- The state references of a queue in which those of one tick are replaced. -/
theorem stateReferences_update (queue : ℕ → Bucket) (tick : ℕ) (stateReferences : List ℕ)
    (expireAt : ℕ) :
    (Function.update queue tick { queue tick with stateReferences } expireAt).stateReferences =
      Function.update (fun expireAt ↦ (queue expireAt).stateReferences) tick stateReferences
        expireAt := by
  by_cases htick : expireAt = tick
  · rw [htick, Function.update_self, Function.update_self]
  · rw [Function.update_of_ne htick, Function.update_of_ne htick]

/-- A free state reference takes the request, and is queued to expire. -/
theorem pushByStateRef_run_of_missing {cache : CacheState} {stateReference : ℕ}
    (msgInfo : ServedRequest) (hmissing : cache.stateReferenceIndex.lookup stateReference = none) :
    (pushByStateRef stateReference msgInfo).run cache = (.ok (), { cache with
      stateReferenceIndex := cache.stateReferenceIndex.insert stateReference
        (msgInfo, cache.expirationTimer + 600)
      expirationQueue := Function.update cache.expirationQueue (cache.expirationTimer + 600)
        { cache.expirationQueue (cache.expirationTimer + 600) with
          stateReferences := (cache.expirationQueue
            (cache.expirationTimer + 600)).stateReferences ++ [stateReference] } }) := by
  unfold pushByStateRef
  rw [bind_run_of_ok (gets_run _ _), hmissing, modify_run]

/-- A state reference that leads nowhere is an error, and changes nothing. -/
theorem popByStateRef_run_of_missing {cache : CacheState} {stateReference : ℕ}
    (hmissing : cache.stateReferenceIndex.lookup stateReference = none) :
    (popByStateRef stateReference).run cache = (.error .protocolError, cache) := by
  unfold popByStateRef
  rw [bind_run_of_ok (gets_run _ _), hmissing, raise_run]

/-- The entry of a state reference is taken out of the index. -/
theorem deleteStateReference_run {cache : CacheState} {stateReference : ℕ}
    (hentry : (cache.stateReferenceIndex.lookup stateReference).isSome) :
    (deleteStateReference stateReference).run cache = (.ok (), { cache with
      stateReferenceIndex := cache.stateReferenceIndex.erase stateReference }) := by
  obtain ⟨entry, hlookup⟩ := Option.isSome_iff_exists.mp hentry
  unfold deleteStateReference
  rw [bind_run_of_ok (gets_run _ _), hlookup, modify_run]

/-- The request behind a state reference is handed out once, and leaves index and queue. -/
theorem popByStateRef_run {cache : CacheState} {stateReference expireAt : ℕ}
    {msgInfo : ServedRequest}
    (hentry : cache.stateReferenceIndex.lookup stateReference = some (msgInfo, expireAt))
    (hlisted : stateReference ∈ (cache.expirationQueue expireAt).stateReferences) :
    (popByStateRef stateReference).run cache = (.ok msgInfo, { cache with
      stateReferenceIndex := cache.stateReferenceIndex.erase stateReference
      expirationQueue := Function.update cache.expirationQueue expireAt
        { cache.expirationQueue expireAt with
          stateReferences := (cache.expirationQueue expireAt).stateReferences.erase
            stateReference } }) := by
  unfold popByStateRef unscheduleStateReference
  rw [bind_run_of_ok (gets_run _ _), hentry]
  dsimp only
  rw [bind_run_of_ok (deleteStateReference_run (Option.isSome_of_eq_some hentry)), bind_bind,
    bind_run_of_ok (gets_run _ _), if_pos hlisted, bind_run_of_ok (modify_run _ _), pure_run]

/-- Indices agree after a request was cached by its state reference. -/
theorem IndicesAgree.pushByStateRef (hagree : IndicesAgree run) {stateReference : ℕ}
    (msgInfo : ServedRequest)
    (hfresh : run.cache.stateReferenceIndex.lookup stateReference = none) :
    IndicesAgree (step run (.pushByStateRef stateReference msgInfo)) := by
  refine hagree.of_sameSent (sameSent_pushByStateRef stateReference msgInfo run.cache) ?_
  simp only [perform, pushByStateRef_run_of_missing msgInfo hfresh, hagree.timer]
  refine (hagree.served.push msgInfo hfresh).congr (fun other ↦ ?_) (stateReferences_update _ _ _)
  rw [Function.update_apply, Dict.lookup_insert_ite]

/-- Indices agree after a request was taken out by its state reference. -/
theorem IndicesAgree.popByStateRef (hagree : IndicesAgree run) (stateReference : ℕ) :
    IndicesAgree (step run (.popByStateRef stateReference)) := by
  refine hagree.of_sameSent (sameSent_popByStateRef stateReference run.cache) ?_
  cases hentry : run.cache.stateReferenceIndex.lookup stateReference with
  | none =>
    simp only [perform, popByStateRef_run_of_missing hentry]
    exact hagree.served.pop_of_missing hentry
  | some entry =>
    obtain ⟨msgInfo, expireAt⟩ := entry
    have hlisted := (hagree.served.scheduled expireAt stateReference).mpr ⟨msgInfo, hentry⟩
    simp only [perform, popByStateRef_run hentry hlisted]
    refine (hagree.served.pop hentry).congr (fun other ↦ ?_) (stateReferences_update _ _ _)
    rw [Function.update_apply, Dict.lookup_erase_ite]

end Served

/-! ### Calls for sent requests -/

section Sent

variable {run : CacheRun}

/-- A change of what is kept of the sent requests. -/
theorem IndicesAgree.of_sent (hagree : IndicesAgree run) {cache : CacheState}
    {sent : ℤ → Option (SentRequest × ℕ)}
    (htimer : cache.expirationTimer = run.cache.expirationTimer)
    (hserved : cache.stateReferenceIndex = run.cache.stateReferenceIndex)
    (hstateReferences : ∀ expireAt, (cache.expirationQueue expireAt).stateReferences =
      (run.cache.expirationQueue expireAt).stateReferences)
    (hsent : Tracks 600 run.record.tick sent (fun msgId ↦ cache.msgIdIndex.lookup msgId)
      fun expireAt ↦ (cache.expirationQueue expireAt).msgIds)
    (hhandles : ∀ sendPduHandle msgId, cache.sendPduHandleIdx.lookup sendPduHandle = some msgId ↔
      ∃ sent expireAt, cache.msgIdIndex.lookup msgId = some (sent, expireAt) ∧
        sent.sendPduHandle = sendPduHandle) :
    IndicesAgree ⟨cache, { run.record with sent }⟩ where
  timer := htimer.trans hagree.timer
  served := hagree.served.congr (fun stateReference ↦ by rw [hserved]) hstateReferences
  sent := hsent
  handles := hhandles

/-- The state references of a queue in which the message identifiers of one tick are replaced. -/
theorem stateReferences_update_msgIds (queue : ℕ → Bucket) (tick : ℕ) (msgIds : List ℤ)
    (expireAt : ℕ) :
    (Function.update queue tick { queue tick with msgIds } expireAt).stateReferences =
      (queue expireAt).stateReferences := by
  by_cases htick : expireAt = tick
  · rw [htick, Function.update_self]
  · rw [Function.update_of_ne htick]

/-- Indices agree after a sent request entered both of its indices and the queue. -/
theorem IndicesAgree.withSent (hagree : IndicesAgree run) {msgId : ℤ} {msgInfo : SentRequest}
    (hmissing : run.cache.msgIdIndex.lookup msgId = none)
    (hunknown : run.cache.sendPduHandleIdx.lookup msgInfo.sendPduHandle = none) :
    IndicesAgree ⟨run.cache.withSent msgId msgInfo, { run.record with
      sent := Function.update run.record.sent msgId (some (msgInfo, run.record.tick)) }⟩ := by
  refine hagree.of_sent rfl rfl (stateReferences_update_msgIds _ _ _) ?_ ?_
  · refine (hagree.sent.push msgInfo hmissing).congr (fun other ↦ ?_) fun expireAt ↦ ?_
    · rw [withSent_msgIdIndex, Dict.lookup_insert_ite, Function.update_apply, hagree.timer]
    · rw [withSent_msgIds, Function.update_apply, hagree.timer]
      exact ite_congr rfl (fun htick ↦ by rw [htick]) fun _ ↦ rfl
  · intro sendPduHandle other
    rw [withSent_sendPduHandleIdx, withSent_msgIdIndex, Dict.lookup_insert_ite,
      Dict.lookup_insert_ite]
    by_cases hother : other = msgId
    · subst hother
      simp only [if_true, Option.some.injEq, Prod.mk.injEq]
      split_ifs with hhandle
      · exact iff_of_true rfl ⟨msgInfo, _, ⟨rfl, rfl⟩, hhandle.symm⟩
      · refine iff_of_false (fun hindexed ↦ ?_) ?_
        · obtain ⟨sent, expireAt, hentry, -⟩ := (hagree.handles sendPduHandle other).mp hindexed
          rw [hmissing] at hentry
          cases hentry
        · rintro ⟨_, _, ⟨rfl, -⟩, hsame⟩
          exact hhandle hsame.symm
    · rw [if_neg hother, ← hagree.handles]
      split_ifs with hhandle
      · rw [hhandle, hunknown]
        exact iff_of_false (fun heq ↦ hother (Option.some.inj heq).symm) nofun
      · exact Iff.rfl

/-- Indices agree after a sent request left both of its indices and the queue. -/
theorem IndicesAgree.withoutSent (hagree : IndicesAgree run) {msgId : ℤ} {sent : SentRequest}
    {expireAt : ℕ} (hentry : run.cache.msgIdIndex.lookup msgId = some (sent, expireAt)) :
    IndicesAgree ⟨run.cache.withoutSent msgId sent expireAt, { run.record with
      sent := Function.update run.record.sent msgId none }⟩ := by
  refine hagree.of_sent rfl rfl (stateReferences_update_msgIds _ _ _) ?_ ?_
  · refine (hagree.sent.pop hentry).congr (fun other ↦ ?_) fun otherAt ↦ ?_
    · rw [withoutSent_msgIdIndex, Dict.lookup_erase_ite, Function.update_apply]
    · rw [withoutSent_msgIds, Function.update_apply]
      exact ite_congr rfl (fun htick ↦ by rw [htick]) fun _ ↦ rfl
  · intro sendPduHandle other
    have hindexed : run.cache.sendPduHandleIdx.lookup sent.sendPduHandle = some msgId :=
      (hagree.handles sent.sendPduHandle msgId).mpr ⟨sent, expireAt, hentry, rfl⟩
    rw [withoutSent_sendPduHandleIdx, withoutSent_msgIdIndex, Dict.lookup_erase_ite,
      Dict.lookup_erase_ite]
    by_cases hother : other = msgId
    · subst hother
      rw [if_pos rfl]
      refine iff_of_false ?_ fun ⟨_, _, hnone, _⟩ ↦ by cases hnone
      split_ifs with hhandle
      · exact nofun
      · intro hlookup
        obtain ⟨_, _, hfound, hsame⟩ := (hagree.handles sendPduHandle other).mp hlookup
        rw [hentry, Option.some.injEq, Prod.mk.injEq] at hfound
        exact hhandle (hsame.symm.trans (congrArg SentRequest.sendPduHandle hfound.1.symm))
    · rw [if_neg hother, ← hagree.handles]
      split_ifs with hhandle
      · rw [hhandle, hindexed]
        exact iff_of_false nofun fun heq ↦ hother (Option.some.inj heq).symm
      · exact Iff.rfl

/-- Indices agree after a request was cached by its message identifier. -/
theorem IndicesAgree.pushByMsgId (hagree : IndicesAgree run) {msgId : ℤ} {msgInfo : SentRequest}
    (hmissing : run.cache.msgIdIndex.lookup msgId = none)
    (hunknown : run.cache.sendPduHandleIdx.lookup msgInfo.sendPduHandle = none) :
    IndicesAgree (step run (.pushByMsgId msgId msgInfo)) := by
  simp only [step, perform, note, pushByMsgId_run_of_missing hmissing]
  exact hagree.withSent hmissing hunknown

/-- Indices agree after a request was taken out by its message identifier. -/
theorem IndicesAgree.popByMsgId (hagree : IndicesAgree run) (msgId : ℤ) :
    IndicesAgree (step run (.popByMsgId msgId)) := by
  cases hentry : run.cache.msgIdIndex.lookup msgId with
  | none =>
    simp only [step, perform, note, popByMsgId_run_of_missing hentry]
    exact hagree.of_sent rfl rfl (fun _ ↦ rfl) (hagree.sent.pop_of_missing hentry) hagree.handles
  | some entry =>
    simp only [step, perform, note, hagree.consistent.popByMsgId_run hentry]
    exact hagree.withoutSent hentry

/-- A record without the requests of a handle that no request held was sent with. -/
theorem IndicesAgree.filter (hagree : IndicesAgree run) {sendPduHandle : ℕ}
    (hnone : ∀ msgId sent expireAt, run.cache.msgIdIndex.lookup msgId = some (sent, expireAt) →
      sent.sendPduHandle ≠ sendPduHandle) :
    IndicesAgree ⟨run.cache, note run.record (.popBySendPduHandle sendPduHandle)⟩ :=
  hagree.of_sent rfl rfl (fun _ ↦ rfl)
    (hagree.sent.filter fun msgId sent expireAt hentry ↦
      bne_iff_ne.mpr (hnone msgId sent expireAt hentry)) hagree.handles

/-- Indices agree after a request was taken out by its handle. -/
theorem IndicesAgree.popBySendPduHandle (hagree : IndicesAgree run) (sendPduHandle : ℕ) :
    IndicesAgree (step run (.popBySendPduHandle sendPduHandle)) := by
  rcases hagree.popBySendPduHandle_run sendPduHandle with
    ⟨hnone, hrun⟩ | ⟨msgId, sent, expireAt, hentry, rfl, hrun⟩
  · simp only [step, perform, hrun]
    exact hagree.filter hnone
  · have hwithout := hagree.withoutSent hentry
    have hothers : ∀ other request otherAt,
        (run.cache.withoutSent msgId sent expireAt).msgIdIndex.lookup other =
          some (request, otherAt) → request.sendPduHandle ≠ sent.sendPduHandle := by
      intro other request otherAt hother hsame
      have hhandle := (hwithout.handles sent.sendPduHandle other).mpr
        ⟨request, otherAt, hother, hsame⟩
      simp at hhandle
    have hrecord : note run.record (.popBySendPduHandle sent.sendPduHandle) =
        note { run.record with sent := Function.update run.record.sent msgId none }
          (.popBySendPduHandle sent.sendPduHandle) := by
      obtain ⟨pushedAt, hpushed, -⟩ :=
        remaining_eq_some_iff.mp ((hagree.sent.indexed msgId).symm.trans hentry)
      refine congrArg (fun sent ↦ { run.record with sent }) (funext fun other ↦ ?_)
      dsimp only
      by_cases hother : other = msgId
      · rw [hother, Function.update_self, hpushed]
        simp
      · rw [Function.update_of_ne hother]
    simp only [step, perform, hrun, hrecord]
    exact hwithout.filter hothers

end Sent

/-! ### Expiry -/

section Expiry

variable {run : CacheRun}

/-- Deleting state references that are all indexed. -/
theorem forEach_deleteStateReference_run {cache : CacheState} {stateReferences : List ℕ}
    (hnodup : stateReferences.Nodup) (hindexed : ∀ stateReference ∈ stateReferences,
      (cache.stateReferenceIndex.lookup stateReference).isSome) :
    ∃ index, (forEach deleteStateReference stateReferences).run cache =
        (.ok (), { cache with stateReferenceIndex := index }) ∧
      ∀ stateReference, index.lookup stateReference =
        if stateReference ∈ stateReferences then none
        else cache.stateReferenceIndex.lookup stateReference :=
  Dict.forEach_erase_run CacheState.stateReferenceIndex
    (fun index cache ↦ { cache with stateReferenceIndex := index })
    (fun _ _ ↦ rfl) (fun _ ↦ rfl) (fun _ _ _ ↦ rfl)
    (fun _ _ hentry ↦ deleteStateReference_run hentry) hnodup hindexed

/-- Expiry drops what is due from the two indices, and from the queue, and counts the tick. -/
theorem IndicesAgree.expireCaches_run (hagree : IndicesAgree run) :
    ∃ served sent, expireCaches.run run.cache = (.ok (), { run.cache with
        stateReferenceIndex := served
        msgIdIndex := sent
        expirationQueue := Function.update run.cache.expirationQueue run.record.tick {}
        expirationTimer := run.record.tick + 1 }) ∧
      (∀ stateReference, served.lookup stateReference =
        if stateReference ∈ (run.cache.expirationQueue run.record.tick).stateReferences then none
        else run.cache.stateReferenceIndex.lookup stateReference) ∧
      ∀ msgId, sent.lookup msgId =
        if msgId ∈ (run.cache.expirationQueue run.record.tick).msgIds then none
        else run.cache.msgIdIndex.lookup msgId := by
  obtain ⟨served, hserved, hservedLookup⟩ :=
    forEach_deleteStateReference_run (hagree.served.nodup run.record.tick)
      fun stateReference hmem ↦ by
        obtain ⟨msgInfo, hentry⟩ := (hagree.served.scheduled _ _).mp hmem
        exact Option.isSome_of_eq_some hentry
  have hindexed : ∀ msgId ∈ (run.cache.expirationQueue run.record.tick).msgIds,
      (({ run.cache with stateReferenceIndex := served } : CacheState).msgIdIndex.lookup
        msgId).isSome := by
    intro msgId hmem
    obtain ⟨request, hentry⟩ := (hagree.sent.scheduled _ _).mp hmem
    exact Option.isSome_of_eq_some hentry
  obtain ⟨sent, hsent, hsentLookup⟩ :=
    forEach_deleteMsgId_run (hagree.sent.nodup run.record.tick) hindexed
  refine ⟨served, sent, ?_, hservedLookup, hsentLookup⟩
  unfold expireCaches
  rw [bind_run_of_ok (gets_run _ _), hagree.timer, bind_run_of_ok hserved, bind_run_of_ok hsent,
    modify_run, hagree.timer]

/-- Expiry keeps the agreement exactly when every request sent was popped in time. -/
theorem IndicesAgree.expireCaches_iff (hagree : IndicesAgree run) :
    IndicesAgree (step run .expireCaches) ↔ PoppedInTime run .expireCaches := by
  obtain ⟨served, sent, hrun, hserved, hsent⟩ := hagree.expireCaches_run
  have hdue : ∀ msgId, msgId ∈ (run.cache.expirationQueue run.record.tick).msgIds ↔
      ∃ request pushedAt, run.record.sent msgId = some (request, pushedAt) ∧
        pushedAt + 600 = run.record.tick := by
    intro msgId
    rw [hagree.sent.scheduled]
    refine exists_congr fun request ↦ ?_
    rw [hagree.sent.indexed, remaining_eq_some_iff]
    exact exists_congr fun pushedAt ↦ and_congr_right fun _ ↦
      ⟨And.right, fun htick ↦ ⟨htick.ge, htick⟩⟩
  simp only [step, perform, note, hrun]
  constructor
  · intro hafter msgId request pushedAt hpushed htick
    have hlisted := (hdue msgId).mpr ⟨request, pushedAt, hpushed, htick⟩
    obtain ⟨held, hentry⟩ := (hagree.sent.scheduled _ _).mp hlisted
    have hhandle := (hagree.handles held.sendPduHandle msgId).mpr ⟨held, _, hentry, rfl⟩
    obtain ⟨other, expireAt, hkept, -⟩ := (hafter.handles held.sendPduHandle msgId).mp hhandle
    rw [hsent, if_pos hlisted] at hkept
    cases hkept
  · intro hpopped
    have hnone : ∀ msgId, msgId ∉ (run.cache.expirationQueue run.record.tick).msgIds := by
      intro msgId hmem
      obtain ⟨request, pushedAt, hpushed, htick⟩ := (hdue msgId).mp hmem
      exact hpopped msgId request pushedAt hpushed htick
    refine ⟨rfl, ?_, ?_, ?_⟩
    · refine hagree.served.expire.congr hserved fun expireAt ↦ ?_
      dsimp only
      rw [Function.update_apply, Function.update_apply, apply_ite Bucket.stateReferences]
    · refine hagree.sent.expire.congr hsent fun expireAt ↦ ?_
      dsimp only
      rw [Function.update_apply, Function.update_apply, apply_ite Bucket.msgIds]
    · intro sendPduHandle msgId
      simp only [hsent, if_neg (hnone msgId)]
      exact hagree.handles sendPduHandle msgId

end Expiry

/-! ### Every history -/

/-- One call keeps the agreement exactly when it does not expire a request sent. -/
theorem IndicesAgree.step_iff {run : CacheRun} (hagree : IndicesAgree run) {call : CacheCall}
    (hfresh : Fresh run call) : IndicesAgree (step run call) ↔ PoppedInTime run call := by
  cases call with
  | pushByStateRef stateReference msgInfo =>
    exact iff_of_true (hagree.pushByStateRef msgInfo hfresh) trivial
  | popByStateRef stateReference => exact iff_of_true (hagree.popByStateRef stateReference) trivial
  | pushByMsgId msgId msgInfo => exact iff_of_true (hagree.pushByMsgId hfresh.1 hfresh.2) trivial
  | popByMsgId msgId => exact iff_of_true (hagree.popByMsgId msgId) trivial
  | popBySendPduHandle sendPduHandle =>
    exact iff_of_true (hagree.popBySendPduHandle sendPduHandle) trivial
  | expireCaches => exact hagree.expireCaches_iff

/-- The indices agree and releasing a handle does not raise. -/
structure CacheAgrees (run : CacheRun) : Prop extends IndicesAgree run where
  releases : ReleasesSilently run.cache

/-- What callers see of a cache agrees exactly where its indices do. -/
theorem cacheAgrees_iff {run : CacheRun} : CacheAgrees run ↔ IndicesAgree run :=
  ⟨CacheAgrees.toIndicesAgree, fun hagree ↦ ⟨hagree, hagree.releasesSilently⟩⟩

/-- Through a history in which what is pushed goes under fresh identifiers, the cache agrees after
every call exactly when every request sent is popped before the tick it expires at passes. -/
theorem everyStep_agrees_iff (calls : List CacheCall)
    (hfresh : EveryStep step Fresh .initial calls) :
    EveryStep step (fun run call ↦ CacheAgrees (step run call)) .initial calls ↔
      EveryStep step PoppedInTime .initial calls := by
  refine EveryStep.iff_of_invariant hfresh IndicesAgree indicesAgree_initial ?_
  intro run call hagree hcall
  rw [cacheAgrees_iff]
  exact ⟨hagree.step_iff hcall, id⟩

/-- A request sent in SNMPv3. -/
def sampleRequest : SentRequest where
  sendPduHandle := 7
  originalID := 1
  snmpEngineID := [128]
  securityModel := 3
  securityName := [117]
  securityLevel := .noAuthNoPriv
  contextEngineId := [128]
  contextName := []
  peer := ⟨[1, 3, 6, 1, 6, 1, 1], [127]⟩

/-- The request is sent, its answer comes within the tick, and the handle is released once more. -/
def answered : List CacheCall :=
  [.pushByMsgId 1 sampleRequest, .popByMsgId 1, .popBySendPduHandle 7, .expireCaches]

theorem everyStep_agrees_answered :
    EveryStep step (fun run call ↦ CacheAgrees (step run call)) .initial answered :=
  (everyStep_agrees_iff answered ⟨⟨rfl, rfl⟩, trivial, trivial, trivial, trivial⟩).mpr
    ⟨trivial, trivial, trivial, fun _ _ _ _ ↦ Nat.succ_ne_zero _, trivial⟩

/-! ### A request that is not taken back -/

section Unanswered

/-- Where nothing is due, expiry only counts the tick. -/
theorem expireCaches_run_of_idle {cache : CacheState}
    (hidle : cache.expirationQueue cache.expirationTimer = {}) :
    expireCaches.run cache =
      (.ok (), { cache with expirationTimer := cache.expirationTimer + 1 }) := by
  have hqueue : Function.update cache.expirationQueue cache.expirationTimer {} =
      cache.expirationQueue := by
    rw [← hidle, Function.update_eq_self]
  unfold expireCaches
  rw [bind_run_of_ok (gets_run _ _), hidle]
  simp only [forEach_nil]
  rw [bind_run_of_ok (pure_run _ _), bind_run_of_ok (pure_run _ _), modify_run, hqueue]

/-- Ticks at which nothing expires only move the clock. -/
theorem cache_foldl_expireCaches {ticks : ℕ} {run : CacheRun}
    (hidle : ∀ tick < ticks, run.cache.expirationQueue (run.cache.expirationTimer + tick) = {}) :
    ((List.replicate ticks CacheCall.expireCaches).foldl step run).cache =
      { run.cache with expirationTimer := run.cache.expirationTimer + ticks } := by
  induction ticks generalizing run with
  | zero => rfl
  | succ ticks ih =>
    have hfirst : (step run .expireCaches).cache =
        { run.cache with expirationTimer := run.cache.expirationTimer + 1 } :=
      congrArg Prod.snd (expireCaches_run_of_idle (hidle 0 ticks.succ_pos))
    rw [List.replicate_succ, List.foldl_cons, ih, hfirst]
    · dsimp only
      rw [Nat.add_assoc, Nat.add_comm 1]
    · intro tick htick
      rw [hfirst]
      dsimp only
      rw [Nat.add_assoc, Nat.add_comm 1]
      exact hidle (tick + 1) (Nat.succ_lt_succ htick)

/-- The request is sent, and 601 ticks pass. -/
def unanswered : List CacheCall :=
  .pushByMsgId 1 sampleRequest :: (List.replicate 600 .expireCaches ++ [.expireCaches])

/-- After that its handle is still known and leads to nothing, so releasing it raises. -/
theorem not_everyStep_agrees_unanswered :
    EveryStep step Fresh .initial unanswered ∧
      ¬ EveryStep step (fun run call ↦ CacheAgrees (step run call)) .initial unanswered := by
  constructor
  · refine ⟨⟨rfl, rfl⟩, EveryStep.of_forall fun run call hcall ↦ ?_⟩
    obtain rfl : call = .expireCaches := by
      rcases List.mem_append.mp hcall with hmany | hlast
      · exact List.eq_of_mem_replicate hmany
      · exact List.mem_singleton.mp hlast
    trivial
  · intro hevery
    obtain ⟨hlast, -⟩ := (EveryStep.append_iff.mp hevery.2).2
    have hreleased := hlast.releases 7
    have hcache := cache_foldl_expireCaches fun tick (htick : tick < 600) ↦
      show (step .initial (.pushByMsgId 1 sampleRequest)).cache.expirationQueue (0 + tick) = {} from
        Function.update_of_ne (by omega) _ _
    have hraised : ((popBySendPduHandle 7).run (expireCaches.run
        { CacheState.empty.withSent 1 sampleRequest with expirationTimer := 600 }).2).1 =
          .error .protocolError := by
      decide
    have hstep :
        ∀ run : CacheRun, (step run .expireCaches).cache = (expireCaches.run run.cache).2 :=
      fun _ ↦ rfl
    rw [hstep, hcache] at hreleased
    exact absurd (hraised.symm.trans hreleased) nofun

end Unanswered

end Pysnmp.Proto.Mpmod.CacheHistory
