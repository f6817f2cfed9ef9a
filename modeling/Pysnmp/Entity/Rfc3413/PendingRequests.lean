import Pysnmp.Entity.Rfc3413.Requesters
import Pysnmp.Proto.CacheEntries

/-!
# Where the requests of a requester are

Every request that a requester has issued is in one of three places: it waits under a send handle
that the requester and the dispatcher both keep, the requester has it in its hands, or the
application has been called back about it. `Books` keeps the account: the three counts add up to the
one request that was issued, and the jobs that are still to finish are those of the requests that
wait. Sending, settling and calling back move a request from one place to the next.
-/

set_option autoImplicit false
set_option relaxedAutoImplicit false

namespace Pysnmp.Entity.Rfc3413.PendingRequests

open Foundation Foundation.Effect Proto Proto.Dispatcher Proto.Mpmod.MessageProcessing
  Proto.Mpmod.SentRequests Proto.RequestRecords Proto.CacheEntries Retries Requesters

variable {ρ : Type}

/-! ### The account -/

/-- How often the application was called back about a request. -/
def timesCalled (engine : Engine ℕ (Requester ρ)) (sendRequestHandle : ℕ) : ℕ :=
  (engine.app.calls.map Prod.fst).count sendRequestHandle

/-- The request that the dispatcher keeps under a send handle. -/
def requestOf (engine : Engine ℕ (Requester ρ)) (sendPduHandle : ℕ) : Option ℕ :=
  (engine.cache.lookup sendPduHandle).map CachedParams.callback

/-- The send handles under which a request waits. -/
def waiting (engine : Engine ℕ (Requester ρ)) (sendRequestHandle : ℕ) : List ℕ :=
  engine.app.pendingReqs.keys.filter fun sendPduHandle ↦
    requestOf engine sendPduHandle = some sendRequestHandle

/-- The books of a requester that has the requests `opened` in its hands: what it keeps can be sent
again, and is kept by the dispatcher. -/
structure Books (sendable : ρ → Prop) (opened : List ℕ) (engine : Engine ℕ (Requester ρ)) :
    Prop where
  consistent : AllConsistent engine.models
  keyed : ∀ sendPduHandle params, engine.cache.lookup sendPduHandle = some params →
    params.sendPduHandle = sendPduHandle
  linked : ∀ sendPduHandle pending, engine.app.pendingReqs.lookup sendPduHandle = some pending →
    sendable pending ∧ (engine.cache.lookup sendPduHandle).isSome
  distinct : engine.app.issued.Nodup
  balanced : ∀ sendRequestHandle, timesCalled engine sendRequestHandle +
    (waiting engine sendRequestHandle).length + opened.count sendRequestHandle =
      engine.app.issued.count sendRequestHandle
  jobs : engine.app.jobsStarted =
    engine.app.jobsFinished + engine.app.pendingReqs.keys.length

section Books

variable {sendable : ρ → Prop} {opened : List ℕ} {engine after : Engine ℕ (Requester ρ)}
  {sendPduHandle sendRequestHandle : ℕ} {params : CachedParams ℕ} {pending : ρ}

theorem books_initial : Books sendable [] (Engine.initial .initial) where
  consistent := fun _ ↦ consistent_empty
  keyed := by
    intro sendPduHandle params hentry
    cases hentry
  linked := by
    intro sendPduHandle pending hpending
    cases hpending
  distinct := List.nodup_nil
  balanced := fun _ ↦ rfl
  jobs := rfl

theorem Books.not_pending (hbooks : Books sendable opened engine)
    (hmissing : engine.cache.lookup sendPduHandle = none) :
    engine.app.pendingReqs.lookup sendPduHandle = none := by
  cases hpending : engine.app.pendingReqs.lookup sendPduHandle with
  | none => rfl
  | some pending =>
    have hentry := (hbooks.linked sendPduHandle pending hpending).2
    rw [hmissing] at hentry
    cases hentry

/-- Entries that no pending request is under may change. -/
theorem Books.of_entries (hbooks : Books sendable opened engine) (happ : after.app = engine.app)
    (hconsistent : AllConsistent after.models)
    (hkeyed : ∀ sendPduHandle params, after.cache.lookup sendPduHandle = some params →
      params.sendPduHandle = sendPduHandle)
    (hsame : ∀ sendPduHandle ∈ engine.app.pendingReqs,
      after.cache.lookup sendPduHandle = engine.cache.lookup sendPduHandle) :
    Books sendable opened after where
  consistent := hconsistent
  keyed := hkeyed
  linked := by
    intro sendPduHandle pending hpending
    rw [happ] at hpending
    rw [hsame sendPduHandle (AList.lookup_isSome.mp (by rw [hpending]; rfl))]
    exact hbooks.linked sendPduHandle pending hpending
  distinct := happ ▸ hbooks.distinct
  balanced := by
    intro sendRequestHandle
    have hwaiting : waiting after sendRequestHandle = waiting engine sendRequestHandle := by
      unfold waiting requestOf
      rw [happ]
      refine List.filter_congr fun sendPduHandle hmem ↦ ?_
      rw [hsame sendPduHandle (AList.mem_keys.mpr hmem)]
    unfold timesCalled
    rw [hwaiting, happ]
    exact hbooks.balanced sendRequestHandle
  jobs := happ ▸ hbooks.jobs

/-- A send for a handle that is not in use leaves the books as they are. -/
theorem Books.of_sends (hbooks : Books sendable opened engine) {callback : ℕ}
    (hmissing : engine.cache.lookup sendPduHandle = none)
    (hsends : SendsEntry engine after sendPduHandle callback) : Books sendable opened after := by
  refine hbooks.of_entries hsends.sameApp hsends.consistent ?_ ?_
  · intro other params hentry
    by_cases hother : other = sendPduHandle
    · subst hother
      exact (hsends.own params hentry).1
    · rw [hsends.others other hother] at hentry
      exact hbooks.keyed other params hentry
  · intro other hpending
    refine hsends.others other fun heq ↦ ?_
    rw [← heq] at hmissing
    exact AList.lookup_eq_none.mp (hbooks.not_pending hmissing) hpending

/-- The entry of a handle under which nothing is pending is dropped. -/
theorem Books.dropEntry (hbooks : Books sendable opened engine) {models : ModelId → Model}
    (hconsistent : AllConsistent models)
    (hmissing : engine.app.pendingReqs.lookup sendPduHandle = none) :
    Books sendable opened { engine with models, cache := engine.cache.erase sendPduHandle } := by
  refine hbooks.of_entries rfl hconsistent ?_ ?_
  · intro other params hentry
    simp only [Dict.lookup_erase_ite] at hentry
    split_ifs at hentry
    exact hbooks.keyed other params hentry
  · intro other hpending
    simp only [Dict.lookup_erase_ite]
    rw [if_neg]
    intro heq
    exact AList.lookup_eq_none.mp hmissing (heq ▸ hpending)

/-- A request that was not issued before is taken in hand. -/
theorem Books.issue (hbooks : Books sendable opened engine)
    (hfresh : sendRequestHandle ∉ engine.app.issued) :
    Books sendable (sendRequestHandle :: opened)
      { engine with app := { engine.app with
        issued := engine.app.issued ++ [sendRequestHandle] } } where
  consistent := hbooks.consistent
  keyed := hbooks.keyed
  linked := hbooks.linked
  distinct := by
    rw [List.nodup_append]
    refine ⟨hbooks.distinct, List.nodup_singleton _, ?_⟩
    intro issued hissued other hother heq
    rw [List.mem_singleton] at hother
    exact hfresh (by rwa [← hother, ← heq])
  balanced := by
    intro other
    have hbalanced := hbooks.balanced other
    show timesCalled engine other + (waiting engine other).length +
      (sendRequestHandle :: opened).count other =
        (engine.app.issued ++ [sendRequestHandle]).count other
    rw [List.count_append, List.count_cons, List.count_singleton]
    omega
  jobs := hbooks.jobs

/-- A request in hand is kept as pending, under a handle that the dispatcher has an entry for. -/
theorem Books.keep (hbooks : Books sendable (sendRequestHandle :: opened) engine)
    (hpending : engine.app.pendingReqs.lookup sendPduHandle = none)
    (hentry : engine.cache.lookup sendPduHandle = some params)
    (hcallback : params.callback = sendRequestHandle) (hsendable : sendable pending) :
    Books sendable opened { engine with app := { engine.app with
      jobsStarted := engine.app.jobsStarted + 1
      pendingReqs := engine.app.pendingReqs.insert sendPduHandle pending } } where
  consistent := hbooks.consistent
  keyed := hbooks.keyed
  linked := by
    intro other found hlookup
    simp only [Dict.lookup_insert_ite] at hlookup
    split_ifs at hlookup with hother
    · cases hlookup
      rw [hother, hentry]
      exact ⟨hsendable, rfl⟩
    · exact hbooks.linked other found hlookup
  distinct := hbooks.distinct
  balanced := by
    intro other
    have hbalanced := hbooks.balanced other
    show timesCalled engine other + ((engine.app.pendingReqs.insert sendPduHandle
      pending).keys.filter fun handle ↦ requestOf engine handle = some other).length +
        opened.count other = engine.app.issued.count other
    have hrequest : requestOf engine sendPduHandle = some sendRequestHandle := by
      unfold requestOf
      rw [hentry, Option.map_some, hcallback]
    rw [Dict.keys_insert_of_lookup_eq_none pending hpending, List.filter_cons, hrequest]
    rw [List.count_cons] at hbalanced
    by_cases hother : sendRequestHandle = other
    · simp only [hother, beq_self_eq_true, if_true] at hbalanced
      simp only [hother, decide_true, if_true, List.length_cons]
      unfold waiting at hbalanced
      omega
    · simp only [beq_iff_eq, hother, if_false] at hbalanced
      simp only [Option.some.injEq, hother, decide_false, Bool.false_eq_true, if_false]
      unfold waiting at hbalanced
      omega
  jobs := by
    have hjobs := hbooks.jobs
    show engine.app.jobsStarted + 1 = engine.app.jobsFinished +
      (engine.app.pendingReqs.insert sendPduHandle pending).keys.length
    rw [Dict.keys_insert_of_lookup_eq_none pending hpending, List.length_cons]
    omega

/-- The application is called back about a request in hand. -/
theorem Books.call (hbooks : Books sendable (sendRequestHandle :: opened) engine)
    (result : CallbackResult) :
    Books sendable opened { engine with app := { engine.app with
      calls := engine.app.calls ++ [(sendRequestHandle, result)] } } where
  consistent := hbooks.consistent
  keyed := hbooks.keyed
  linked := hbooks.linked
  distinct := hbooks.distinct
  balanced := by
    intro other
    have hbalanced := hbooks.balanced other
    show ((engine.app.calls ++ [(sendRequestHandle, result)]).map Prod.fst).count other +
      (waiting engine other).length + opened.count other = engine.app.issued.count other
    rw [List.map_append, List.count_append, List.map_singleton, List.count_singleton]
    rw [List.count_cons] at hbalanced
    unfold timesCalled at hbalanced
    dsimp only
    omega
  jobs := hbooks.jobs

/-- What waits for a request is its handle, if it is that one's, and what waits without it. -/
theorem length_waiting_take (hmem : sendPduHandle ∈ engine.app.pendingReqs.keys)
    (hentry : engine.cache.lookup sendPduHandle = some params) (other : ℕ) :
    (waiting engine other).length = (if params.callback = other then 1 else 0) +
      ((engine.app.pendingReqs.erase sendPduHandle).keys.filter fun handle ↦
        (AList.lookup handle (engine.cache.erase sendPduHandle)).map CachedParams.callback =
          some other).length := by
  have hrest : ((engine.app.pendingReqs.erase sendPduHandle).keys.filter fun handle ↦
      (AList.lookup handle (engine.cache.erase sendPduHandle)).map CachedParams.callback =
        some other) = (engine.app.pendingReqs.keys.erase sendPduHandle).filter fun handle ↦
          requestOf engine handle = some other := by
    rw [AList.keys_erase]
    refine List.filter_congr fun handle hkept ↦ ?_
    rw [engine.app.pendingReqs.keys_nodup.mem_erase_iff] at hkept
    rw [Dict.lookup_erase_ite, if_neg hkept.1]
    rfl
  have hrequest : requestOf engine sendPduHandle = some params.callback := by
    unfold requestOf
    rw [hentry, Option.map_some]
  unfold waiting
  rw [hrest, ((List.perm_cons_erase hmem).filter _).length_eq, List.filter_cons, hrequest]
  by_cases hother : params.callback = other
  · simp only [hother, decide_true, if_true, List.length_cons]
    omega
  · simp only [Option.some.injEq, hother, decide_false, Bool.false_eq_true, if_false]
    omega

/-- A pending request is taken in hand, and its job is finished. -/
theorem Books.take (hbooks : Books sendable opened engine) {models : ModelId → Model}
    (hconsistent : AllConsistent models)
    (hpending : engine.app.pendingReqs.lookup sendPduHandle = some pending)
    (hentry : engine.cache.lookup sendPduHandle = some params) :
    Books sendable (params.callback :: opened) { engine with
      models
      cache := engine.cache.erase sendPduHandle
      app := { engine.app with
        pendingReqs := engine.app.pendingReqs.erase sendPduHandle
        jobsFinished := engine.app.jobsFinished + 1 } } := by
  have hmem : sendPduHandle ∈ engine.app.pendingReqs.keys :=
    AList.mem_keys.mp (AList.lookup_isSome.mp (by rw [hpending]; rfl))
  refine ⟨hconsistent, ?_, ?_, hbooks.distinct, ?_, ?_⟩
  · intro other found hlookup
    simp only [Dict.lookup_erase_ite] at hlookup
    split_ifs at hlookup
    exact hbooks.keyed other found hlookup
  · intro other found hlookup
    simp only [Dict.lookup_erase_ite] at hlookup ⊢
    split_ifs at hlookup with hother
    rw [if_neg hother]
    exact hbooks.linked other found hlookup
  · intro other
    have hbalanced := hbooks.balanced other
    have hwaiting := length_waiting_take hmem hentry other
    show timesCalled engine other + ((engine.app.pendingReqs.erase sendPduHandle).keys.filter
      fun handle ↦ (AList.lookup handle (engine.cache.erase sendPduHandle)).map
        CachedParams.callback = some other).length + (params.callback :: opened).count other =
          engine.app.issued.count other
    rw [List.count_cons]
    simp only [beq_iff_eq]
    omega
  · have hjobs := hbooks.jobs
    have hlength := (List.perm_cons_erase hmem).length_eq
    show engine.app.jobsStarted = engine.app.jobsFinished + 1 +
      (engine.app.pendingReqs.erase sendPduHandle).keys.length
    rw [AList.keys_erase]
    rw [List.length_cons] at hlength
    omega

end Books

/-! ### Sending -/

/-- The entries of the dispatcher stay as they are, and no entry is added under a handle of the
set. -/
def Grows (avoided : Set ℕ) (before after : Engine ℕ (Requester ρ)) : Prop :=
  (∀ sendPduHandle params, before.cache.lookup sendPduHandle = some params →
    after.cache.lookup sendPduHandle = some params) ∧
  ∀ sendPduHandle ∈ avoided, before.cache.lookup sendPduHandle = none →
    after.cache.lookup sendPduHandle = none

/-- The effect of sending: the books are kept, and the entries of the dispatcher grow. -/
def Steady (sendable : ρ → Prop) (avoided : Set ℕ) (before after : Engine ℕ (Requester ρ)) : Prop :=
  Books sendable [] before → Books sendable [] after ∧ Grows avoided before after

/-- What a send draws is not in use, and no handle of the set. It is a function of the engine that
sends, which is asked at the engine of the send only; every engine has handles that are not in
use. -/
structure FreshDraws (avoided : Set ℕ) (world : World ρ) : Prop where
  freshHandle : ∀ engine, FreshHandle engine (world.sendPduHandle engine)
  avoids : ∀ engine, world.sendPduHandle engine ∉ avoided

section Sending

variable {sendable : ρ → Prop} {avoided : Set ℕ} {engine after : Engine ℕ (Requester ρ)}

theorem grows_of_same (hcache : after.cache = engine.cache) : Grows avoided engine after := by
  unfold Grows
  rw [hcache]
  exact ⟨fun _ _ hentry ↦ hentry, fun _ _ hmissing ↦ hmissing⟩

theorem Grows.trans {last : Engine ℕ (Requester ρ)} (hfirst : Grows avoided engine after)
    (hsecond : Grows avoided after last) : Grows avoided engine last :=
  ⟨fun _ _ hentry ↦ hsecond.1 _ _ (hfirst.1 _ _ hentry),
    fun _ hmem hmissing ↦ hsecond.2 _ hmem (hfirst.2 _ hmem hmissing)⟩

theorem grows_of_sends {sendPduHandle callback : ℕ}
    (hmissing : engine.cache.lookup sendPduHandle = none) (havoids : sendPduHandle ∉ avoided)
    (hsends : SendsEntry engine after sendPduHandle callback) : Grows avoided engine after := by
  constructor
  · intro other params hentry
    rw [hsends.others other, hentry]
    intro heq
    rw [heq, hmissing] at hentry
    cases hentry
  · intro other hmem hnone
    rw [hsends.others other, hnone]
    intro heq
    exact havoids (heq ▸ hmem)

instance : Std.Refl (Steady sendable avoided) :=
  ⟨fun _ hbooks ↦ ⟨hbooks, grows_of_same rfl⟩⟩

instance : IsTrans (Engine ℕ (Requester ρ)) (Steady sendable avoided) := by
  refine ⟨fun _ _ _ hfirst hsecond hbooks ↦ ?_⟩
  obtain ⟨hmiddle, hgrows⟩ := hfirst hbooks
  obtain ⟨hlast, hgrows'⟩ := hsecond hmiddle
  exact ⟨hlast, hgrows.trans hgrows'⟩

/-- A new request is sent and kept, or it fails and was never issued. -/
theorem steady_send (config : EngineConfig)
    {prepared : Except Raised (ℕ → SendArguments ℕ × ρ)}
    {getNextHandle : Engine ℕ (Requester ρ) → ℕ} {world : World ρ}
    (hprepared : ∀ prepare, prepared = .ok prepare → ∀ sendRequestHandle,
      (prepare sendRequestHandle).1.expectResponse = true ∧
        (prepare sendRequestHandle).1.callback = sendRequestHandle ∧
        (config.hasTransportDispatcher → sendable (prepare sendRequestHandle).2))
    (hhandle : ∀ engine, getNextHandle engine ∉ engine.app.issued)
    (hdraws : FreshDraws avoided world) :
    Keeps (Steady sendable avoided) (send config prepared getNextHandle world) := by
  intro engine hbooks
  unfold send
  cases prepared with
  | error exception => exact ⟨hbooks, grows_of_same rfl⟩
  | ok prepare =>
    rw [bind_run_of_ok (liftExcept_run _ _), bind_run_of_ok (gets_run _ _)]
    have hissue := hhandle engine
    set sendRequestHandle := getNextHandle engine
    obtain ⟨hexpect, hcallback, hsendable⟩ := hprepared prepare rfl sendRequestHandle
    have hmissing := (hdraws.freshHandle engine).1
    obtain ⟨result, sent, hrun, hsends, hresult⟩ :=
      sendPdu_effect config hexpect world hbooks.consistent (hdraws.freshHandle engine)
    have hsent := hbooks.of_sends hmissing hsends
    have hgrows := grows_of_sends hmissing (hdraws.avoids engine) hsends
    cases result with
    | error exception =>
      rw [bind_run_of_error hrun]
      exact ⟨hsent, hgrows⟩
    | ok sendPduHandle =>
      obtain ⟨rfl, hdispatcher, hentry⟩ := hresult
      obtain ⟨params, hlookup⟩ := Option.isSome_iff_exists.mp hentry
      have hpending := hbooks.not_pending hmissing
      rw [← show sent.app = engine.app from hsends.sameApp] at hpending
      rw [bind_run_of_ok hrun]
      rw [← show sent.app = engine.app from hsends.sameApp] at hissue
      refine ⟨(hsent.issue hissue).keep hpending hlookup ?_ (hsendable hdispatcher),
        hgrows.trans (grows_of_same rfl)⟩
      rw [(hsends.own params hlookup).2, hcallback]

end Sending

/-! ### Settling -/

/-- The exception says what went wrong. -/
def Tells (exception : Raised) : Prop :=
  ∃ details errorIndication, exception = .statusInformation details ∧
    details.errorIndication = some errorIndication

/-- A retry whose send fails, if it does, with an error indication. -/
structure FailsCleanly (world : World ρ) : Prop where
  secures : ∀ exception, world.securing.FailsWith exception → Tells exception
  transmits : ∀ exception, world.sendMessage = some exception → Tells exception
  unusedMsgID : ∀ (engine : Engine ℕ (Requester ρ)) modelId,
    (engine.models modelId).cache.msgIdIndex.lookup (world.msgID engine) = none

/-- What a requester of the kind keeps can be sent again where it was sent before. -/
structure Resends (kind : Kind ρ) (config : EngineConfig) (sendable : ρ → Prop) : Prop where
  connected : ∀ pending, sendable pending → config.hasTransportDispatcher
  again : ∀ pending sendRequestHandle counted, sendable pending → ∃ next,
    kind.again pending sendRequestHandle counted = .ok next ∧
      next.1.expectResponse = true ∧ sendable next.2

/-- The requester can tell the application about the outcome. -/
def Tellable (kind : Kind ρ) (pending : ρ) : Outcome → Prop
  | .response message => ∃ result, kind.responseResult pending message = .ok result
  | .failure details => details.errorIndication.isSome

/-- A program that settles the one request in hand. -/
def Settles (sendable : ρ → Prop) (avoided : Set ℕ) (sendRequestHandle : ℕ)
    (program : RequesterOp ρ Unit) : Prop :=
  ∀ engine, Books sendable [sendRequestHandle] engine →
    Books sendable [] (program.run engine).2 ∧ Grows avoided engine (program.run engine).2

section Settling

variable {kind : Kind ρ} {config : EngineConfig} {sendable : ρ → Prop} {avoided : Set ℕ}
  {cbFun : CbFun ρ} {world : World ρ}

theorem settles_callBack (sendRequestHandle : ℕ) (result : CallbackResult)
    (hcbFun : Keeps (Steady sendable avoided) (cbFun sendRequestHandle result)) :
    Settles sendable avoided sendRequestHandle (callBack cbFun sendRequestHandle result) := by
  intro engine hbooks
  unfold callBack onRequester
  rw [bind_run_of_ok (modify_run _ _)]
  obtain ⟨hafter, hgrows⟩ := hcbFun _ (hbooks.call result)
  exact ⟨hafter, Grows.trans (grows_of_same rfl) hgrows⟩

/-- A retry is kept, or the application is told why it failed. -/
theorem settles_resend {sendRequestHandle : ℕ} {arguments : SendArguments ℕ} {pending : ρ}
    (hcbFun : ∀ result, Keeps (Steady sendable avoided) (cbFun sendRequestHandle result))
    (hdraws : FreshDraws avoided world) (hclean : FailsCleanly world)
    (hdispatcher : config.hasTransportDispatcher) (hexpect : arguments.expectResponse = true)
    (hcallback : arguments.callback = sendRequestHandle) (hsendable : sendable pending) :
    Settles sendable avoided sendRequestHandle
      (resend config cbFun world sendRequestHandle arguments pending) := by
  intro engine hbooks
  unfold resend
  have hmissing := (hdraws.freshHandle engine).1
  obtain ⟨result, sent, hrun, hsends, hresult⟩ :=
    sendPdu_effect config hexpect world hbooks.consistent (hdraws.freshHandle engine)
  have hsent := hbooks.of_sends hmissing hsends
  have hgrows := grows_of_sends hmissing (hdraws.avoids engine) hsends
  rw [bind_run_of_ok (attempt_run _ _), hrun]
  cases result with
  | error exception =>
    have htells : Tells exception := by
      cases hresult with
      | reported errorIndication hreported => exact ⟨_, errorIndication, hreported, rfl⟩
      | disconnected hdisconnected => exact absurd hdispatcher hdisconnected
      | unsecured hsecuring => exact hclean.secures exception hsecuring
      | inUse modelId hindexed =>
        rw [hclean.unusedMsgID] at hindexed
        cases hindexed
      | unsent hunsent => exact hclean.transmits exception hunsent
    obtain ⟨details, errorIndication, rfl, hindication⟩ := htells
    simp only [hindication]
    obtain ⟨hafter, hgrows'⟩ := settles_callBack sendRequestHandle (.failure errorIndication)
      (hcbFun _) sent hsent
    exact ⟨hafter, hgrows.trans hgrows'⟩
  | ok sendPduHandle =>
    obtain ⟨rfl, -, hentry⟩ := hresult
    obtain ⟨params, hlookup⟩ := Option.isSome_iff_exists.mp hentry
    have hpending := hbooks.not_pending hmissing
    rw [← show sent.app = engine.app from hsends.sameApp] at hpending
    refine ⟨hsent.keep hpending hlookup ?_ hsendable, hgrows.trans (grows_of_same rfl)⟩
    rw [(hsends.own params hlookup).2, hcallback]

theorem settles_settleFailure {sendRequestHandle : ℕ} {pending : ρ} {details : StatusDetails}
    (hcbFun : ∀ result, Keeps (Steady sendable avoided) (cbFun sendRequestHandle result))
    (hdraws : FreshDraws avoided world) (hclean : FailsCleanly world)
    (hresends : Resends kind config sendable) (hsendable : sendable pending)
    (htells : details.errorIndication.isSome) :
    Settles sendable avoided sendRequestHandle
      (kind.settleFailure config cbFun world sendRequestHandle pending details) := by
  obtain ⟨errorIndication, hindication⟩ := Option.isSome_iff_exists.mp htells
  intro engine hbooks
  unfold Kind.settleFailure
  rw [hindication]
  simp only
  cases nextAttempt (kind.limits pending) errorIndication (kind.counts pending) with
  | none => exact settles_callBack _ _ (hcbFun _) engine hbooks
  | some counted =>
    obtain ⟨next, hnext, hexpect, hsendable'⟩ :=
      hresends.again pending sendRequestHandle counted hsendable
    simp only
    rw [hnext, bind_run_of_ok (liftExcept_run _ _)]
    exact settles_resend hcbFun hdraws hclean (hresends.connected pending hsendable) hexpect
      (kind.callback_again pending sendRequestHandle counted next hnext) hsendable' engine hbooks

/-- The dispatcher has dropped the entry of a handle, and tells the requester the outcome. -/
theorem books_processResponsePdu {engine : Engine ℕ (Requester ρ)} {sendPduHandle : ℕ}
    {params : CachedParams ℕ} {models : ModelId → Model} {outcome : Outcome}
    (hcbFun : ∀ sendRequestHandle result,
      Keeps (Steady sendable avoided) (cbFun sendRequestHandle result))
    (hdraws : FreshDraws avoided world) (hclean : FailsCleanly world)
    (hresends : Resends kind config sendable)
    (htellable : ∀ pending, engine.app.pendingReqs.lookup sendPduHandle = some pending →
      Tellable kind pending outcome)
    (hbooks : Books sendable [] engine) (hconsistent : AllConsistent models)
    (hentry : engine.cache.lookup sendPduHandle = some params) :
    let released := { engine with models, cache := engine.cache.erase sendPduHandle }
    let after := ((kind.processResponsePdu config cbFun world params.callback outcome
      sendPduHandle).run released).2
    Books sendable [] after ∧ Grows avoided released after := by
  intro released after
  have hafter : after = ((kind.processResponsePdu config cbFun world params.callback outcome
      sendPduHandle).run released).2 := rfl
  unfold Kind.processResponsePdu at hafter
  rw [bind_run_of_ok (popPending_run _ _)] at hafter
  cases hpending : engine.app.pendingReqs.lookup sendPduHandle with
  | none =>
    have hsame : after = released := by
      rw [hafter]
      simp only [released, hpending, Dict.erase_of_lookup_eq_none hpending, raise_run]
    rw [hsame]
    exact ⟨hbooks.dropEntry hconsistent hpending, grows_of_same rfl⟩
  | some pending =>
    have htaken := hbooks.take hconsistent hpending hentry
    have hsendable := (hbooks.linked sendPduHandle pending hpending).1
    have hjobs : ¬ engine.app.jobsStarted ≤ engine.app.jobsFinished := by
      have hmem : sendPduHandle ∈ engine.app.pendingReqs.keys :=
        AList.mem_keys.mp (AList.lookup_isSome.mp (by rw [hpending]; rfl))
      have hpositive := List.length_pos_of_mem hmem
      have hbalance := hbooks.jobs
      omega
    have hlookup : released.app.pendingReqs.lookup sendPduHandle = some pending := hpending
    rw [hlookup] at hafter
    simp only at hafter
    rw [bind_run_of_ok (jobFinished_run_of_not_le { released with
      app := { released.app with
        pendingReqs := released.app.pendingReqs.erase sendPduHandle } } hjobs)] at hafter
    have hsettled :
        ∀ program : RequesterOp ρ Unit, Settles sendable avoided params.callback program →
        after = (program.run { engine with
          models
          cache := engine.cache.erase sendPduHandle
          app := { engine.app with
            pendingReqs := engine.app.pendingReqs.erase sendPduHandle
            jobsFinished := engine.app.jobsFinished + 1 } }).2 →
        Books sendable [] after ∧ Grows avoided released after := by
      intro program hprogram heq
      obtain ⟨hlast, hgrows⟩ := hprogram _ htaken
      rw [heq]
      exact ⟨hlast, Grows.trans (grows_of_same rfl) hgrows⟩
    cases outcome with
    | failure details =>
      exact hsettled _ (settles_settleFailure (hcbFun _) hdraws hclean hresends hsendable
        (htellable pending hpending)) hafter
    | response message =>
      obtain ⟨result, hresult⟩ := htellable pending hpending
      simp only at hafter
      rw [hresult, bind_run_of_ok (liftExcept_run _ _)] at hafter
      exact hsettled _ (settles_callBack params.callback result (hcbFun _ _)) hafter

end Settling

end Pysnmp.Entity.Rfc3413.PendingRequests
