import Pysnmp.Proto.Mpmod.Cache

/-!
# The sent requests of a cache

Three parts of a cache speak of the requests that were sent: the index by message identifier, the
index by handle, and the queue. In a `Consistent` cache every request of the first is in the other
two, and nothing else is scheduled; the index by handle may lead further, since expiry leaves it as
it is. So a handle is in one of three conditions: a request is held under it (`HoldsHandle`), the
request was aged out and the handle leads to an identifier that nothing is held under (`AgedOut`),
or the cache does not know it.

Each operation keeps the cache consistent, and the lemmas say what it does to the handles.
-/

set_option autoImplicit false
set_option relaxedAutoImplicit false

namespace Pysnmp.Proto.Mpmod.SentRequests

open Foundation Foundation.Effect Cache

/-! ### Consistency -/

/-- The indices and the queue tell of the same requests. -/
structure Consistent (cache : CacheState) : Prop where
  indexed : ∀ msgId sent expireAt, cache.msgIdIndex.lookup msgId = some (sent, expireAt) →
    cache.sendPduHandleIdx.lookup sent.sendPduHandle = some msgId
  scheduled : ∀ msgId sent expireAt, cache.msgIdIndex.lookup msgId = some (sent, expireAt) →
    msgId ∈ (cache.expirationQueue expireAt).msgIds
  entered : ∀ expireAt, ∀ msgId ∈ (cache.expirationQueue expireAt).msgIds,
    ∃ sent, cache.msgIdIndex.lookup msgId = some (sent, expireAt)
  nodup : ∀ expireAt, (cache.expirationQueue expireAt).msgIds.Nodup

/-- A request is held under a message identifier that was sent with the handle. -/
def HoldsHandle (cache : CacheState) (sendPduHandle : ℕ) : Prop :=
  ∃ msgId sent expireAt, cache.msgIdIndex.lookup msgId = some (sent, expireAt) ∧
    sent.sendPduHandle = sendPduHandle

/-- The handle leads to an identifier that nothing is held under any more. -/
def AgedOut (cache : CacheState) (sendPduHandle : ℕ) : Prop :=
  ∃ msgId, cache.sendPduHandleIdx.lookup sendPduHandle = some msgId ∧
    cache.msgIdIndex.lookup msgId = none

/-- The handle leads to no request of another handle. -/
def LeadsToOwn (cache : CacheState) (sendPduHandle : ℕ) : Prop :=
  ∀ msgId sent expireAt, cache.sendPduHandleIdx.lookup sendPduHandle = some msgId →
    cache.msgIdIndex.lookup msgId = some (sent, expireAt) → sent.sendPduHandle = sendPduHandle

/-- The empty cache is consistent. -/
theorem consistent_empty : Consistent .empty where
  indexed := by
    intro msgId sent expireAt hentry
    cases hentry
  scheduled := by
    intro msgId sent expireAt hentry
    cases hentry
  entered := by
    intro expireAt msgId hmem
    cases hmem
  nodup := fun _ ↦ List.nodup_nil

/-- A handle that has aged out leads to no entry of another request. -/
theorem AgedOut.leadsToOwn {cache : CacheState} {sendPduHandle : ℕ}
    (haged : AgedOut cache sendPduHandle) : LeadsToOwn cache sendPduHandle := by
  intro msgId sent expireAt hhandle hentry
  obtain ⟨other, hother, hnone⟩ := haged
  rw [hother, Option.some.injEq] at hhandle
  rw [hhandle, hentry] at hnone
  cases hnone

/-- A handle in use leads to its own entry. -/
theorem HoldsHandle.leadsToOwn {cache : CacheState} {sendPduHandle : ℕ}
    (hconsistent : Consistent cache) (hholds : HoldsHandle cache sendPduHandle) :
    LeadsToOwn cache sendPduHandle := by
  intro msgId sent expireAt hhandle hentry
  obtain ⟨other, held, heldAt, hheld, rfl⟩ := hholds
  have hother := hconsistent.indexed other held heldAt hheld
  rw [hhandle, Option.some.injEq] at hother
  rw [← hother, hentry, Option.some.injEq, Prod.mk.injEq] at hheld
  rw [hheld.1]

/-! ### Programs that leave the sent requests alone -/

/-- The sent requests are the same before and after. -/
structure SameSent (before after : CacheState) : Prop where
  msgIdIndex : after.msgIdIndex = before.msgIdIndex
  sendPduHandleIdx : after.sendPduHandleIdx = before.sendPduHandleIdx
  expirationTimer : after.expirationTimer = before.expirationTimer
  msgIds : ∀ expireAt, (after.expirationQueue expireAt).msgIds =
    (before.expirationQueue expireAt).msgIds

instance : Std.Refl SameSent :=
  ⟨fun _ ↦ ⟨rfl, rfl, rfl, fun _ ↦ rfl⟩⟩

instance : IsTrans CacheState SameSent :=
  ⟨fun _ _ _ hfirst hsecond ↦
    ⟨hsecond.msgIdIndex.trans hfirst.msgIdIndex,
      hsecond.sendPduHandleIdx.trans hfirst.sendPduHandleIdx,
      hsecond.expirationTimer.trans hfirst.expirationTimer,
      fun expireAt ↦ (hsecond.msgIds expireAt).trans (hfirst.msgIds expireAt)⟩⟩

/-- Changes of the served requests keep the sent ones consistent. -/
theorem SameSent.consistent {before after : CacheState} (hsame : SameSent before after)
    (hconsistent : Consistent before) : Consistent after where
  indexed := by
    rw [hsame.msgIdIndex, hsame.sendPduHandleIdx]
    exact hconsistent.indexed
  scheduled := by
    intro msgId sent expireAt hentry
    rw [hsame.msgIdIndex] at hentry
    rw [hsame.msgIds]
    exact hconsistent.scheduled msgId sent expireAt hentry
  entered := by
    intro expireAt msgId hmem
    rw [hsame.msgIds] at hmem
    rw [hsame.msgIdIndex]
    exact hconsistent.entered expireAt msgId hmem
  nodup := by
    intro expireAt
    rw [hsame.msgIds]
    exact hconsistent.nodup expireAt

/-- Changes of the served requests do not touch the handles. -/
theorem SameSent.holdsHandle_iff {before after : CacheState} (hsame : SameSent before after)
    (sendPduHandle : ℕ) : HoldsHandle after sendPduHandle ↔ HoldsHandle before sendPduHandle := by
  unfold HoldsHandle
  rw [hsame.msgIdIndex]

theorem SameSent.agedOut_iff {before after : CacheState} (hsame : SameSent before after)
    (sendPduHandle : ℕ) : AgedOut after sendPduHandle ↔ AgedOut before sendPduHandle := by
  unfold AgedOut
  rw [hsame.msgIdIndex, hsame.sendPduHandleIdx]

theorem sameSent_deleteStateReference (stateReference : ℕ) :
    Keeps SameSent (deleteStateReference stateReference) := by
  refine (keeps_gets _).bind fun entry ↦ ?_
  cases entry with
  | none => exact keeps_raise _
  | some _ => exact keeps_modify fun _ ↦ ⟨rfl, rfl, rfl, fun _ ↦ rfl⟩

/-- A bucket that changes in its state references only. -/
theorem sameSent_update_bucket (cache : CacheState) (index : Dict ℕ (ServedRequest × ℕ))
    (expireAt : ℕ) (stateReferences : List ℕ) :
    SameSent cache { cache with
      stateReferenceIndex := index
      expirationQueue := Function.update cache.expirationQueue expireAt
        { cache.expirationQueue expireAt with stateReferences } } where
  msgIdIndex := rfl
  sendPduHandleIdx := rfl
  expirationTimer := rfl
  msgIds := by
    intro other
    by_cases hother : other = expireAt
    · subst hother
      simp
    · simp [hother]

theorem sameSent_unscheduleStateReference (expireAt stateReference : ℕ) :
    Keeps SameSent (unscheduleStateReference expireAt stateReference) := by
  intro cache
  unfold unscheduleStateReference
  rw [bind_run_of_ok (gets_run _ _)]
  split_ifs
  · exact sameSent_update_bucket cache _ _ _
  · exact refl_of SameSent cache

/-- Keeping a served request leaves the sent ones alone. -/
theorem sameSent_pushByStateRef (stateReference : ℕ) (msgInfo : ServedRequest) :
    Keeps SameSent (pushByStateRef stateReference msgInfo) := by
  refine (keeps_gets _).bind fun entry ↦ ?_
  cases entry with
  | none => exact keeps_modify fun cache ↦ sameSent_update_bucket cache _ _ _
  | some _ => exact keeps_raise _

/-- Giving a served request back leaves the sent ones alone. -/
theorem sameSent_popByStateRef (stateReference : ℕ) :
    Keeps SameSent (popByStateRef stateReference) := by
  refine (keeps_gets _).bind fun entry ↦ ?_
  cases entry with
  | none => exact keeps_raise _
  | some entry =>
    exact (sameSent_deleteStateReference _).bind fun _ ↦
      (sameSent_unscheduleStateReference _ _).bind fun _ ↦ keeps_pure _

/-! ### What the operations on served requests raise -/

/-- The program raises nothing but what a dictionary or the cache raises on a miss. -/
def RaisesMisses {α : Type} (operation : CacheOp α) : Prop :=
  Triple (fun _ ↦ True) operation (fun _ _ ↦ True)
    fun exception _ ↦ exception = .keyError ∨ exception = .protocolError

theorem raisesMisses_pure {α : Type} (value : α) : RaisesMisses (pure value) :=
  triple_pure value fun _ _ ↦ True

theorem raisesMisses_keyError {α : Type} : RaisesMisses (raise .keyError : CacheOp α) :=
  Triple.of_run fun _ _ ↦ Or.inl rfl

theorem raisesMisses_protocolError {α : Type} : RaisesMisses (raise .protocolError : CacheOp α) :=
  Triple.of_run fun _ _ ↦ Or.inr rfl

theorem raisesMisses_modify (change : CacheState → CacheState) : RaisesMisses (modify change) :=
  triple_modify change fun _ _ ↦ True

/-- What follows raises only for a miss, if both parts do. -/
theorem RaisesMisses.bind {α β : Type} {program : CacheOp α} {next : α → CacheOp β}
    (hprogram : RaisesMisses program) (hnext : ∀ value, RaisesMisses (next value)) :
    RaisesMisses (program >>= next) :=
  Triple.bind hprogram hnext

/-- A reading of the cache, and what is done with it. -/
theorem raisesMisses_gets_bind {α β : Type} (part : CacheState → α) {next : α → CacheOp β}
    (hnext : ∀ value, RaisesMisses (next value)) : RaisesMisses (gets part >>= next) :=
  RaisesMisses.bind (triple_gets part fun _ _ ↦ True) hnext

theorem raisesMisses_pushByStateRef (stateReference : ℕ) (msgInfo : ServedRequest) :
    RaisesMisses (pushByStateRef stateReference msgInfo) := by
  refine raisesMisses_gets_bind _ fun entry ↦ ?_
  cases entry with
  | none => exact raisesMisses_modify _
  | some _ => exact raisesMisses_protocolError

theorem raisesMisses_popByStateRef (stateReference : ℕ) :
    RaisesMisses (popByStateRef stateReference) := by
  refine raisesMisses_gets_bind _ fun entry ↦ ?_
  cases entry with
  | none => exact raisesMisses_protocolError
  | some entry =>
    refine RaisesMisses.bind (raisesMisses_gets_bind _ fun served ↦ ?_) fun _ ↦
      RaisesMisses.bind (raisesMisses_gets_bind _ fun bucket ↦ ?_) fun _ ↦ raisesMisses_pure _
    · cases served with
      | none => exact raisesMisses_keyError
      | some _ => exact raisesMisses_modify _
    · split_ifs
      · exact raisesMisses_modify _
      · exact raisesMisses_keyError

/-! ### Sending a request -/

/-- A new message identifier is entered. -/
theorem pushByMsgId_run_of_missing {cache : CacheState} {msgId : ℤ} {msgInfo : SentRequest}
    (hmissing : cache.msgIdIndex.lookup msgId = none) :
    (pushByMsgId msgId msgInfo).run cache = (.ok (), cache.withSent msgId msgInfo) := by
  unfold pushByMsgId
  rw [bind_run_of_ok (gets_run _ _), hmissing, modify_run]

/-- A message identifier in use is refused, and nothing changes. -/
theorem pushByMsgId_run_of_indexed {cache : CacheState} {msgId : ℤ} {msgInfo : SentRequest}
    (hindexed : (cache.msgIdIndex.lookup msgId).isSome) :
    (pushByMsgId msgId msgInfo).run cache = (.error .protocolError, cache) := by
  obtain ⟨entry, hentry⟩ := Option.isSome_iff_exists.mp hindexed
  unfold pushByMsgId
  rw [bind_run_of_ok (gets_run _ _), hentry, raise_run]

section WithSent

variable {cache : CacheState} {msgId : ℤ} {msgInfo : SentRequest}

@[simp] theorem withSent_msgIdIndex :
    (cache.withSent msgId msgInfo).msgIdIndex =
      cache.msgIdIndex.insert msgId (msgInfo, cache.expirationTimer + 600) :=
  rfl

@[simp] theorem withSent_sendPduHandleIdx :
    (cache.withSent msgId msgInfo).sendPduHandleIdx =
      cache.sendPduHandleIdx.insert msgInfo.sendPduHandle msgId :=
  rfl

/-- The new entry is due in six hundred ticks, and no other queue changes. -/
theorem withSent_msgIds (expireAt : ℕ) :
    ((cache.withSent msgId msgInfo).expirationQueue expireAt).msgIds =
      if expireAt = cache.expirationTimer + 600 then
        (cache.expirationQueue expireAt).msgIds ++ [msgId]
      else
        (cache.expirationQueue expireAt).msgIds := by
  unfold CacheState.withSent
  by_cases htick : expireAt = cache.expirationTimer + 600
  · subst htick
    simp
  · simp [htick]

/-- An identifier that is not in the index is not on the queue. -/
theorem Consistent.not_mem_msgIds (hconsistent : Consistent cache)
    (hmissing : cache.msgIdIndex.lookup msgId = none) (expireAt : ℕ) :
    msgId ∉ (cache.expirationQueue expireAt).msgIds := by
  intro hmem
  obtain ⟨sent, hentry⟩ := hconsistent.entered expireAt msgId hmem
  rw [hmissing] at hentry
  cases hentry

/-- Entering a request under a fresh handle keeps the cache consistent. -/
theorem Consistent.withSent (hconsistent : Consistent cache)
    (hmissing : cache.msgIdIndex.lookup msgId = none)
    (hfresh : ∀ other, cache.sendPduHandleIdx.lookup msgInfo.sendPduHandle = some other →
      cache.msgIdIndex.lookup other = none) :
    Consistent (cache.withSent msgId msgInfo) where
  indexed := by
    intro other sent expireAt hentry
    rw [withSent_msgIdIndex, Dict.lookup_insert_ite] at hentry
    rw [withSent_sendPduHandleIdx, Dict.lookup_insert_ite]
    split_ifs at hentry with hother
    · rw [Option.some.injEq, Prod.mk.injEq] at hentry
      rw [if_pos (by rw [hentry.1]), hother]
    · have hindexed := hconsistent.indexed other sent expireAt hentry
      rw [if_neg, hindexed]
      intro hhandle
      rw [hhandle] at hindexed
      rw [hfresh other hindexed] at hentry
      cases hentry
  scheduled := by
    intro other sent expireAt hentry
    rw [withSent_msgIdIndex, Dict.lookup_insert_ite] at hentry
    rw [withSent_msgIds]
    by_cases hother : other = msgId
    · rw [if_pos hother, Option.some.injEq, Prod.mk.injEq] at hentry
      rw [if_pos hentry.2.symm, hother]
      exact List.mem_append_right _ (List.mem_singleton_self msgId)
    · rw [if_neg hother] at hentry
      have hold := hconsistent.scheduled other sent expireAt hentry
      split_ifs
      · exact List.mem_append_left _ hold
      · exact hold
  entered := by
    intro expireAt other hmem
    rw [withSent_msgIds] at hmem
    rw [withSent_msgIdIndex, Dict.lookup_insert_ite]
    have hold : other ∈ (cache.expirationQueue expireAt).msgIds → other ≠ msgId := by
      rintro hother rfl
      exact hconsistent.not_mem_msgIds hmissing expireAt hother
    split_ifs at hmem with htick
    · rcases List.mem_append.mp hmem with hother | hnew
      · rw [if_neg (hold hother)]
        exact hconsistent.entered expireAt other hother
      · rw [if_pos (List.mem_singleton.mp hnew), htick]
        exact ⟨msgInfo, rfl⟩
    · rw [if_neg (hold hmem)]
      exact hconsistent.entered expireAt other hmem
  nodup := by
    intro expireAt
    rw [withSent_msgIds]
    split_ifs with htick
    · refine List.Nodup.append (hconsistent.nodup expireAt) (List.nodup_singleton msgId) ?_
      rw [List.disjoint_singleton]
      exact hconsistent.not_mem_msgIds hmissing expireAt
    · exact hconsistent.nodup expireAt

/-- The entered handle is in use, and the others are as they were. -/
theorem holdsHandle_withSent_iff (hmissing : cache.msgIdIndex.lookup msgId = none)
    (sendPduHandle : ℕ) :
    HoldsHandle (cache.withSent msgId msgInfo) sendPduHandle ↔
      sendPduHandle = msgInfo.sendPduHandle ∨ HoldsHandle cache sendPduHandle := by
  unfold HoldsHandle
  simp only [withSent_msgIdIndex, Dict.lookup_insert_ite]
  constructor
  · rintro ⟨other, sent, expireAt, hentry, hhandle⟩
    split_ifs at hentry with hother
    · rw [Option.some.injEq, Prod.mk.injEq] at hentry
      exact Or.inl (by rw [hentry.1, hhandle])
    · exact Or.inr ⟨other, sent, expireAt, hentry, hhandle⟩
  · rintro (hhandle | ⟨other, sent, expireAt, hentry, hhandle⟩)
    · exact ⟨msgId, msgInfo, _, if_pos rfl, hhandle.symm⟩
    · refine ⟨other, sent, expireAt, ?_, hhandle⟩
      rw [if_neg, hentry]
      intro hother
      rw [hother, hmissing] at hentry
      cases hentry

/-- An aged handle stays aged when another request is entered. -/
theorem AgedOut.withSent {sendPduHandle : ℕ} (haged : AgedOut cache sendPduHandle)
    (hhandle : sendPduHandle ≠ msgInfo.sendPduHandle)
    (hfresh : cache.sendPduHandleIdx.lookup sendPduHandle = some msgId →
      (cache.msgIdIndex.lookup msgId).isSome) :
    AgedOut (cache.withSent msgId msgInfo) sendPduHandle := by
  obtain ⟨other, hother, hnone⟩ := haged
  refine ⟨other, by simp [hhandle, hother], ?_⟩
  rw [withSent_msgIdIndex, Dict.lookup_insert_ite, if_neg, hnone]
  intro heq
  rw [heq] at hother hnone
  have hsome := hfresh hother
  rw [hnone] at hsome
  cases hsome

end WithSent

/-! ### Taking a request back -/

section WithoutSent

variable {cache : CacheState} {msgId : ℤ} {sent : SentRequest} {expireAt : ℕ}

/-- Popping an entry takes it out of both indexes and its queue. -/
theorem Consistent.popByMsgId_run (hconsistent : Consistent cache)
    (hentry : cache.msgIdIndex.lookup msgId = some (sent, expireAt)) :
    (popByMsgId msgId).run cache = (.ok sent, cache.withoutSent msgId sent expireAt) :=
  popByMsgId_eq_ok_iff.mpr ⟨expireAt, hentry,
    by rw [hconsistent.indexed msgId sent expireAt hentry]; rfl,
    hconsistent.scheduled msgId sent expireAt hentry, rfl⟩

/-- The entry is taken off its own queue. -/
theorem withoutSent_msgIds (other : ℕ) :
    ((cache.withoutSent msgId sent expireAt).expirationQueue other).msgIds =
      if other = expireAt then (cache.expirationQueue other).msgIds.erase msgId
      else (cache.expirationQueue other).msgIds := by
  unfold CacheState.withoutSent CacheState.unschedule
  by_cases hother : other = expireAt
  · subst hother
    simp [CacheState.dropMsgId, CacheState.dropHandle]
  · simp [hother, CacheState.dropMsgId, CacheState.dropHandle]

/-- Taking an entry out keeps the cache consistent. -/
theorem Consistent.withoutSent (hconsistent : Consistent cache)
    (hentry : cache.msgIdIndex.lookup msgId = some (sent, expireAt)) :
    Consistent (cache.withoutSent msgId sent expireAt) where
  indexed := by
    intro other request otherAt hother
    rw [withoutSent_msgIdIndex, Dict.lookup_erase_ite] at hother
    rw [withoutSent_sendPduHandleIdx, Dict.lookup_erase_ite]
    split_ifs at hother with heq
    have hindexed := hconsistent.indexed other request otherAt hother
    rw [if_neg, hindexed]
    intro hhandle
    rw [hhandle, hconsistent.indexed msgId sent expireAt hentry, Option.some.injEq] at hindexed
    exact heq hindexed.symm
  scheduled := by
    intro other request otherAt hother
    rw [withoutSent_msgIdIndex, Dict.lookup_erase_ite] at hother
    rw [withoutSent_msgIds]
    split_ifs at hother with heq
    have hold := hconsistent.scheduled other request otherAt hother
    split_ifs
    · exact (List.mem_erase_of_ne heq).mpr hold
    · exact hold
  entered := by
    intro otherAt other hmem
    rw [withoutSent_msgIds] at hmem
    rw [withoutSent_msgIdIndex, Dict.lookup_erase_ite]
    split_ifs at hmem with htick
    · have hne := ((hconsistent.nodup otherAt).mem_erase_iff.mp hmem).1
      rw [if_neg hne]
      exact hconsistent.entered otherAt other (List.mem_of_mem_erase hmem)
    · obtain ⟨request, hrequest⟩ := hconsistent.entered otherAt other hmem
      rw [if_neg]
      · exact ⟨request, hrequest⟩
      · intro heq
        rw [heq, hentry, Option.some.injEq, Prod.mk.injEq] at hrequest
        exact htick hrequest.2.symm
  nodup := by
    intro otherAt
    rw [withoutSent_msgIds]
    split_ifs
    · exact (hconsistent.nodup otherAt).erase msgId
    · exact hconsistent.nodup otherAt

/-- The handle of the entry is free, and the others are as they were. -/
theorem holdsHandle_withoutSent_iff (hconsistent : Consistent cache)
    (hentry : cache.msgIdIndex.lookup msgId = some (sent, expireAt)) (sendPduHandle : ℕ) :
    HoldsHandle (cache.withoutSent msgId sent expireAt) sendPduHandle ↔
      sendPduHandle ≠ sent.sendPduHandle ∧ HoldsHandle cache sendPduHandle := by
  unfold HoldsHandle
  simp only [withoutSent_msgIdIndex, Dict.lookup_erase_ite]
  constructor
  · rintro ⟨other, request, otherAt, hother, rfl⟩
    split_ifs at hother with heq
    refine ⟨?_, other, request, otherAt, hother, rfl⟩
    intro hhandle
    have hindexed := hconsistent.indexed other request otherAt hother
    rw [hhandle, hconsistent.indexed msgId sent expireAt hentry, Option.some.injEq] at hindexed
    exact heq hindexed.symm
  · rintro ⟨hne, other, request, otherAt, hother, rfl⟩
    refine ⟨other, request, otherAt, ?_, rfl⟩
    rw [if_neg, hother]
    intro heq
    rw [heq, hentry, Option.some.injEq, Prod.mk.injEq] at hother
    exact hne (by rw [hother.1])

/-- An aged handle stays aged when another entry is taken out. -/
theorem AgedOut.withoutSent {sendPduHandle : ℕ} (haged : AgedOut cache sendPduHandle)
    (hhandle : sendPduHandle ≠ sent.sendPduHandle) :
    AgedOut (cache.withoutSent msgId sent expireAt) sendPduHandle := by
  obtain ⟨other, hother, hnone⟩ := haged
  exact ⟨other, by simp [hhandle, hother], by simp [hnone]⟩

end WithoutSent

/-- A handle that leads to no request of another handle is released: the request is taken back if
one is held under the handle, and otherwise the cache stays as it is. -/
theorem Consistent.popBySendPduHandle_run {cache : CacheState} {sendPduHandle : ℕ}
    (hconsistent : Consistent cache) (hown : LeadsToOwn cache sendPduHandle) :
    (∃ msgId sent expireAt, cache.msgIdIndex.lookup msgId = some (sent, expireAt) ∧
        sent.sendPduHandle = sendPduHandle ∧
        (popBySendPduHandle sendPduHandle).run cache =
          (.ok (), cache.withoutSent msgId sent expireAt)) ∨
      ¬ HoldsHandle cache sendPduHandle ∧
        ∃ result, (popBySendPduHandle sendPduHandle).run cache = (result, cache) ∧
          (result = .ok () ∨ result = .error .protocolError) := by
  unfold popBySendPduHandle
  rw [bind_run_of_ok (gets_run _ _)]
  have hunheld : ∀ msgId, cache.sendPduHandleIdx.lookup sendPduHandle = msgId →
      (∀ held, msgId = some held → cache.msgIdIndex.lookup held = none) →
        ¬ HoldsHandle cache sendPduHandle := by
    rintro msgId hhandle hnone ⟨other, sent, expireAt, hentry, rfl⟩
    rw [hconsistent.indexed other sent expireAt hentry] at hhandle
    rw [hnone other hhandle.symm] at hentry
    cases hentry
  cases hhandle : cache.sendPduHandleIdx.lookup sendPduHandle with
  | none => exact Or.inr ⟨hunheld _ hhandle (by simp), _, pure_run _ _, Or.inl rfl⟩
  | some msgId =>
    cases hentry : cache.msgIdIndex.lookup msgId with
    | none =>
      refine Or.inr ⟨hunheld _ hhandle ?_, .error .protocolError, ?_, Or.inr rfl⟩
      · rintro held hheld
        rw [Option.some.injEq] at hheld
        rwa [← hheld]
      · exact bind_run_of_error (popByMsgId_run_of_missing hentry)
    | some entry =>
      obtain ⟨sent, expireAt⟩ := entry
      refine Or.inl ⟨msgId, sent, expireAt, hentry, hown msgId sent expireAt hhandle hentry, ?_⟩
      exact bind_run_of_ok (hconsistent.popByMsgId_run hentry)

/-! ### Expiry -/

/-- Deleting identifiers that are all indexed. -/
theorem forEach_deleteMsgId_run {cache : CacheState} {msgIds : List ℤ} (hnodup : msgIds.Nodup)
    (hindexed : ∀ msgId ∈ msgIds, (cache.msgIdIndex.lookup msgId).isSome) :
    ∃ index, (forEach deleteMsgId msgIds).run cache =
        (.ok (), { cache with msgIdIndex := index }) ∧
      ∀ msgId, index.lookup msgId =
        if msgId ∈ msgIds then none else cache.msgIdIndex.lookup msgId :=
  Dict.forEach_erase_run CacheState.msgIdIndex
    (fun index cache ↦ { cache with msgIdIndex := index })
    (fun _ _ ↦ rfl) (fun _ ↦ rfl) (fun _ _ _ ↦ rfl)
    (fun _ _ hentry ↦ deleteMsgId_eq_ok_iff.mpr ⟨hentry, rfl⟩) hnodup hindexed

/-- What expiry does to the sent requests: some of them are held no longer, and their handles still
lead to where they were. -/
structure Ages (before after : CacheState) : Prop where
  consistent : Consistent before → Consistent after
  holdsHandle : ∀ sendPduHandle, HoldsHandle after sendPduHandle →
    HoldsHandle before sendPduHandle
  agedOut : Consistent before → ∀ sendPduHandle,
    HoldsHandle before sendPduHandle ∨ AgedOut before sendPduHandle →
      HoldsHandle after sendPduHandle ∨ AgedOut after sendPduHandle

theorem SameSent.ages {before after : CacheState} (hsame : SameSent before after) :
    Ages before after where
  consistent := hsame.consistent
  holdsHandle := fun sendPduHandle ↦ (hsame.holdsHandle_iff sendPduHandle).mp
  agedOut := fun _ sendPduHandle hbefore ↦ by
    rwa [hsame.holdsHandle_iff, hsame.agedOut_iff]

/-- The cache after the requests that are due at a tick have been deleted. -/
theorem Consistent.ages_of_expired {cache : CacheState} (hconsistent : Consistent cache)
    {index : Dict ℤ (SentRequest × ℕ)} {tick next : ℕ}
    (hlookup : ∀ msgId, index.lookup msgId =
      if msgId ∈ (cache.expirationQueue tick).msgIds then none
      else cache.msgIdIndex.lookup msgId) :
    Ages cache { cache with
      msgIdIndex := index
      expirationQueue := Function.update cache.expirationQueue tick {}
      expirationTimer := next } where
  consistent := by
    intro _
    refine ⟨?_, ?_, ?_, ?_⟩
    · intro msgId sent expireAt hentry
      rw [hlookup] at hentry
      split_ifs at hentry
      exact hconsistent.indexed msgId sent expireAt hentry
    · intro msgId sent expireAt hentry
      rw [hlookup] at hentry
      split_ifs at hentry with hdue
      have hscheduled := hconsistent.scheduled msgId sent expireAt hentry
      have htick : expireAt ≠ tick := fun heq ↦ hdue (heq ▸ hscheduled)
      simpa [htick] using hscheduled
    · intro expireAt msgId hmem
      by_cases htick : expireAt = tick
      · subst htick
        simp at hmem
      · simp only [ne_eq, htick, not_false_eq_true, Function.update_of_ne] at hmem
        obtain ⟨sent, hentry⟩ := hconsistent.entered expireAt msgId hmem
        refine ⟨sent, ?_⟩
        rw [hlookup, if_neg, hentry]
        intro hdue
        obtain ⟨other, hother⟩ := hconsistent.entered tick msgId hdue
        rw [hentry, Option.some.injEq, Prod.mk.injEq] at hother
        exact htick hother.2
    · intro expireAt
      by_cases htick : expireAt = tick
      · subst htick
        simp
      · simpa [htick] using hconsistent.nodup expireAt
  holdsHandle := by
    rintro sendPduHandle ⟨msgId, sent, expireAt, hentry, rfl⟩
    rw [hlookup] at hentry
    split_ifs at hentry
    exact ⟨msgId, sent, expireAt, hentry, rfl⟩
  agedOut := by
    rintro _ sendPduHandle (⟨msgId, sent, expireAt, hentry, rfl⟩ | ⟨msgId, hhandle, hnone⟩)
    · by_cases hdue : msgId ∈ (cache.expirationQueue tick).msgIds
      · exact Or.inr ⟨msgId, hconsistent.indexed msgId sent expireAt hentry,
          by rw [hlookup, if_pos hdue]⟩
      · exact Or.inl ⟨msgId, sent, expireAt, by rw [hlookup, if_neg hdue, hentry], rfl⟩
    · exact Or.inr ⟨msgId, hhandle, by rw [hlookup, hnone, ite_self]⟩

theorem Ages.trans {before middle after : CacheState} (hfirst : Ages before middle)
    (hsecond : Ages middle after) : Ages before after where
  consistent := fun hconsistent ↦ hsecond.consistent (hfirst.consistent hconsistent)
  holdsHandle := fun sendPduHandle hafter ↦
    hfirst.holdsHandle sendPduHandle (hsecond.holdsHandle sendPduHandle hafter)
  agedOut := fun hconsistent sendPduHandle hbefore ↦
    hsecond.agedOut (hfirst.consistent hconsistent) sendPduHandle
      (hfirst.agedOut hconsistent sendPduHandle hbefore)

/-- A tick expires entries, whose handles have aged out then. -/
theorem Consistent.ages_expireCaches {cache : CacheState} (hconsistent : Consistent cache) :
    Ages cache (expireCaches.run cache).2 := by
  unfold expireCaches
  rw [bind_run_of_ok (gets_run _ _)]
  have hserved := Keeps.forEach fun stateReference
    (_ : stateReference ∈ (cache.expirationQueue cache.expirationTimer).stateReferences) ↦
      sameSent_deleteStateReference stateReference
  rcases ok_or_error (forEach deleteStateReference
      (cache.expirationQueue cache.expirationTimer).stateReferences) cache with
    ⟨_, middle, hok⟩ | ⟨_, middle, herror⟩
  · have hsame := hserved.of_run hok
    have hmiddle := hsame.consistent hconsistent
    rw [bind_run_of_ok hok, ← hsame.msgIds, ← hsame.expirationTimer]
    have hindexed : ∀ msgId ∈ (middle.expirationQueue middle.expirationTimer).msgIds,
        (middle.msgIdIndex.lookup msgId).isSome := by
      intro msgId hmem
      obtain ⟨sent, hentry⟩ := hmiddle.entered middle.expirationTimer msgId hmem
      rw [hentry]
      rfl
    obtain ⟨index, hrun, hlookup⟩ :=
      forEach_deleteMsgId_run (hmiddle.nodup middle.expirationTimer) hindexed
    rw [bind_run_of_ok hrun, modify_run]
    exact hsame.ages.trans (hmiddle.ages_of_expired hlookup)
  · rw [bind_run_of_error herror]
    exact (hserved.of_run herror).ages

end Pysnmp.Proto.Mpmod.SentRequests
