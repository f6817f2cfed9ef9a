import Pysnmp.Proto.Secmod.UsmService

/-!
# What the steps of the user-based security model leave alone

Frame conditions of the steps of `processIncomingMsg`, for any preorder on states that the counters
do not enter (`StatFree`), and for the steps that draw references any one that the cache does not
enter either (`CacheFree`). `SameTimeline`, `SameSchedule` and `SameCache` are such relations.
-/

set_option autoImplicit false
set_option relaxedAutoImplicit false

namespace Pysnmp.Proto.Secmod.UsmFrame

open Foundation Foundation.Effect UsmService

/-- A preorder on states that the counters do not enter. -/
class StatFree (relation : UsmState → UsmState → Prop) : Prop
    extends Std.Refl relation, IsTrans UsmState relation where
  stats : ∀ state stats, relation state { state with stats := stats }

/-- A preorder on states that neither the counters nor the cache enter. -/
class CacheFree (relation : UsmState → UsmState → Prop) : Prop extends StatFree relation where
  cache : ∀ state drawnReferences cacheEntries, relation state
    { state with drawnReferences := drawnReferences, cacheEntries := cacheEntries }

/-! ### The relations -/

/-- The timeline is the same before and after. -/
def SameTimeline (before after : UsmState) : Prop :=
  after.timeline = before.timeline

instance : CacheFree SameTimeline where
  refl _ := rfl
  trans _ _ _ hfirst hsecond := hsecond.trans hfirst
  stats _ _ := rfl
  cache _ _ _ := rfl

/-- The timeline, and what expires of it when, are the same before and after. -/
structure SameSchedule (before after : UsmState) : Prop where
  timeline : after.timeline = before.timeline
  timelineExpQueue : after.timelineExpQueue = before.timelineExpQueue
  expirationTimer : after.expirationTimer = before.expirationTimer

instance : CacheFree SameSchedule where
  refl _ := ⟨rfl, rfl, rfl⟩
  trans _ _ _ hfirst hsecond :=
    ⟨hsecond.timeline.trans hfirst.timeline,
      hsecond.timelineExpQueue.trans hfirst.timelineExpQueue,
      hsecond.expirationTimer.trans hfirst.expirationTimer⟩
  stats _ _ := ⟨rfl, rfl, rfl⟩
  cache _ _ _ := ⟨rfl, rfl, rfl⟩

/-- The cache has the same entries before and after. -/
def SameCache (before after : UsmState) : Prop :=
  after.cacheEntries = before.cacheEntries

instance : StatFree SameCache where
  refl _ := rfl
  trans _ _ _ hfirst hsecond := hsecond.trans hfirst
  stats _ _ := rfl

/-! ### Steps that step counters -/

section StatFree

variable {relation : UsmState → UsmState → Prop} [StatFree relation]

/-- Raising a status changes nothing. -/
theorem keeps_raiseStatus {α : Type} (details : StatusInformation) :
    Keeps relation (raiseStatus details : Usm α) :=
  keeps_raise _

/-- Stepping a counter keeps what counters do not enter. -/
theorem keeps_countStat (stat : UsmStat) : Keeps relation (countStat stat) :=
  keeps_modify fun _ ↦ StatFree.stats _ _

/-- So does stepping it for a status that is raised. -/
theorem keeps_countAndRaise {α : Type} (stat : UsmStat) (details : StatusInformation) :
    Keeps relation (countAndRaise stat details : Usm α) :=
  (keeps_countStat stat).bind fun _ ↦
    (keeps_gets _).bind fun _ ↦ keeps_raiseStatus _

/-- The check of the level changes nothing but counters. -/
theorem keeps_checkSecurityLevel (engine : UsmEngine) (arrival : Arrival)
    (message : IdentifiedMessage) :
    Keeps relation (checkSecurityLevel engine arrival message) := by
  refine Keeps.ite ?_ (keeps_pure _)
  split
  · exact keeps_pure _
  · exact keeps_countAndRaise _ _

/-- The check of the digest changes nothing but counters. -/
theorem keeps_authenticateMessage (engine : UsmEngine) (arrival : Arrival)
    (message : IdentifiedMessage) :
    Keeps relation (authenticateMessage engine arrival message) := by
  unfold authenticateMessage
  split
  · exact keeps_raiseStatus _
  · split
    · exact keeps_pure _
    · exact keeps_raise _
    · exact keeps_raise _
    · exact keeps_countAndRaise _ _

/-- Reading the scoped PDU changes nothing but counters. -/
theorem keeps_readScopedPdu (engine : UsmEngine) (arrival : Arrival)
    (message : IdentifiedMessage) :
    Keeps relation (readScopedPdu engine arrival message) := by
  unfold readScopedPdu raiseDecryptionError
  split
  · exact keeps_raiseStatus _
  · split
    · exact keeps_raiseStatus _
    · split
      · exact keeps_raise _
      · exact keeps_raise _
      · exact keeps_countAndRaise _ _
      · split
        · exact keeps_pure _
        · exact keeps_raiseStatus _
        · exact keeps_raiseStatus _
  · exact keeps_pure _
  · exact keeps_raiseStatus _

/-- Delivery changes nothing but counters. -/
theorem keeps_deliverMessage (engine : UsmEngine) (arrival : Arrival)
    (message : IdentifiedMessage) :
    Keeps relation (deliverMessage engine arrival message) :=
  (keeps_readScopedPdu engine arrival message).bind fun _ ↦
    Keeps.ite (keeps_countAndRaise _ _) (keeps_pure _)

end StatFree

/-! ### Steps that draw references -/

section CacheFree

variable {relation : UsmState → UsmState → Prop} [CacheFree relation]

/-- A message that is cached changes nothing but the cache. -/
theorem keeps_pushCache (engine : UsmEngine) (data : CachedSecurityData) :
    Keeps relation (pushCache engine data) :=
  (keeps_gets _).bind fun _ ↦
    Keeps.bind (keeps_modify fun _ ↦ CacheFree.cache _ _ _) fun _ ↦ keeps_pure _

/-- An entry that is taken out changes nothing but the cache. -/
theorem keeps_popCache (reference : ℕ) : Keeps relation (popCache reference) := by
  refine (keeps_gets _).bind fun entry ↦ ?_
  cases entry with
  | none => exact keeps_raise _
  | some _ => exact keeps_modify fun _ ↦ CacheFree.cache _ _ _

/-- Reading the parameters of a message changes nothing. -/
theorem keeps_readSecurityParameters (engine : UsmEngine) (arrival : Arrival) :
    Keeps relation (readSecurityParameters engine arrival) := by
  unfold readSecurityParameters
  split
  · exact keeps_raise _
  · exact keeps_raiseStatus _
  · exact keeps_pure _

/-- A discovery changes nothing but counters. -/
theorem keeps_discoverEngine (engine : UsmEngine) (arrival : Arrival)
    (parameters : UsmSecurityParameters) (maxSize : ℤ) (reference : ℕ) :
    Keeps relation (discoverEngine engine arrival parameters maxSize reference) := by
  refine (keeps_gets _).bind fun known ↦ Keeps.ite (Keeps.ite (keeps_pure _) ?_) (keeps_pure _)
  refine (keeps_countStat _).bind fun _ ↦ Keeps.ite ?_ (keeps_raiseStatus _)
  split
  · exact keeps_raiseStatus _
  · exact (keeps_gets _).bind fun _ ↦ keeps_raiseStatus _

/-- Looking a user up changes nothing but counters. -/
theorem keeps_readUserInfo (engine : UsmEngine) (arrival : Arrival)
    (parameters : UsmSecurityParameters) (maxSize : ℤ) (reference : ℕ) :
    Keeps relation (readUserInfo engine arrival parameters maxSize reference) := by
  refine Keeps.ite (keeps_pure _) ?_
  split
  · exact keeps_pure _
  · exact (keeps_countStat _).bind fun _ ↦ keeps_raiseStatus _
  · split
    · exact keeps_pure _
    · exact keeps_raise _
    · exact keeps_countAndRaise _ _

/-- Identifying a message changes nothing but counters and the cache. -/
theorem keeps_identifyMessage (engine : UsmEngine) (arrival : Arrival) :
    Keeps relation (identifyMessage engine arrival) :=
  (keeps_readSecurityParameters engine arrival).bind fun _ ↦
    (keeps_pushCache engine _).bind fun _ ↦
      (keeps_discoverEngine engine arrival _ _ _).bind fun _ ↦
        (keeps_readUserInfo engine arrival _ _ _).bind fun _ ↦
          (keeps_popCache _).bind fun _ ↦
            (keeps_pushCache engine _).bind fun _ ↦ keeps_pure _

/-- Authenticating a message changes nothing but counters and the cache. -/
theorem keeps_authenticatedMessage (engine : UsmEngine) (arrival : Arrival) :
    Keeps relation (authenticatedMessage engine arrival) :=
  (keeps_identifyMessage engine arrival).bind fun message ↦
    (keeps_checkSecurityLevel engine arrival message).bind fun _ ↦
      Keeps.ite ((keeps_authenticateMessage engine arrival message).bind
        fun _ ↦ keeps_pure _) (keeps_pure _)

end CacheFree

end Pysnmp.Proto.Secmod.UsmFrame
