import Pysnmp.Entity.Rfc3413.AnsweredOnce
import Pysnmp.Entity.Rfc3413.VarBindWalks

/-!
# The table of a GETBULK

The responder flattens the answers to a GETBULK into one list of bindings, the non-repeaters first
and then round after round of the repeaters, and `BulkPDUAPI.getVarBindTable` of the manager cuts
the list back into rows. Each derives the shape from the request on its own. Here they agree: on
every request the responder answers with the successors in rounds (`bulkAnswers`), and the manager
gets one row for each round out of them, with the exceptions that each side has in its code
(`serveRequest_bulk_table`). The responder does not answer with nothing, and the manager makes a row
of the non-repeaters if there is nothing else.
-/

set_option autoImplicit false
set_option relaxedAutoImplicit false

namespace Pysnmp.Entity.Rfc3413.BulkTable

open Foundation Foundation.Effect Proto Proto.Mpmod.Cache Proto.Mpmod.MessageProcessing
open CommandResponder SuspendedOperations AnsweredOnce
open VarBindWalks (multiplesBelow slice getNonRepeaters getBulkVarBindTable)

/-! ### The table -/

section Table

variable (successor : VarBind → VarBind) (N M : ℕ) (varBinds : List VarBind)

/-- The number of rounds: as many as are asked for, within the bindings a response may carry. -/
def rounds : ℕ := min M (maxVarBinds / (varBinds.length - N))

/-- The answers for the bindings that are asked for once. -/
def onceAnswers : List VarBind := (varBinds.take N).map successor

/-- The answers of a round, each of which starts from the one before. -/
def roundAnswers (i : ℕ) : List VarBind := (varBinds.drop N).map successor^[i + 1]

/-- The answers to a request, in order. -/
def bulkAnswers : List VarBind :=
  onceAnswers successor N varBinds ++
    ((List.range (rounds N M varBinds)).map (roundAnswers successor N varBinds)).flatten

/-- The rows of the table, one for each round. -/
def bulkRows : List (List VarBind) :=
  (List.range (rounds N M varBinds)).map fun i ↦
    onceAnswers successor N varBinds ++ roundAnswers successor N varBinds i

end Table

/-- A GETBULK request. -/
def bulkPdu (requestID : ℤ) (N M : ℕ) (varBinds : List VarBind) : Pdu where
  pduType := .getBulkRequest
  requestID := requestID
  errorStatus := N
  errorIndex := M
  varBinds := varBinds

/-! ### The responder's rounds -/

section Rounds

variable (world : World) (successor : VarBind → VarBind)
  (waits : ℕ → Option (CacheState → CacheState))

/-- Instrumentation that answers each binding with its successor. -/
def readSuccessors (varBinds : List VarBind) : Except Failure (List VarBind) :=
  .ok (varBinds.map successor)

/-- The sample access reads the successor of every name. -/
theorem readSuccessors_eq (varBinds : List VarBind) :
    readSuccessors successor varBinds = .ok (varBinds.map successor) :=
  rfl

/-- The repetition that was appended last is the one the next begins from. -/
theorem lastVarBinds_append {rspVarBinds repetition : List VarBind} {R : ℕ}
    (hlength : repetition.length = R) (hR : R ≠ 0) :
    lastVarBinds R (rspVarBinds ++ repetition) = repetition := by
  subst hlength
  simp [lastVarBinds, hR]

/-- The answers of the rounds that start from the given bindings. -/
def roundsFrom (M : ℕ) (varBinds : List VarBind) : List VarBind :=
  ((List.range M).map fun i ↦ varBinds.map successor^[i + 1]).flatten

/-- The first round answers the repeaters, and the others go on from it. -/
theorem roundsFrom_succ (M : ℕ) (varBinds : List VarBind) :
    roundsFrom successor (M + 1) varBinds =
      varBinds.map successor ++ roundsFrom successor M (varBinds.map successor) := by
  simp [roundsFrom, List.range_succ_eq_map, Function.comp_def, Function.iterate_succ_apply]

/-- The repetitions gather the rounds. -/
theorem repeatEnd_readSuccessors {R : ℕ} (hR : R ≠ 0) (M call : ℕ)
    {varBinds : List VarBind} (hlength : varBinds.length = R) (rspVarBinds : List VarBind) :
    (repeatEnd (answering world (readSuccessors successor) waits) R M call varBinds
        rspVarBinds).1 =
      (gathered (rspVarBinds ++ roundsFrom successor M varBinds)).1 := by
  induction M generalizing call varBinds rspVarBinds with
  | zero => simp [repeatEnd, roundsFrom]
  | succ M ih =>
    have hnext : (varBinds.map successor).length = R := by rw [List.length_map, hlength]
    rw [repeatEnd, if_neg hR]
    simp only [replyResult_answering, readSuccessors_eq, OperationEnd.after]
    rw [lastVarBinds_append hnext hR, ih (call + 1) hnext, List.append_assoc, ← roundsFrom_succ]

/-- The answers are the non-repeaters' once, and the repeaters' in every round. -/
theorem bulkAnswers_eq (N M : ℕ) (varBinds : List VarBind) :
    bulkAnswers successor N M varBinds =
      onceAnswers successor N varBinds ++
        roundsFrom successor (rounds N M varBinds) (varBinds.drop N) :=
  rfl

/-- No more names are non-repeaters than the request has. -/
theorem nonRepeaters_bulkPdu (requestID : ℤ) (N M : ℕ) (varBinds : List VarBind) :
    nonRepeaters (bulkPdu requestID N M varBinds) = min N varBinds.length := by
  simp [nonRepeaters, bulkPdu]

/-- All names after the non-repeaters repeat. -/
theorem repeaters_bulkPdu (requestID : ℤ) (N M : ℕ) (varBinds : List VarBind) :
    repeaters (bulkPdu requestID N M varBinds) = varBinds.length - N := by
  rw [repeaters, nonRepeaters_bulkPdu]
  change varBinds.length - min N varBinds.length = varBinds.length - N
  omega

/-- The repetitions are cut to what the response has room for. -/
theorem repetitions_bulkPdu (requestID : ℤ) {N M : ℕ} {varBinds : List VarBind}
    (hrepeaters : varBinds.length - N ≠ 0) :
    repetitions (bulkPdu requestID N M varBinds) = rounds N M varBinds := by
  rw [repetitions, repeaters_bulkPdu, if_neg hrepeaters]
  rfl

/-- Without repeaters there are no rounds. -/
theorem bulkAnswers_of_length_le {N M : ℕ} {varBinds : List VarBind} (hN : varBinds.length ≤ N) :
    bulkAnswers successor N M varBinds = onceAnswers successor N varBinds := by
  have hrounds : rounds N M varBinds = 0 := by
    rw [rounds, Nat.sub_eq_zero_of_le hN, Nat.div_zero, Nat.min_zero]
  rw [bulkAnswers_eq, hrounds]
  exact List.append_nil _

/-- Without rounds the response is what was gathered. -/
theorem repeatEnd_zero (M call : ℕ) (varBinds rspVarBinds : List VarBind) :
    repeatEnd (answering world (readSuccessors successor) waits) 0 M call varBinds rspVarBinds =
      gathered rspVarBinds := by
  cases M <;> rfl

/-- What follows the non-repeaters. -/
theorem repeatEnd_bulkPdu (requestID : ℤ) (N M call : ℕ) (varBinds : List VarBind) :
    (repeatEnd (answering world (readSuccessors successor) waits)
        (repeaters (bulkPdu requestID N M varBinds))
        (repetitions (bulkPdu requestID N M varBinds)) call
        (lastVarBinds (repeaters (bulkPdu requestID N M varBinds)) varBinds)
        (onceAnswers successor N varBinds)).1 =
      (gathered (bulkAnswers successor N M varBinds)).1 := by
  rw [repeaters_bulkPdu]
  by_cases hrepeaters : varBinds.length - N = 0
  · rw [hrepeaters, repeatEnd_zero,
      bulkAnswers_of_length_le successor (Nat.le_of_sub_eq_zero hrepeaters)]
  · have hlast : lastVarBinds (varBinds.length - N) varBinds = varBinds.drop N := by
      rw [lastVarBinds, if_neg hrepeaters, Nat.sub_sub_self (by omega)]
    rw [repetitions_bulkPdu requestID hrepeaters, hlast, bulkAnswers_eq]
    exact repeatEnd_readSuccessors world successor waits hrepeaters _ _ List.length_drop _

/-- A GETBULK gathers the answers for its bindings. -/
theorem bulkEnd_readSuccessors (requestID : ℤ) (N M : ℕ) (varBinds : List VarBind) :
    (bulkEnd (answering world (readSuccessors successor) waits)
        (bulkPdu requestID N M varBinds)).1 =
      (gathered (bulkAnswers successor N M varBinds)).1 := by
  unfold bulkEnd
  by_cases hnone : nonRepeaters (bulkPdu requestID N M varBinds) = 0
  · simp only [hnone, if_true]
    have honce : onceAnswers successor N varBinds = [] := by
      rw [nonRepeaters_bulkPdu] at hnone
      rw [onceAnswers, List.map_eq_nil_iff, List.take_eq_nil_iff, ← List.length_eq_zero_iff]
      omega
    rw [← repeatEnd_bulkPdu world successor waits requestID N M 0 varBinds, honce]
    rfl
  · simp only [hnone, if_false, replyResult_answering, readSuccessors_eq, OperationEnd.after]
    have htake : (bulkPdu requestID N M varBinds).varBinds.take
        (nonRepeaters (bulkPdu requestID N M varBinds)) = varBinds.take N := by
      rw [nonRepeaters_bulkPdu]
      exact (List.take_eq_take_min ..).symm
    rw [htake]
    exact repeatEnd_bulkPdu world successor waits requestID N M 1 varBinds

end Rounds

/-! ### The manager's rows -/

/-- Cutting rows of one length out of their concatenation. -/
theorem slice_flatten {R : ℕ} {rows : List (List VarBind)} (hlength : ∀ row ∈ rows, row.length = R)
    (front : List VarBind) {i : ℕ} (hi : i < rows.length) :
    slice (front ++ rows.flatten) (front.length + i * R) (front.length + R + i * R) = rows[i] := by
  induction rows generalizing front i with
  | nil => cases hi
  | cons row rest ih =>
    have hrow : row.length = R := hlength row List.mem_cons_self
    rw [List.flatten_cons, ← List.append_assoc]
    cases i with
    | zero =>
      have htake : (front ++ row ++ rest.flatten).take (front.length + R) = front ++ row :=
        List.take_left' (by rw [List.length_append, hrow])
      rw [slice, zero_mul, Nat.add_zero, Nat.add_zero, htake, List.drop_left,
        List.getElem_cons_zero]
    | succ i =>
      have hrest := ih (fun other hother ↦ hlength other (List.mem_cons_of_mem _ hother))
        (front ++ row) (Nat.lt_of_succ_lt_succ hi)
      rw [List.getElem_cons_succ, ← hrest, List.length_append, hrow]
      congr 1 <;> ring

/-- A round answers every repeater. -/
theorem length_roundAnswers (successor : VarBind → VarBind) (N : ℕ) (varBinds : List VarBind)
    (i : ℕ) : (roundAnswers successor N varBinds i).length = varBinds.length - N := by
  rw [roundAnswers, List.length_map, List.length_drop]

/-- Every non-repeater is answered once. -/
theorem length_onceAnswers (successor : VarBind → VarBind) {N : ℕ} {varBinds : List VarBind}
    (hN : N ≤ varBinds.length) : (onceAnswers successor N varBinds).length = N := by
  rw [onceAnswers, List.length_map, List.length_take, Nat.min_eq_left hN]

/-- Multiples are counted off below a multiple. -/
theorem multiplesBelow_mul (count : ℕ) {step : ℕ} (hstep : 0 < step) :
    multiplesBelow (count * step) step = (List.range count).map (· * step) := by
  have hlast : (step - 1) / step = 0 := Nat.div_eq_of_lt (by omega)
  have hsplit : count * step + step - 1 = step - 1 + step * count := by
    rw [Nat.mul_comm]
    omega
  rw [multiplesBelow, hsplit, Nat.add_mul_div_left _ _ hstep, hlast, Nat.zero_add]

/-- The request says how many of its names do not repeat. -/
@[simp] theorem getNonRepeaters_bulkPdu (requestID : ℤ) (N M : ℕ) (varBinds : List VarBind) :
    getNonRepeaters (bulkPdu requestID N M varBinds) = N :=
  rfl

/-- The request carries the names it was made with. -/
@[simp] theorem varBinds_bulkPdu (requestID : ℤ) (N M : ℕ) (varBinds : List VarBind) :
    (bulkPdu requestID N M varBinds).varBinds = varBinds :=
  rfl

/-- The manager gets the rounds back. -/
theorem getVarBindTable_of_lt (requestID : ℤ) (successor : VarBind → VarBind) {N : ℕ} (M : ℕ)
    {varBinds : List VarBind} (hN : N < varBinds.length) {rspPDU : Pdu}
    (hrsp : rspPDU.varBinds = bulkAnswers successor N M varBinds) :
    getBulkVarBindTable (bulkPdu requestID N M varBinds) rspPDU =
      bulkRows successor N M varBinds := by
  have honce := length_onceAnswers successor hN.le
  have hrows : ∀ row ∈ (List.range (rounds N M varBinds)).map (roundAnswers successor N varBinds),
      row.length = varBinds.length - N := by
    intro row hrow
    obtain ⟨i, -, rfl⟩ := List.mem_map.mp hrow
    exact length_roundAnswers successor N varBinds i
  have hstop : rspPDU.varBinds.length - N = rounds N M varBinds * (varBinds.length - N) := by
    rw [hrsp, bulkAnswers, List.length_append, honce, Nat.add_sub_cancel_left, List.length_flatten,
      List.map_eq_replicate_iff.mpr hrows, List.sum_replicate]
    simp
  have hrow : ∀ i ∈ List.range (rounds N M varBinds),
      slice rspPDU.varBinds 0 N ++ slice rspPDU.varBinds (N + i * (varBinds.length - N))
          (N + (varBinds.length - N) + i * (varBinds.length - N)) =
        onceAnswers successor N varBinds ++ roundAnswers successor N varBinds i := by
    intro i hi
    have hslice := slice_flatten hrows (onceAnswers successor N varBinds)
      (by simpa using List.mem_range.mp hi)
    rw [honce] at hslice
    have hfirst :
        slice (bulkAnswers successor N M varBinds) 0 N = onceAnswers successor N varBinds :=
      List.take_left' honce
    rw [hrsp, hfirst, bulkAnswers, hslice, List.getElem_map, List.getElem_range]
  unfold getBulkVarBindTable
  rw [getNonRepeaters_bulkPdu, varBinds_bulkPdu, Nat.min_eq_left hN.le]
  simp only
  rw [if_pos (Nat.sub_ne_zero_of_lt hN), hstop, multiplesBelow_mul _ (Nat.sub_pos_of_lt hN),
    List.map_map, bulkRows]
  have hmap : (List.range (rounds N M varBinds)).map ((fun i ↦ slice rspPDU.varBinds 0 N ++
        slice rspPDU.varBinds (N + i) (N + (varBinds.length - N) + i)) ∘
          (· * (varBinds.length - N))) =
      (List.range (rounds N M varBinds)).map fun i ↦
        onceAnswers successor N varBinds ++ roundAnswers successor N varBinds i :=
    List.map_congr_left hrow
  rw [hmap, List.filter_eq_self]
  intro row hmem
  obtain ⟨i, -, rfl⟩ := List.mem_map.mp hmem
  rw [decide_eq_true_iff, List.length_append, honce, length_roundAnswers]

/-- A response without successors is asked for without non-repeaters. -/
theorem eq_zero_of_bulkAnswers_eq_nil {successor : VarBind → VarBind} {N M : ℕ}
    {varBinds : List VarBind} (hempty : bulkAnswers successor N M varBinds = [])
    (hne : varBinds ≠ []) : N = 0 := by
  have honce : onceAnswers successor N varBinds = [] := (List.append_eq_nil_iff.mp hempty).1
  rw [onceAnswers, List.map_eq_nil_iff, List.take_eq_nil_iff] at honce
  exact honce.resolve_right hne

/-- The bindings of the request are a row of their own where all of them repeat. -/
theorem getVarBindTable_of_genErr (requestID : ℤ) (M : ℕ) {varBinds : List VarBind}
    (hne : varBinds ≠ []) {rspPDU : Pdu} (hrsp : rspPDU.varBinds = varBinds) :
    getBulkVarBindTable (bulkPdu requestID 0 M varBinds) rspPDU = [varBinds] := by
  have hlength : 0 < varBinds.length := List.length_pos_of_ne_nil hne
  have hone : multiplesBelow varBinds.length varBinds.length = [0] := by
    have hmul := multiplesBelow_mul 1 hlength
    rw [Nat.one_mul] at hmul
    rw [hmul, List.range_one, List.map_singleton, Nat.zero_mul]
  unfold getBulkVarBindTable
  rw [getNonRepeaters_bulkPdu, varBinds_bulkPdu, hrsp]
  simp [slice, hone, hlength.ne']

/-- Without repeaters the manager makes a row of the rest. -/
theorem getVarBindTable_of_le (requestID : ℤ) (successor : VarBind → VarBind) {N : ℕ} (M : ℕ)
    {varBinds : List VarBind} (hN : varBinds.length ≤ N) {rspPDU : Pdu}
    (hrsp : rspPDU.varBinds = bulkAnswers successor N M varBinds) :
    getBulkVarBindTable (bulkPdu requestID N M varBinds) rspPDU =
      if varBinds = [] then [] else [onceAnswers successor N varBinds] := by
  unfold getBulkVarBindTable
  rw [getNonRepeaters_bulkPdu, varBinds_bulkPdu, Nat.min_eq_right hN, hrsp,
    bulkAnswers_of_length_le successor hN]
  simp only [Nat.sub_self, ne_eq, not_true_eq_false, if_false, List.length_eq_zero_iff]
  have htake : slice (onceAnswers successor N varBinds) 0 varBinds.length =
      onceAnswers successor N varBinds := by
    refine List.take_of_length_le ?_
    rw [onceAnswers, List.length_map, List.length_take]
    exact Nat.min_le_right _ _
  rw [htake, ite_not]

/-! ### The result -/

/-- A GETBULK request to a responder. -/
def bulkRequest (modelId : ModelId) (stateReference : ℕ) (pdu : Pdu) : Request where
  kind := .bulk
  messageProcessingModel := modelId
  stateReference := stateReference
  pdu := pdu

/-- The responder answers with these fields: when the cache of message processing is as the waits
leave it, their response goes out if it is accepted, and nothing goes out if it is not. -/
def AnswersWith (world : World) (waits : ℕ → Option (CacheState → CacheState)) (request : Request)
    (responder : Responder) (fields : ℤ × ℤ × List VarBind) : Prop :=
  ∃ count, ∀ turns,
    let response := (request.pending request.pdu none).response fields.1 fields.2.1 fields.2.2
    let accepted := IsAccepted world request.messageProcessingModel request.stateReference
      (waitsFrom waits 0 count responder.model.cache) response
    let after := ((serveRequest world turns request).run responder).2
    (accepted → after.sent = responder.sent ++
        [⟨request.stateReference, request.messageProcessingModel, response⟩]) ∧
      (¬ accepted → after.sent = responder.sent)

/-- Responder and manager agree on the table: the answers go out, whatever they are, and the manager
gets one row for each round. -/
def AgreeOnTable (world : World) (successor : VarBind → VarBind)
    (waits : ℕ → Option (CacheState → CacheState)) (modelId : ModelId) (stateReference : ℕ)
    (requestID : ℤ) (N M : ℕ) (varBinds : List VarBind) (responder : Responder) : Prop :=
  AnswersWith (answering world (readSuccessors successor) waits) waits
      (bulkRequest modelId stateReference (bulkPdu requestID N M varBinds)) responder
      (0, 0, bulkAnswers successor N M varBinds) ∧
    ∀ rspPDU : Pdu, rspPDU.varBinds = bulkAnswers successor N M varBinds →
      getBulkVarBindTable (bulkPdu requestID N M varBinds) rspPDU = bulkRows successor N M varBinds

/-- What a GETBULK is answered with: `genErr` in place of nothing. -/
def bulkFields (successor : VarBind → VarBind) (N M : ℕ) (varBinds : List VarBind) :
    ℤ × ℤ × List VarBind :=
  if bulkAnswers successor N M varBinds = [] then (5, if varBinds = [] then 0 else 1, varBinds)
  else (0, 0, bulkAnswers successor N M varBinds)

/-- The table that the manager makes of the response, which may be the one with `genErr`: that has
the bindings of the request, which are taken for a round. -/
def bulkTable (successor : VarBind → VarBind) (N M : ℕ) (varBinds : List VarBind) :
    List (List VarBind) :=
  if bulkAnswers successor N M varBinds = [] then
    if varBinds = [] then [] else [varBinds]
  else if varBinds.length ≤ N then
    [onceAnswers successor N varBinds]
  else
    bulkRows successor N M varBinds

/-- The response that ends the rounds carries the answers. -/
theorem endFields_gathered (successor : VarBind → VarBind) (N M : ℕ) (varBinds : List VarBind) :
    endFields varBinds (gathered (bulkAnswers successor N M varBinds)).1 =
      some (bulkFields successor N M varBinds) := by
  by_cases hempty : bulkAnswers successor N M varBinds = []
  · simp only [gathered, bulkFields, if_pos hempty]
    rfl
  · simp only [gathered, bulkFields, if_neg hempty]
    rfl

/-- A request that is not of SNMPv1 is not translated. -/
theorem serveRequest_bulkRequest_run (world : World) {modelId : ModelId} (hmodel : modelId ≠ .v1)
    (stateReference turns : ℕ) (requestID : ℤ) (N M : ℕ) (varBinds : List VarBind)
    (responder : Responder) :
    (serveRequest world turns
        (bulkRequest modelId stateReference (bulkPdu requestID N M varBinds))).run responder =
      (handle (handleMgmtOperation world turns stateReference (bulkPdu requestID N M varBinds)
        .bulk >>=
          runDeferred) (failedMgmtOperation world stateReference varBinds)).run
        (entered (bulkRequest modelId stateReference (bulkPdu requestID N M varBinds))
          ((bulkRequest modelId stateReference (bulkPdu requestID N M varBinds)).pending
            (bulkPdu requestID N M varBinds) none) responder) := by
  rw [serveRequest_eq]
  cases modelId with
  | v1 => exact absurd rfl hmodel
  | v2c | v3 => rfl

/-- A response is translated for SNMPv1 only. -/
theorem translateResponse_of_ne {pending : PendingRequest}
    (hmodel : pending.messageProcessingModel ≠ .v1) (pdu : Pdu) :
    translateResponse pending pdu = .ok pdu := by
  unfold translateResponse
  cases hmodelId : pending.messageProcessingModel with
  | v1 => exact absurd hmodelId hmodel
  | v2c | v3 => rfl

/-- The responder answers a GETBULK with the successors in rounds, or with `genErr` when there are
none. -/
theorem serveRequest_bulk_answers (world : World) (successor : VarBind → VarBind)
    (waits : ℕ → Option (CacheState → CacheState)) {modelId : ModelId} (hmodel : modelId ≠ .v1)
    (stateReference : ℕ) (requestID : ℤ) (N M : ℕ) (varBinds : List VarBind)
    (responder : Responder) :
    AnswersWith (answering world (readSuccessors successor) waits) waits
      (bulkRequest modelId stateReference (bulkPdu requestID N M varBinds)) responder
      (bulkFields successor N M varBinds) := by
  obtain ⟨count, hcount⟩ := bulkEnd_answering world (readSuccessors successor) waits
    (bulkPdu requestID N M varBinds)
  have hend : bulkEnd (answering world (readSuccessors successor) waits)
      (bulkPdu requestID N M varBinds) =
        ((gathered (bulkAnswers successor N M varBinds)).1, waitsFrom waits 0 count) := by
    rw [← bulkEnd_readSuccessors world successor waits requestID, hcount]
  refine ⟨count, fun turns ↦ ?_⟩
  rw [serveRequest_bulkRequest_run _ hmodel]
  set request := bulkRequest modelId stateReference (bulkPdu requestID N M varBinds)
  set pending := request.pending (bulkPdu requestID N M varBinds) none
  have hpending : (entered request pending responder).pendingReqs.lookup stateReference =
      some pending := AList.lookup_insert _
  have htranslated : ∀ pdu, translateResponse pending pdu = .ok pdu :=
    translateResponse_of_ne hmodel
  rcases handle_operation_run (answering world (readSuccessors successor) waits)
      request turns (bulkPdu requestID N M varBinds) hpending with
    ⟨ending, meanwhile, hoperation, hrun⟩ | ⟨hoperation, -⟩
  · have hboth := Option.some.inj (hoperation.symm.trans (congrArg some hend))
    obtain ⟨rfl, rfl⟩ := Prod.mk.inj hboth
    have hfields := endFields_gathered successor N M varBinds
    have hwaited : (waited (waitsFrom waits 0 count)
        (entered request pending responder)).pendingReqs.lookup stateReference =
          some pending := hpending
    change (IsAccepted _ _ _ _ _ → ((handle (handleMgmtOperation _ turns _ _ _ >>= runDeferred)
      _).run _).2.sent = _) ∧ (¬ IsAccepted _ _ _ _ _ → _)
    constructor
    · intro haccepted
      have hanswered := conclude_run_of_delivers hwaited rfl rfl hfields
        ⟨htranslated _, haccepted⟩
      exact (congrArg (fun result ↦ result.2.sent) hrun).trans hanswered.1
    · intro hnot
      have hnothing : SendsNothing (handle (conclude (answering world (readSuccessors successor)
          waits) request.stateReference (gathered (bulkAnswers successor N M varBinds)).1)
            (failedMgmtOperation (answering world (readSuccessors successor) waits)
              request.stateReference varBinds))
          (waited (waitsFrom waits 0 count) (entered request pending responder)) := by
        refine conclude_sendsNothing hwaited rfl ?_
        rintro ⟨fields, hsome, translated, hdelivers⟩
        rw [hfields, Option.some.injEq] at hsome
        subst hsome
        have htranslation := hdelivers.1
        rw [htranslated, Except.ok.injEq] at htranslation
        subst htranslation
        exact hnot hdelivers.2
      unfold SendsNothing at hnothing
      exact (congrArg (fun result ↦ result.2.sent) hrun).trans hnothing
  · cases hoperation

/-- The responder answers a GETBULK with the successors in rounds, or with `genErr` when there are
none. Out of the successors in rounds the manager gets one row for each round, or the one row of the
non-repeaters when there is nothing to repeat; out of the other response it gets the bindings of the
request. -/
theorem serveRequest_bulk_table (world : World) (successor : VarBind → VarBind)
    (waits : ℕ → Option (CacheState → CacheState)) {modelId : ModelId} (hmodel : modelId ≠ .v1)
    (stateReference : ℕ) (requestID : ℤ) (N M : ℕ) (varBinds : List VarBind)
    (responder : Responder) :
    AnswersWith (answering world (readSuccessors successor) waits) waits
        (bulkRequest modelId stateReference (bulkPdu requestID N M varBinds)) responder
        (bulkFields successor N M varBinds) ∧
      ∀ rspPDU : Pdu, rspPDU.varBinds = (bulkFields successor N M varBinds).2.2 →
        getBulkVarBindTable (bulkPdu requestID N M varBinds) rspPDU =
          bulkTable successor N M varBinds := by
  refine ⟨serveRequest_bulk_answers world successor waits hmodel stateReference requestID N M
    varBinds responder, fun rspPDU hrsp ↦ ?_⟩
  rw [bulkFields] at hrsp
  rw [bulkTable]
  split_ifs at hrsp ⊢ with hempty hnone hN
  · rw [hnone] at hempty hrsp ⊢
    exact (getVarBindTable_of_le requestID successor M (Nat.zero_le N)
      (hrsp.trans hempty.symm)).trans (if_pos rfl)
  · obtain rfl := eq_zero_of_bulkAnswers_eq_nil hempty hnone
    exact getVarBindTable_of_genErr requestID M hnone hrsp
  · have hne : varBinds ≠ [] := by
      rintro rfl
      refine hempty ((bulkAnswers_of_length_le successor (Nat.zero_le N)).trans ?_)
      rw [onceAnswers, List.take_nil, List.map_nil]
    exact (getVarBindTable_of_le requestID successor M hN hrsp).trans (if_neg hne)
  · exact getVarBindTable_of_lt requestID successor M (Nat.lt_of_not_le hN) hrsp

theorem serveRequest_bulk_table_v2c :
    (AnswersWith (answering (openWorld fun _ varBinds ↦ .immediate (.ok varBinds))
        (readSuccessors fun varBind ↦ (varBind.1 ++ [0], .integer 7)) atOnce) atOnce
        (bulkRequest .v2c 1 (bulkPdu 1 0 2 [([1, 3], .null)])) receivedOne
        (0, 0, [([1, 3, 0], .integer 7), ([1, 3, 0, 0], .integer 7)])) ∧
      getBulkVarBindTable (bulkPdu 1 0 2 [([1, 3], .null)])
          { pduType := .response
            requestID := 1
            varBinds := [([1, 3, 0], .integer 7), ([1, 3, 0, 0], .integer 7)] } =
        [[([1, 3, 0], .integer 7)], [([1, 3, 0, 0], .integer 7)]] := by
  obtain ⟨hanswers, htable⟩ := @serveRequest_bulk_table
    (openWorld fun _ varBinds ↦ .immediate (.ok varBinds)) (fun varBind ↦ (varBind.1 ++ [0],
      .integer 7)) atOnce .v2c (by decide) 1 1 0 2 [([1, 3], .null)] receivedOne
  exact ⟨hanswers, htable _ rfl⟩

/-- A GETBULK with no repetitions is answered with `genErr`, and one whose bindings are all read
once leaves a row though there is no round. -/
theorem not_agreeOnTable :
    ¬ AgreeOnTable (openWorld fun _ varBinds ↦ .immediate (.ok varBinds)) id atOnce .v2c 1 1 0 0
        [([1, 3, 0], .null)] receivedOne ∧
      ¬ AgreeOnTable (openWorld fun _ varBinds ↦ .immediate (.ok varBinds)) id atOnce .v2c 1 1 1 5
        [([1, 3, 0], .null)] receivedOne := by
  constructor
  · rintro ⟨⟨count, hanswers⟩, -⟩
    have hsent := (hanswers 0).1
    rw [waitsFrom_atOnce] at hsent
    have hother := hsent ⟨rfl, _, _, rfl, rfl, rfl, ⟨rfl, fun hmodel ↦ nomatch hmodel⟩, rfl⟩
    exact absurd hother (by decide)
  · rintro ⟨-, htable⟩
    have hrows := htable { pduType := .response
                           requestID := 1
                           varBinds := [([1, 3, 0], .null)] } rfl
    exact absurd hrows (by decide)

end Pysnmp.Entity.Rfc3413.BulkTable
