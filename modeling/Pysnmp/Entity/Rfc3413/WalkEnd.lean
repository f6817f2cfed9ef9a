import Pysnmp.Entity.Rfc3413.VarBindWalks
import Pysnmp.Foundation.FiniteSuccessors

/-!
# The end of a walk

A walk of a manager ought to end: an agent that answers with lexicographic successors in a finite
MIB is asked finitely often, and no agent is asked again that has answered with an OID which does
not advance (`Ends`). `ends_iff` says when this is so. GETNEXT, and GETBULK without non-repeaters,
come to the end of every finite MIB; non-repeaters are asked for again and again, past the end of
everything else. An OID that does not advance is told to the application and asked for all the
same.
-/

set_option autoImplicit false
set_option relaxedAutoImplicit false

namespace Pysnmp.Entity.Rfc3413.WalkEnd

open Foundation Proto Requesters VarBindWalks

/-! ### Agents -/

/-- The binding that follows a name in a MIB: the next of its names with a value, or the end. -/
inductive IsNext (mib : Finset Oid) (asked : Oid) : VarBind → Prop
  | name (name : Oid) (value : BindingValue) (hvalue : ¬ value.isException) (hmem : name ∈ mib)
      (hafter : asked < name) (hleast : ∀ other ∈ mib, asked < other → name ≤ other) :
      IsNext mib asked (name, value)
  | endOfMibView (hlast : ∀ other ∈ mib, ¬ asked < other) : IsNext mib asked (asked, .endOfMibView)

/-- The names of bindings. -/
def names (varBinds : List VarBind) : List Oid :=
  varBinds.map Prod.fst

/-- Repetitions: each row follows the names of the one before. -/
inductive Repetitions (mib : Finset Oid) : List Oid → List (List VarBind) → Prop
  | nil (asked : List Oid) : Repetitions mib asked []
  | cons {asked : List Oid} {row : List VarBind} {rows : List (List VarBind)}
      (hrow : List.Forall₂ (IsNext mib) asked row)
      (hrows : Repetitions mib (names row) rows) : Repetitions mib asked (row :: rows)

/-- What comes of a request where an agent answers with lexicographic successors, if it answers and
finds no error. An answer to GETBULK may be cut anywhere. -/
inductive Answers (mib : Finset Oid) : Generator → Pdu → CallbackResult → Prop
  | failure (generator : Generator) (reqPDU : Pdu) (errorIndication : ErrorIndication) :
      Answers mib generator reqPDU (.failure errorIndication)
  | badResponse (generator : Generator) (reqPDU : Pdu) :
      Answers mib generator reqPDU .badResponse
  | error (generator : Generator) (reqPDU rspPDU : Pdu) (hstatus : rspPDU.errorStatus ≠ 0) :
      Answers mib generator reqPDU (.response rspPDU)
  | next (reqPDU rspPDU : Pdu) (hstatus : rspPDU.errorStatus = 0)
      (hrow : List.Forall₂ (IsNext mib) (names reqPDU.varBinds) rspPDU.varBinds) :
      Answers mib .next reqPDU (.response rspPDU)
  | bulk (nonRepeaters maxRepetitions : ℕ) (reqPDU rspPDU : Pdu) (first : List VarBind)
      (rows : List (List VarBind)) (hstatus : rspPDU.errorStatus = 0)
      (hfirst : List.Forall₂ (IsNext mib) (names (reqPDU.varBinds.take nonRepeaters)) first)
      (hrows : Repetitions mib (names (reqPDU.varBinds.drop nonRepeaters)) rows)
      (hlength : rows.length ≤ maxRepetitions)
      (hstarts : rspPDU.varBinds <+: first ++ rows.flatten) :
      Answers mib (.bulk nonRepeaters maxRepetitions) reqPDU (.response rspPDU)

/-! ### The property and the condition -/

/-- The binding of a request that a binding of the answer stands for. -/
def column (generator : Generator) (reqPDU : Pdu) (position : ℕ) : ℕ :=
  match generator with
  | .next => position
  | .bulk nonRepeaters _ =>
    if position < nonRepeaters ∨ reqPDU.varBinds.length ≤ nonRepeaters then position
    else nonRepeaters + (position - nonRepeaters) % (reqPDU.varBinds.length - nonRepeaters)

/-- Some OID of an answer, other than one with an exception value, does not advance past the one
that was asked for. -/
def GoesBack (generator : Generator) (reqPDU rspPDU : Pdu) : Prop :=
  ∃ position varBind asked, rspPDU.varBinds[position]? = some varBind ∧ ¬ varBind.2.isException ∧
    reqPDU.varBinds[column generator reqPDU position]? = some asked ∧ varBind.1 ≤ asked.1

/-- The answer is an error, or has no whole row, or its last row has a binding with a value beyond
those that were asked for, or there are no non-repeaters and it has no value. -/
def Finishes (generator : Generator) (reqPDU : Pdu) : CallbackResult → Prop
  | .failure _ => True
  | .badResponse => True
  | .response rspPDU => rspPDU.errorStatus ≠ 0 ∨
      ∀ row ∈ (generator.kind.getVarBindTable reqPDU rspPDU).getLast?,
        (∃ varBind ∈ row.drop reqPDU.varBinds.length, ¬ varBind.2.isException) ∨
          generator.nonRepeaters = 0 ∧ ∀ varBind ∈ row, varBind.2.isException

/-- There is no answer, or it is an error, or it has less than one repetition. -/
def BreaksOff (generator : Generator) (reqPDU : Pdu) : CallbackResult → Prop
  | .failure _ => True
  | .badResponse => True
  | .response rspPDU => rspPDU.errorStatus ≠ 0 ∨
      generator.nonRepeaters < reqPDU.varBinds.length ∧
        rspPDU.varBinds.length < reqPDU.varBinds.length

section Walk

variable (generator : Generator) (cbFun : CbFun) (agent : ℕ → Pdu → CallbackResult)
  (requestIDs : ℕ → ℤ) (varBinds : List VarBind)

/-- The agent answers the requests of the walk with lexicographic successors. -/
def AnswersWalk (mib : Finset Oid) : Prop :=
  ∀ turn reqPDU, requests generator cbFun agent requestIDs varBinds turn = some reqPDU →
    Answers mib generator reqPDU (agent turn reqPDU)

/-- The walk is finite where the agent answers with lexicographic successors, and does not go on
after an OID that does not advance. -/
structure Ends : Prop where
  finite : ∀ mib, AnswersWalk generator cbFun agent requestIDs varBinds mib →
    ∃ turn, requests generator cbFun agent requestIDs varBinds turn = none
  stops : ∀ turn reqPDU rspPDU,
    requests generator cbFun agent requestIDs varBinds turn = some reqPDU →
    agent turn reqPDU = .response rspPDU → GoesBack generator reqPDU rspPDU →
    requests generator cbFun agent requestIDs varBinds (turn + 1) = none

/-- There are no non-repeaters and nothing goes back, up to answers that end the walk anyway. -/
structure Tame : Prop where
  finite : ∀ mib, AnswersWalk generator cbFun agent requestIDs varBinds mib →
    generator.nonRepeaters = 0 ∨ varBinds = [] ∨ ∃ turn reqPDU,
      requests generator cbFun agent requestIDs varBinds turn = some reqPDU ∧
        BreaksOff generator reqPDU (agent turn reqPDU)
  stops : ∀ turn reqPDU rspPDU,
    requests generator cbFun agent requestIDs varBinds turn = some reqPDU →
    agent turn reqPDU = .response rspPDU → GoesBack generator reqPDU rspPDU →
    Finishes generator reqPDU (.response rspPDU)

end Walk

/-! ### The next bindings -/

/-- Two steps succeed when the first does, and the second does on its result. -/
theorem exists_bind_eq_ok_iff {α β : Type} {result : Except Raised α} {next : α → Except Raised β} :
    (∃ last, (result >>= next) = .ok last) ↔
      ∃ value, result = .ok value ∧ ∃ last, next value = .ok last := by
  cases result with
  | error error => simp [bind, Except.bind]
  | ok value => simp [bind, Except.bind]

/-- A name is compared with one that was asked for, unless its value is an exception. -/
theorem exists_compareNames_eq_ok_iff (varBind : VarBind) (orig : Option VarBind)
    (errorIndication : Option ErrorIndication) :
    (∃ last, compareNames varBind orig errorIndication = .ok last) ↔
      varBind.2.isException = true ∨ orig.isSome := by
  unfold compareNames
  by_cases hexception : varBind.2.isException = true
  · simp [hexception]
  · cases orig with
    | none => simp [hexception]
    | some orig => simp [hexception]

/-- Names are compared from the last one to the first. -/
theorem notIncreasing_cons (varBind : VarBind) (varBinds origVarBinds : List VarBind) :
    notIncreasing (varBind :: varBinds) origVarBinds =
      notIncreasing varBinds origVarBinds.tail >>= compareNames varBind origVarBinds.head? :=
  rfl

/-- The loop fails exactly on a value beyond the bindings that were asked for. -/
theorem exists_notIncreasing_eq_ok_iff (varBinds origVarBinds : List VarBind) :
    (∃ last, notIncreasing varBinds origVarBinds = .ok last) ↔
      ∀ varBind ∈ varBinds.drop origVarBinds.length, varBind.2.isException = true := by
  induction varBinds generalizing origVarBinds with
  | nil => simp [notIncreasing]
  | cons varBind varBinds ih =>
    rw [notIncreasing_cons, exists_bind_eq_ok_iff]
    simp only [exists_compareNames_eq_ok_iff, exists_and_right, ih]
    cases origVarBinds with
    | nil => simp [and_comm]
    | cons orig origVarBinds => simp

/-! ### The next request -/

/-- The bindings that follow a row, in a walk. -/
def nextVarBinds (generator : Generator) (reqPDU : Pdu) (row : List VarBind) : List VarBind :=
  generator.kind.again reqPDU (rspVarBinds row)

section Step

variable {generator : Generator} {cbFun : CbFun} {reqPDU rspPDU next : Pdu} {requestID : ℤ}

/-- The callback of an application that always goes on is consulted on every table. -/
theorem nextRequest_eq_some_iff_readResponse (hgoes : ∀ told, cbFun told = true) :
    generator.nextRequest cbFun reqPDU requestID (.response rspPDU) = some next ↔
      ∃ errorIndication varBinds,
        generator.kind.readResponse reqPDU rspPDU = .ok (errorIndication, varBinds) ∧
          varBinds ≠ [] ∧ { reqPDU with
            requestID := requestID
            varBinds := varBinds } = next := by
  unfold Generator.nextRequest WalkKind.processResponseVarBinds
  cases hread : generator.kind.readResponse reqPDU rspPDU with
  | error error => simp [hread, bind, Except.bind]
  | ok read =>
    obtain ⟨errorIndication, varBinds⟩ := read
    by_cases hnil : varBinds = []
    · simp [hread, bind, Except.bind, hgoes, hnil]
    · simp [hread, bind, Except.bind, hgoes, hnil]

/-- A response is read by its last row. -/
theorem readResponse_of_getLast? {row : List VarBind} (hstatus : rspPDU.errorStatus = 0)
    (hrow : (generator.kind.getVarBindTable reqPDU rspPDU).getLast? = some row) :
    generator.kind.readResponse reqPDU rspPDU = (do
      let errorIndication ← notIncreasing row reqPDU.varBinds
      .ok (errorIndication, nextVarBinds generator reqPDU row)) := by
  unfold WalkKind.readResponse getNextVarBinds
  simp only [hstatus, ne_eq, not_true, if_false, hrow]
  cases notIncreasing row reqPDU.varBinds with
  | error error => rfl
  | ok errorIndication => rfl

/-- A request follows an answer without error if the walk gets through its last row and bindings are
left to ask for. -/
theorem nextRequest_eq_some_iff (hgoes : ∀ told, cbFun told = true) :
    generator.nextRequest cbFun reqPDU requestID (.response rspPDU) = some next ↔
      rspPDU.errorStatus = 0 ∧
        ∃ row, (generator.kind.getVarBindTable reqPDU rspPDU).getLast? = some row ∧
          (∀ varBind ∈ row.drop reqPDU.varBinds.length, varBind.2.isException = true) ∧
          nextVarBinds generator reqPDU row ≠ [] ∧ { reqPDU with
            requestID := requestID
            varBinds := nextVarBinds generator reqPDU row } = next := by
  rw [nextRequest_eq_some_iff_readResponse hgoes]
  by_cases hstatus : rspPDU.errorStatus = 0
  · cases hrow : (generator.kind.getVarBindTable reqPDU rspPDU).getLast? with
    | none =>
      unfold WalkKind.readResponse
      simp [hstatus, hrow]
    | some row =>
      rw [readResponse_of_getLast? hstatus hrow]
      simp only [hstatus, true_and, Option.some.injEq, exists_eq_left',
        ← exists_notIncreasing_eq_ok_iff]
      cases notIncreasing row reqPDU.varBinds with
      | error error => simp [bind, Except.bind]
      | ok errorIndication => simp [bind, Except.bind]
  · unfold WalkKind.readResponse
    simp [hstatus]

end Step

/-! ### The bindings left to ask for -/

section Bindings

variable {generator : Generator} {reqPDU : Pdu} {row : List VarBind}

/-- A row has nothing left when all its values are exceptions. -/
theorem rspVarBinds_eq_nil_iff :
    rspVarBinds row = [] ↔ ∀ varBind ∈ row, varBind.2.isException = true := by
  unfold rspVarBinds
  split_ifs with hall
  · simp only [true_iff]
    exact hall
  · rw [List.map_eq_nil_iff]
    constructor
    · rintro rfl
      exact absurd (fun _ hmem ↦ by cases hmem) hall
    · exact fun hother ↦ absurd hother hall

/-- A row that goes on goes on with all its names. -/
theorem names_rspVarBinds (hleft : rspVarBinds row ≠ []) : names (rspVarBinds row) = names row := by
  have hnot := mt rspVarBinds_eq_nil_iff.mpr hleft
  unfold rspVarBinds names
  rw [if_neg hnot, List.map_map]
  rfl

/-- A request of the walk asks for the non-repeaters of the generator. -/
def Asks (generator : Generator) (reqPDU : Pdu) : Prop :=
  getNonRepeaters reqPDU = generator.nonRepeaters

/-- Without non-repeaters the next request asks for the last row. -/
theorem nextVarBinds_of_nonRepeaters_eq_zero (hasks : Asks generator reqPDU)
    (hzero : generator.nonRepeaters = 0) :
    nextVarBinds generator reqPDU row = rspVarBinds row := by
  cases generator with
  | next => rfl
  | bulk nonRepeaters maxRepetitions =>
    have hnone : getNonRepeaters reqPDU = 0 := hasks.trans hzero
    exact if_neg (not_not.mpr hnone)

/-- Non-repeaters are never left out. -/
theorem nextVarBinds_ne_nil (hasks : Asks generator reqPDU) (hrepeats : generator.nonRepeaters ≠ 0)
    (hasked : reqPDU.varBinds ≠ []) : nextVarBinds generator reqPDU row ≠ [] := by
  cases generator with
  | next => exact absurd rfl hrepeats
  | bulk nonRepeaters maxRepetitions =>
    have hsome : getNonRepeaters reqPDU ≠ 0 := fun hzero ↦ hrepeats (hasks.symm.trans hzero)
    unfold nextVarBinds Generator.kind bulkCommandGenerator
    simp only
    rw [if_pos hsome]
    simp [hsome, hasked]

end Bindings

/-! ### Tables -/

section Tables

variable {reqPDU rspPDU : Pdu} {row : List VarBind}

/-- What is counted off in steps is a multiple of the step. -/
theorem mem_multiplesBelow {stop step number : ℕ} (hmem : number ∈ multiplesBelow stop step) :
    ∃ turn, number = turn * step := by
  obtain ⟨turn, -, rfl⟩ := List.mem_map.mp hmem
  exact ⟨turn, rfl⟩

/-- Counting off begins with zero. -/
theorem zero_mem_multiplesBelow {stop step : ℕ} (hstop : 0 < stop) (hstep : 0 < step) :
    0 ∈ multiplesBelow stop step := by
  refine List.mem_map.mpr ⟨0, List.mem_range.mpr ?_, Nat.zero_mul step⟩
  exact Nat.div_pos (by omega) hstep

/-- The rows of GETBULK are as long as the request, unless there are no repeaters. -/
theorem length_le_of_mem_table (hmem : row ∈ getBulkVarBindTable reqPDU rspPDU) :
    row.length ≤ reqPDU.varBinds.length := by
  unfold getBulkVarBindTable at hmem
  simp only at hmem
  split_ifs at hmem with hrepeaters hnonRepeaters
  · have hlength := of_decide_eq_true (List.mem_filter.mp hmem).2
    omega
  · rw [List.mem_singleton.mp hmem, length_slice]
    omega
  · cases hmem

/-- A response has rows only where names were asked for. -/
theorem varBinds_ne_nil_of_mem_table (hmem : row ∈ getBulkVarBindTable reqPDU rspPDU) :
    reqPDU.varBinds ≠ [] := by
  intro hnil
  unfold getBulkVarBindTable at hmem
  simp [hnil] at hmem

/-- A table is empty if repeaters are asked for and there is no whole repetition. -/
theorem getBulkVarBindTable_eq_nil_iff (hasked : reqPDU.varBinds ≠ []) :
    getBulkVarBindTable reqPDU rspPDU = [] ↔
      getNonRepeaters reqPDU < reqPDU.varBinds.length ∧
        rspPDU.varBinds.length < reqPDU.varBinds.length := by
  have hpos := List.length_pos_iff.mpr hasked
  unfold getBulkVarBindTable
  simp only
  split_ifs with hrepeaters hnone
  · rw [List.filter_eq_nil_iff]
    constructor
    · intro hall
      refine ⟨by omega, ?_⟩
      by_contra hlong
      refine hall _ (List.mem_map.mpr ⟨0, zero_mem_multiplesBelow (by omega) (by omega), rfl⟩) ?_
      simp only [List.length_append, length_slice, decide_eq_true_eq]
      omega
    · rintro ⟨-, hshort⟩ row hrow
      obtain ⟨start, -, rfl⟩ := List.mem_map.mp hrow
      simp only [List.length_append, length_slice, decide_eq_true_eq]
      omega
  · constructor
    · intro hnil
      cases hnil
    · rintro ⟨hfew, -⟩
      omega
  · omega

/-- A piece of a beginning of a list is a piece of the list. -/
theorem take_drop_of_prefix {α : Type} {beginning whole : List α} {start size : ℕ}
    (hstarts : beginning <+: whole) (hfull : ((beginning.drop start).take size).length = size) :
    (whole.drop start).take size = (beginning.drop start).take size := by
  obtain ⟨rest, rfl⟩ := hstarts
  rw [List.length_take] at hfull
  rw [List.drop_append, List.take_append_of_le_length (by omega)]

/-- The pieces of one length of rows of that length are the rows. -/
theorem take_drop_flatten_mem {α : Type} {rows : List (List α)} {size : ℕ}
    (hrows : ∀ row ∈ rows, row.length = size) (hsize : 0 < size) {turn : ℕ}
    (hfull : ((rows.flatten.drop (turn * size)).take size).length = size) :
    (rows.flatten.drop (turn * size)).take size ∈ rows := by
  induction rows generalizing turn with
  | nil =>
    simp only [List.flatten_nil, List.drop_nil, List.take_nil, List.length_nil] at hfull
    omega
  | cons row rows ih =>
    have hlength := hrows row List.mem_cons_self
    cases turn with
    | zero =>
      rw [Nat.zero_mul, List.drop_zero, List.flatten_cons, List.take_left' hlength]
      exact List.mem_cons_self
    | succ turn =>
      have hdrop : (row :: rows).flatten.drop ((turn + 1) * size) =
          rows.flatten.drop (turn * size) := by
        rw [List.flatten_cons, Nat.succ_mul, Nat.add_comm, ← List.drop_drop,
          List.drop_left' hlength]
      rw [hdrop] at hfull ⊢
      exact List.mem_cons_of_mem _
        (ih (fun other hmem ↦ hrows other (List.mem_cons_of_mem _ hmem)) hfull)

/-- Without non-repeaters, the rows of a table are rows of the answer. -/
theorem mem_of_mem_table {rows : List (List VarBind)} (hnone : getNonRepeaters reqPDU = 0)
    (hrows : ∀ other ∈ rows, other.length = reqPDU.varBinds.length)
    (hstarts : rspPDU.varBinds <+: rows.flatten)
    (hmem : row ∈ getBulkVarBindTable reqPDU rspPDU) : row ∈ rows := by
  have hpos := List.length_pos_iff.mpr (varBinds_ne_nil_of_mem_table hmem)
  unfold getBulkVarBindTable at hmem
  simp only [hnone, Nat.zero_min, Nat.sub_zero, slice_zero, List.nil_append, Nat.zero_add,
    slice_add, ne_eq, hpos.ne', not_false_eq_true, if_true] at hmem
  obtain ⟨hcut, hlength⟩ := List.mem_filter.mp hmem
  obtain ⟨start, hstart, rfl⟩ := List.mem_map.mp hcut
  obtain ⟨turn, rfl⟩ := mem_multiplesBelow hstart
  have hfull := of_decide_eq_true hlength
  have hwhole := take_drop_of_prefix hstarts hfull
  rw [← hwhole] at hfull ⊢
  exact take_drop_flatten_mem hrows hpos hfull

end Tables

/-! ### Answers with successors -/

section Successors

variable {mib : Finset Oid} {asked : List Oid} {row : List VarBind}

/-- A binding with a value advances. -/
abbrev Advances (varBind : VarBind) : Prop :=
  ¬ varBind.2.isException

/-- The next entry of a MIB follows the name asked for. -/
theorem follows_of_isNext {name : Oid} {varBind : VarBind} (hnext : IsNext mib name varBind) :
    Follows mib Prod.fst Advances name varBind := by
  cases hnext with
  | name next value hvalue hmem hafter hleast =>
    have hlt := rank_lt_rank hmem hafter
    exact ⟨hlt.le, fun _ ↦ hlt⟩
  | endOfMibView hlast => exact ⟨le_rfl, fun hadvances ↦ absurd rfl hadvances⟩

/-- A row of next entries follows the names asked for. -/
theorem follows_of_row (hrow : List.Forall₂ (IsNext mib) asked row) :
    List.Forall₂ (Follows mib Prod.fst Advances) asked row :=
  hrow.imp fun _ _ ↦ follows_of_isNext

/-- Every repetition follows the names that were asked for, one for each. -/
theorem follows_of_repetitions {rows : List (List VarBind)} (hrows : Repetitions mib asked rows)
    (hmem : row ∈ rows) : List.Forall₂ (Follows mib Prod.fst Advances) asked row := by
  induction hrows with
  | nil asked => cases hmem
  | cons hfirst hrest ih =>
    rcases List.mem_cons.mp hmem with rfl | hmem
    · exact follows_of_row hfirst
    · exact forall₂_follows_trans (follows_of_row hfirst) (ih hmem)

/-- Without non-repeaters, the last row of an answer follows what was asked for. -/
theorem follows_of_answers {generator : Generator} {reqPDU rspPDU : Pdu}
    (hanswers : Answers mib generator reqPDU (.response rspPDU))
    (hstatus : rspPDU.errorStatus = 0) (hasks : Asks generator reqPDU)
    (hzero : generator.nonRepeaters = 0)
    (hrow : (generator.kind.getVarBindTable reqPDU rspPDU).getLast? = some row) :
    List.Forall₂ (Follows mib Prod.fst Advances) (names reqPDU.varBinds) row := by
  have hmem := List.mem_of_getLast? hrow
  cases hanswers with
  | error _ _ _ hother => exact absurd hstatus hother
  | next _ _ _ hfollows =>
    rw [List.mem_singleton.mp hmem]
    exact follows_of_row hfollows
  | bulk nonRepeaters maxRepetitions _ _ first rows _ hfirst hrows hlength hstarts =>
    obtain rfl : nonRepeaters = 0 := hzero
    cases hfirst
    rw [List.drop_zero] at hrows
    have hlengths (other : List VarBind) (hother : other ∈ rows) :
        other.length = reqPDU.varBinds.length := by
      rw [← (follows_of_repetitions hrows hother).length_eq]
      exact List.length_map _
    exact follows_of_repetitions hrows (mem_of_mem_table hasks hlengths hstarts hmem)

/-- The number of names that are left after those of a request, taken together. -/
def namesLeft (mib : Finset Oid) (reqPDU : Pdu) : ℕ :=
  ((names reqPDU.varBinds).map (rank mib)).sum

/-- Without non-repeaters, a request has fewer names left than the one before. -/
theorem namesLeft_lt {generator : Generator} {cbFun : CbFun} {reqPDU rspPDU next : Pdu}
    {requestID : ℤ} (hgoes : ∀ told, cbFun told = true) (hasks : Asks generator reqPDU)
    (hzero : generator.nonRepeaters = 0)
    (hanswers : Answers mib generator reqPDU (.response rspPDU))
    (hnext : generator.nextRequest cbFun reqPDU requestID (.response rspPDU) = some next) :
    namesLeft mib next < namesLeft mib reqPDU := by
  obtain ⟨hstatus, row, hrow, -, hleft, rfl⟩ := (nextRequest_eq_some_iff hgoes).mp hnext
  rw [nextVarBinds_of_nonRepeaters_eq_zero hasks hzero] at hleft
  have hfollows := follows_of_answers hanswers hstatus hasks hzero hrow
  have hadvances : ∃ varBind ∈ row, Advances varBind := by
    by_contra hnone
    push Not at hnone
    exact hleft (rspVarBinds_eq_nil_iff.mpr hnone)
  have hfalls := sum_rank_lt hfollows hadvances
  unfold namesLeft
  simp only [nextVarBinds_of_nonRepeaters_eq_zero hasks hzero, names_rspVarBinds hleft]
  unfold names at hfalls ⊢
  rw [List.map_map]
  exact hfalls

end Successors

/-! ### One step -/

section OneStep

variable {generator : Generator} {cbFun : CbFun} {reqPDU next : Pdu} {requestID : ℤ}
  {result : CallbackResult}

/-- The next request asks for the same non-repeaters. -/
theorem asks_nextRequest (hgoes : ∀ told, cbFun told = true) (hasks : Asks generator reqPDU)
    (hnext : generator.nextRequest cbFun reqPDU requestID result = some next) :
    Asks generator next := by
  cases result with
  | failure errorIndication => cases hnext
  | badResponse => cases hnext
  | response rspPDU =>
    obtain ⟨-, row, -, -, -, rfl⟩ := (nextRequest_eq_some_iff hgoes).mp hnext
    exact hasks

/-- With non-repeaters there is always something to ask for. -/
theorem nextVarBinds_eq_nil_iff {rspPDU : Pdu} {row : List VarBind}
    (hasks : Asks generator reqPDU)
    (hrow : (generator.kind.getVarBindTable reqPDU rspPDU).getLast? = some row) :
    nextVarBinds generator reqPDU row = [] ↔
      generator.nonRepeaters = 0 ∧ ∀ varBind ∈ row, varBind.2.isException = true := by
  by_cases hzero : generator.nonRepeaters = 0
  · rw [nextVarBinds_of_nonRepeaters_eq_zero hasks hzero, rspVarBinds_eq_nil_iff]
    simp only [hzero, true_and]
  · have hasked : reqPDU.varBinds ≠ [] := by
      cases generator with
      | next => exact absurd rfl hzero
      | bulk => exact varBinds_ne_nil_of_mem_table (List.mem_of_getLast? hrow)
    simp only [nextVarBinds_ne_nil hasks hzero hasked, hzero, false_and]

/-- A walk whose callback continues ends where its response finishes it. -/
theorem nextRequest_eq_none_iff (hgoes : ∀ told, cbFun told = true)
    (hasks : Asks generator reqPDU) :
    generator.nextRequest cbFun reqPDU requestID result = none ↔
      Finishes generator reqPDU result := by
  cases result with
  | failure errorIndication => exact iff_of_true rfl trivial
  | badResponse => exact iff_of_true rfl trivial
  | response rspPDU =>
    unfold Finishes
    simp only [Option.eq_none_iff_forall_ne_some, ne_eq, nextRequest_eq_some_iff hgoes]
    cases hrow : (generator.kind.getVarBindTable reqPDU rspPDU).getLast? with
    | none => simp
    | some row =>
      have hnil := nextVarBinds_eq_nil_iff hasks hrow
      by_cases hstatus : rspPDU.errorStatus = 0
      · simp only [hstatus, Option.some.injEq, exists_eq_left', true_and, Option.mem_def,
          forall_eq', not_true, false_or, ← hnil]
        constructor
        · intro hnever
          by_contra hother
          push Not at hother
          exact hnever _ ⟨hother.1, hother.2, rfl⟩
        · rintro (⟨varBind, hmem, hvalue⟩ | hnone) next ⟨hall, hleft, -⟩
          · exact hvalue (hall varBind hmem)
          · exact hleft hnone
      · simp [hstatus]

/-- Non-repeaters are asked for until the agent breaks off. -/
theorem finishes_iff_breaksOff (hasks : Asks generator reqPDU)
    (hrepeats : generator.nonRepeaters ≠ 0) (hasked : reqPDU.varBinds ≠ []) :
    Finishes generator reqPDU result ↔ BreaksOff generator reqPDU result := by
  cases generator with
  | next => exact absurd rfl hrepeats
  | bulk nonRepeaters maxRepetitions =>
    cases result with
    | failure errorIndication => exact Iff.rfl
    | badResponse => exact Iff.rfl
    | response rspPDU =>
      have hnil := @getBulkVarBindTable_eq_nil_iff reqPDU rspPDU hasked
      unfold Asks at hasks
      rw [hasks] at hnil
      refine or_congr_right (Iff.trans ?_ hnil)
      show (∀ row ∈ (getBulkVarBindTable reqPDU rspPDU).getLast?, _) ↔ _
      constructor
      · intro hlast
        rw [← List.getLast?_eq_none_iff, Option.eq_none_iff_forall_ne_some]
        intro row hrow
        rcases hlast row hrow with ⟨varBind, hmem, -⟩ | ⟨hzero, -⟩
        · have hlength := length_le_of_mem_table (List.mem_of_getLast? hrow)
          rw [List.drop_eq_nil_of_le hlength] at hmem
          cases hmem
        · exact hrepeats hzero
      · intro hempty row hrow
        rw [hempty] at hrow
        cases hrow

end OneStep

/-! ### Walks -/

section Walks

variable {generator : Generator} {cbFun : CbFun} {agent : ℕ → Pdu → CallbackResult}
  {requestIDs : ℕ → ℤ} {varBinds : List VarBind} {turn : ℕ} {reqPDU : Pdu}

/-- The next request is made from the answer to the last one. -/
theorem requests_succ
    (hrequest : requests generator cbFun agent requestIDs varBinds turn = some reqPDU) :
    requests generator cbFun agent requestIDs varBinds (turn + 1) =
      generator.nextRequest cbFun reqPDU (requestIDs (turn + 1)) (agent turn reqPDU) := by
  unfold requests
  rw [hrequest]
  rfl

/-- Every request of a walk asks in the way of its generator. -/
theorem asks_requests (hgoes : ∀ told, cbFun told = true)
    (hrequest : requests generator cbFun agent requestIDs varBinds turn = some reqPDU) :
    Asks generator reqPDU := by
  induction turn generalizing reqPDU with
  | zero =>
    obtain rfl := Option.some.inj hrequest
    cases generator with
    | next => rfl
    | bulk nonRepeaters maxRepetitions => exact Int.toNat_natCast nonRepeaters
  | succ turn ih =>
    obtain ⟨before, hbefore, hnext⟩ := Option.bind_eq_some_iff.mp hrequest
    exact asks_nextRequest hgoes (ih hbefore) hnext

/-- With non-repeaters, every request asks for something. -/
theorem varBinds_ne_nil_requests (hgoes : ∀ told, cbFun told = true)
    (hasked : varBinds ≠ [])
    (hrequest : requests generator cbFun agent requestIDs varBinds turn = some reqPDU) :
    reqPDU.varBinds ≠ [] := by
  cases turn with
  | zero =>
    obtain rfl := Option.some.inj hrequest
    cases generator with
    | next => exact hasked
    | bulk nonRepeaters maxRepetitions => exact hasked
  | succ turn =>
    obtain ⟨before, hbefore, hnext⟩ := Option.bind_eq_some_iff.mp hrequest
    cases hresult : agent turn before with
    | failure errorIndication =>
      rw [hresult] at hnext
      cases hnext
    | badResponse =>
      rw [hresult] at hnext
      cases hnext
    | response rspPDU =>
      rw [hresult] at hnext
      obtain ⟨-, row, -, -, hleft, rfl⟩ := (nextRequest_eq_some_iff hgoes).mp hnext
      exact hleft

/-- A walk that ends has a last request. -/
theorem exists_last_request
    (hends : requests generator cbFun agent requestIDs varBinds turn = none) :
    ∃ last reqPDU, requests generator cbFun agent requestIDs varBinds last = some reqPDU ∧
      requests generator cbFun agent requestIDs varBinds (last + 1) = none := by
  induction turn with
  | zero => cases hends
  | succ turn ih =>
    cases hbefore : requests generator cbFun agent requestIDs varBinds turn with
    | none => exact ih hbefore
    | some reqPDU => exact ⟨turn, reqPDU, hbefore, hends⟩

/-- Without non-repeaters, a walk over a finite MIB ends. -/
theorem exists_requests_eq_none (hgoes : ∀ told, cbFun told = true)
    (hzero : generator.nonRepeaters = 0) {mib : Finset Oid}
    (hanswers : AnswersWalk generator cbFun agent requestIDs varBinds mib) :
    ∃ turn, requests generator cbFun agent requestIDs varBinds turn = none := by
  refine exists_eq_none_of_decreasing _ (namesLeft mib) fun turn reqPDU next hrequest hnext ↦ ?_
  have hasks := asks_requests hgoes hrequest
  have hanswer := hanswers turn reqPDU hrequest
  rw [requests_succ hrequest] at hnext
  cases hresult : agent turn reqPDU with
  | failure errorIndication =>
    rw [hresult] at hnext
    cases hnext
  | badResponse =>
    rw [hresult] at hnext
    cases hnext
  | response rspPDU =>
    rw [hresult] at hnext hanswer
    exact namesLeft_lt hgoes hasks hzero hanswer hnext

/-- Without objects there is nothing to walk. -/
theorem requests_one_of_nil (hgoes : ∀ told, cbFun told = true)
    (hrepeats : generator.nonRepeaters ≠ 0) :
    requests generator cbFun agent requestIDs [] 1 = none := by
  have hrequest : requests generator cbFun agent requestIDs [] 0 =
      some (generator.sendVarBinds (requestIDs 0) []) := rfl
  rw [requests_succ hrequest, nextRequest_eq_none_iff hgoes (asks_requests hgoes hrequest)]
  cases generator with
  | next => exact absurd rfl hrepeats
  | bulk nonRepeaters maxRepetitions =>
    cases agent 0 (Generator.sendVarBinds (requestIDs 0) [] (.bulk nonRepeaters maxRepetitions))
      with
    | failure errorIndication => trivial
    | badResponse => trivial
    | response rspPDU =>
      right
      intro row hrow
      exact absurd rfl (varBinds_ne_nil_of_mem_table (List.mem_of_getLast? hrow))

/-- With non-repeaters, a walk ends where the agent breaks off. -/
theorem exists_requests_eq_none_iff (hgoes : ∀ told, cbFun told = true)
    (hrepeats : generator.nonRepeaters ≠ 0) (hasked : varBinds ≠ []) :
    (∃ turn, requests generator cbFun agent requestIDs varBinds turn = none) ↔
      ∃ turn reqPDU, requests generator cbFun agent requestIDs varBinds turn = some reqPDU ∧
        BreaksOff generator reqPDU (agent turn reqPDU) := by
  have hstep (turn : ℕ) (reqPDU : Pdu)
      (hrequest : requests generator cbFun agent requestIDs varBinds turn = some reqPDU) :
      requests generator cbFun agent requestIDs varBinds (turn + 1) = none ↔
        BreaksOff generator reqPDU (agent turn reqPDU) := by
    have hasks := asks_requests hgoes hrequest
    rw [requests_succ hrequest, nextRequest_eq_none_iff hgoes hasks,
      finishes_iff_breaksOff hasks hrepeats (varBinds_ne_nil_requests hgoes hasked hrequest)]
  constructor
  · rintro ⟨turn, hends⟩
    obtain ⟨last, reqPDU, hrequest, hnext⟩ := exists_last_request hends
    exact ⟨last, reqPDU, hrequest, (hstep last reqPDU hrequest).mp hnext⟩
  · rintro ⟨turn, reqPDU, hrequest, hbreaks⟩
    exact ⟨turn + 1, (hstep turn reqPDU hrequest).mpr hbreaks⟩

/-- A walk ends as it should exactly if it is tame. -/
theorem ends_iff (generator : Generator) (cbFun : CbFun) (agent : ℕ → Pdu → CallbackResult)
    (requestIDs : ℕ → ℤ) (varBinds : List VarBind) (hgoes : ∀ told, cbFun told = true) :
    Ends generator cbFun agent requestIDs varBinds ↔
      Tame generator cbFun agent requestIDs varBinds := by
  have hfinite (mib : Finset Oid)
      (hanswers : AnswersWalk generator cbFun agent requestIDs varBinds mib) :
      (∃ turn, requests generator cbFun agent requestIDs varBinds turn = none) ↔
        generator.nonRepeaters = 0 ∨ varBinds = [] ∨ ∃ turn reqPDU,
          requests generator cbFun agent requestIDs varBinds turn = some reqPDU ∧
            BreaksOff generator reqPDU (agent turn reqPDU) := by
    by_cases hzero : generator.nonRepeaters = 0
    · exact iff_of_true (exists_requests_eq_none hgoes hzero hanswers) (Or.inl hzero)
    · by_cases hnil : varBinds = []
      · subst hnil
        exact iff_of_true ⟨1, requests_one_of_nil hgoes hzero⟩ (Or.inr (Or.inl rfl))
      · simp only [exists_requests_eq_none_iff hgoes hzero hnil, hzero, hnil, false_or]
  have hstops (turn : ℕ) (reqPDU rspPDU : Pdu)
      (hrequest : requests generator cbFun agent requestIDs varBinds turn = some reqPDU)
      (hresponse : agent turn reqPDU = .response rspPDU) :
      requests generator cbFun agent requestIDs varBinds (turn + 1) = none ↔
        Finishes generator reqPDU (.response rspPDU) := by
    rw [requests_succ hrequest, hresponse,
      nextRequest_eq_none_iff hgoes (asks_requests hgoes hrequest)]
  constructor
  · intro hends
    refine ⟨fun mib hanswers ↦ (hfinite mib hanswers).mp (hends.finite mib hanswers), ?_⟩
    intro turn reqPDU rspPDU hrequest hresponse hback
    exact (hstops turn reqPDU rspPDU hrequest hresponse).mp
      (hends.stops turn reqPDU rspPDU hrequest hresponse hback)
  · intro htame
    refine ⟨fun mib hanswers ↦ (hfinite mib hanswers).mpr (htame.finite mib hanswers), ?_⟩
    intro turn reqPDU rspPDU hrequest hresponse hback
    exact (hstops turn reqPDU rspPDU hrequest hresponse).mpr
      (htame.stops turn reqPDU rspPDU hrequest hresponse hback)

end Walks

/-! ### Sample walks -/

/-- A response that gives every binding of a request the same value. -/
def sampleResponse (value : BindingValue) (reqPDU : Pdu) : CallbackResult :=
  .response
    { pduType := .response
      requestID := reqPDU.requestID
      varBinds := reqPDU.varBinds.map fun varBind ↦ (varBind.1, value) }

/-- A walk of an agent that answers GETNEXT with the name itself. -/
theorem ends_iff_sampleWalk :
    Ends .next (fun _ ↦ true) (fun _ ↦ sampleResponse (.integer 1)) (fun turn ↦ turn)
        [([1, 3], .null)] ↔
      Tame .next (fun _ ↦ true) (fun _ ↦ sampleResponse (.integer 1)) (fun turn ↦ turn)
        [([1, 3], .null)] :=
  ends_iff .next _ _ _ _ fun _ ↦ rfl

/-- At the end of a MIB every answer is the end. -/
theorem answers_endOfMibView (reqPDU : Pdu) :
    Answers ∅ (.bulk 1 1) reqPDU (sampleResponse .endOfMibView reqPDU) := by
  have hrow (varBinds : List VarBind) : List.Forall₂ (IsNext ∅) (names varBinds)
      (varBinds.map fun varBind ↦ (varBind.1, .endOfMibView)) := by
    unfold names
    rw [List.forall₂_map_left_iff, List.forall₂_map_right_iff, List.forall₂_same]
    exact fun varBind _ ↦ .endOfMibView fun _ hmem ↦ absurd hmem (Finset.notMem_empty _)
  refine .bulk 1 1 reqPDU _ _ [_] rfl (hrow _) (.cons (hrow _) (.nil _)) le_rfl ?_
  rw [List.flatten_singleton, ← List.map_append, List.take_append_drop]

/-- An agent that answers GETNEXT with the name itself is asked again, and so is one that has
nothing left for the non-repeater of a GETBULK, without end. -/
theorem not_ends_sampleWalks :
    ¬ Ends .next (fun _ ↦ true) (fun _ ↦ sampleResponse (.integer 1)) (fun turn ↦ turn)
        [([1, 3], .null)] ∧
      ¬ Ends (.bulk 1 1) (fun _ ↦ true) (fun _ ↦ sampleResponse .endOfMibView) (fun turn ↦ turn)
        [([1, 3], .null)] := by
  constructor
  · intro hends
    have hback : GoesBack .next (Generator.next.sendVarBinds 0 [([1, 3], .null)])
        { pduType := .response
          requestID := 0
          varBinds := [([1, 3], .integer 1)] } :=
      ⟨0, ([1, 3], .integer 1), ([1, 3], .null), rfl, nofun, rfl, le_rfl⟩
    have hstops := hends.stops 0 _ _ rfl rfl hback
    cases hstops
  · intro hends
    have hends := hends.finite ∅ fun _ reqPDU _ ↦ answers_endOfMibView reqPDU
    rw [exists_requests_eq_none_iff (fun _ ↦ rfl) (by decide) (by simp)] at hends
    obtain ⟨turn, reqPDU, -, hstatus | ⟨-, hshort⟩⟩ := hends
    · exact hstatus rfl
    · rw [List.length_map] at hshort
      exact lt_irrefl _ hshort

end Pysnmp.Entity.Rfc3413.WalkEnd
