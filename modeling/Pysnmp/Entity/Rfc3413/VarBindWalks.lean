import Pysnmp.Entity.Rfc3413.Requesters

/-!
# Walks of a manager

`getNextVarBinds`, `NextCommandGenerator` and `BulkCommandGenerator` of `entity/rfc3413/cmdgen.py`,
with `getVarBindTable` of `proto/api/v2c.py`: an answer is handed to the application as a table, and
its last row is asked for next. The two generators differ in how they cut an answer into rows and
in the bindings of the next request, where GETBULK puts the non-repeaters again.

What came of a request is what `CommandGenerator.processResponsePdu` calls back with; a request that
could not be sent is told to the application in the same way as one that failed.
-/

set_option autoImplicit false
set_option relaxedAutoImplicit false

namespace Pysnmp.Entity.Rfc3413.VarBindWalks

open Proto Proto.Proxy.Rfc2576 Requesters

/-! ### The next bindings -/

/-- One turn of the loop in `getNextVarBinds`, for a binding and the one that was asked for: a value
is compared by its name, and there is nothing to compare one with beyond those. -/
def compareNames (varBind : VarBind) (orig : Option VarBind)
    (errorIndication : Option ErrorIndication) : Except Raised (Option ErrorIndication) :=
  if varBind.2.isException then
    .ok errorIndication
  else
    match orig with
    | none => .error .otherError
    | some orig => .ok (if varBind.1 ≤ orig.1 then some .oidNotIncreasing else errorIndication)

/-- The loop in `getNextVarBinds`, from the last binding to the first. -/
def notIncreasing : List VarBind → List VarBind → Except Raised (Option ErrorIndication)
  | [], _ => .ok none
  | varBind :: varBinds, origVarBinds => do
    let errorIndication ← notIncreasing varBinds origVarBinds.tail
    compareNames varBind origVarBinds.head? errorIndication

/-- The bindings to ask for after a row: its names, or nothing where it has no value. -/
def rspVarBinds (varBinds : List VarBind) : List VarBind :=
  if ∀ varBind ∈ varBinds, varBind.2.isException then []
  else varBinds.map fun varBind ↦ (varBind.1, .null)

/-- `getNextVarBinds`, with the bindings that were asked for. -/
def getNextVarBinds (varBinds origVarBinds : List VarBind) :
    Except Raised (Option ErrorIndication × List VarBind) := do
  let errorIndication ← notIncreasing varBinds origVarBinds
  .ok (errorIndication, rspVarBinds varBinds)

/-! ### Tables -/

/-- `range(0, stop, step)`. -/
def multiplesBelow (stop step : ℕ) : List ℕ :=
  (List.range ((stop + step - 1) / step)).map (· * step)

/-- `varBinds[start:stop]`. -/
def slice (varBinds : List VarBind) (start stop : ℕ) : List VarBind :=
  (varBinds.take stop).drop start

theorem length_slice (varBinds : List VarBind) (start stop : ℕ) :
    (slice varBinds start stop).length = min stop varBinds.length - start := by
  rw [slice, List.length_drop, List.length_take]

theorem slice_zero (varBinds : List VarBind) (start : ℕ) : slice varBinds start 0 = [] := by
  rw [slice, List.take_zero, List.drop_nil]

theorem slice_add (varBinds : List VarBind) (start size : ℕ) :
    slice varBinds start (size + start) = (varBinds.drop start).take size := by
  rw [slice, List.drop_take, Nat.add_sub_cancel]

/-- `getNonRepeaters`, which is where other requests have an error status. -/
def getNonRepeaters (reqPDU : Pdu) : ℕ :=
  reqPDU.errorStatus.toNat

/-- `PDUAPI.getVarBindTable`: one row. -/
def getVarBindTable (_reqPDU rspPDU : Pdu) : List (List VarBind) :=
  [rspPDU.varBinds]

/-- `BulkPDUAPI.getVarBindTable`: the non-repeaters with each repetition. A row that is short is
left out. -/
def getBulkVarBindTable (reqPDU rspPDU : Pdu) : List (List VarBind) :=
  let N := min (getNonRepeaters reqPDU) reqPDU.varBinds.length
  let R := reqPDU.varBinds.length - N
  let rspVarBinds := rspPDU.varBinds
  if R ≠ 0 then
    ((multiplesBelow (rspVarBinds.length - N) R).map fun i ↦
      slice rspVarBinds 0 N ++ slice rspVarBinds (N + i) (N + R + i)).filter
        fun varBindRow ↦ varBindRow.length = N + R
  else if N ≠ 0 then
    [slice rspVarBinds 0 N]
  else
    []

/-! ### Generators -/

/-- The two walks, and what `sendVarBinds` is given for GETBULK besides the objects. -/
inductive Generator
  | next
  | bulk (nonRepeaters maxRepetitions : ℕ)
  deriving DecidableEq, Repr

/-- The non-repeaters of a walk. -/
def Generator.nonRepeaters : Generator → ℕ
  | next => 0
  | bulk nonRepeaters _ => nonRepeaters

/-- `sendVarBinds`: the first request. -/
def Generator.sendVarBinds (requestID : ℤ) (varBinds : List VarBind) : Generator → Pdu
  | next =>
    { pduType := .getNextRequest
      requestID := requestID
      varBinds := varBinds }
  | bulk nonRepeaters maxRepetitions =>
    { pduType := .getBulkRequest
      requestID := requestID
      errorStatus := nonRepeaters
      errorIndex := maxRepetitions
      varBinds := varBinds }

/-- What the application is told. -/
inductive Told
  | failure (errorIndication : ErrorIndication)
  | badResponse
  | table (errorIndication : Option ErrorIndication) (errorStatus errorIndex : ℤ)
      (varBindTable : List (List VarBind))
  deriving DecidableEq, Repr

/-- The callback of the application: whether to go on. -/
abbrev CbFun := Told → Bool

/-- What the two generators do differently: the table of an answer, and the bindings to ask for
after those that `getNextVarBinds` gives. -/
structure WalkKind where
  getVarBindTable : Pdu → Pdu → List (List VarBind)
  again : Pdu → List VarBind → List VarBind

/-- An answer as the application is told of it, and the bindings to ask for next. -/
def WalkKind.readResponse (kind : WalkKind) (reqPDU rspPDU : Pdu) :
    Except Raised (Option ErrorIndication × List VarBind) :=
  if rspPDU.errorStatus ≠ 0 then
    .ok (none, [])
  else
    match (kind.getVarBindTable reqPDU rspPDU).getLast? with
    | none => .ok (some .emptyResponse, [])
    | some varBindRow => do
      let (errorIndication, varBinds) ← getNextVarBinds varBindRow reqPDU.varBinds
      .ok (errorIndication, kind.again reqPDU varBinds)

/-- `processResponseVarBinds`: what the application is told, and the request that is sent next. -/
def WalkKind.processResponseVarBinds (kind : WalkKind) (cbFun : CbFun) (reqPDU : Pdu)
    (requestID : ℤ) : CallbackResult → Except Raised (Told × Option Pdu)
  | .failure errorIndication => .ok (.failure errorIndication, none)
  | .badResponse => .ok (.badResponse, none)
  | .response rspPDU => do
    let (errorIndication, varBinds) ← kind.readResponse reqPDU rspPDU
    let told := Told.table errorIndication rspPDU.errorStatus (mutedErrorIndex rspPDU)
      (kind.getVarBindTable reqPDU rspPDU)
    if cbFun told = false then
      .ok (told, none)
    else if varBinds = [] then
      .ok (told, none)
    else
      .ok (told, some { reqPDU with
        requestID := requestID
        varBinds := varBinds })

/-- `NextCommandGenerator`. -/
def nextCommandGenerator : WalkKind where
  getVarBindTable := getVarBindTable
  again _ varBinds := varBinds

/-- `BulkCommandGenerator`: the non-repeaters are asked for as before. -/
def bulkCommandGenerator : WalkKind where
  getVarBindTable := getBulkVarBindTable
  again reqPDU varBinds :=
    if getNonRepeaters reqPDU ≠ 0 then
      reqPDU.varBinds.take (getNonRepeaters reqPDU) ++ varBinds.drop (getNonRepeaters reqPDU)
    else
      varBinds

/-- The generator of a walk. -/
def Generator.kind : Generator → WalkKind
  | next => nextCommandGenerator
  | bulk _ _ => bulkCommandGenerator

/-! ### Walks -/

/-- The request that an answer leads to, if there is one. -/
def Generator.nextRequest (generator : Generator) (cbFun : CbFun) (reqPDU : Pdu) (requestID : ℤ)
    (result : CallbackResult) : Option Pdu :=
  match generator.kind.processResponseVarBinds cbFun reqPDU requestID result with
  | .ok (_, request) => request
  | .error _ => none

/-- The requests of a walk, one after the other: an agent may answer the same request in another way
the next time. -/
def requests (generator : Generator) (cbFun : CbFun) (agent : ℕ → Pdu → CallbackResult)
    (requestIDs : ℕ → ℤ) (varBinds : List VarBind) : ℕ → Option Pdu
  | 0 => some (generator.sendVarBinds (requestIDs 0) varBinds)
  | turn + 1 => (requests generator cbFun agent requestIDs varBinds turn).bind fun reqPDU ↦
      generator.nextRequest cbFun reqPDU (requestIDs (turn + 1)) (agent turn reqPDU)

end Pysnmp.Entity.Rfc3413.VarBindWalks
