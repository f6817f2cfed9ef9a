import Pysnmp.Entity.Rfc3413.VarBindWalks

/-!
# Subtree walks

`walk_cmd` and `bulk_walk_cmd` of `hlapi/asyncio/cmdgen.py`, with `endColumnsThatLeftTheSubtree` of
`hlapi/asyncio/_walk.py`. Each request goes through a generator of `entity/rfc3413/cmdgen.py`, whose
application takes the first answer and stops. A walk is an iteration that yields responses; the rows
it has yielded stay yielded when it raises.

Names and values are those of the answers. What resolving them for display adds is left to
`Pysnmp.Smi.NameResolution`.
-/

set_option autoImplicit false
set_option relaxedAutoImplicit false

namespace Pysnmp.Hlapi.SubtreeWalk

open Proto Proto.Proxy.Rfc2576 Entity.Rfc3413.Requesters Entity.Rfc3413.VarBindWalks

/-! ### Single requests -/

/-- An error indication; that of an answer which does not match is a text. -/
inductive Indication
  | errorIndication (errorIndication : ErrorIndication)
  | badResponse
  deriving DecidableEq, Repr

/-- What a request comes to. -/
structure CmdResult where
  errorIndication : Option Indication
  errorStatus : ℤ
  errorIndex : ℤ
  varBindTable : List (List VarBind)
  deriving DecidableEq, Repr

/-- The callback of the request, which keeps what it is told and returns nothing. -/
def CmdResult.ofTold : Told → CmdResult
  | .failure errorIndication => ⟨some (.errorIndication errorIndication), 0, 0, []⟩
  | .badResponse => ⟨some .badResponse, 0, 0, []⟩
  | .table errorIndication errorStatus errorIndex varBindTable =>
    ⟨errorIndication.map .errorIndication, errorStatus, errorIndex, varBindTable⟩

/-- `next_cmd` and `bulk_cmd`. -/
def command (generator : Generator) (agent : Pdu → CallbackResult) (requestID : ℤ)
    (varBinds : List VarBind) : Except Raised CmdResult := do
  let reqPDU := generator.sendVarBinds requestID varBinds
  let (told, _) ← generator.kind.processResponseVarBinds (fun _ ↦ false) reqPDU requestID
    (agent reqPDU)
  pure (.ofTold told)

/-- `next_cmd`. -/
def nextCmd : (Pdu → CallbackResult) → ℤ → List VarBind → Except Raised CmdResult :=
  command .next

/-- `bulk_cmd`. -/
def bulkCmd (nonRepeaters maxRepetitions : ℕ) :
    (Pdu → CallbackResult) → ℤ → List VarBind → Except Raised CmdResult :=
  command (.bulk nonRepeaters maxRepetitions)

/-- The names of bindings, to be asked for. -/
def asking (varBinds : List VarBind) : List VarBind :=
  varBinds.map fun varBind ↦ (varBind.1, .null)

/-! ### Columns -/

/-- `isinstance(value, Null)`; the exceptions are derived from it. -/
def isNull : BindingValue → Bool
  | .null | .noSuchObject | .noSuchInstance | .endOfMibView => true
  | _ => false

/-- The loop of `endColumnsThatLeftTheSubtree`, with the row and the finished columns as it leaves
them. A row that is longer than the others raises. -/
def endColumns (lexicographicMode : Bool) :
    List VarBind → List VarBind → List Oid → List Bool → Except Raised (List VarBind × List Bool)
  | [], _, _, nullVarBinds => .ok ([], nullVarBinds)
  | varBind :: rowVarBinds, previousVarBinds, initial :: initialVars, ended :: nullVarBinds => do
    let (row, nulls) ← endColumns lexicographicMode rowVarBinds previousVarBinds.tail initialVars
      nullVarBinds
    if ended || isNull varBind.2 || !lexicographicMode && !decide (initial <+: varBind.1) then
      match previousVarBinds.head? with
      | none => .error .otherError
      | some previous => .ok ((previous.1, .endOfMibView) :: row, true :: nulls)
    else
      .ok (varBind :: row, ended :: nulls)
  | _ :: _, _, _, _ => .error .otherError

/-- Every column of a row has ended. -/
def allEnded (rowVarBinds : List VarBind) : Bool :=
  rowVarBinds.all fun varBind ↦ varBind.2 = .endOfMibView

/-! ### Walks -/

/-- The options of a walk; a bound of zero is none. -/
structure WalkOptions where
  lexicographicMode : Bool := false
  ignoreNonIncreasingOid : Bool := false
  maxRows : ℕ := 0
  maxCalls : ℕ := 0
  deriving DecidableEq, Repr

/-- A response that a walk yields. -/
structure SnmpResponse where
  errorIndication : Option Indication
  errorStatus : ℤ
  errorIndex : ℤ
  varBinds : List VarBind
  deriving DecidableEq, Repr

/-- The local variables of a walk between two requests. -/
structure WalkState where
  nullVarBinds : List Bool
  currentVarBinds : List VarBind
  totalRows : ℕ := 0
  totalCalls : ℕ := 0
  deriving DecidableEq, Repr

/-- How a turn of the loop ends. -/
inductive Next
  | goOn (state : WalkState)
  | returned
  | raised (exception : Raised)
  deriving DecidableEq, Repr

/-- How an iteration ends, as far as it has been followed. -/
inductive Ending
  | unfinished
  | returned
  | raised (exception : Raised)
  deriving DecidableEq, Repr

section Walk

variable (options : WalkOptions) (initialVars : List Oid)

/-- An error indication as the walk takes it. -/
def indicationOf (result : CmdResult) : Option Indication :=
  if options.ignoreNonIncreasingOid &&
      result.errorIndication = some (.errorIndication .oidNotIncreasing) then none
  else result.errorIndication

/-- One of the bounds is reached. -/
def isBounded (totalRows totalCalls : ℕ) : Bool :=
  options.maxRows ≠ 0 && options.maxRows ≤ totalRows ||
    options.maxCalls ≠ 0 && options.maxCalls ≤ totalCalls

/-- A turn of the loop in `walk_cmd`, with what `next_cmd` has returned. -/
def walkTurn (state : WalkState) (result : CmdResult) : List SnmpResponse × Next :=
  let errorIndication := indicationOf options result
  if errorIndication.isSome || result.errorStatus ≠ 0 then
    ([⟨errorIndication, result.errorStatus, result.errorIndex, state.currentVarBinds⟩], .returned)
  else
    let currentVarBinds := result.varBindTable.head?.getD []
    if currentVarBinds = [] then
      ([], .returned)
    else
      match endColumns options.lexicographicMode currentVarBinds state.currentVarBinds initialVars
          state.nullVarBinds with
      | .error exception => ([], .raised exception)
      | .ok (currentVarBinds, nullVarBinds) =>
        if allEnded currentVarBinds then
          ([], .returned)
        else
          let totalRows := state.totalRows + 1
          let totalCalls := state.totalCalls + 1
          ([⟨errorIndication, result.errorStatus, result.errorIndex, currentVarBinds⟩],
            if isBounded options totalRows totalCalls then .returned
            else .goOn ⟨nullVarBinds, currentVarBinds, totalRows, totalCalls⟩)

/-- The loop of `bulk_walk_cmd` over the rows of an answer: the rows up to the one in which every
column has ended, whether there is such a row, and the finished columns. -/
def trimRows : List (List VarBind) → List VarBind → List Bool →
    Except Raised (List (List VarBind) × Bool × List Bool)
  | [], _, nullVarBinds => .ok ([], false, nullVarBinds)
  | rowVarBinds :: varBindTable, previousVarBinds, nullVarBinds => do
    let (row, nulls) ← endColumns options.lexicographicMode rowVarBinds previousVarBinds initialVars
      nullVarBinds
    if allEnded row then
      .ok ([], true, nulls)
    else
      let (rows, stopFlag, nulls) ← trimRows varBindTable row nulls
      .ok (row :: rows, stopFlag, nulls)

/-- A turn of the loop in `bulk_walk_cmd`, with what `bulk_cmd` has returned. -/
def bulkWalkTurn (state : WalkState) (result : CmdResult) : List SnmpResponse × Next :=
  let errorIndication := indicationOf options result
  if errorIndication.isSome || result.errorStatus ≠ 0 then
    ([⟨errorIndication, result.errorStatus, result.errorIndex,
      result.varBindTable.head?.getD state.currentVarBinds⟩], .returned)
  else
    match trimRows options initialVars result.varBindTable state.currentVarBinds
        state.nullVarBinds with
    | .error exception => ([], .raised exception)
    | .ok (varBindTable, stopFlag, nullVarBinds) =>
      let totalRows := state.totalRows + varBindTable.length
      let totalCalls := state.totalCalls + 1
      (varBindTable.map fun rowVarBinds ↦
          ⟨errorIndication, result.errorStatus, result.errorIndex, rowVarBinds⟩,
        match varBindTable.getLast? with
        | none => .returned
        | some lastVarBinds =>
          if stopFlag || isBounded options totalRows totalCalls then .returned
          else .goOn ⟨nullVarBinds, lastVarBinds, totalRows, totalCalls⟩)

/-- `repetitions` of a turn: no more than are still wanted. -/
def repetitions (maxRepetitions : ℕ) (state : WalkState) : ℕ :=
  if options.maxRows ≠ 0 then min maxRepetitions (options.maxRows - state.totalRows)
  else maxRepetitions

end Walk

/-- The loop of a walk: what it yields within so many turns, and how it ends. -/
def run (turn : ℕ → WalkState → List SnmpResponse × Next) :
    ℕ → ℕ → WalkState → List SnmpResponse × Ending
  | 0, _, _ => ([], .unfinished)
  | fuel + 1, number, state =>
    if state.currentVarBinds = [] then
      ([], .returned)
    else
      match turn number state with
      | (yielded, .returned) => (yielded, .returned)
      | (yielded, .raised exception) => (yielded, .raised exception)
      | (yielded, .goOn state) =>
        let (later, ending) := run turn fuel (number + 1) state
        (yielded ++ later, ending)

/-- A request and the turn it is made in; what it raises ends the walk. -/
def requestTurn (result : Except Raised CmdResult)
    (turn : CmdResult → List SnmpResponse × Next) : List SnmpResponse × Next :=
  match result with
  | .error exception => ([], .raised exception)
  | .ok result => turn result

section Commands

variable (options : WalkOptions) (agent : ℕ → Pdu → CallbackResult) (requestIDs : ℕ → ℤ)

/-- The state in which a walk begins. -/
def WalkState.initial (varBinds : List VarBind) : WalkState where
  nullVarBinds := varBinds.map fun _ ↦ false
  currentVarBinds := varBinds

/-- `walk_cmd`. An agent may answer the same request in another way the next time. -/
def walkCmd (varBinds : List VarBind) (fuel : ℕ) : List SnmpResponse × Ending :=
  run (fun number state ↦ requestTurn
      (nextCmd (agent number) (requestIDs number) (asking state.currentVarBinds))
      (walkTurn options (varBinds.map Prod.fst) state))
    fuel 0 (.initial varBinds)

/-- `bulk_walk_cmd`. -/
def bulkWalkCmd (nonRepeaters maxRepetitions : ℕ) (varBinds : List VarBind) (fuel : ℕ) :
    List SnmpResponse × Ending :=
  run (fun number state ↦ requestTurn
      (bulkCmd nonRepeaters (repetitions options maxRepetitions state) (agent number)
        (requestIDs number) (asking state.currentVarBinds))
      (bulkWalkTurn options (varBinds.map Prod.fst) state))
    fuel 0 (.initial varBinds)

end Commands

end Pysnmp.Hlapi.SubtreeWalk
