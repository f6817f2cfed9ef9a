import Pysnmp.Entity.Rfc3413.BulkTable
import Pysnmp.Foundation.PrefixOrder
import Pysnmp.Foundation.SortedMap
import Pysnmp.Hlapi.SubtreeWalk

/-!
# The rows of a subtree walk

A walk of subtrees yields what stands below its starting names, row by row, and a column that has
come to its end shows its last name from then on (`Mib.rows`). GETNEXT and GETBULK walks both do,
and stop (`walks_agree`), wherever the agent cuts its answers to GETBULK.

What carries the proof is the number of rows that are behind: with it the names to be asked for and
the finished columns are functions of the MIB (`Mib.nameAt`, `Mib.hasEnded`), and a row that the
agent answers with becomes the next one of `Mib.rows` (`endColumns_eq`).
-/

set_option autoImplicit false
set_option relaxedAutoImplicit false

namespace Pysnmp.Hlapi.WalksAgree

open Foundation Proto Proto.Proxy.Rfc2576
open Entity.Rfc3413 Entity.Rfc3413.Requesters Entity.Rfc3413.VarBindWalks SubtreeWalk

/-! ### The names of an agent -/

/-- The names of an agent in order, with their values. -/
structure Mib where
  entries : SortedMap Oid BindingValue
  hasValues : ∀ entry ∈ entries.entries, isNull entry.2 = false

namespace Mib

variable (mib : Mib)

/-- The binding that follows a name. -/
def successor (name : Oid) : VarBind :=
  (mib.entries.next? name).getD (name, .endOfMibView)

/-- What stands below a name. -/
def subtree (start : Oid) : List VarBind :=
  (mib.entries.after start).filter fun entry ↦ start <+: entry.1

/-- The last name of a subtree. -/
def lastName (start : Oid) : Oid :=
  ((mib.subtree start).getLast?.map Prod.fst).getD start

/-- What a column shows in a row. -/
def cell (row : ℕ) (start : Oid) : VarBind :=
  (mib.subtree start)[row]?.getD (mib.lastName start, .endOfMibView)

/-- The length of the longest column. -/
def height (starts : List Oid) : ℕ :=
  (starts.map fun start ↦ (mib.subtree start).length).foldr max 0

/-- So many rows from one on. -/
def rowsFrom (starts : List Oid) (row count : ℕ) : List (List VarBind) :=
  (List.range' row count).map fun row ↦ starts.map (mib.cell row)

/-- The rows of a walk. -/
def rows (starts : List Oid) : List (List VarBind) :=
  mib.rowsFrom starts 0 (mib.height starts)

/-- Repetitions: each row follows the names of the one before. -/
inductive Repetitions : List Oid → List (List VarBind) → Prop
  | nil (asked : List Oid) : Repetitions asked []
  | cons {asked : List Oid} {rows : List (List VarBind)}
      (hrows : Repetitions ((asked.map mib.successor).map Prod.fst) rows) :
      Repetitions asked (asked.map mib.successor :: rows)

/-- The agent answers GETNEXT with successors. -/
def AnswersNext (agent : ℕ → Pdu → CallbackResult) : Prop :=
  ∀ number reqPDU, ∃ rspPDU, agent number reqPDU = .response rspPDU ∧ rspPDU.errorStatus = 0 ∧
    rspPDU.varBinds = (reqPDU.varBinds.map Prod.fst).map mib.successor

/-- The agent answers GETBULK without non-repeaters with one or more rows of successors. -/
def AnswersBulk (agent : ℕ → Pdu → CallbackResult) : Prop :=
  ∀ number reqPDU, getNonRepeaters reqPDU = 0 → ∃ rspPDU rows,
    agent number reqPDU = .response rspPDU ∧ rspPDU.errorStatus = 0 ∧ rows ≠ [] ∧
      mib.Repetitions (reqPDU.varBinds.map Prod.fst) rows ∧ rspPDU.varBinds = rows.flatten

end Mib

/-- The responses are these rows, without an error. -/
def Shows (responses : List SnmpResponse) (rows : List (List VarBind)) : Prop :=
  responses.map (fun response ↦
      (response.errorIndication, response.errorStatus, response.varBinds)) =
    rows.map fun row ↦ (none, 0, row)

/-- A walk yields these rows and returns. -/
def Yields (walk : ℕ → List SnmpResponse × Ending) (rows : List (List VarBind)) : Prop :=
  ∃ fuel, ∀ more, fuel ≤ more → (walk more).2 = .returned ∧ Shows (walk more).1 rows

/-- Subtree walks without a bound. -/
structure IsSubtreeWalk (options : WalkOptions) : Prop where
  lexicographicMode : options.lexicographicMode = false
  maxRows : options.maxRows = 0
  maxCalls : options.maxCalls = 0

/-! ### Names below a name -/

/-- Where what is wanted comes first, it is a beginning of the list. -/
theorem filter_eq_takeWhile {α : Type} {wanted : α → Bool} {elements : List α}
    (hfirst : elements.Pairwise fun first second ↦ wanted second → wanted first) :
    elements.filter wanted = elements.takeWhile wanted := by
  induction elements with
  | nil => rfl
  | cons element rest ih =>
    obtain ⟨helement, hrest⟩ := List.pairwise_cons.mp hfirst
    by_cases hwanted : wanted element
    · rw [List.filter_cons_of_pos hwanted, List.takeWhile_cons_of_pos hwanted, ih hrest]
    · rw [List.filter_cons_of_neg hwanted, List.takeWhile_cons_of_neg hwanted,
        List.filter_eq_nil_iff]
      exact fun other hother hother' ↦ hwanted (helement other hother hother')

section Columns

variable {mib : Mib} {start : Oid}

/-- What comes after a name is greater than it. -/
theorem lt_of_mem_after {name : Oid} {entry : VarBind} (hentry : entry ∈ mib.entries.after name) :
    name < entry.1 :=
  (SortedMap.mem_after.mp hentry).2

/-- What comes after a name begins with its subtree, and goes on outside of it. -/
theorem exists_after_eq (mib : Mib) (start : Oid) :
    ∃ rest, mib.entries.after start = mib.subtree start ++ rest ∧
      ∀ entry ∈ rest.head?, ¬ start <+: entry.1 := by
  have hfirst : (mib.entries.after start).Pairwise fun first second ↦
      decide (start <+: second.1) = true → decide (start <+: first.1) = true := by
    refine (mib.entries.sorted.filter _).imp_of_mem ?_
    intro first second hmem _ hlt hbelow
    by_contra hnot
    have hstart : start < first.1 := lt_of_mem_after hmem
    exact absurd hlt (PrefixOrder.lt_of_lt_of_not_prefix hstart (by simpa using hnot)
      (by simpa using hbelow) (List.prefix_refl first.1)).asymm
  refine ⟨(mib.entries.after start).dropWhile fun entry ↦ start <+: entry.1, ?_, ?_⟩
  · rw [Mib.subtree, filter_eq_takeWhile hfirst, List.takeWhile_append_dropWhile]
  · intro entry hentry
    have hnot := List.head?_dropWhile_not (fun entry : VarBind ↦ decide (start <+: entry.1))
      (mib.entries.after start)
    rw [Option.mem_def.mp hentry] at hnot
    simpa using hnot

/-- The name a column has after so many rows. -/
def Mib.nameAt (mib : Mib) : ℕ → Oid → Oid
  | 0, start => start
  | row + 1, start => (mib.cell row start).1

/-- The column has been finished by so many rows. -/
def Mib.hasEnded (mib : Mib) (row : ℕ) (start : Oid) : Bool :=
  (mib.subtree start).length < row

/-- A row of a column that has not ended is the entry at that place. -/
theorem cell_of_lt {row : ℕ} (hrow : row < (mib.subtree start).length) :
    mib.cell row start = (mib.subtree start)[row] := by
  rw [Mib.cell, List.getElem?_eq_getElem hrow, Option.getD_some]

/-- Past its end a column repeats its last name. -/
theorem cell_of_le {row : ℕ} (hrow : (mib.subtree start).length ≤ row) :
    mib.cell row start = (mib.lastName start, .endOfMibView) := by
  rw [Mib.cell, List.getElem?_eq_none hrow, Option.getD_none]

/-- A column keeps its last name. -/
theorem nameAt_of_le {row : ℕ} (hrow : (mib.subtree start).length ≤ row) :
    mib.nameAt row start = mib.lastName start := by
  cases row with
  | zero =>
    rw [Mib.nameAt, Mib.lastName, List.length_eq_zero_iff.mp (Nat.le_zero.mp hrow)]
    rfl
  | succ row =>
    rcases hrow.lt_or_eq with hlt | heq
    · rw [Mib.nameAt, cell_of_le (Nat.le_of_lt_succ hlt)]
    · rw [Mib.nameAt, cell_of_lt (by omega), Mib.lastName, List.getLast?_eq_getElem?]
      have hlast : (mib.subtree start).length - 1 = row := by omega
      rw [hlast, List.getElem?_eq_getElem (by omega)]
      rfl

/-- After so many rows, what comes next is the rest of the subtree and what follows it. -/
theorem after_nameAt {rest : List VarBind}
    (hrest : mib.entries.after start = mib.subtree start ++ rest) {row : ℕ}
    (hrow : row ≤ (mib.subtree start).length) :
    mib.entries.after (mib.nameAt row start) = (mib.subtree start).drop row ++ rest := by
  induction row with
  | zero => exact hrest
  | succ row ih =>
    have hbefore := ih (by omega)
    rw [List.drop_eq_getElem_cons (by omega), List.cons_append] at hbefore
    have hnext : mib.entries.next? (mib.nameAt row start) = some (mib.subtree start)[row] := by
      rw [SortedMap.next?_eq_head?, hbefore, List.head?_cons]
    have hafter := SortedMap.after_eq_cons hnext
    rw [hbefore] at hafter
    rw [Mib.nameAt, cell_of_lt (by omega)]
    exact (List.cons.inj hafter).2.symm

/-- The binding that follows is the next of the subtree. -/
theorem successor_nameAt {row : ℕ} (hrow : row < (mib.subtree start).length) :
    mib.successor (mib.nameAt row start) = mib.cell row start := by
  obtain ⟨rest, hrest, -⟩ := exists_after_eq mib start
  rw [Mib.successor, SortedMap.next?_eq_head?, after_nameAt hrest hrow.le,
    List.drop_eq_getElem_cons hrow, List.cons_append, List.head?_cons, Option.getD_some,
    cell_of_lt hrow]

/-- The binding that follows the last of the subtree is outside of it, if there is one. -/
theorem successor_lastName (mib : Mib) (start : Oid) :
    isNull (mib.successor (mib.lastName start)).2 = true ∨
      ¬ start <+: (mib.successor (mib.lastName start)).1 := by
  obtain ⟨rest, hrest, hout⟩ := exists_after_eq mib start
  have hafter := after_nameAt hrest le_rfl
  rw [nameAt_of_le le_rfl, List.drop_length, List.nil_append] at hafter
  rw [Mib.successor, SortedMap.next?_eq_head?, hafter]
  cases hhead : rest.head? with
  | none => exact .inl rfl
  | some entry => exact .inr (hout entry hhead)

/-- A column holds the values of the MIB under its start. -/
theorem mem_subtree {entry : VarBind} (hentry : entry ∈ mib.subtree start) :
    isNull entry.2 = false ∧ start <+: entry.1 := by
  obtain ⟨hafter, hbelow⟩ := List.mem_filter.mp hentry
  exact ⟨mib.hasValues entry (SortedMap.mem_after.mp hafter).1, of_decide_eq_true hbelow⟩

/-- A column has ended in a row when it has no more entries than that. -/
theorem cell_ended_iff (mib : Mib) (row : ℕ) (start : Oid) :
    (mib.cell row start).2 = .endOfMibView ↔ (mib.subtree start).length ≤ row := by
  rcases lt_or_ge row (mib.subtree start).length with hrow | hrow
  · refine iff_of_false ?_ hrow.not_ge
    rw [cell_of_lt hrow]
    intro hended
    have hvalue := (mem_subtree (List.getElem_mem hrow)).1
    rw [hended] at hvalue
    cases hvalue
  · exact iff_of_true (by rw [cell_of_le hrow]) hrow

/-! ### Rows -/

/-- A binding of a row is the one that follows, unless the column has been finished before. -/
def Mib.IsAnswer (mib : Mib) (row : ℕ) (start : Oid) (varBind : VarBind) : Prop :=
  row ≤ (mib.subtree start).length → varBind = mib.successor (mib.nameAt row start)

/-- What `endColumns` asks of a column: whether it has been or is finished. -/
theorem endsRow_iff {row : ℕ} {varBind : VarBind} (hanswer : mib.IsAnswer row start varBind) :
    (mib.hasEnded row start || isNull varBind.2 ||
        !false && !decide (start <+: varBind.1)) = true ↔
      (mib.subtree start).length ≤ row := by
  simp only [Mib.hasEnded, Bool.or_eq_true, decide_eq_true_eq, Bool.not_false, Bool.true_and,
    Bool.not_eq_true', decide_eq_false_iff_not]
  rcases lt_trichotomy row (mib.subtree start).length with hrow | hrow | hrow
  · obtain ⟨hvalue, hbelow⟩ := mem_subtree (List.getElem_mem hrow)
    rw [hanswer hrow.le, successor_nameAt hrow, cell_of_lt hrow]
    refine iff_of_false ?_ hrow.not_ge
    rintro ((hended | hnull) | hout)
    · exact absurd hended hrow.not_gt
    · rw [hvalue] at hnull
      cases hnull
    · exact hout hbelow
  · rw [hanswer hrow.le, nameAt_of_le hrow.ge]
    refine iff_of_true ?_ hrow.ge
    rcases successor_lastName mib start with hnull | hout
    · exact .inl (.inr hnull)
    · exact .inr hout
  · exact iff_of_true (.inl (.inl hrow)) hrow.le

/-- A row that the agent answers with becomes the next row of the walk. -/
theorem endColumns_eq {row : ℕ} {starts : List Oid} {rowVarBinds previousVarBinds : List VarBind}
    (hrow : List.Forall₂ (mib.IsAnswer row) starts rowVarBinds)
    (hprevious : previousVarBinds.map Prod.fst = starts.map (mib.nameAt row)) :
    endColumns false rowVarBinds previousVarBinds starts (starts.map (mib.hasEnded row)) =
      .ok (starts.map (mib.cell row), starts.map (mib.hasEnded (row + 1))) := by
  induction hrow generalizing previousVarBinds with
  | nil => rfl
  | @cons start varBind starts rowVarBinds hanswer _ ih =>
    obtain _ | ⟨previous, previousVarBinds⟩ := previousVarBinds
    · cases hprevious
    obtain ⟨hname, hnames⟩ := List.cons.inj hprevious
    rw [List.map_cons, endColumns, List.tail_cons, ih hnames, List.head?_cons]
    by_cases hlast : (mib.subtree start).length ≤ row
    · have hended : mib.hasEnded (row + 1) start = true := decide_eq_true (by omega)
      simp only [if_pos ((endsRow_iff hanswer).mpr hlast), List.map_cons, cell_of_le hlast, hended]
      rw [hname, nameAt_of_le hlast]
      rfl
    · have hnot : mib.hasEnded row start = false := decide_eq_false (by omega)
      have hended : mib.hasEnded (row + 1) start = false := decide_eq_false (by omega)
      have hcell : varBind = mib.cell row start :=
        (hanswer (by omega)).trans (successor_nameAt (by omega))
      simp only [if_neg (mt (endsRow_iff hanswer).mp hlast)]
      simp only [List.map_cons, hended, hnot]
      rw [hcell]
      rfl

/-- The table is as high as its highest column. -/
theorem height_le_iff {starts : List Oid} {row : ℕ} :
    mib.height starts ≤ row ↔ ∀ start ∈ starts, (mib.subtree start).length ≤ row := by
  induction starts with
  | nil => simp [Mib.height]
  | cons start starts ih =>
    rw [List.forall_mem_cons, ← ih]
    exact max_le_iff

/-- A row has nothing but finished columns from the height of the walk on. -/
theorem allEnded_iff {starts : List Oid} {row : ℕ} :
    allEnded (starts.map (mib.cell row)) = true ↔ mib.height starts ≤ row := by
  rw [allEnded, List.all_map, List.all_eq_true, height_le_iff]
  simp only [Function.comp_apply, decide_eq_true_eq, cell_ended_iff]

/-- Rows begin with the one they are counted from. -/
theorem rowsFrom_succ (mib : Mib) (starts : List Oid) (row count : ℕ) :
    mib.rowsFrom starts row (count + 1) =
      starts.map (mib.cell row) :: mib.rowsFrom starts (row + 1) count := by
  rw [Mib.rowsFrom, List.range'_succ, List.map_cons]
  rfl

/-- Rows are counted on from where the last ones ended. -/
theorem rowsFrom_append (mib : Mib) (starts : List Oid) (row count more : ℕ) :
    mib.rowsFrom starts row count ++ mib.rowsFrom starts (row + count) more =
      mib.rowsFrom starts row (count + more) := by
  rw [Mib.rowsFrom, Mib.rowsFrom, Mib.rowsFrom, ← List.map_append, List.range'_append_1]

/-! ### Answers -/

/-- The names that are asked for after so many rows are those of the walk, but for finished
columns. -/
def Mib.IsAsked (mib : Mib) (row : ℕ) (start name : Oid) : Prop :=
  row ≤ (mib.subtree start).length → name = mib.nameAt row start

/-- What follows the names of a row is the next row. -/
theorem isAnswer_of_isAsked {row : ℕ} {starts asked : List Oid}
    (hasked : List.Forall₂ (mib.IsAsked row) starts asked) :
    List.Forall₂ (mib.IsAnswer row) starts (asked.map mib.successor) := by
  rw [List.forall₂_map_right_iff]
  exact hasked.imp fun start name hname hrow ↦ by rw [hname hrow]

/-- The answer to one row is what the next row asks for. -/
theorem isAsked_succ {row : ℕ} {starts asked : List Oid}
    (hasked : List.Forall₂ (mib.IsAsked row) starts asked) :
    List.Forall₂ (mib.IsAsked (row + 1)) starts ((asked.map mib.successor).map Prod.fst) := by
  rw [List.forall₂_map_right_iff, List.forall₂_map_right_iff]
  refine hasked.imp fun start name hname hrow ↦ ?_
  rw [hname (by omega), successor_nameAt (by omega)]
  rfl

/-- The names of the walk are asked for. -/
theorem isAsked_nameAt (mib : Mib) (row : ℕ) (starts : List Oid) :
    List.Forall₂ (mib.IsAsked row) starts (starts.map (mib.nameAt row)) := by
  rw [List.forall₂_map_right_iff, List.forall₂_same]
  exact fun _ _ _ ↦ rfl

/-- Repetitions become rows of the walk, as far as it goes. -/
theorem trimRows_eq {options : WalkOptions} (hmode : options.lexicographicMode = false)
    {starts asked : List Oid} {table : List (List VarBind)} (htable : mib.Repetitions asked table)
    {row : ℕ} (hheight : row ≤ mib.height starts)
    (hasked : List.Forall₂ (mib.IsAsked row) starts asked) {previousVarBinds : List VarBind}
    (hprevious : previousVarBinds.map Prod.fst = starts.map (mib.nameAt row)) :
    (row + table.length ≤ mib.height starts →
      trimRows options starts table previousVarBinds (starts.map (mib.hasEnded row)) =
        .ok (mib.rowsFrom starts row table.length, false,
          starts.map (mib.hasEnded (row + table.length)))) ∧
    (mib.height starts < row + table.length → ∃ nullVarBinds,
      trimRows options starts table previousVarBinds (starts.map (mib.hasEnded row)) =
        .ok (mib.rowsFrom starts row (mib.height starts - row), true, nullVarBinds)) := by
  induction htable generalizing row previousVarBinds with
  | nil asked =>
    refine ⟨fun _ ↦ rfl, fun hlt ↦ ?_⟩
    rw [List.length_nil] at hlt
    omega
  | @cons asked table _ ih =>
    have hends := endColumns_eq (isAnswer_of_isAsked hasked) hprevious
    have hnames : (starts.map (mib.cell row)).map Prod.fst = starts.map (mib.nameAt (row + 1)) := by
      rw [List.map_map]
      rfl
    rw [List.length_cons, trimRows, hmode, hends]
    by_cases hlast : mib.height starts ≤ row
    · refine ⟨fun hle ↦ by omega, fun _ ↦ ⟨starts.map (mib.hasEnded (row + 1)), ?_⟩⟩
      have hcount : mib.height starts - row = 0 := by omega
      rw [hcount]
      exact if_pos (allEnded_iff.mpr hlast)
    · obtain ⟨hgoesOn, hstops⟩ := ih (by omega) (isAsked_succ hasked) hnames
      have hnot : ¬ allEnded (starts.map (mib.cell row)) = true := mt allEnded_iff.mp hlast
      have hnext : row + (table.length + 1) = row + 1 + table.length := by omega
      simp only [bind, Except.bind, if_neg hnot]
      constructor
      · intro hle
        rw [hgoesOn (by omega), rowsFrom_succ, hnext]
      · intro hlt
        obtain ⟨nullVarBinds, htrim⟩ := hstops (by omega)
        have hcount : mib.height starts - row = mib.height starts - (row + 1) + 1 := by omega
        refine ⟨nullVarBinds, ?_⟩
        rw [htrim, hcount, rowsFrom_succ]

/-- A binding that follows a name does not go back, and advances if it has a value. -/
theorem le_successor (mib : Mib) (name : Oid) :
    name ≤ (mib.successor name).1 ∧
      ((mib.successor name).2.isException = false → name < (mib.successor name).1) := by
  rw [Mib.successor, SortedMap.next?_eq_head?]
  cases hhead : (mib.entries.after name).head? with
  | none => exact ⟨le_rfl, fun hvalue ↦ nomatch hvalue⟩
  | some entry =>
    have hlt : name < entry.1 := lt_of_mem_after (List.mem_of_head? hhead)
    exact ⟨hlt.le, fun _ ↦ hlt⟩

/-- The names of a repetition advance from those that were asked for. -/
theorem advances_of_repetitions {asked : List Oid} {table : List (List VarBind)}
    (htable : mib.Repetitions asked table) :
    ∀ row ∈ table, List.Forall₂ (fun name varBind ↦
      varBind.2.isException = false → name < varBind.1) asked row := by
  induction htable with
  | nil asked =>
    intro row hrow
    cases hrow
  | @cons asked table _ ih =>
    intro row hrow
    rcases List.mem_cons.mp hrow with rfl | hrow
    · rw [List.forall₂_map_right_iff, List.forall₂_same]
      exact fun name _ ↦ (le_successor mib name).2
    · have hlater := ih row hrow
      rw [List.forall₂_map_left_iff, List.forall₂_map_left_iff] at hlater
      exact hlater.imp fun name varBind hlt hvalue ↦
        (le_successor mib name).1.trans_lt (hlt hvalue)

/-- Every repetition has a cell for each name asked for. -/
theorem length_of_repetitions {asked : List Oid} {table : List (List VarBind)}
    (htable : mib.Repetitions asked table) : ∀ row ∈ table, row.length = asked.length :=
  fun row hrow ↦ (advances_of_repetitions htable row hrow).length_eq.symm

end Columns

/-! ### Requests -/

section Requests

/-- The check on advancing names has nothing to report where all of them advance. -/
theorem notIncreasing_eq {varBinds origVarBinds : List VarBind}
    (hadvances : List.Forall₂ (fun orig varBind ↦
      varBind.2.isException = false → orig.1 < varBind.1) origVarBinds varBinds) :
    notIncreasing varBinds origVarBinds = .ok none := by
  induction hadvances with
  | nil => rfl
  | @cons orig varBind origVarBinds varBinds hadvance _ ih =>
    rw [notIncreasing, List.tail_cons, ih, List.head?_cons]
    change compareNames varBind (some orig) none = .ok none
    unfold compareNames
    cases hvalue : varBind.2.isException with
    | true => rfl
    | false => simp [(hadvance hvalue).not_ge]

/-- A request that is answered without an error comes to a table whose last row advances. -/
theorem command_eq {generator : Generator} {agent : Pdu → CallbackResult} {requestID : ℤ}
    {varBinds lastRow : List VarBind} {rspPDU : Pdu}
    (hagent : agent (generator.sendVarBinds requestID varBinds) = .response rspPDU)
    (hstatus : rspPDU.errorStatus = 0)
    (hlast : (generator.kind.getVarBindTable (generator.sendVarBinds requestID varBinds)
      rspPDU).getLast? = some lastRow)
    (hadvances : List.Forall₂ (fun orig varBind ↦
      varBind.2.isException = false → orig.1 < varBind.1) varBinds lastRow) :
    command generator agent requestID varBinds =
      .ok ⟨none, 0, mutedErrorIndex rspPDU,
        generator.kind.getVarBindTable (generator.sendVarBinds requestID varBinds) rspPDU⟩ := by
  have hvarBinds : (generator.sendVarBinds requestID varBinds).varBinds = varBinds := by
    cases generator with
    | next => rfl
    | bulk nonRepeaters maxRepetitions => rfl
  have hread : generator.kind.readResponse (generator.sendVarBinds requestID varBinds) rspPDU =
      .ok (none, generator.kind.again (generator.sendVarBinds requestID varBinds)
        (rspVarBinds lastRow)) := by
    rw [WalkKind.readResponse, if_neg (not_not.mpr hstatus), hlast]
    simp only [getNextVarBinds, hvarBinds, notIncreasing_eq hadvances]
    rfl
  unfold command
  simp only [hagent, WalkKind.processResponseVarBinds, hread, hstatus]
  rfl

/-- Rows of one length are cut out of their concatenation. -/
theorem getBulkVarBindTable_eq {reqPDU rspPDU : Pdu} {rows : List (List VarBind)}
    (hnone : getNonRepeaters reqPDU = 0) (hasked : reqPDU.varBinds ≠ [])
    (hlength : ∀ row ∈ rows, row.length = reqPDU.varBinds.length)
    (hflatten : rspPDU.varBinds = rows.flatten) :
    getBulkVarBindTable reqPDU rspPDU = rows := by
  have hpos := List.length_pos_iff.mpr hasked
  have hstop : rspPDU.varBinds.length = rows.length * reqPDU.varBinds.length := by
    rw [hflatten, List.length_flatten, List.map_eq_replicate_iff.mpr hlength, List.sum_replicate,
      smul_eq_mul]
  have hcut : (multiplesBelow rspPDU.varBinds.length reqPDU.varBinds.length).map
      (fun i ↦ slice rspPDU.varBinds i (reqPDU.varBinds.length + i)) = rows := by
    rw [hstop, BulkTable.multiplesBelow_mul rows.length hpos, List.map_map]
    refine List.ext_getElem (by simp) fun i _ hi ↦ ?_
    have hslice := BulkTable.slice_flatten hlength [] hi
    rw [List.nil_append, List.length_nil, Nat.zero_add, Nat.zero_add] at hslice
    rw [List.getElem_map, List.getElem_range, Function.comp_apply, hflatten]
    exact hslice
  unfold getBulkVarBindTable
  simp only [hnone, Nat.zero_min, Nat.sub_zero, slice_zero, List.nil_append, Nat.zero_add,
    ne_eq, hpos.ne', not_false_eq_true, if_true]
  rw [hcut, List.filter_eq_self]
  exact fun row hrow ↦ decide_eq_true (hlength row hrow)

end Requests

/-! ### Turns of the loop -/

section Turns

variable {mib : Mib} {starts : List Oid} {options : WalkOptions} {row : ℕ} {state : WalkState}

/-- So many rows are behind. -/
structure IsAt (mib : Mib) (starts : List Oid) (row : ℕ) (state : WalkState) : Prop where
  le_height : row ≤ mib.height starts
  nullVarBinds : state.nullVarBinds = starts.map (mib.hasEnded row)
  names : state.currentVarBinds.map Prod.fst = starts.map (mib.nameAt row)

/-- A turn goes some rows on, or comes to the end of the walk. -/
def Advances (mib : Mib) (starts : List Oid) (row : ℕ) : List SnmpResponse × Next → Prop
  | (yielded, .goOn state) => ∃ count, 0 < count ∧ IsAt mib starts (row + count) state ∧
      Shows yielded (mib.rowsFrom starts row count)
  | (yielded, .returned) => Shows yielded (mib.rowsFrom starts row (mib.height starts - row))
  | (_, .raised _) => False

/-- Rows of the walk, as a turn yields them. -/
theorem shows_map (errorIndex : ℤ) (rows : List (List VarBind)) :
    Shows (rows.map fun row ↦ ⟨none, 0, errorIndex, row⟩) rows := by
  rw [Shows, List.map_map]
  rfl

/-- A walk of a subtree without limits is not cut short. -/
theorem isBounded_eq (hoptions : IsSubtreeWalk options) (totalRows totalCalls : ℕ) :
    isBounded options totalRows totalCalls = false := by
  simp [isBounded, hoptions.maxRows, hoptions.maxCalls]

/-- The names in a row are those that the next request carries. -/
theorem names_cell (mib : Mib) (row : ℕ) (starts : List Oid) :
    (starts.map (mib.cell row)).map Prod.fst = starts.map (mib.nameAt (row + 1)) := by
  rw [List.map_map]
  rfl

/-- GETNEXT goes on by a row. -/
theorem advances_walkTurn (hoptions : IsSubtreeWalk options) (hstarts : starts ≠ [])
    (hat : IsAt mib starts row state) (errorIndex : ℤ) :
    Advances mib starts row (walkTurn options starts state
      ⟨none, 0, errorIndex, [(state.currentVarBinds.map Prod.fst).map mib.successor]⟩) := by
  have hasked : List.Forall₂ (mib.IsAsked row) starts (state.currentVarBinds.map Prod.fst) := by
    rw [hat.names]
    exact isAsked_nameAt mib row starts
  have hrow : (state.currentVarBinds.map Prod.fst).map mib.successor ≠ [] := by
    rw [hat.names]
    simpa using hstarts
  have hends := endColumns_eq (isAnswer_of_isAsked hasked) hat.names
  have hindication : indicationOf options ⟨none, 0, errorIndex,
      [(state.currentVarBinds.map Prod.fst).map mib.successor]⟩ = none := by
    simp [indicationOf]
  unfold walkTurn
  simp only [hindication, Option.isSome_none, Bool.false_or, List.head?_cons, Option.getD_some,
    hrow, hoptions.lexicographicMode, hat.nullVarBinds, hends, isBounded_eq hoptions]
  by_cases hlast : mib.height starts ≤ row
  · have hcount : mib.height starts - row = 0 := by omega
    simp only [allEnded_iff.mpr hlast]
    change Shows [] _
    rw [hcount]
    rfl
  · simp only [mt allEnded_iff.mp hlast]
    exact ⟨1, Nat.one_pos, ⟨by omega, rfl, names_cell mib row starts⟩, rfl⟩

/-- GETBULK goes on by the rows of the answer. -/
theorem advances_bulkWalkTurn (hoptions : IsSubtreeWalk options) (hat : IsAt mib starts row state)
    {table : List (List VarBind)}
    (htable : mib.Repetitions (state.currentVarBinds.map Prod.fst) table)
    (hne : table ≠ []) (errorIndex : ℤ) :
    Advances mib starts row (bulkWalkTurn options starts state ⟨none, 0, errorIndex, table⟩) := by
  have hasked : List.Forall₂ (mib.IsAsked row) starts (state.currentVarBinds.map Prod.fst) := by
    rw [hat.names]
    exact isAsked_nameAt mib row starts
  obtain ⟨hgoesOn, hstops⟩ :=
    trimRows_eq hoptions.lexicographicMode htable hat.le_height hasked hat.names
  have hindication : indicationOf options ⟨none, 0, errorIndex, table⟩ = none := by
    simp [indicationOf]
  unfold bulkWalkTurn
  simp only [hindication, hat.nullVarBinds, isBounded_eq hoptions]
  rcases le_or_gt (row + table.length) (mib.height starts) with hle | hlt
  · obtain ⟨count, hcount⟩ : ∃ count, table.length = count + 1 :=
      Nat.exists_eq_succ_of_ne_zero (List.length_pos_iff.mpr hne).ne'
    have hlast : (mib.rowsFrom starts row table.length).getLast? =
        some (starts.map (mib.cell (row + count))) := by
      rw [hcount, ← rowsFrom_append mib starts row count 1, List.getLast?_append]
      rfl
    simp only [hgoesOn hle, hlast]
    refine ⟨table.length, by omega, ⟨hle, rfl, ?_⟩, shows_map errorIndex _⟩
    rw [hcount]
    exact names_cell mib (row + count) starts
  · obtain ⟨nullVarBinds, htrim⟩ := hstops hlt
    simp only [htrim]
    cases (mib.rowsFrom starts row (mib.height starts - row)).getLast? with
    | none => exact shows_map errorIndex _
    | some lastVarBinds => exact shows_map errorIndex _

/-- Responses show their rows one response after the other. -/
theorem Shows.append {responses others : List SnmpResponse} {rows more : List (List VarBind)}
    (hresponses : Shows responses rows) (hothers : Shows others more) :
    Shows (responses ++ others) (rows ++ more) := by
  unfold Shows at *
  rw [List.map_append, List.map_append, hresponses, hothers]

/-- A walk whose turns go on by the rows of the MIB yields them all and returns. -/
theorem run_yields {turn : ℕ → WalkState → List SnmpResponse × Next} (hstarts : starts ≠ [])
    (hturn : ∀ number row state, IsAt mib starts row state →
      Advances mib starts row (turn number state))
    (number : ℕ) (hat : IsAt mib starts row state) :
    Yields (fun fuel ↦ run turn fuel number state)
      (mib.rowsFrom starts row (mib.height starts - row)) := by
  induction hleft : mib.height starts - row using Nat.strong_induction_on generalizing row state
    number with
  | _ left ih =>
    subst hleft
    have hcurrent : state.currentVarBinds ≠ [] := by
      intro hnil
      have hnames := hat.names
      rw [hnil] at hnames
      exact hstarts (List.map_eq_nil_iff.mp hnames.symm)
    have hadvances := hturn number row state hat
    cases hresult : turn number state with
    | mk yielded next =>
      rw [hresult] at hadvances
      cases next with
      | raised exception => exact absurd hadvances id
      | returned =>
        refine ⟨1, fun more hmore ↦ ?_⟩
        obtain ⟨fuel, rfl⟩ := Nat.exists_eq_add_of_le' hmore
        have hrun : run turn (fuel + 1) number state = (yielded, .returned) := by
          simp only [run, if_neg hcurrent, hresult]
        simp only [hrun]
        exact ⟨trivial, hadvances⟩
      | goOn after =>
        obtain ⟨count, hcount, hafter, hshows⟩ := hadvances
        have hle := hafter.le_height
        obtain ⟨fuel, hlater⟩ := ih _ (by omega) (number + 1) hafter rfl
        refine ⟨fuel + 1, fun more hmore ↦ ?_⟩
        obtain ⟨less, rfl⟩ := Nat.exists_eq_add_of_le' (Nat.one_le_of_lt hmore)
        obtain ⟨hends, hrows⟩ := hlater less (by omega)
        have hrun : run turn (less + 1) number state =
            (yielded ++ (run turn less (number + 1) after).1,
              (run turn less (number + 1) after).2) := by
          simp only [run, if_neg hcurrent, hresult]
        have hsplit : mib.height starts - row = count + (mib.height starts - (row + count)) := by
          omega
        simp only [hrun]
        rw [hsplit, ← rowsFrom_append]
        exact ⟨hends, hshows.append hrows⟩

/-- A walk begins before the first row. -/
theorem isAt_initial (mib : Mib) (varBinds : List VarBind) :
    IsAt mib (varBinds.map Prod.fst) 0 (.initial varBinds) where
  le_height := Nat.zero_le _
  nullVarBinds := by
    rw [List.map_map]
    exact List.map_congr_left fun varBind _ ↦
      (decide_eq_false (Nat.not_lt_zero (mib.subtree varBind.1).length)).symm
  names := by
    rw [List.map_map]
    rfl

/-- From the start, a walk yields the rows of the MIB. -/
theorem run_initial_yields {turn : ℕ → WalkState → List SnmpResponse × Next}
    {varBinds : List VarBind}
    (hturn : ∀ number row state, varBinds ≠ [] → IsAt mib (varBinds.map Prod.fst) row state →
      Advances mib (varBinds.map Prod.fst) row (turn number state)) :
    Yields (fun fuel ↦ run turn fuel 0 (.initial varBinds)) (mib.rows (varBinds.map Prod.fst)) := by
  by_cases hnil : varBinds = []
  · subst hnil
    refine ⟨1, fun more hmore ↦ ?_⟩
    obtain ⟨fuel, rfl⟩ := Nat.exists_eq_add_of_le' hmore
    exact ⟨rfl, rfl⟩
  · exact run_yields (by simpa using hnil) (fun number row state ↦ hturn number row state hnil) 0
      (isAt_initial mib varBinds)

end Turns

/-! ### Walks -/

section Walks

variable {mib : Mib} {starts : List Oid} {options : WalkOptions} {row : ℕ} {state : WalkState}

/-- A request asks for the names it was given. -/
theorem names_asking (varBinds : List VarBind) :
    (asking varBinds).map Prod.fst = varBinds.map Prod.fst := by
  rw [asking, List.map_map]
  rfl

/-- Rows that advance from names advance from the bindings that ask for them. -/
theorem advances_asking {varBinds row : List VarBind}
    (hadvances : List.Forall₂ (fun name varBind ↦
      varBind.2.isException = false → name < varBind.1) (varBinds.map Prod.fst) row) :
    List.Forall₂ (fun orig varBind ↦ varBind.2.isException = false → orig.1 < varBind.1)
      (asking varBinds) row := by
  rw [asking, List.forall₂_map_left_iff]
  exact List.forall₂_map_left_iff.mp hadvances

/-- A GETNEXT is answered with the successors of its names. -/
theorem nextCmd_eq {agent : ℕ → Pdu → CallbackResult} (hagent : mib.AnswersNext agent) (number : ℕ)
    (requestID : ℤ) (varBinds : List VarBind) :
    ∃ errorIndex, nextCmd (agent number) requestID (asking varBinds) =
      .ok ⟨none, 0, errorIndex, [(varBinds.map Prod.fst).map mib.successor]⟩ := by
  obtain ⟨rspPDU, hresponse, hstatus, hvarBinds⟩ :=
    hagent number (Generator.sendVarBinds requestID (asking varBinds) .next)
  have hrow : rspPDU.varBinds = (varBinds.map Prod.fst).map mib.successor := by
    rw [hvarBinds, ← names_asking varBinds]
    rfl
  have hadvances : List.Forall₂ (fun name varBind ↦
      varBind.2.isException = false → name < varBind.1) (varBinds.map Prod.fst)
      rspPDU.varBinds := by
    rw [hrow, List.forall₂_map_right_iff, List.forall₂_same]
    exact fun name _ ↦ (le_successor mib name).2
  refine ⟨mutedErrorIndex rspPDU, ?_⟩
  rw [← hrow]
  exact command_eq hresponse hstatus rfl (advances_asking hadvances)

/-- A GETBULK is answered with some repetitions of its names. -/
theorem bulkCmd_eq {agent : ℕ → Pdu → CallbackResult} (hagent : mib.AnswersBulk agent) (number : ℕ)
    (maxRepetitions : ℕ) (requestID : ℤ) {varBinds : List VarBind} (hne : varBinds ≠ []) :
    ∃ errorIndex table, bulkCmd 0 maxRepetitions (agent number) requestID (asking varBinds) =
        .ok ⟨none, 0, errorIndex, table⟩ ∧
      mib.Repetitions (varBinds.map Prod.fst) table ∧ table ≠ [] := by
  obtain ⟨rspPDU, table, hresponse, hstatus, htable, hrepetitions, hflatten⟩ :=
    hagent number (Generator.sendVarBinds requestID (asking varBinds) (.bulk 0 maxRepetitions)) rfl
  have hnames : (Generator.sendVarBinds requestID (asking varBinds)
      (.bulk 0 maxRepetitions)).varBinds.map Prod.fst = varBinds.map Prod.fst :=
    names_asking varBinds
  rw [hnames] at hrepetitions
  have hrows : (Generator.bulk 0 maxRepetitions).kind.getVarBindTable
      (Generator.sendVarBinds requestID (asking varBinds) (.bulk 0 maxRepetitions)) rspPDU =
        table := by
    refine getBulkVarBindTable_eq rfl (by simpa [Generator.sendVarBinds, asking] using hne) ?_
      hflatten
    intro row hrow
    rw [length_of_repetitions hrepetitions row hrow, ← hnames, List.length_map]
  have hlast := List.getLast?_eq_some_getLast htable
  have hadvances := advances_of_repetitions hrepetitions _ (List.getLast_mem htable)
  refine ⟨mutedErrorIndex rspPDU, table, ?_, hrepetitions, htable⟩
  rw [bulkCmd, command_eq hresponse hstatus ((congrArg List.getLast? hrows).trans hlast)
    (advances_asking hadvances), hrows]

/-- The GETNEXT walk of subtrees and the GETBULK walk both yield what stands below the starting
names, row by row, and return. -/
theorem walks_agree (mib : Mib) (options : WalkOptions) (requestIDs : ℕ → ℤ)
    (varBinds : List VarBind) (maxRepetitions : ℕ) (nextAgent bulkAgent : ℕ → Pdu → CallbackResult)
    (hoptions : IsSubtreeWalk options) (hnext : mib.AnswersNext nextAgent)
    (hbulk : mib.AnswersBulk bulkAgent) :
    Yields (walkCmd options nextAgent requestIDs varBinds) (mib.rows (varBinds.map Prod.fst)) ∧
      Yields (bulkWalkCmd options bulkAgent requestIDs 0 maxRepetitions varBinds)
        (mib.rows (varBinds.map Prod.fst)) := by
  constructor
  · refine run_initial_yields fun number row state hne hat ↦ ?_
    obtain ⟨errorIndex, hresult⟩ :=
      nextCmd_eq hnext number (requestIDs number) state.currentVarBinds
    rw [hresult]
    exact advances_walkTurn hoptions (by simpa using hne) hat errorIndex
  · refine run_initial_yields fun number row state hne hat ↦ ?_
    have hcurrent : state.currentVarBinds ≠ [] := by
      intro hnil
      have hnames := hat.names
      rw [hnil, List.map_map] at hnames
      exact hne (List.map_eq_nil_iff.mp hnames.symm)
    obtain ⟨errorIndex, table, hresult, htable, hrows⟩ :=
      bulkCmd_eq hbulk number (repetitions options maxRepetitions state) (requestIDs number)
        hcurrent
    rw [hresult]
    exact advances_bulkWalkTurn hoptions hat htable hrows errorIndex

end Walks

/-! ### A table with columns of different lengths -/

/-- Two columns, and what follows them. -/
def sampleMib : Mib where
  entries := ⟨[([1, 1, 1], .integer 1), ([1, 1, 2], .integer 2), ([1, 2, 1], .integer 3),
    ([2], .integer 4)], by decide⟩
  hasValues := by decide

/-- Rows of successors, two at a time. -/
def sampleTable (asked : List Oid) : List (List VarBind) :=
  [asked.map sampleMib.successor,
    ((asked.map sampleMib.successor).map Prod.fst).map sampleMib.successor]

/-- An agent that answers GETNEXT. -/
def sampleNextAgent (_number : ℕ) (reqPDU : Pdu) : CallbackResult :=
  .response { reqPDU with
    errorStatus := 0
    varBinds := (reqPDU.varBinds.map Prod.fst).map sampleMib.successor }

/-- An agent that answers GETBULK. -/
def sampleBulkAgent (_number : ℕ) (reqPDU : Pdu) : CallbackResult :=
  .response { reqPDU with
    errorStatus := 0
    varBinds := (sampleTable (reqPDU.varBinds.map Prod.fst)).flatten }

theorem walks_agree_sampleMib :
    Yields (walkCmd {} sampleNextAgent (fun _ ↦ 0) [([1, 1], .null), ([1, 2], .null)])
        [[([1, 1, 1], .integer 1), ([1, 2, 1], .integer 3)],
          [([1, 1, 2], .integer 2), ([1, 2, 1], .endOfMibView)]] ∧
      Yields (bulkWalkCmd {} sampleBulkAgent (fun _ ↦ 0) 0 2 [([1, 1], .null), ([1, 2], .null)])
        [[([1, 1, 1], .integer 1), ([1, 2, 1], .integer 3)],
          [([1, 1, 2], .integer 2), ([1, 2, 1], .endOfMibView)]] :=
  walks_agree sampleMib {} (fun _ ↦ 0) [([1, 1], .null), ([1, 2], .null)] 2 sampleNextAgent
    sampleBulkAgent ⟨rfl, rfl, rfl⟩ (fun _ _ ↦ ⟨_, rfl, rfl, rfl⟩)
    fun _ _ _ ↦ ⟨_, _, rfl, rfl, List.cons_ne_nil _ _, .cons (.cons (.nil _)), rfl⟩

end Pysnmp.Hlapi.WalksAgree
