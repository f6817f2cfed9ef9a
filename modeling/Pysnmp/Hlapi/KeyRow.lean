import Mathlib.Data.List.TakeWhile
import Pysnmp.Foundation.LengthPrefix
import Pysnmp.Foundation.PrefixOrder
import Pysnmp.Hlapi.KeyChange
import Pysnmp.Proto.Secmod.DhCodecs

/-!
# The row of a user

`_findRow` of `hlapi/asyncio/dh.py` walks a column of `usmDHUserKeyTable` and takes the first
instance that ends in the user name and its length. An instance can end so that belongs to another
user: one whose name ends in these numbers itself, or one whose name is the end of the user's name,
with the rest of it at the end of the engine identifier.

`addressesRow_iff`: the row that is found is the user's exactly if no such row comes before it.
-/

set_option autoImplicit false
set_option relaxedAutoImplicit false

namespace Pysnmp.Hlapi.KeyChange

open Foundation Foundation.Effect Foundation.LengthPrefix Foundation.PrefixOrder Proto
open Proto.Secmod.DhAgreement

/-! ### Tables -/

/-- A row: its indices and the public value in the column. -/
structure TableRow where
  securityEngineId : Octets
  userName : Octets
  published : Octets

/-- The instance of the column in a row. -/
def TableRow.keyInstance (column : Oid) (row : TableRow) : Oid :=
  keyChangeInstance column row.securityEngineId row.userName

/-- The rows of a table, in the order of their instances and fewer than the search looks at. -/
structure KeyTable (column : Oid) where
  rows : List TableRow
  inOrder : rows.Pairwise fun first second ↦ first.keyInstance column < second.keyInstance column
  length_lt : rows.length < rowScanLimit

/-- The row after a name. -/
def rowAfter (column : Oid) (rows : List TableRow) (name : Oid) : Option TableRow :=
  rows.find? fun row ↦ name < row.keyInstance column

/-- The agent answers a name of the column with the row after it. Past the last row it answers with
something that is no cell of the column, or not at all. -/
structure Serves (agent : Agent) (column : Oid) (rows : List TableRow) : Prop where
  row : ∀ {log : List Exchange} {name : Oid} {row : TableRow}, column <+: name →
    rowAfter column rows name = some row →
      ∃ answer others table, agent.next log name = .ok answer ∧ answer.errorIndication = none ∧
        answer.errorStatus = 0 ∧ answer.varBinds =
          ((row.keyInstance column, .octetString row.published) :: others) :: table
  past : ∀ {log : List Exchange} {name : Oid} {answer : CommandResult (List (List VarBind))}
    {keyInstance : Oid} {value : BindingValue} {others : List VarBind}
    {table : List (List VarBind)}, column <+: name → rowAfter column rows name = none →
      agent.next log name = .ok answer →
      answer.varBinds = ((keyInstance, value) :: others) :: table →
        ¬ column <+: keyInstance ∨ value = .endOfMibView

/-! ### The row of a user -/

/-- An instance is found only if it is taken apart into the user's name, and one is found if the
user has a row. -/
structure AddressesRow (agent : Agent) (column : Oid) (rows : List TableRow) (userName : Octets)
    (log : List Exchange) : Prop where
  right : ∀ keyInstance published after,
    (findRow agent column userName).run log = (.ok (keyInstance, published), after) →
      ∃ securityEngineId,
        parseKeyChangeInstance column keyInstance = .ok (securityEngineId, userName)
  found : (∃ row ∈ rows, row.userName = userName) →
    ∃ result after, (findRow agent column userName).run log = (.ok result, after)

/-- The name of the row ends in the user's name and its length; or it is the end of the user's name,
with its length, and the rest of the user's name, with the length of all of it, is the end of what
comes before. -/
def Resembles (column : Oid) (userName : Octets) (row : TableRow) : Prop :=
  counted (userName.map UInt8.toNat) <:+ row.userName.map UInt8.toNat ∨
    ∃ head, userName.map UInt8.toNat = head ++ counted (row.userName.map UInt8.toNat) ∧
      userName.length :: head <:+ column ++ counted (row.securityEngineId.map UInt8.toNat)

/-- No row that comes before the rows of the user can be mistaken for one. -/
def Distinguished (column : Oid) (userName : Octets) (rows : List TableRow) : Prop :=
  ∀ row ∈ rows.takeWhile fun row ↦ row.userName ≠ userName, ¬ Resembles column userName row

/-! ### Instances that end like a row of the user -/

theorem userSuffix_eq (userName : Octets) :
    userSuffix userName = counted (userName.map UInt8.toNat) := by
  rw [userSuffix, counted, List.length_map]

theorem keyInstance_eq (column : Oid) (row : TableRow) :
    row.keyInstance column = column ++ counted (row.securityEngineId.map UInt8.toNat) ++
      counted (row.userName.map UInt8.toNat) := by
  simp [TableRow.keyInstance, keyChangeInstance, counted]

theorem map_toNat_injective : Function.Injective (List.map UInt8.toNat) :=
  List.map_injective_iff.mpr fun _ _ ↦ UInt8.toNat_inj.mp

/-- The instance of a row ends in the user's name if it is one of the user, or resembles one. -/
theorem userSuffix_suffix_keyInstance_iff (column : Oid) (userName : Octets) (row : TableRow) :
    userSuffix userName <:+ row.keyInstance column ↔
      row.userName = userName ∨ Resembles column userName row := by
  rw [userSuffix_eq, keyInstance_eq, counted_suffix_append_iff, List.length_map,
    map_toNat_injective.eq_iff, eq_comm, Resembles]

/-- The rows that the search takes for those of the user. -/
def isTaken (column : Oid) (userName : Octets) (row : TableRow) : Bool :=
  userSuffix userName <:+ row.keyInstance column

/-! ### The walk -/

section Walk

variable {agent : Agent} {column : Oid} {rows : List TableRow} {userName : Octets}

/-- The rows that are left come after a name, and the others do not. -/
def Left (column : Oid) (rows : List TableRow) (name : Oid) (left : List TableRow) : Prop :=
  ∃ passed, rows = passed ++ left ∧ (∀ row ∈ passed, ¬ name < row.keyInstance column) ∧
    ∀ row ∈ left, name < row.keyInstance column

theorem Left.rowAfter_eq {name : Oid} {left : List TableRow} (hleft : Left column rows name left) :
    rowAfter column rows name = left.head? := by
  obtain ⟨passed, rfl, hpassed, hahead⟩ := hleft
  have hnone : passed.find? (fun row ↦ decide (name < row.keyInstance column)) = none :=
    List.find?_eq_none.mpr fun row hrow ↦ by simpa using hpassed row hrow
  rw [rowAfter, List.find?_append, hnone, Option.none_or]
  cases left with
  | nil => rfl
  | cons row left =>
    rw [List.find?_cons_of_pos (by simpa using hahead row List.mem_cons_self), List.head?_cons]

/-- From a row the walk goes on with those after it. -/
theorem Left.next {name : Oid} {row : TableRow} {left : List TableRow}
    (hinOrder : rows.Pairwise fun first second ↦
      first.keyInstance column < second.keyInstance column)
    (hleft : Left column rows name (row :: left)) :
    Left column rows (row.keyInstance column) left := by
  obtain ⟨passed, rfl, -, -⟩ := hleft
  obtain ⟨-, hafter, hbefore⟩ := List.pairwise_append.mp hinOrder
  refine ⟨passed ++ [row], by simp, fun other hother ↦ ?_, (List.pairwise_cons.mp hafter).1⟩
  rcases List.mem_append.mp hother with hpassed | hlast
  · exact lt_asymm (hbefore other hpassed row List.mem_cons_self)
  · exact List.mem_singleton.mp hlast ▸ lt_irrefl _

theorem left_column (column : Oid) (rows : List TableRow) : Left column rows column rows := by
  refine ⟨[], rfl, fun row hrow ↦ absurd hrow List.not_mem_nil, fun row _ ↦ ?_⟩
  rw [keyInstance_eq, List.append_assoc]
  nth_rewrite 1 [← List.append_nil column]
  exact append_lt_append_iff.mpr (List.nil_lt_cons _ _)

/-- What the walk finds, it has been answered with. -/
theorem exists_answer_of_findRowFrom {turns : ℕ} {name keyInstance : Oid} {published : Octets}
    {log after : List Exchange}
    (hrun : (findRowFrom agent column userName (turns + 1) name).run log =
      (.ok (keyInstance, published), after)) :
    ∃ answer other value others table, agent.next log name = .ok answer ∧
      answer.varBinds = ((other, value) :: others) :: table ∧ column <+: other ∧
      value ≠ .endOfMibView := by
  rw [findRowFrom] at hrun
  obtain ⟨answer, reads, hnext, hrun⟩ := bind_eq_ok_iff.mp hrun
  obtain ⟨_, _, _, hrun⟩ := bind_eq_ok_iff.mp hrun
  rw [nextCmd_run] at hnext
  cases hanswer : agent.next log name with
  | error exception =>
    rw [hanswer] at hnext
    cases hnext
  | ok result =>
    rw [hanswer] at hnext
    obtain rfl : result = answer := Except.ok.inj (Prod.mk.inj hnext).1
    split at hrun
    · next other value others table hbinds =>
      split_ifs at hrun with hcolumn hend
      · cases hrun
      · cases hrun
      · exact ⟨result, other, value, others, table, rfl, hbinds,
          List.prefix_iff_eq_take.mpr (not_not.mp hcolumn).symm, hend⟩
      · exact ⟨result, other, value, others, table, rfl, hbinds,
          List.prefix_iff_eq_take.mpr (not_not.mp hcolumn).symm, hend⟩
    · cases hrun

/-- Past the last row the walk ends with an exception. -/
theorem findRowFrom_past (hserves : Serves agent column rows) {turns : ℕ} {name : Oid}
    (hname : column <+: name) (hpast : rowAfter column rows name = none) (log : List Exchange) :
    ∃ exception after,
      (findRowFrom agent column userName turns name).run log = (.error exception, after) := by
  rcases hrun : (findRowFrom agent column userName turns name).run log with ⟨result, after⟩
  cases result with
  | error exception => exact ⟨exception, after, rfl⟩
  | ok found =>
    cases turns with
    | zero => cases hrun
    | succ turns =>
      obtain ⟨answer, other, value, others, table, hnext, hbinds, hcolumn, hend⟩ :=
        exists_answer_of_findRowFrom hrun
      rcases hserves.past hname hpast hnext hbinds with houtside | hvalue
      · exact absurd hcolumn houtside
      · exact absurd hvalue hend

/-- A turn of the walk is answered with the row after the name, and takes it or goes on from it. -/
theorem findRowFrom_succ_run (userName : Octets) (hserves : Serves agent column rows) {turns : ℕ}
    {name : Oid} {row : TableRow} (hname : column <+: name)
    (hrow : rowAfter column rows name = some row) (log : List Exchange) :
    ∃ after, (findRowFrom agent column userName (turns + 1) name).run log =
      if isTaken column userName row then
        (.ok (row.keyInstance column, row.published), after)
      else
        (findRowFrom agent column userName turns (row.keyInstance column)).run after := by
  obtain ⟨answer, others, table, hnext, hindication, hstatus, hbinds⟩ := hserves.row hname hrow
  have hfailed : failed answer "Walking usmDHUserKeyTable" = .ok () := by
    rw [failed, hindication]
    exact if_neg (not_not.mpr hstatus)
  have hrun : (nextCmd agent name).run log =
      (.ok answer, log ++ [.next name (.ok answer)]) := by
    rw [nextCmd_run, hnext]
    rfl
  have hcolumn : (row.keyInstance column).take column.length = column := by
    rw [keyInstance_eq, List.append_assoc, List.take_left]
  refine ⟨log ++ [.next name (.ok answer)], ?_⟩
  have htaken : (row.keyInstance column).drop ((row.keyInstance column).length -
      (userSuffix userName).length) = userSuffix userName ↔ isTaken column userName row := by
    rw [isTaken, decide_eq_true_iff, List.suffix_iff_eq_drop, eq_comm]
  rw [findRowFrom, bind_run_of_ok hrun, hfailed, bind_run_of_ok (liftExcept_run _ _), hbinds]
  simp only [hcolumn, ne_eq, not_true_eq_false, if_false, reduceCtorEq, htaken]
  split_ifs
  · rfl
  · rfl

/-- The walk returns the first of the rows that are left that it takes for one of the user. -/
theorem findRowFrom_run (userName : Octets) (hserves : Serves agent column rows)
    (hinOrder : rows.Pairwise fun first second ↦
      first.keyInstance column < second.keyInstance column)
    {turns : ℕ} {name : Oid} {left : List TableRow} (hname : column <+: name)
    (hturns : left.length < turns) (hleft : Left column rows name left) (log : List Exchange) :
    match left.find? (isTaken column userName) with
    | some row => ∃ after, (findRowFrom agent column userName turns name).run log =
        (.ok (row.keyInstance column, row.published), after)
    | none => ∃ exception after,
        (findRowFrom agent column userName turns name).run log = (.error exception, after) := by
  induction left generalizing turns name log with
  | nil => exact findRowFrom_past hserves hname hleft.rowAfter_eq log
  | cons row left ih =>
    obtain ⟨turns, rfl⟩ : ∃ others, turns = others + 1 :=
      Nat.exists_eq_add_of_lt (Nat.zero_lt_of_lt hturns) |>.imp fun _ h ↦ by omega
    obtain ⟨reads, hrun⟩ := findRowFrom_succ_run userName hserves hname hleft.rowAfter_eq log
    rw [hrun]
    by_cases htaken : isTaken column userName row
    · rw [List.find?_cons_of_pos htaken, if_pos htaken]
      exact ⟨reads, rfl⟩
    · rw [List.find?_cons_of_neg htaken, if_neg htaken]
      have hbelow : column <+: row.keyInstance column := by
        rw [keyInstance_eq, List.append_assoc]
        exact List.prefix_append _ _
      exact ih hbelow (Nat.lt_of_succ_lt_succ hturns) (hleft.next hinOrder) reads

end Walk

/-! ### The row that is found -/

/-- The first of some elements that is taken is a right one exactly if none is taken before the
right ones. -/
theorem forall_find?_eq_some_iff {α : Type} {taken right : α → Bool} {elements : List α}
    (htaken : ∀ element, right element → taken element) :
    (∀ element, elements.find? taken = some element → right element) ↔
      ∀ element ∈ elements.takeWhile fun element ↦ ¬ right element, ¬ taken element := by
  induction elements with
  | nil => simp
  | cons first elements ih =>
    by_cases hright : right first
    · simp [hright, htaken first hright]
    · by_cases hfirst : taken first
      · simp [hright, hfirst]
      · simpa [hright, hfirst] using ih

theorem isTaken_iff {column : Oid} {userName : Octets} {row : TableRow} :
    isTaken column userName row ↔ row.userName = userName ∨ Resembles column userName row := by
  rw [isTaken, decide_eq_true_iff]
  exact userSuffix_suffix_keyInstance_iff column userName row

theorem distinguished_iff {column : Oid} {userName : Octets} {rows : List TableRow} :
    Distinguished column userName rows ↔
      ∀ row, rows.find? (isTaken column userName) = some row → row.userName = userName := by
  have hright : ∀ row : TableRow, decide (row.userName = userName) → isTaken column userName row :=
    fun row hright ↦ isTaken_iff.mpr (Or.inl (of_decide_eq_true hright))
  have hfirst := @forall_find?_eq_some_iff _ _ _ rows hright
  simp only [decide_eq_true_eq] at hfirst
  rw [hfirst]
  refine forall₂_congr fun row hrow ↦ not_congr ?_
  have hother : row.userName ≠ userName := by
    simpa using List.mem_takeWhile_imp hrow
  rw [isTaken_iff, or_iff_right hother]

/-- The row that is found is one of the user exactly if no row that resembles one comes before. -/
theorem addressesRow_iff {agent : Agent} {column : Oid} (table : KeyTable column)
    (userName : Octets) (log : List Exchange) (hserves : Serves agent column table.rows) :
    AddressesRow agent column table.rows userName log ↔
      Distinguished column userName table.rows := by
  have hrun := findRowFrom_run userName hserves table.inOrder List.prefix_rfl
    table.length_lt (left_column column table.rows) log
  rw [distinguished_iff]
  constructor
  · intro haddresses row hfound
    rw [hfound] at hrun
    obtain ⟨after, hrun⟩ := hrun
    obtain ⟨securityEngineId, hparse⟩ := haddresses.right _ _ _ hrun
    rw [TableRow.keyInstance, parseKeyChangeInstance_keyChangeInstance] at hparse
    exact (Prod.mk.inj (Except.ok.inj hparse)).2
  · intro hright
    refine ⟨fun keyInstance published after hfind ↦ ?_, fun hrow ↦ ?_⟩
    · rw [findRow] at hfind
      cases hfound : table.rows.find? (isTaken column userName) with
      | none =>
        rw [hfound] at hrun
        obtain ⟨exception, other, hrun⟩ := hrun
        rw [hrun] at hfind
        cases hfind
      | some row =>
        rw [hfound] at hrun
        obtain ⟨other, hrun⟩ := hrun
        rw [hrun] at hfind
        obtain ⟨hresult, -⟩ := Prod.mk.inj hfind
        obtain ⟨rfl, rfl⟩ := Prod.mk.inj (Except.ok.inj hresult)
        refine ⟨row.securityEngineId, ?_⟩
        rw [TableRow.keyInstance, parseKeyChangeInstance_keyChangeInstance, hright row hfound]
    · obtain ⟨row, hmem, hname⟩ := hrow
      have hsome : (table.rows.find? (isTaken column userName)).isSome :=
        List.find?_isSome.mpr ⟨row, hmem, isTaken_iff.mpr (Or.inl hname)⟩
      obtain ⟨first, hfound⟩ := Option.isSome_iff_exists.mp hsome
      rw [hfound] at hrun
      obtain ⟨after, hrun⟩ := hrun
      exact ⟨_, after, hrun⟩

/-! ### Tables that are served -/

/-- An agent that answers from the rows, and after them with the end of its view. -/
def tableAgent (column : Oid) (rows : List TableRow) : Agent where
  get := fun _ _ ↦ .error "timeout"
  next := fun _ name ↦ .ok
    { errorIndication := none
      errorStatus := 0
      varBinds :=
        match rowAfter column rows name with
        | some row => [[(row.keyInstance column, .octetString row.published)]]
        | none => [[(name, .endOfMibView)]] }
  set := fun _ _ _ ↦ ⟨none, 0, []⟩

theorem serves_tableAgent (column : Oid) (rows : List TableRow) :
    Serves (tableAgent column rows) column rows where
  row := by
    intro log name row _ hrow
    exact ⟨_, [], [], rfl, rfl, rfl, by simp only [hrow]⟩
  past := by
    intro log name answer keyInstance value others table _ hnone hnext hbinds
    obtain rfl := Except.ok.inj hnext
    simp only [hnone] at hbinds
    cases hbinds
    exact Or.inr rfl

/-- A table with one row, of a user whose name is `b"\x01b"`. -/
def otherUserTable : KeyTable usmDHUserAuthKeyChange where
  rows := [⟨[128, 0, 0, 0, 1], [1, 98], [7]⟩]
  inOrder := List.pairwise_singleton _ _
  length_lt := by decide

/-- The search for the user `b` finds the row of the other one. -/
theorem not_addressesRow_otherUser :
    ¬ ∀ (agent : Agent) (column : Oid) (table : KeyTable column) (userName : Octets)
      (log : List Exchange), Serves agent column table.rows →
        AddressesRow agent column table.rows userName log := by
  intro hall
  have haddresses := hall _ _ otherUserTable [98] [] (serves_tableAgent _ _)
  obtain ⟨securityEngineId, hparse⟩ := haddresses.right
    (keyChangeInstance usmDHUserAuthKeyChange [128, 0, 0, 0, 1] [1, 98]) [7] _ rfl
  rw [parseKeyChangeInstance_keyChangeInstance] at hparse
  exact absurd (Prod.mk.inj (Except.ok.inj hparse)).2 (by decide)

/-- The table of two users of one engine, one of whom has the name `b`. -/
def twoUsersTable : KeyTable usmDHUserAuthKeyChange where
  rows := [⟨[128, 0, 0, 0, 1], [98], [7]⟩, ⟨[128, 0, 0, 0, 1], [1, 98], [7]⟩]
  inOrder := by decide
  length_lt := by decide

theorem addressesRow_iff_twoUsers :
    AddressesRow (tableAgent usmDHUserAuthKeyChange twoUsersTable.rows) usmDHUserAuthKeyChange
        twoUsersTable.rows [98] [] ↔
      Distinguished usmDHUserAuthKeyChange [98] twoUsersTable.rows :=
  addressesRow_iff twoUsersTable [98] [] (serves_tableAgent _ _)

end Pysnmp.Hlapi.KeyChange
