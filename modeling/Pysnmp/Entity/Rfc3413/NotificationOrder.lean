import Mathlib.Data.List.Count
import Pysnmp.Foundation.ListObjects
import Pysnmp.Proto.Types

/-!
# The order of a notification's bindings

`orderNotificationVarBinds` of `entity/rfc3413/ntforg.py`. It copies the caller's list and then
edits the copy in place: it inserts an uptime, moves the caller's own uptime over it, and moves
`snmpTrapOID.0` to the second place. Both moves walk a snapshot of the copy's tail, whose positions
are those of the copy until the first edit, and the walk stops there.
-/

set_option autoImplicit false
set_option relaxedAutoImplicit false

namespace Pysnmp.Entity.Rfc3413.NotificationOrder

open Foundation Foundation.Effect Foundation.ListObjects Proto

variable {ν : Type}

abbrev VarBind (ν : Type) := Oid × ν

/-- What is read of a MIB instance: its name, and what its syntax is when cloned. -/
structure MibInstance (ν : Type) where
  name : Oid
  clonedSyntax : ν
  deriving DecidableEq, Repr

/-- `sysUpTime` of `__SNMPv2-MIB`; its clone is the engine's uptime at the moment. -/
def sysUpTime (uptime : ν) : MibInstance ν where
  name := [1, 3, 6, 1, 2, 1, 1, 3, 0]
  clonedSyntax := uptime

/-- `snmpTrapOID` of `__SNMPv2-MIB`. -/
def snmpTrapOID (coldStart : ν) : MibInstance ν where
  name := [1, 3, 6, 1, 6, 3, 1, 1, 4, 1, 0]
  clonedSyntax := coldStart

/-- What the function can raise. -/
inductive OrderException where
  | indexError
  | pySnmpError (message : String)
  deriving DecidableEq, Repr

abbrev OrderOp (ν β : Type) := Effect (Objects (VarBind ν)) OrderException β

/-- A binding is of an instance. -/
def MibInstance.names (instrument : MibInstance ν) (varBind : VarBind ν) : Bool :=
  varBind.1 = instrument.name

/-- An uptime goes in front unless there is one. -/
def supplyUptime (sysUpTime : MibInstance ν) (ordered : ℕ) : OrderOp ν Unit := do
  let items ← contents .indexError ordered
  runIf (items.head?.map Prod.fst ≠ some sysUpTime.name)
    (insert .indexError ordered 0 (sysUpTime.name, sysUpTime.clonedSyntax))

/-- The caller's own uptime replaces the first binding. -/
def replaceUptime (sysUpTime : MibInstance ν) (ordered : ℕ) :
    ℕ → List (VarBind ν) → OrderOp ν Unit
  | _, [] => pure ()
  | idx, varBind :: rest =>
    if varBind.1 = sysUpTime.name then do
      setItem .indexError ordered 0 varBind
      delItem .indexError ordered idx
    else
      replaceUptime sysUpTime ordered (idx + 1) rest

def trapOIDMissing : OrderException :=
  .pySnmpError ("SNMP notification PDU requires SNMPv2-MIB::snmpTrapOID.0 " ++
    "to be present among var-binds")

/-- The first binding of `snmpTrapOID.0` moves to the second place. -/
def moveTrapOID (snmpTrapOID : MibInstance ν) (ordered : ℕ) :
    ℕ → List (VarBind ν) → OrderOp ν Unit
  | _, [] => raise trapOIDMissing
  | idx, varBind :: rest =>
    if varBind.1 = snmpTrapOID.name then
      runIf (idx ≠ 1) do
        let moved ← pop .indexError ordered idx
        insert .indexError ordered 1 moved
    else
      moveTrapOID snmpTrapOID ordered (idx + 1) rest

/-- `orderNotificationVarBinds`: the reference of the list it returns. -/
def orderNotificationVarBinds (varBinds : ℕ) (sysUpTime snmpTrapOID : MibInstance ν) :
    OrderOp ν ℕ := do
  let items ← contents .indexError varBinds
  let ordered ← newList items
  supplyUptime sysUpTime ordered
  let supplied ← contents .indexError ordered
  replaceUptime sysUpTime ordered 1 supplied.tail
  let replaced ← contents .indexError ordered
  moveTrapOID snmpTrapOID ordered 1 replaced.tail
  pure ordered

/-! ### What each edit does to the copy -/

section Edits

variable {objects : Objects (VarBind ν)} {instrument : MibInstance ν}

/-- The binding the engine has for an uptime. -/
def MibInstance.binding (instrument : MibInstance ν) : VarBind ν :=
  (instrument.name, instrument.clonedSyntax)

/-- The first binding, and those behind it, after an uptime is supplied. -/
def supplied (sysUpTime : MibInstance ν) : List (VarBind ν) → VarBind ν × List (VarBind ν)
  | [] => (sysUpTime.binding, [])
  | varBind :: rest =>
    if sysUpTime.names varBind then (varBind, rest) else (sysUpTime.binding, varBind :: rest)

theorem supplyUptime_run (items : List (VarBind ν)) :
    (supplyUptime instrument objects.length).run (objects ++ [items]) =
      (.ok (), objects ++ [(supplied instrument items).1 :: (supplied instrument items).2]) := by
  rw [supplyUptime, bind_run_of_ok contents_run_last]
  cases items with
  | nil => exact insert_run_last (Nat.zero_le _)
  | cons varBind rest =>
    by_cases hname : varBind.1 = instrument.name
    · rw [runIf_of_false _ (by simpa using hname), supplied,
        if_pos (show instrument.names varBind = true from decide_eq_true hname)]
      rfl
    · rw [runIf_of_true _ (by simpa using hname), insert_run_last (Nat.zero_le _), supplied,
        if_neg (by simpa [MibInstance.names] using hname)]
      rfl

/-- The walk has passed the bindings `passed`; the induction is on those still to be seen. -/
theorem replaceUptime_run (first : VarBind ν) (passed rest : List (VarBind ν)) :
    (replaceUptime instrument objects.length (passed.length + 1) rest).run
        (objects ++ [first :: (passed ++ rest)]) =
      (.ok (), objects ++ [(rest.find? instrument.names).getD first ::
        (passed ++ rest.eraseP instrument.names)]) := by
  induction rest generalizing passed with
  | nil => rfl
  | cons varBind rest ih =>
    rw [replaceUptime]
    split_ifs with hname
    · have hfound : instrument.names varBind = true := decide_eq_true hname
      rw [bind_run_of_ok (setItem_run_last (Nat.zero_lt_succ _)), delItem_run_last (by simp),
        List.find?_cons_of_pos hfound, List.eraseP_cons_of_pos hfound]
      simp [List.eraseIdx_append_of_length_le]
    · have hother : ¬ instrument.names varBind = true := by simpa [MibInstance.names] using hname
      have hrest := ih (passed ++ [varBind])
      rw [List.length_append, List.append_assoc, List.append_assoc] at hrest
      rw [List.find?_cons_of_neg hother, List.eraseP_cons_of_neg hother]
      exact hrest

theorem moveTrapOID_run (first : VarBind ν) {trap : VarBind ν} {passed rest : List (VarBind ν)}
    (htrap : rest.find? instrument.names = some trap) :
    (moveTrapOID instrument objects.length (passed.length + 1) rest).run
        (objects ++ [first :: (passed ++ rest)]) =
      (.ok (), objects ++ [first :: trap :: (passed ++ rest.eraseP instrument.names)]) := by
  induction rest generalizing passed with
  | nil => exact absurd htrap (by simp)
  | cons varBind rest ih =>
    rw [moveTrapOID]
    split_ifs with hname
    · have hfound : instrument.names varBind = true := decide_eq_true hname
      rw [List.find?_cons_of_pos hfound, Option.some.injEq] at htrap
      rw [List.eraseP_cons_of_pos hfound, ← htrap]
      cases passed with
      | nil => rfl
      | cons second passed =>
        have hitem :
            (first :: (second :: passed ++ varBind :: rest))[(second :: passed).length + 1]? =
              some varBind := by
          simp
        rw [runIf_of_true _ (by simp), bind_run_of_ok (pop_run_last hitem),
          insert_run_last (by simp)]
        simp [List.eraseIdx_append_of_length_le]
    · have hother : ¬ instrument.names varBind = true := by simpa [MibInstance.names] using hname
      rw [List.find?_cons_of_neg hother] at htrap
      have hrest := @ih (passed ++ [varBind]) htrap
      rw [List.length_append, List.append_assoc, List.append_assoc] at hrest
      rw [List.eraseP_cons_of_neg hother]
      exact hrest

theorem moveTrapOID_run_of_none {rest : List (VarBind ν)}
    (htrap : rest.find? instrument.names = none) (idx ordered : ℕ) :
    (moveTrapOID instrument ordered idx rest).run objects = (.error trapOIDMissing, objects) := by
  induction rest generalizing idx with
  | nil => rfl
  | cons varBind rest ih =>
    rw [List.find?_eq_none] at htrap
    have hother : varBind.1 ≠ instrument.name := by
      simpa [MibInstance.names] using htrap varBind List.mem_cons_self
    rw [moveTrapOID, if_neg hother]
    exact ih (List.find?_eq_none.mpr fun other hmem ↦ htrap other (List.mem_cons_of_mem _ hmem)) _

end Edits

/-! ### The order -/

/-- The uptime of a notification: the caller's if there is one, else the engine's. -/
def uptimeOf (sysUpTime : MibInstance ν) (varBinds : List (VarBind ν)) : VarBind ν :=
  (varBinds.find? sysUpTime.names).getD sysUpTime.binding

/-- All bindings but the first trap name and the uptimes. -/
def others (sysUpTime snmpTrapOID : MibInstance ν) (varBinds : List (VarBind ν)) :
    List (VarBind ν) :=
  (varBinds.eraseP snmpTrapOID.names).filter fun varBind ↦ !sysUpTime.names varBind

theorem eraseP_eq_filter {α : Type} {p : α → Bool} {l : List α} (hcount : l.countP p ≤ 1) :
    l.eraseP p = l.filter fun a ↦ !p a := by
  induction l with
  | nil => rfl
  | cons a l ih =>
    by_cases ha : p a = true
    · rw [List.countP_cons_of_pos ha] at hcount
      have hrest : l.countP p = 0 := by omega
      rw [List.countP_eq_zero] at hrest
      rw [List.eraseP_cons_of_pos ha, List.filter_cons_of_neg (by simpa using ha)]
      exact (List.filter_eq_self.mpr fun b hb ↦ by simpa using hrest b hb).symm
    · rw [List.countP_cons_of_neg ha] at hcount
      rw [List.eraseP_cons_of_neg ha, List.filter_cons_of_pos (by simpa using ha), ih hcount]

section Order

variable {uptime trapOID : MibInstance ν} {varBinds : List (VarBind ν)}

theorem names_eq_false (hnames : uptime.name ≠ trapOID.name) {varBind : VarBind ν}
    (htrap : trapOID.names varBind = true) : uptime.names varBind = false := by
  rw [MibInstance.names, decide_eq_true_eq] at htrap
  exact decide_eq_false fun huptime ↦ hnames (huptime.symm.trans htrap)

/-- Where the trap name is found is not changed by what is done about the uptime. -/
theorem find?_behindUptime (hnames : uptime.name ≠ trapOID.name) :
    ((supplied uptime varBinds).2.eraseP uptime.names).find? trapOID.names =
      varBinds.find? trapOID.names := by
  have herase (l : List (VarBind ν)) :
      (l.eraseP uptime.names).find? trapOID.names = l.find? trapOID.names := by
    induction l with
    | nil => rfl
    | cons varBind rest ih =>
      by_cases hname : uptime.names varBind = true
      · have hother : ¬ trapOID.names varBind = true := fun htrap ↦ by
          rw [names_eq_false hnames htrap] at hname
          cases hname
        rw [List.eraseP_cons_of_pos hname, List.find?_cons_of_neg hother]
      · rw [List.eraseP_cons_of_neg hname, List.find?_cons, List.find?_cons, ih]
  rw [herase]
  cases varBinds with
  | nil => rfl
  | cons varBind rest =>
    rw [supplied]
    split_ifs with hname
    · refine (List.find?_cons_of_neg fun htrap ↦ ?_).symm
      rw [names_eq_false hnames htrap] at hname
      cases hname
    · rfl

theorem getD_find?_supplied (hcount : varBinds.countP uptime.names ≤ 1) :
    ((supplied uptime varBinds).2.find? uptime.names).getD (supplied uptime varBinds).1 =
      uptimeOf uptime varBinds := by
  cases varBinds with
  | nil => rfl
  | cons varBind rest =>
    rw [supplied, uptimeOf]
    split_ifs with hname
    · rw [List.countP_cons_of_pos hname] at hcount
      have hrest : rest.find? uptime.names = none :=
        List.find?_eq_none.mpr (List.countP_eq_zero.mp (by omega))
      rw [hrest, List.find?_cons_of_pos hname]
      rfl
    · rfl

theorem eraseP_supplied (hnames : uptime.name ≠ trapOID.name)
    (hcount : varBinds.countP uptime.names ≤ 1) :
    ((supplied uptime varBinds).2.eraseP uptime.names).eraseP trapOID.names =
      others uptime trapOID varBinds := by
  have hfilter : (supplied uptime varBinds).2.eraseP uptime.names =
      varBinds.filter fun varBind ↦ !uptime.names varBind := by
    rw [← eraseP_eq_filter hcount]
    cases varBinds with
    | nil => rfl
    | cons varBind rest =>
      rw [supplied]
      split_ifs with hname
      · rw [List.countP_cons_of_pos hname] at hcount
        have hrest : rest.countP uptime.names = 0 := by omega
        rw [List.eraseP_cons_of_pos hname]
        exact List.eraseP_of_forall_not (List.countP_eq_zero.mp hrest)
      · rfl
  have hboth : (fun varBind ↦ trapOID.names varBind && !uptime.names varBind) =
      trapOID.names := by
    ext varBind
    cases htrap : trapOID.names varBind with
    | false => rfl
    | true => rw [names_eq_false hnames htrap]; rfl
  rw [hfilter, List.eraseP_filter, hboth, others]

variable {objects : Objects (VarBind ν)} {reference : ℕ}

/-- What is left when the trap name is looked for: the copy with its uptime in front. -/
theorem orderNotificationVarBinds_run (hvarBinds : objects[reference]? = some varBinds) :
    (orderNotificationVarBinds reference uptime trapOID).run objects =
      (moveTrapOID trapOID objects.length 1
          ((supplied uptime varBinds).2.eraseP uptime.names) >>=
        fun _ ↦ pure objects.length).run
        (objects ++ [((supplied uptime varBinds).2.find? uptime.names).getD
          (supplied uptime varBinds).1 :: (supplied uptime varBinds).2.eraseP uptime.names]) := by
  have hreplace := @replaceUptime_run ν objects uptime (supplied uptime varBinds).1 []
    (supplied uptime varBinds).2
  rw [List.length_nil, Nat.zero_add, List.nil_append, List.nil_append] at hreplace
  rw [orderNotificationVarBinds, bind_run_of_ok (contents_run hvarBinds),
    bind_run_of_ok newList_run, bind_run_of_ok (supplyUptime_run _),
    bind_run_of_ok contents_run_last, List.tail_cons, bind_run_of_ok hreplace,
    bind_run_of_ok contents_run_last, List.tail_cons]

theorem run_of_find?_eq_some (hvarBinds : objects[reference]? = some varBinds)
    (hnames : uptime.name ≠ trapOID.name) {trap : VarBind ν}
    (htrap : varBinds.find? trapOID.names = some trap) :
    (orderNotificationVarBinds reference uptime trapOID).run objects =
      (.ok objects.length, objects ++ [((supplied uptime varBinds).2.find? uptime.names).getD
        (supplied uptime varBinds).1 :: trap ::
          ((supplied uptime varBinds).2.eraseP uptime.names).eraseP trapOID.names]) := by
  rw [← find?_behindUptime hnames] at htrap
  rw [orderNotificationVarBinds_run hvarBinds]
  exact bind_run_of_ok (@moveTrapOID_run ν objects trapOID _ trap [] _ htrap)

theorem run_of_find?_eq_none (hvarBinds : objects[reference]? = some varBinds)
    (hnames : uptime.name ≠ trapOID.name) (htrap : varBinds.find? trapOID.names = none) :
    ∃ copy, (orderNotificationVarBinds reference uptime trapOID).run objects =
      (.error trapOIDMissing, objects ++ [copy]) := by
  rw [← find?_behindUptime hnames] at htrap
  rw [orderNotificationVarBinds_run hvarBinds]
  exact ⟨_, bind_run_of_error (moveTrapOID_run_of_none htrap _ _)⟩

end Order

theorem sysUpTime_name_ne (uptime coldStart : ν) :
    (sysUpTime uptime).name ≠ (snmpTrapOID coldStart).name := by
  show [1, 3, 6, 1, 2, 1, 1, 3, 0] ≠ [1, 3, 6, 1, 6, 3, 1, 1, 4, 1, 0]
  decide

/-- The uptime comes first, the first trap name second and all others behind them; only a missing
trap name is an error, and no list there was is changed. -/
theorem orderNotificationVarBinds_outcome (uptime coldStart : ν) {objects : Objects (VarBind ν)}
    {reference : ℕ} {varBinds : List (VarBind ν)}
    (hvarBinds : objects[reference]? = some varBinds) :
    (∀ trap, varBinds.find? (snmpTrapOID coldStart).names = some trap →
      varBinds.countP (sysUpTime uptime).names ≤ 1 →
      (orderNotificationVarBinds reference (sysUpTime uptime) (snmpTrapOID coldStart)).run objects =
        (.ok objects.length, objects ++ [uptimeOf (sysUpTime uptime) varBinds :: trap ::
          others (sysUpTime uptime) (snmpTrapOID coldStart) varBinds])) ∧
    ((∃ exception, ((orderNotificationVarBinds reference (sysUpTime uptime)
        (snmpTrapOID coldStart)).run objects).1 = .error exception) ↔
      ∀ varBind ∈ varBinds, varBind.1 ≠ (snmpTrapOID coldStart).name) ∧
    ∀ (other : ℕ) (items : List (VarBind ν)), objects[other]? = some items →
      ((orderNotificationVarBinds reference (sysUpTime uptime)
        (snmpTrapOID coldStart)).run objects).2[other]? = some items := by
  have hnames := sysUpTime_name_ne uptime coldStart
  have hpresent : varBinds.find? (snmpTrapOID coldStart).names = none ↔
      ∀ varBind ∈ varBinds, varBind.1 ≠ (snmpTrapOID coldStart).name := by
    simp [List.find?_eq_none, MibInstance.names]
  have hkept (copy : List (VarBind ν)) (other : ℕ) (items : List (VarBind ν))
      (hother : objects[other]? = some items) : (objects ++ [copy])[other]? = some items := by
    obtain ⟨hlt, -⟩ := List.getElem?_eq_some_iff.mp hother
    rw [List.getElem?_append_left hlt, hother]
  refine ⟨fun trap htrap hcount ↦ ?_, ?_, ?_⟩
  · rw [run_of_find?_eq_some hvarBinds hnames htrap, getD_find?_supplied hcount,
      eraseP_supplied hnames hcount]
  · rw [← hpresent]
    cases htrap : varBinds.find? (snmpTrapOID coldStart).names with
    | none =>
      obtain ⟨copy, hrun⟩ := run_of_find?_eq_none hvarBinds hnames htrap
      simp [hrun]
    | some trap => simp [run_of_find?_eq_some hvarBinds hnames htrap]
  · cases htrap : varBinds.find? (snmpTrapOID coldStart).names with
    | none =>
      obtain ⟨copy, hrun⟩ := run_of_find?_eq_none hvarBinds hnames htrap
      rw [hrun]
      exact hkept copy
    | some trap =>
      rw [run_of_find?_eq_some hvarBinds hnames htrap]
      exact hkept _

/-- A payload, the trap name, the caller's uptime 4242 and another payload. -/
def sampleVarBinds : List (VarBind ℕ) :=
  [([1, 3, 6, 1, 4, 1, 9999, 1], 10), ([1, 3, 6, 1, 6, 3, 1, 1, 4, 1, 0], 3),
    ([1, 3, 6, 1, 2, 1, 1, 3, 0], 4242), ([1, 3, 6, 1, 4, 1, 9999, 2], 20)]

theorem orderNotificationVarBinds_outcome_sample :
    (orderNotificationVarBinds 0 (sysUpTime 7) (snmpTrapOID 1)).run [sampleVarBinds] =
      (.ok 1, [sampleVarBinds,
        [([1, 3, 6, 1, 2, 1, 1, 3, 0], 4242), ([1, 3, 6, 1, 6, 3, 1, 1, 4, 1, 0], 3),
          ([1, 3, 6, 1, 4, 1, 9999, 1], 10), ([1, 3, 6, 1, 4, 1, 9999, 2], 20)]]) := by
  have hsample : [sampleVarBinds][0]? = some sampleVarBinds := rfl
  exact (orderNotificationVarBinds_outcome 7 1 hsample).1 _ rfl (by decide)

end Pysnmp.Entity.Rfc3413.NotificationOrder
