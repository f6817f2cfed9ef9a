import Pysnmp.Entity.Rfc3413.Config
import Pysnmp.Foundation.Run

/-!
# Lookups over a history of writes

A history is a sequence of SETs of the target, source and notification tables and of lookups. Every
binding of a SET raises the branch version of the entry it is under by one. A row of the source
addresses comes and goes with the target address it augments (`shareFate`), and a binding of its own
column leaves the version of the target addresses alone.

Each lookup is to answer as it would with empty caches (`AnswersAsFresh`). Of the six caches only
that of the target addresses can miss a SET: the lookups of a history stay fresh exactly if no SET
of it changes the source address of a target in that cache without touching the target addresses
(`everyStep_staysFresh_iff`).
-/

set_option autoImplicit false
set_option relaxedAutoImplicit false

namespace Pysnmp.Entity.Rfc3413.ConfigHistory

open Foundation Foundation.Effect Foundation.VersionedCache Foundation.VersionedMemo Proto Config
open Proto.Secmod.Rfc2576 (Interpreter TransportAddress isWithin snmpTCP6Domain snmpTCPDomain
  snmpUDP6Domain snmpUDPDomain)
open NotifyFilter (FilterEntry)

/-! ### Writing the tables -/

/-- A value for a column of `snmpTargetAddrTable`. -/
inductive TargetAddrCell
  | snmpTargetAddrName (value : Octets)
  | snmpTargetAddrTDomain (value : Oid)
  | snmpTargetAddrTAddress (value : Octets)
  | snmpTargetAddrTimeout (value : ℤ)
  | snmpTargetAddrRetryCount (value : ℤ)
  | snmpTargetAddrTagList (value : Octets)
  | snmpTargetAddrParams (value : Octets)
  | unread
  deriving DecidableEq, Repr

/-- A value for a column of `snmpTargetParamsTable`. -/
inductive TargetParamsCell
  | snmpTargetParamsMPModel (value : ℤ)
  | snmpTargetParamsSecurityModel (value : ℤ)
  | snmpTargetParamsSecurityName (value : Octets)
  | snmpTargetParamsSecurityLevel (value : ℤ)
  | unread
  deriving DecidableEq, Repr

/-- A value for a column of `snmpNotifyTable`. -/
inductive NotifyCell
  | snmpNotifyTag (value : Octets)
  | snmpNotifyType (value : ℤ)
  | unread
  deriving DecidableEq, Repr

/-- A value for a column of `snmpNotifyFilterProfileTable`. -/
inductive NotifyFilterProfileCell
  | snmpNotifyFilterProfileName (value : Octets)
  | snmpNotifyFilterProfileRowStatus (value : ℤ)
  | unread
  deriving DecidableEq, Repr

/-- A value for a column of `snmpNotifyFilterTable`. -/
inductive NotifyFilterCell
  | snmpNotifyFilterSubtree (value : Oid)
  | snmpNotifyFilterMask (value : Octets)
  | snmpNotifyFilterType (value : ℤ)
  | snmpNotifyFilterRowStatus (value : ℤ)
  | unread
  deriving DecidableEq, Repr

def TargetAddrCell.put : TargetAddrCell → TargetAddrRow → TargetAddrRow
  | .snmpTargetAddrName value, row => { row with snmpTargetAddrName := value }
  | .snmpTargetAddrTDomain value, row => { row with snmpTargetAddrTDomain := some value }
  | .snmpTargetAddrTAddress value, row => { row with snmpTargetAddrTAddress := some value }
  | .snmpTargetAddrTimeout value, row => { row with snmpTargetAddrTimeout := value }
  | .snmpTargetAddrRetryCount value, row => { row with snmpTargetAddrRetryCount := value }
  | .snmpTargetAddrTagList value, row => { row with snmpTargetAddrTagList := value }
  | .snmpTargetAddrParams value, row => { row with snmpTargetAddrParams := some value }
  | .unread, row => row

def TargetParamsCell.put : TargetParamsCell → TargetParamsRow → TargetParamsRow
  | .snmpTargetParamsMPModel value, row => { row with snmpTargetParamsMPModel := some value }
  | .snmpTargetParamsSecurityModel value, row =>
    { row with snmpTargetParamsSecurityModel := some value }
  | .snmpTargetParamsSecurityName value, row =>
    { row with snmpTargetParamsSecurityName := some value }
  | .snmpTargetParamsSecurityLevel value, row =>
    { row with snmpTargetParamsSecurityLevel := some value }
  | .unread, row => row

def NotifyCell.put : NotifyCell → NotifyRow → NotifyRow
  | .snmpNotifyTag value, row => { row with snmpNotifyTag := value }
  | .snmpNotifyType value, row => { row with snmpNotifyType := value }
  | .unread, row => row

def NotifyFilterProfileCell.put :
    NotifyFilterProfileCell → NotifyFilterProfileRow → NotifyFilterProfileRow
  | .snmpNotifyFilterProfileName value, row =>
    { row with snmpNotifyFilterProfileName := some value }
  | .snmpNotifyFilterProfileRowStatus value, row =>
    { row with snmpNotifyFilterProfileRowStatus := some value }
  | .unread, row => row

def NotifyFilterCell.put : NotifyFilterCell → NotifyFilterRow → NotifyFilterRow
  | .snmpNotifyFilterSubtree value, row => { row with snmpNotifyFilterSubtree := value }
  | .snmpNotifyFilterMask value, row => { row with snmpNotifyFilterMask := value }
  | .snmpNotifyFilterType value, row => { row with snmpNotifyFilterType := value }
  | .snmpNotifyFilterRowStatus value, row => { row with snmpNotifyFilterRowStatus := some value }
  | .unread, row => row

/-- What a binding of a SET does to a table: it writes a cell of a row, which may be in a column
that no lookup reads, creates a row, with the values its columns start from, or destroys one. -/
inductive RowChange (Cell Row : Type)
  | write (index : Oid) (cell : Cell)
  | create (index : Oid) (row : Row)
  | destroy (index : Oid)
  deriving DecidableEq, Repr

/-- The rows of a table after a change. -/
def changeRows {Cell Row : Type} (put : Cell → Row → Row) (rows : SortedMap Oid Row) :
    RowChange Cell Row → SortedMap Oid Row
  | .write index cell =>
    match rows.get? index with
    | none => rows
    | some row => rows.insert index (put cell row)
  | .create index row => rows.insert index row
  | .destroy index => rows.erase index

/-- A table after a change. -/
def changeTable {Cell Row : Type} (put : Cell → Row → Row) (table : EntryTable Row)
    (rowChange : RowChange Cell Row) : EntryTable Row where
  rows := changeRows put table.rows rowChange
  branchVersionId := table.branchVersionId + 1

/-- The source addresses after a change of the target addresses: a new row gets an instance without
a value, if it has none yet. -/
def shareFate (sources : SortedMap Oid (Option Octets)) :
    RowChange TargetAddrCell TargetAddrRow → SortedMap Oid (Option Octets)
  | .write _ _ => sources
  | .create index _ =>
    match sources.get? index with
    | none => sources.insert index none
    | some _ => sources
  | .destroy index => sources.erase index

/-- A binding of a SET, by the entry it is under. -/
inductive Binding
  | snmpTargetAddrEntry (rowChange : RowChange TargetAddrCell TargetAddrRow)
  | snmpSourceAddrEntry (index : Oid) (snmpSourceAddrTAddress : Octets)
  | snmpTargetParamsEntry (rowChange : RowChange TargetParamsCell TargetParamsRow)
  | snmpNotifyEntry (rowChange : RowChange NotifyCell NotifyRow)
  | snmpNotifyFilterProfileEntry
    (rowChange : RowChange NotifyFilterProfileCell NotifyFilterProfileRow)
  | snmpNotifyFilterEntry (rowChange : RowChange NotifyFilterCell NotifyFilterRow)
  deriving DecidableEq, Repr

/-- The tables after a binding. Writing the source address of a target that has no instance creates
one. -/
def Binding.apply (tables : ConfigTables) : Binding → ConfigTables
  | .snmpTargetAddrEntry rowChange =>
    { tables with
      snmpTargetAddrTable :=
        changeTable TargetAddrCell.put tables.snmpTargetAddrTable rowChange
      snmpSourceAddrTAddress := shareFate tables.snmpSourceAddrTAddress rowChange }
  | .snmpSourceAddrEntry index snmpSourceAddrTAddress =>
    { tables with
      snmpSourceAddrTAddress :=
        tables.snmpSourceAddrTAddress.insert index (some snmpSourceAddrTAddress) }
  | .snmpTargetParamsEntry rowChange =>
    { tables with
      snmpTargetParamsTable :=
        changeTable TargetParamsCell.put tables.snmpTargetParamsTable rowChange }
  | .snmpNotifyEntry rowChange =>
    { tables with
      snmpNotifyTable := changeTable NotifyCell.put tables.snmpNotifyTable rowChange }
  | .snmpNotifyFilterProfileEntry rowChange =>
    { tables with
      snmpNotifyFilterProfileTable :=
        changeTable NotifyFilterProfileCell.put tables.snmpNotifyFilterProfileTable
          rowChange }
  | .snmpNotifyFilterEntry rowChange =>
    { tables with
      snmpNotifyFilterTable :=
        changeTable NotifyFilterCell.put tables.snmpNotifyFilterTable rowChange }

/-- The tables after a SET. -/
def applyAll (tables : ConfigTables) (bindings : List Binding) : ConfigTables :=
  bindings.foldl Binding.apply tables

/-- The binding is one of `snmpTargetAddrTable`. -/
def Binding.isTargetAddr : Binding → Bool
  | .snmpTargetAddrEntry _ => true
  | _ => false

/-! ### Histories -/

/-- A call of a lookup. -/
inductive Lookup
  | getTargetAddr (snmpTargetAddrName : Octets)
  | getTargetParams (paramsName : Octets)
  | getNotificationInfo (notificationTarget : Octets)
  | getTargetNames (tag : Octets)
  | getNotifyFilterProfile (paramsName : Octets)
  | getNotifyFilter (filterProfileName : Octets)
  deriving DecidableEq, Repr

/-- What a lookup returns. -/
inductive Answer
  | targetAddr (targetAddr : TargetAddr)
  | targetParams (targetParams : TargetParamsRow)
  | notificationInfo (notificationInfo : NotifyRow)
  | targetNames (targetNames : List Octets)
  | notifyFilterProfile (profileName : Option (Option Octets))
  | notifyFilter (filterEntries : List FilterEntry)
  deriving DecidableEq, Repr

/-- A step of a history. -/
inductive Event
  | set (bindings : List Binding)
  | look (lookup : Lookup)
  deriving DecidableEq, Repr

/-- The tables and the user context. -/
structure State where
  tables : ConfigTables
  context : UserContext

variable (interpreter : Interpreter) (transports : List Oid)

/-- The lookup in the tables. -/
def Lookup.call (tables : ConfigTables) : Lookup → Effect UserContext ConfigError Answer
  | .getTargetAddr snmpTargetAddrName =>
    Answer.targetAddr <$> Config.getTargetAddr interpreter transports tables snmpTargetAddrName
  | .getTargetParams paramsName =>
    Answer.targetParams <$> Config.getTargetParams tables paramsName
  | .getNotificationInfo notificationTarget =>
    Answer.notificationInfo <$> Config.getNotificationInfo tables notificationTarget
  | .getTargetNames tag => Answer.targetNames <$> Config.getTargetNames tables tag
  | .getNotifyFilterProfile paramsName =>
    Answer.notifyFilterProfile <$> Config.getNotifyFilterProfile tables paramsName
  | .getNotifyFilter filterProfileName =>
    Answer.notifyFilter <$> Config.getNotifyFilter tables filterProfileName

/-- One step of a history. -/
def step (state : State) : Event → State
  | .set bindings => { state with tables := applyAll state.tables bindings }
  | .look lookup =>
    { state with
      context := ((lookup.call interpreter transports state.tables).run state.context).2 }

/-- Each call returns or fails as it would with empty caches on the same tables. -/
def AnswersAsFresh (state : State) : Prop :=
  ∀ lookup : Lookup, ((lookup.call interpreter transports state.tables).run state.context).1 =
    ((lookup.call interpreter transports state.tables).run .initial).1

/-- Each call returns or fails as with empty caches, before a step and after it. -/
def StaysFresh (state : State) (event : Event) : Prop :=
  AnswersAsFresh interpreter transports state ∧
    AnswersAsFresh interpreter transports (step interpreter transports state event)

/-- The domains whose addresses note a local address. -/
def hasLocalAddress (transportDomain : Oid) : Bool :=
  isWithin transportDomain snmpUDPDomain || isWithin transportDomain snmpUDP6Domain ||
    isWithin transportDomain snmpTCPDomain || isWithin transportDomain snmpTCP6Domain

/-- The source address of a target is as it was, if the domain of the target asks for one. -/
def SameSource (before after : ConfigTables) (snmpTargetAddrName : Octets) : Prop :=
  ∀ index row transportDomain, getInstIdFromIndices snmpTargetAddrName = .ok index →
    before.snmpTargetAddrTable.rows.get? index = some row →
    row.snmpTargetAddrTDomain = some transportDomain → hasLocalAddress transportDomain = true →
    after.snmpSourceAddrTAddress.get? index = before.snmpSourceAddrTAddress.get? index

/-- The cache of the target addresses does not miss a SET: it is not at their version, the SET
raises that, or the source addresses of the targets in the cache are as they were. -/
def IsSeen (state : State) (bindings : List Binding) : Prop :=
  state.context.getTargetAddr.version = state.tables.snmpTargetAddrTable.branchVersionId →
    bindings.any Binding.isTargetAddr = true ∨
      ∀ name, (state.context.getTargetAddr.readings name).isSome →
        SameSource state.tables (applyAll state.tables bindings) name

/-- A step after which every cache still says what the tables do. -/
def IsTracked (state : State) : Event → Prop
  | .set bindings => IsSeen state bindings
  | .look _ => True

/-! ### What the lookups find -/

/-- What a lookup finds in the tables. -/
def Lookup.answer (tables : ConfigTables) : Lookup → Except ConfigError Answer
  | .getTargetAddr snmpTargetAddrName =>
    (readTargetAddr interpreter transports tables snmpTargetAddrName).map .targetAddr
  | .getTargetParams paramsName => (readTargetParams tables paramsName).map .targetParams
  | .getNotificationInfo notificationTarget =>
    (readNotificationInfo tables notificationTarget).map .notificationInfo
  | .getTargetNames tag =>
    ((build tagToTargetsAssembly tables.tags) >>= fun tagToTargetsMap ↦
      match tagToTargetsMap tag with
      | none => .error (.notConfigured "Transport tag" tag "at LCD")
      | some names => .ok names).map .targetNames
  | .getNotifyFilterProfile paramsName =>
    (readNotifyFilterProfile tables paramsName).map .notifyFilterProfile
  | .getNotifyFilter filterProfileName =>
    ((build profileToFiltersAssembly tables.filters) >>= fun profileToFiltersMap ↦
      .ok (profileToFiltersMap.elements filterProfileName)).map .notifyFilter

/-- Each cache is sound with the table it watches. -/
structure Sound (tables : ConfigTables) (context : UserContext) : Prop where
  getTargetAddr : VersionedMemo.Sound tables.snmpTargetAddrTable.branchVersionId
    (readTargetAddr interpreter transports tables) context.getTargetAddr
  getTargetParams : VersionedMemo.Sound tables.snmpTargetParamsTable.branchVersionId
    (readTargetParams tables) context.getTargetParams
  getNotificationInfo : VersionedMemo.Sound tables.snmpNotifyTable.branchVersionId
    (readNotificationInfo tables) context.getNotificationInfo
  getTargetNames : VersionedCache.Sound tagToTargetsAssembly tables.tags context.getTargetNames
  getNotifyFilterProfile :
    VersionedMemo.Sound tables.snmpNotifyFilterProfileTable.branchVersionId
      (readNotifyFilterProfile tables) context.getNotifyFilterProfile
  getNotifyFilter :
    VersionedCache.Sound profileToFiltersAssembly tables.filters context.getNotifyFilter

variable {interpreter transports}

theorem sound_initial (tables : ConfigTables) :
    Sound interpreter transports tables .initial where
  getTargetAddr := VersionedMemo.sound_empty (Int.natCast_nonneg _)
  getTargetParams := VersionedMemo.sound_empty (Int.natCast_nonneg _)
  getNotificationInfo := VersionedMemo.sound_empty (Int.natCast_nonneg _)
  getTargetNames := sound_of_initialVersion _ (Int.natCast_nonneg _)
  getNotifyFilterProfile := VersionedMemo.sound_empty (Int.natCast_nonneg _)
  getNotifyFilter := sound_of_initialVersion _ (Int.natCast_nonneg _)

/-- With sound caches a lookup finds what the tables say, and leaves sound caches. -/
theorem yields_call (tables : ConfigTables) (lookup : Lookup) :
    Yields (Sound interpreter transports tables) (lookup.call interpreter transports tables)
      (lookup.answer interpreter transports tables) := by
  cases lookup with
  | getTargetAddr name =>
    refine Yields.map (Yields.focus (yields_remember _ _ name) ?_ ?_) Answer.targetAddr
    · exact fun context hsound ↦ hsound.getTargetAddr
    · exact fun memo context hsound hmemo ↦ { hsound with getTargetAddr := hmemo }
  | getTargetParams name =>
    refine Yields.map (Yields.focus (yields_remember _ _ name) ?_ ?_) Answer.targetParams
    · exact fun context hsound ↦ hsound.getTargetParams
    · exact fun memo context hsound hmemo ↦ { hsound with getTargetParams := hmemo }
  | getNotificationInfo name =>
    refine Yields.map (Yields.focus (yields_remember _ _ name) ?_ ?_) Answer.notificationInfo
    · exact fun context hsound ↦ hsound.getNotificationInfo
    · exact fun memo context hsound hmemo ↦ { hsound with getNotificationInfo := hmemo }
  | getTargetNames tag =>
    refine Yields.map (Yields.bind (Yields.focus yields_refresh ?_ ?_) ?_) Answer.targetNames
    · exact fun context hsound ↦ hsound.getTargetNames
    · exact fun cache context hsound hcache ↦ { hsound with getTargetNames := hcache }
    · intro tagToTargetsMap _
      cases tagToTargetsMap tag with
      | none => exact yields_raise _
      | some names => exact yields_pure names
  | getNotifyFilterProfile name =>
    refine Yields.map (Yields.focus (yields_remember _ _ name) ?_ ?_) Answer.notifyFilterProfile
    · exact fun context hsound ↦ hsound.getNotifyFilterProfile
    · exact fun memo context hsound hmemo ↦ { hsound with getNotifyFilterProfile := hmemo }
  | getNotifyFilter name =>
    refine Yields.map (Yields.bind (Yields.focus yields_replace ?_ ?_) ?_) Answer.notifyFilter
    · exact fun context hsound ↦ hsound.getNotifyFilter
    · exact fun cache context hsound hcache ↦ { hsound with getNotifyFilter := hcache }
    · exact fun profileToFiltersMap _ ↦ yields_pure _

/-! ### What a SET changes -/

/-- A table is as it was, or under a higher version. -/
def Raised {Row : Type} (before after : EntryTable Row) : Prop :=
  after = before ∨ before.branchVersionId < after.branchVersionId

theorem raised_changeTable {Cell Row : Type} (put : Cell → Row → Row) (table : EntryTable Row)
    (rowChange : RowChange Cell Row) : Raised table (changeTable put table rowChange) :=
  Or.inr (Nat.lt_succ_self _)

theorem Raised.trans {Row : Type} {before middle after : EntryTable Row}
    (hfirst : Raised before middle) (hsecond : Raised middle after) : Raised before after := by
  rcases hfirst with rfl | hfirst
  · exact hsecond
  · rcases hsecond with rfl | hsecond
    · exact Or.inr hfirst
    · exact Or.inr (hfirst.trans hsecond)

/-- Each table is as it was, or under a higher version. -/
structure Follows (before after : ConfigTables) : Prop where
  snmpTargetAddrTable : Raised before.snmpTargetAddrTable after.snmpTargetAddrTable
  snmpTargetParamsTable : Raised before.snmpTargetParamsTable after.snmpTargetParamsTable
  snmpNotifyTable : Raised before.snmpNotifyTable after.snmpNotifyTable
  snmpNotifyFilterProfileTable :
    Raised before.snmpNotifyFilterProfileTable after.snmpNotifyFilterProfileTable
  snmpNotifyFilterTable : Raised before.snmpNotifyFilterTable after.snmpNotifyFilterTable

theorem Follows.refl (tables : ConfigTables) : Follows tables tables :=
  ⟨Or.inl rfl, Or.inl rfl, Or.inl rfl, Or.inl rfl, Or.inl rfl⟩

theorem Follows.trans {before middle after : ConfigTables} (hfirst : Follows before middle)
    (hsecond : Follows middle after) : Follows before after where
  snmpTargetAddrTable := hfirst.snmpTargetAddrTable.trans hsecond.snmpTargetAddrTable
  snmpTargetParamsTable := hfirst.snmpTargetParamsTable.trans hsecond.snmpTargetParamsTable
  snmpNotifyTable := hfirst.snmpNotifyTable.trans hsecond.snmpNotifyTable
  snmpNotifyFilterProfileTable :=
    hfirst.snmpNotifyFilterProfileTable.trans hsecond.snmpNotifyFilterProfileTable
  snmpNotifyFilterTable := hfirst.snmpNotifyFilterTable.trans hsecond.snmpNotifyFilterTable

theorem follows_apply (tables : ConfigTables) (binding : Binding) :
    Follows tables (binding.apply tables) := by
  have hrefl := Follows.refl tables
  cases binding with
  | snmpTargetAddrEntry rowChange =>
    exact { hrefl with snmpTargetAddrTable := raised_changeTable _ _ _ }
  | snmpSourceAddrEntry index snmpSourceAddrTAddress => exact { hrefl with }
  | snmpTargetParamsEntry rowChange =>
    exact { hrefl with snmpTargetParamsTable := raised_changeTable _ _ _ }
  | snmpNotifyEntry rowChange =>
    exact { hrefl with snmpNotifyTable := raised_changeTable _ _ _ }
  | snmpNotifyFilterProfileEntry rowChange =>
    exact { hrefl with snmpNotifyFilterProfileTable := raised_changeTable _ _ _ }
  | snmpNotifyFilterEntry rowChange =>
    exact { hrefl with snmpNotifyFilterTable := raised_changeTable _ _ _ }

theorem follows_applyAll (tables : ConfigTables) (bindings : List Binding) :
    Follows tables (applyAll tables bindings) := by
  induction bindings generalizing tables with
  | nil => exact Follows.refl tables
  | cons binding bindings ih => exact (follows_apply tables binding).trans (ih _)

/-- A binding of the target addresses raises their version. -/
theorem branchVersionId_lt_applyAll (tables : ConfigTables) {bindings : List Binding}
    (hany : bindings.any Binding.isTargetAddr = true) :
    tables.snmpTargetAddrTable.branchVersionId <
      (applyAll tables bindings).snmpTargetAddrTable.branchVersionId := by
  induction bindings generalizing tables with
  | nil => cases hany
  | cons binding bindings ih =>
    rw [List.any_cons, Bool.or_eq_true] at hany
    rw [applyAll, List.foldl_cons, ← applyAll]
    rcases hany with hhead | htail
    · cases binding with
      | snmpTargetAddrEntry rowChange =>
        have hrest := follows_applyAll (Binding.apply tables (.snmpTargetAddrEntry rowChange))
          bindings
        rcases hrest.snmpTargetAddrTable with heq | hlt
        · rw [heq]
          exact Nat.lt_succ_self _
        · exact (Nat.lt_succ_self _).trans hlt
      | _ => cases hhead
    · rcases (follows_apply tables binding).snmpTargetAddrTable with heq | hlt
      · rw [← heq]
        exact ih _ htail
      · exact hlt.trans (ih _ htail)

/-- Other bindings leave the target addresses as they were, and no source address goes. -/
theorem applyAll_of_any_eq_false (tables : ConfigTables) {bindings : List Binding}
    (hany : bindings.any Binding.isTargetAddr = false) :
    (applyAll tables bindings).snmpTargetAddrTable = tables.snmpTargetAddrTable ∧
      ∀ index, (tables.snmpSourceAddrTAddress.get? index).isSome →
        ((applyAll tables bindings).snmpSourceAddrTAddress.get? index).isSome := by
  induction bindings generalizing tables with
  | nil => exact ⟨rfl, fun index hindex ↦ hindex⟩
  | cons binding bindings ih =>
    obtain ⟨hhead, htail⟩ := Bool.or_eq_false_iff.mp hany
    rw [applyAll, List.foldl_cons, ← applyAll]
    obtain ⟨htable, hsources⟩ := ih (Binding.apply tables binding) htail
    cases binding with
    | snmpTargetAddrEntry rowChange => cases hhead
    | snmpSourceAddrEntry written value =>
      refine ⟨htable, fun index hindex ↦ hsources index ?_⟩
      rw [Binding.apply, SortedMap.get?_insert_eq_update]
      by_cases heq : index = written
      · rw [heq, Function.update_self]
        rfl
      · rwa [Function.update_of_ne heq]
    | _ => exact ⟨htable, hsources⟩

/-! ### The source address of a target -/

theorem fixedLength_eq_ok_iff {length : ℕ} {address : Option Octets} {octets : Octets} :
    fixedLength length address = .ok octets ↔ address = some octets ∧ octets.length = length := by
  cases address with
  | none => exact ⟨fun hfixed ↦ (nomatch hfixed), fun hfixed ↦ (nomatch hfixed.1)⟩
  | some found =>
    have hfixed : fixedLength length (some found) =
        if found.length = length then .ok found else .error .pyAsn1Error := rfl
    rw [hfixed]
    split_ifs with hlength
    · rw [Except.ok.injEq, Option.some.injEq]
      exact ⟨fun heq ↦ ⟨heq, heq ▸ hlength⟩, And.left⟩
    · refine ⟨fun heq ↦ (nomatch heq), fun ⟨heq, hoctets⟩ ↦ absurd hoctets ?_⟩
      rwa [← Option.some.inj heq]

/-- A socket's address has the local address in it. -/
theorem socketAddress_eq_ok_iff {length : ℕ} {addressType : Octets → TransportAddress}
    {target source : Option Octets} {address : TargetAddress} :
    socketAddress length addressType target source = .ok address ↔
      ∃ octets localAddress, fixedLength length target = .ok octets ∧
        fixedLength length source = .ok localAddress ∧
        .socket (addressType octets) localAddress = address := by
  rw [socketAddress]
  cases fixedLength length target with
  | error exception => exact ⟨fun heq ↦ (nomatch heq), fun ⟨_, _, heq, _⟩ ↦ (nomatch heq)⟩
  | ok octets =>
    cases fixedLength length source with
    | error exception => exact ⟨fun heq ↦ (nomatch heq), fun ⟨_, _, _, heq, _⟩ ↦ (nomatch heq)⟩
    | ok localAddress =>
      constructor
      · exact fun heq ↦ ⟨octets, localAddress, rfl, rfl, Except.ok.inj heq⟩
      · rintro ⟨_, _, htarget, hsource, rfl⟩
        rw [Except.ok.inj htarget, Except.ok.inj hsource]
        rfl

theorem socketAddress_eq_iff {length : ℕ} {addressType : Octets → TransportAddress}
    {target source other : Option Octets} {address : TargetAddress}
    (hread : socketAddress length addressType target source = .ok address) :
    socketAddress length addressType target other = .ok address ↔ other = source := by
  constructor
  · intro hother
    obtain ⟨octets, localAddress, -, hsource, rfl⟩ := socketAddress_eq_ok_iff.mp hread
    obtain ⟨_, otherAddress, -, hchanged, heq⟩ := socketAddress_eq_ok_iff.mp hother
    rw [(fixedLength_eq_ok_iff.mp hsource).1, (fixedLength_eq_ok_iff.mp hchanged).1,
      (TargetAddress.socket.inj heq).2]
  · rintro rfl
    exact hread

/-- A target address is read as before exactly if the source address is the same, for a domain that
asks for one. -/
theorem targetAddress_eq_iff {transportDomain : Oid} {target source other : Option Octets}
    {address : TargetAddress}
    (hread : targetAddress interpreter transportDomain target source = .ok address) :
    targetAddress interpreter transportDomain target other = .ok address ↔
      (hasLocalAddress transportDomain = true → other = source) := by
  unfold targetAddress at hread ⊢
  rw [hasLocalAddress]
  split_ifs at hread ⊢ with hudp hudp6 htcp htcp6 hlocal
  · simp only [hudp, Bool.true_or, true_imp_iff]
    exact socketAddress_eq_iff hread
  · simp only [hudp6, Bool.true_or, Bool.or_true, true_imp_iff]
    exact socketAddress_eq_iff hread
  · simp only [htcp, Bool.true_or, Bool.or_true, true_imp_iff]
    exact socketAddress_eq_iff hread
  · simp only [htcp6, Bool.or_true, true_imp_iff]
    exact socketAddress_eq_iff hread
  · simp only [hudp, hudp6, htcp, htcp6, Bool.or_self]
    exact ⟨fun _ hnone ↦ (nomatch hnone), fun _ ↦ hread⟩
  · simp only [hudp, hudp6, htcp, htcp6, Bool.or_self]
    exact ⟨fun _ hnone ↦ (nomatch hnone), fun _ ↦ hread⟩

theorem read_eq_ok_iff {row : TargetAddrRow} {source : Option Octets} {target : TargetAddr} :
    row.read interpreter transports source = .ok target ↔
      (row.snmpTargetAddrTDomain = some target.transportDomain ∧
        row.snmpTargetAddrTimeout = target.timeout ∧
        row.snmpTargetAddrRetryCount = target.retryCount ∧
        row.snmpTargetAddrParams = target.params) ∧
      target.transportDomain ∈ transports ∧
      targetAddress interpreter target.transportDomain row.snmpTargetAddrTAddress source =
        .ok target.transportAddress := by
  obtain ⟨domain, address, timeout, retryCount, params⟩ := target
  rw [TargetAddrRow.read]
  cases row.snmpTargetAddrTDomain with
  | none => exact ⟨fun heq ↦ (nomatch heq), fun ⟨⟨heq, _⟩, _⟩ ↦ (nomatch heq)⟩
  | some transportDomain =>
    by_cases hregistered : transportDomain ∈ transports
    · simp only [getValue, getTransport, if_pos hregistered, bind, Except.bind, Option.some.injEq]
      cases haddress :
          targetAddress interpreter transportDomain row.snmpTargetAddrTAddress source with
      | error exception =>
        refine ⟨fun heq ↦ (nomatch heq), fun ⟨⟨heq, _⟩, _, hread⟩ ↦ ?_⟩
        rw [← heq, haddress] at hread
        cases hread
      | ok address =>
        simp only [pure, Except.pure, Except.ok.injEq, TargetAddr.mk.injEq]
        constructor
        · rintro ⟨rfl, rfl, rest⟩
          exact ⟨⟨rfl, rest⟩, hregistered, haddress⟩
        · rintro ⟨⟨rfl, rest⟩, -, hread⟩
          exact ⟨rfl, Except.ok.inj (haddress.symm.trans hread), rest⟩
    · simp only [getValue, getTransport, if_neg hregistered, bind, Except.bind, Option.some.injEq]
      refine ⟨fun heq ↦ (nomatch heq), fun ⟨⟨heq, _⟩, hmem, _⟩ ↦ absurd hmem ?_⟩
      rwa [← heq]

/-- A target is read from its row and the row that augments it. -/
theorem readTargetAddr_eq_ok_iff {tables : ConfigTables} {name : Octets} {target : TargetAddr} :
    readTargetAddr interpreter transports tables name = .ok target ↔
      ∃ tblIdx row source, getInstIdFromIndices name = .ok tblIdx ∧
        tables.snmpTargetAddrTable.rows.get? tblIdx = some row ∧
        tables.snmpSourceAddrTAddress.get? tblIdx = some source ∧
        row.read interpreter transports source = .ok target := by
  rw [readTargetAddr]
  cases getInstIdFromIndices name with
  | error exception => exact ⟨fun heq ↦ (nomatch heq), fun ⟨_, _, _, heq, _⟩ ↦ (nomatch heq)⟩
  | ok tblIdx =>
    simp only [bind, Except.bind, Except.ok.injEq, exists_and_left, exists_eq_left']
    cases tables.snmpTargetAddrTable.rows.get? tblIdx with
    | none => simp
    | some row =>
      cases tables.snmpSourceAddrTAddress.get? tblIdx with
      | none => simp
      | some source => simp

/-- A target whose row is the same is read as before exactly if its source address is. -/
theorem readTargetAddr_eq_iff {before after : ConfigTables} {name : Octets} {target : TargetAddr}
    (hread : readTargetAddr interpreter transports before name = .ok target)
    (htable : after.snmpTargetAddrTable = before.snmpTargetAddrTable)
    (hsources : ∀ index, (before.snmpSourceAddrTAddress.get? index).isSome →
      (after.snmpSourceAddrTAddress.get? index).isSome) :
    readTargetAddr interpreter transports after name = .ok target ↔
      SameSource before after name := by
  obtain ⟨tblIdx, row, source, hindex, hrow, hsource, hhere⟩ := readTargetAddr_eq_ok_iff.mp hread
  obtain ⟨other, hother⟩ := Option.isSome_iff_exists.mp (hsources tblIdx (by rw [hsource]; rfl))
  obtain ⟨⟨hdomain, hcells⟩, hregistered, haddress⟩ := read_eq_ok_iff.mp hhere
  have hthere : readTargetAddr interpreter transports after name = .ok target ↔
      (hasLocalAddress target.transportDomain = true → other = source) := by
    rw [← targetAddress_eq_iff haddress, readTargetAddr_eq_ok_iff, htable]
    constructor
    · rintro ⟨_, _, _, hindex', hrow', hsource', hread'⟩
      obtain rfl := Except.ok.inj (hindex.symm.trans hindex')
      obtain rfl := Option.some.inj (hrow.symm.trans hrow')
      obtain rfl := Option.some.inj (hother.symm.trans hsource')
      exact (read_eq_ok_iff.mp hread').2.2
    · intro hchanged
      exact ⟨tblIdx, row, other, hindex, hrow, hother,
        read_eq_ok_iff.mpr ⟨⟨hdomain, hcells⟩, hregistered, hchanged⟩⟩
  rw [hthere]
  constructor
  · intro hsame index found domain hindex' hrow' hdomain' hlocal
    obtain rfl := Except.ok.inj (hindex.symm.trans hindex')
    obtain rfl := Option.some.inj (hrow.symm.trans hrow')
    obtain rfl := Option.some.inj (hdomain.symm.trans hdomain')
    rw [hother, hsource, hsame hlocal]
  · intro hsame hlocal
    have hget := hsame tblIdx row target.transportDomain hindex hrow hdomain hlocal
    exact Option.some.inj (hother.symm.trans (hget.trans hsource))

/-! ### Histories without stale answers -/

/-- A memo stays sound with a table that is as it was or raised. -/
theorem sound_of_raised {α Row : Type} {before after : EntryTable Row}
    {read changed : Octets → Except ConfigError α} {memo : VersionedMemo Octets α}
    (hsound : VersionedMemo.Sound before.branchVersionId read memo) (hraised : Raised before after)
    (hread : after = before → changed = read) :
    VersionedMemo.Sound after.branchVersionId changed memo := by
  rcases hraised with heq | hlt
  · rw [heq, hread heq]
    exact hsound
  · exact hsound.of_lt (Int.ofNat_lt.mpr hlt)

/-- A cache of a whole table stays sound with it likewise. -/
theorem soundCache_of_raised {Row Reading Map : Type} {before after : EntryTable Row}
    {assembly : Assembly Reading Map} {table changed : VersionedTable ConfigError Reading}
    {cache : VersionedCache Map} (hsound : VersionedCache.Sound assembly table cache)
    (hraised : Raised before after) (hread : after = before → changed = table)
    (htable : table.version = before.branchVersionId)
    (hchanged : changed.version = after.branchVersionId) :
    VersionedCache.Sound assembly changed cache := by
  rcases hraised with heq | hlt
  · rwa [hread heq]
  · refine hsound.of_lt ?_
    rw [htable, hchanged]
    exact Int.ofNat_lt.mpr hlt

/-- Only the cache of the target addresses can miss a SET. -/
theorem sound_applyAll {tables : ConfigTables} {context : UserContext} {bindings : List Binding}
    (hsound : Sound interpreter transports tables context)
    (hcoherent : VersionedMemo.Coherent
      (applyAll tables bindings).snmpTargetAddrTable.branchVersionId
      (readTargetAddr interpreter transports (applyAll tables bindings)) context.getTargetAddr) :
    Sound interpreter transports (applyAll tables bindings) context where
  getTargetAddr := by
    refine ⟨hcoherent, hsound.getTargetAddr.notAhead.trans (Int.ofNat_le.mpr ?_)⟩
    rcases (follows_applyAll tables bindings).snmpTargetAddrTable with heq | hlt
    · rw [heq]
    · exact hlt.le
  getTargetParams :=
    sound_of_raised hsound.getTargetParams
      (follows_applyAll tables bindings).snmpTargetParamsTable fun heq ↦ by
        funext name
        rw [readTargetParams, readTargetParams, heq]
  getNotificationInfo :=
    sound_of_raised hsound.getNotificationInfo
      (follows_applyAll tables bindings).snmpNotifyTable fun heq ↦ by
        funext name
        rw [readNotificationInfo, readNotificationInfo, heq]
  getTargetNames :=
    soundCache_of_raised hsound.getTargetNames
      (follows_applyAll tables bindings).snmpTargetAddrTable
      (fun heq ↦ by rw [ConfigTables.tags, ConfigTables.tags, heq]) rfl rfl
  getNotifyFilterProfile :=
    sound_of_raised hsound.getNotifyFilterProfile
      (follows_applyAll tables bindings).snmpNotifyFilterProfileTable fun heq ↦ by
        funext name
        rw [readNotifyFilterProfile, readNotifyFilterProfile, heq]
  getNotifyFilter :=
    soundCache_of_raised hsound.getNotifyFilter
      (follows_applyAll tables bindings).snmpNotifyFilterTable
      (fun heq ↦ by rw [ConfigTables.filters, ConfigTables.filters, heq]) rfl rfl

/-- The cache of the target addresses is coherent after a SET exactly if it does not miss it. -/
theorem coherent_applyAll_iff {state : State} {bindings : List Binding}
    (hsound : Sound interpreter transports state.tables state.context) :
    VersionedMemo.Coherent
        (applyAll state.tables bindings).snmpTargetAddrTable.branchVersionId
        (readTargetAddr interpreter transports (applyAll state.tables bindings))
        state.context.getTargetAddr ↔
      IsSeen state bindings := by
  cases hany : bindings.any Binding.isTargetAddr with
  | true =>
    have hlt := Int.ofNat_lt.mpr (branchVersionId_lt_applyAll state.tables hany)
    exact iff_of_true (hsound.getTargetAddr.of_lt hlt).coherent fun _ ↦ Or.inl hany
  | false =>
    obtain ⟨htable, hsources⟩ := applyAll_of_any_eq_false state.tables hany
    rw [IsSeen, hany, htable, hsound.getTargetAddr.coherent.congr_iff]
    refine imp_congr_right fun hversion ↦ ?_
    simp only [Bool.false_eq_true, false_or]
    refine forall_congr' fun name ↦ ?_
    have hread : ∀ reading, state.context.getTargetAddr.readings name = some reading →
        readTargetAddr interpreter transports state.tables name = .ok reading := by
      intro reading hreading
      refine hsound.getTargetAddr.coherent name reading ?_
      rwa [VersionedMemo.kept_of_eq hversion]
    constructor
    · intro hsame hcached
      obtain ⟨reading, hreading⟩ := Option.isSome_iff_exists.mp hcached
      refine (readTargetAddr_eq_iff (hread reading hreading) htable hsources).mp ?_
      rw [hsame reading hreading, hread reading hreading]
    · intro hsame reading hreading
      have hsource := hsame (Option.isSome_of_eq_some hreading)
      rw [hread reading hreading]
      exact (readTargetAddr_eq_iff (hread reading hreading) htable hsources).mpr hsource

/-- Where the caches are sound, lookups answer as with empty ones. -/
theorem answersAsFresh_of_sound {state : State}
    (hsound : Sound interpreter transports state.tables state.context) :
    AnswersAsFresh interpreter transports state := by
  intro lookup
  obtain ⟨_, -, hhere⟩ := yields_call state.tables lookup state.context hsound
  obtain ⟨_, -, hfresh⟩ := yields_call state.tables lookup .initial (sound_initial state.tables)
  rw [hhere, hfresh]

/-- Results that are the same under an injective function are the same. -/
theorem eq_of_map_eq {ε α β : Type} {image : α → β} (himage : Function.Injective image)
    {first second : Except ε α} (hmap : first.map image = second.map image) : first = second := by
  cases first with
  | error exception =>
    cases second with
    | error other => exact congrArg Except.error (Except.error.inj hmap)
    | ok other => cases hmap
  | ok value =>
    cases second with
    | error other => cases hmap
    | ok other => exact congrArg Except.ok (himage (Except.ok.inj hmap))

/-- A cached target address that is not in the tables shows. -/
theorem coherent_of_answersAsFresh {state : State}
    (hfresh : AnswersAsFresh interpreter transports state) :
    VersionedMemo.Coherent state.tables.snmpTargetAddrTable.branchVersionId
      (readTargetAddr interpreter transports state.tables) state.context.getTargetAddr := by
  refine VersionedMemo.coherent_iff.mpr fun name ↦ ?_
  obtain ⟨_, -, hrun⟩ := yields_call state.tables (.getTargetAddr name) .initial
    (sound_initial state.tables)
  have hcall := hfresh (.getTargetAddr name)
  rw [hrun, Lookup.call, Lookup.answer, map_run_fst, Config.getTargetAddr, focus_run] at hcall
  exact eq_of_map_eq (fun _ _ ↦ Answer.targetAddr.inj) hcall

/-- A tracked step leaves the caches sound. -/
theorem sound_step {state : State} {event : Event}
    (hsound : Sound interpreter transports state.tables state.context)
    (htracked : IsTracked state event) :
    Sound interpreter transports (step interpreter transports state event).tables
      (step interpreter transports state event).context := by
  cases event with
  | set bindings => exact sound_applyAll hsound ((coherent_applyAll_iff hsound).mpr htracked)
  | look lookup =>
    obtain ⟨after, hafter, hrun⟩ := yields_call state.tables lookup state.context hsound
    rw [step, hrun]
    exact hafter

/-- From sound caches, the lookups stay fresh over a step exactly if it is tracked. -/
theorem staysFresh_iff {state : State} (event : Event)
    (hsound : Sound interpreter transports state.tables state.context) :
    StaysFresh interpreter transports state event ↔ IsTracked state event := by
  constructor
  · rintro ⟨-, hfresh⟩
    cases event with
    | set bindings => exact (coherent_applyAll_iff hsound).mp (coherent_of_answersAsFresh hfresh)
    | look lookup => trivial
  · intro htracked
    exact ⟨answersAsFresh_of_sound hsound, answersAsFresh_of_sound (sound_step hsound htracked)⟩

/-- The lookups stay fresh over a history exactly if each of its steps is tracked. -/
theorem everyStep_staysFresh_iff (interpreter : Interpreter) (transports : List Oid)
    (tables : ConfigTables) (events : List Event) :
    EveryStep (step interpreter transports) (StaysFresh interpreter transports)
        ⟨tables, .initial⟩ events ↔
      EveryStep (step interpreter transports) IsTracked ⟨tables, .initial⟩ events := by
  have hany : EveryStep (step interpreter transports) (fun _ _ ↦ True) ⟨tables, .initial⟩ events :=
    EveryStep.of_forall fun _ _ _ ↦ trivial
  refine hany.iff_of_invariant
    (fun state ↦ Sound interpreter transports state.tables state.context) (sound_initial tables)
    fun state event hsound _ ↦ ?_
  have hiff := staysFresh_iff event hsound
  exact ⟨hiff, fun hfresh ↦ sound_step hsound (hiff.mp hfresh)⟩

/-! ### A source address that is changed -/

/-- One target, which is sent to from any address. -/
def anySourceTables : ConfigTables where
  snmpTargetAddrTable :=
    ⟨⟨[([116], ⟨[116], some snmpUDPDomain, some [127, 0, 0, 1, 0, 162], 1500, 3, [], some [112]⟩)],
      by decide⟩, 1⟩
  snmpSourceAddrTAddress := ⟨[([116], some [0, 0, 0, 0, 0, 0])], by decide⟩
  snmpTargetParamsTable := ⟨∅, 0⟩
  snmpNotifyTable := ⟨∅, 0⟩
  snmpNotifyFilterProfileTable := ⟨∅, 0⟩
  snmpNotifyFilterTable := ⟨∅, 0⟩

/-- The target is looked up, given a source address, and looked up again. -/
def sourceEvents : List Event :=
  [.look (.getTargetAddr [116]), .set [.snmpSourceAddrEntry [116] [127, 0, 0, 2, 0, 0]],
    .look (.getTargetAddr [116])]

/-- What the target is found with, from some source address. -/
def foundTarget (localAddress : Octets) : Answer :=
  .targetAddr ⟨snmpUDPDomain, .socket (.inet "127.0.0.1" 162) localAddress, 1500, 3, some [112]⟩

/-- The second lookup still finds any source address. -/
theorem not_everyStep_staysFresh_sourceEvents :
    ¬ ∀ (interpreter : Interpreter) (transports : List Oid) (tables : ConfigTables)
        (events : List Event),
      EveryStep (step interpreter transports) (StaysFresh interpreter transports)
        ⟨tables, .initial⟩ events := by
  intro hall
  obtain ⟨-, -, ⟨hfresh, -⟩, -⟩ := hall .inOrder [snmpUDPDomain] anySourceTables sourceEvents
  let after := (sourceEvents.take 2).foldl (step .inOrder [snmpUDPDomain])
    ⟨anySourceTables, .initial⟩
  let call := Lookup.call .inOrder [snmpUDPDomain] after.tables (.getTargetAddr [116])
  have hcached : (call.run after.context).1 = .ok (foundTarget [0, 0, 0, 0, 0, 0]) := rfl
  have hread : (call.run .initial).1 = .ok (foundTarget [127, 0, 0, 2, 0, 0]) := rfl
  have heq := hcached.symm.trans ((hfresh (.getTargetAddr [116])).trans hread)
  cases heq

end Pysnmp.Entity.Rfc3413.ConfigHistory
