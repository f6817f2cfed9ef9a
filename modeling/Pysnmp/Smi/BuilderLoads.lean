import Pysnmp.Smi.MibBuilder

/-!
# What a load leaves of the MIB builder's books

An export is orderly when it writes nothing, because the first symbol it comes to is refused, or
files every symbol under a name that is not taken. The code of a module is executed in an orderly
way (`CodeOrderly`) when its exports are orderly, the loads that its imports make are, it does not
raise once it has exported something, and what it raises is among the exceptions that undo the load:
any `Exception` for a copy from a source, whatever it is for a build from the corpus. A load is
orderly when the code it executes is (`LoadOrderly`).

An orderly load changes the books by modules that were loaded completely and nothing else
(`Loads`, `loadSpec_loadModule`). What carries the induction is `Sound`: while the code of a module
runs its path is marked and not recorded, so that no load that the code makes evaluates the module a
second time. It may build it from the corpus, though, and then finds it loaded.
-/

set_option autoImplicit false
set_option relaxedAutoImplicit false

namespace Pysnmp.Smi.BuilderLoads

open Foundation Foundation.Effect MibBuilder

/-! ### Programs that change the symbols of one module -/

/-- Only the symbols of one module may differ, and the counters. -/
structure ChangesOnly (modName : String) (before after : Books) : Prop where
  modSeen : after.modSeen = before.modSeen
  modPathsSeen : after.modPathsSeen = before.modPathsSeen
  corpusBuilding : after.corpusBuilding = before.corpusBuilding
  elsewhere : ∀ other, other ≠ modName → after.symbolsOf other = before.symbolsOf other

section ChangesOnly

variable {modName : String} {before middle after : Books}

theorem ChangesOnly.refl (modName : String) (books : Books) : ChangesOnly modName books books :=
  ⟨rfl, rfl, rfl, fun _ _ ↦ rfl⟩

theorem ChangesOnly.trans (hfirst : ChangesOnly modName before middle)
    (hsecond : ChangesOnly modName middle after) : ChangesOnly modName before after :=
  ⟨hsecond.modSeen.trans hfirst.modSeen, hsecond.modPathsSeen.trans hfirst.modPathsSeen,
    hsecond.corpusBuilding.trans hfirst.corpusBuilding,
    fun other hother ↦ (hsecond.elsewhere other hother).trans (hfirst.elsewhere other hother)⟩

instance : Std.Refl (ChangesOnly modName) :=
  ⟨ChangesOnly.refl modName⟩

instance : IsTrans Books (ChangesOnly modName) :=
  ⟨fun _ _ _ ↦ ChangesOnly.trans⟩

/-- The record of loaded modules is left alone. -/
theorem ChangesOnly.seen (hchanges : ChangesOnly modName before after) (other : String) :
    after.seen other = before.seen other :=
  congrArg (AList.lookup other) hchanges.modSeen

theorem changesOnly_setTable (modName : String) (books : Books) (table : Dict String SymObj) :
    ChangesOnly modName books (books.setTable modName table) :=
  ⟨rfl, rfl, rfl, fun other hother ↦ by rw [Books.symbolsOf_setTable, if_neg hother]⟩

theorem changesOnly_closeModule (modName : String) (books : Books) :
    ChangesOnly modName books (books.closeModule modName) :=
  ⟨rfl, rfl, rfl, fun other hother ↦ by rw [Books.symbolsOf_closeModule, if_neg hother]⟩

theorem keeps_countBuild (modName : String) :
    Keeps (ChangesOnly modName) (modify Books.countBuild : BuilderEffect Unit) :=
  keeps_modify fun _ ↦ ⟨rfl, rfl, rfl, fun _ _ ↦ rfl⟩

theorem keeps_exportAnonymous (modName : String) (symObj : SymObj) :
    Keeps (ChangesOnly modName) (exportAnonymous modName symObj) :=
  keeps_get.bind fun _ ↦ keeps_modify fun _ ↦
    (changesOnly_setTable modName _ _).trans ⟨rfl, rfl, rfl, fun _ _ ↦ rfl⟩

theorem keeps_exportNamed (modName : String) (named : String × SymObj) :
    Keeps (ChangesOnly modName) (exportNamed modName named) :=
  keeps_get.bind fun _ ↦ (keeps_raise _).ite <| (keeps_liftExcept _).bind fun _ ↦
    keeps_modify fun _ ↦ changesOnly_setTable modName _ _

/-- Exports of a module change the symbols of that module only. -/
theorem keeps_exportSymbols (modName : String) (anonymousSyms : List SymObj)
    (namedSyms : List (String × SymObj)) :
    Keeps (ChangesOnly modName) (exportSymbols modName anonymousSyms namedSyms) :=
  (keeps_modify fun _ ↦ changesOnly_setTable modName _ _).bind fun _ ↦
    (Keeps.forEach fun symObj _ ↦ keeps_exportAnonymous modName symObj).bind fun _ ↦
      (Keeps.forEach fun named _ ↦ keeps_exportNamed modName named).bind fun _ ↦
        keeps_countBuild modName

theorem keeps_unexportSymbol (modName symName : String) :
    Keeps (ChangesOnly modName) (unexportSymbol modName symName) :=
  keeps_get.bind fun _ ↦
    (keeps_modify fun _ ↦ changesOnly_setTable modName _ _).ite (keeps_raise _)

/-- Withdrawals of a module change the symbols of that module only. -/
theorem keeps_unexportSymbols (modName : String) (symNames : List String) :
    Keeps (ChangesOnly modName) (unexportSymbols modName symNames) := by
  refine keeps_get.bind fun books ↦ (keeps_raise _).ite (keeps_get.bind fun opened ↦ ?_)
  refine Keeps.bind (Keeps.forEach fun symName _ ↦ keeps_unexportSymbol modName symName) ?_
  refine fun _ ↦ keeps_get.bind fun emptied ↦ ?_
  refine Keeps.bind (Keeps.runIf (keeps_modify fun _ ↦ changesOnly_closeModule modName _)) ?_
  exact fun _ ↦ keeps_countBuild modName

end ChangesOnly

/-! ### Exports that replace nothing -/

/-- Every symbol of the table is still in the other one. -/
def TableExtends (before after : Dict String SymObj) : Prop :=
  ∀ symName symObj, AList.lookup symName before = some symObj →
    AList.lookup symName after = some symObj

/-- Filing a symbol under a new name replaces none. -/
theorem tableExtends_insert {table : Dict String SymObj} {symName : String} (symObj : SymObj)
    (hfresh : symName ∉ table) : TableExtends table (AList.insert symName symObj table) := by
  intro other found hfound
  have hne : other ≠ symName := by
    rintro rfl
    exact hfresh (AList.lookup_isSome.mp (by rw [hfound]; rfl))
  rw [Dict.lookup_insert_ite, if_neg hne, hfound]

/-- In turn, every anonymous symbol gets a name that is not taken. -/
def FilesAnonymous : ℕ → Dict String SymObj → List SymObj → Prop
  | _, _, [] => True
  | autoName, table, symObj :: rest =>
    anonymousName autoName ∉ table ∧
      FilesAnonymous (autoName + 1) (AList.insert (anonymousName autoName) symObj table) rest

/-- The table with anonymous symbols filed. -/
def fileAnonymous : ℕ → Dict String SymObj → List SymObj → Dict String SymObj
  | _, table, [] => table
  | autoName, table, symObj :: rest =>
    fileAnonymous (autoName + 1) (AList.insert (anonymousName autoName) symObj table) rest

/-- In turn, every named symbol is accepted, and filed under a name that is not taken. -/
def FilesNamed : Dict String SymObj → List (String × SymObj) → Prop
  | _, [] => True
  | table, named :: rest =>
    named.1 ∉ table ∧
      match filing named.1 named.2 with
      | .error _ => False
      | .ok filed => filed.1 ∉ table ∧ FilesNamed (AList.insert filed.1 filed.2 table) rest

/-- The symbol is refused: its name is taken, or it has no label to ask for. -/
def Refused (table : Dict String SymObj) (named : String × SymObj) : Prop :=
  named.1 ∈ table ∨ ∃ exception, filing named.1 named.2 = .error exception

/-- The call changes the symbols of no module: the module has an entry, and the first symbol there
is to file, if any, is refused. -/
def WritesNothing (books : Books) (modName : String) (anonymousSyms : List SymObj)
    (namedSyms : List (String × SymObj)) : Prop :=
  books.symbolsOf modName ≠ none ∧ anonymousSyms = [] ∧
    ∀ named ∈ namedSyms.head?, Refused (books.tableOf modName) named

/-- The call files every symbol under a name that is not taken. -/
def FilesAll (books : Books) (modName : String) (anonymousSyms : List SymObj)
    (namedSyms : List (String × SymObj)) : Prop :=
  FilesAnonymous books.autoName (books.tableOf modName) anonymousSyms ∧
    FilesNamed (fileAnonymous books.autoName (books.tableOf modName) anonymousSyms) namedSyms

/-- An export either writes nothing or files every symbol under a name that is not taken. -/
def ExportOrderly (books : Books) (modName : String) (anonymousSyms : List SymObj)
    (namedSyms : List (String × SymObj)) : Prop :=
  WritesNothing books modName anonymousSyms namedSyms ∨
    FilesAll books modName anonymousSyms namedSyms

/-- A refused symbol leaves the books as they are. -/
theorem exportNamed_run_of_refused {books : Books} {modName : String} {named : String × SymObj}
    (hrefused : Refused (books.tableOf modName) named) :
    ∃ exception, (exportNamed modName named).run books = (.error exception, books) := by
  change ∃ exception,
    Effect.run (if named.1 ∈ books.tableOf modName then _ else _) books = (.error exception, books)
  by_cases htaken : named.1 ∈ books.tableOf modName
  · rw [if_pos htaken]
    exact ⟨_, rfl⟩
  · obtain ⟨exception, hfiling⟩ := hrefused.resolve_left htaken
    rw [if_neg htaken, hfiling]
    exact ⟨exception, rfl⟩

/-- A symbol that files under a free name is published there. -/
theorem exportNamed_run_of_files {books : Books} {modName : String}
    {named filed : String × SymObj} (hname : named.1 ∉ books.tableOf modName)
    (hfiling : filing named.1 named.2 = .ok filed) :
    (exportNamed modName named).run books = (.ok (), books.publish modName filed.1 filed.2) := by
  change Effect.run (if named.1 ∈ books.tableOf modName then _ else _) books = _
  rw [if_neg hname, hfiling]
  rfl

/-- Symbols without names are filed one after the other under generated names. -/
theorem forEach_exportAnonymous {modName : String} {anonymousSyms : List SymObj} {books : Books}
    {table : Dict String SymObj} (htable : books.tableOf modName = table)
    (hfiles : FilesAnonymous books.autoName table anonymousSyms) :
    ∃ after, (forEach (exportAnonymous modName) anonymousSyms).run books = (.ok (), after) ∧
      after.tableOf modName = fileAnonymous books.autoName table anonymousSyms ∧
        TableExtends table (after.tableOf modName) := by
  induction anonymousSyms generalizing books table with
  | nil => exact ⟨books, rfl, htable, fun _ _ hfound ↦ by rwa [htable]⟩
  | cons symObj rest ih =>
    obtain ⟨hfresh, hrest⟩ := hfiles
    subst htable
    let next := (books.publish modName (anonymousName books.autoName) symObj).countName
    have hnext : next.tableOf modName =
        AList.insert (anonymousName books.autoName) symObj (books.tableOf modName) :=
      Books.tableOf_setTable modName _
    obtain ⟨after, hrun, hafter, hextends⟩ := ih hnext hrest
    exact ⟨after, hrun, hafter, fun name found hfound ↦
      hextends name found (tableExtends_insert symObj hfresh name found hfound)⟩

/-- Symbols with names are filed one after the other, and replace none. -/
theorem forEach_exportNamed {modName : String} {namedSyms : List (String × SymObj)} {books : Books}
    {table : Dict String SymObj} (htable : books.tableOf modName = table)
    (hfiles : FilesNamed table namedSyms) :
    ∃ after, (forEach (exportNamed modName) namedSyms).run books = (.ok (), after) ∧
      TableExtends table (after.tableOf modName) := by
  induction namedSyms generalizing books table with
  | nil => exact ⟨books, rfl, fun _ _ hfound ↦ by rwa [htable]⟩
  | cons named rest ih =>
    obtain ⟨hname, hfiled⟩ := hfiles
    subst htable
    cases hfiling : filing named.1 named.2 with
    | error exception =>
      rw [hfiling] at hfiled
      exact hfiled.elim
    | ok filed =>
      rw [hfiling] at hfiled
      obtain ⟨hfresh, hrest⟩ := hfiled
      have hnext : (books.publish modName filed.1 filed.2).tableOf modName =
          AList.insert filed.1 filed.2 (books.tableOf modName) :=
        Books.tableOf_setTable modName _
      obtain ⟨after, hrun, hextends⟩ := ih hnext hrest
      refine ⟨after, ?_, fun name found hfound ↦
        hextends name found (tableExtends_insert filed.2 hfresh name found hfound)⟩
      rw [forEach_cons, bind_run_of_ok (exportNamed_run_of_files hname hfiling), hrun]

/-- The symbols of a module and the next name to generate are the same. -/
def SameSymbols (modName : String) (books other : Books) : Prop :=
  other.symbolsOf modName = books.symbolsOf modName ∧ other.autoName = books.autoName

theorem SameSymbols.tableOf {modName : String} {books other : Books}
    (hsame : SameSymbols modName books other) :
    other.tableOf modName = books.tableOf modName := by
  rw [Books.tableOf, Books.tableOf, hsame.1]

/-- An export whose first symbol is refused leaves the symbols of the module as they were. -/
theorem exportSymbols_run_of_writesNothing {books : Books} {modName : String}
    {anonymousSyms : List SymObj} {namedSyms : List (String × SymObj)}
    (hnothing : WritesNothing books modName anonymousSyms namedSyms) :
    SameSymbols modName books ((exportSymbols modName anonymousSyms namedSyms).run books).2 := by
  obtain ⟨hentry, rfl, hhead⟩ := hnothing
  obtain ⟨table, htable⟩ := Option.ne_none_iff_exists'.mp hentry
  have hopened : SameSymbols modName books (books.openModule modName) := by
    refine ⟨?_, rfl⟩
    rw [Books.openModule, Books.symbolsOf_setTable, if_pos rfl, htable,
      Books.tableOf_of_symbolsOf htable]
  cases namedSyms with
  | nil => exact hopened
  | cons first rest =>
    have hfirst : Refused ((books.openModule modName).tableOf modName) first := by
      rw [Books.openModule, Books.tableOf_setTable]
      exact hhead first rfl
    obtain ⟨exception, hrun⟩ := exportNamed_run_of_refused hfirst
    have hexport : (exportSymbols modName [] (first :: rest)).run books =
        (.error exception, books.openModule modName) := by
      change ((forEach (exportNamed modName) (first :: rest)) >>= _).run _ = _
      exact bind_run_of_error (bind_run_of_error hrun)
    rwa [hexport]

/-- An export that files every symbol under a name that is not taken keeps the symbols there. -/
theorem exportSymbols_run_of_files {books : Books} {modName : String}
    {anonymousSyms : List SymObj} {namedSyms : List (String × SymObj)}
    (hfiles : FilesAll books modName anonymousSyms namedSyms) :
    ∃ after, (exportSymbols modName anonymousSyms namedSyms).run books = (.ok (), after) ∧
      TableExtends (books.tableOf modName) (after.tableOf modName) := by
  obtain ⟨hanonymous, hnamed⟩ := hfiles
  have hopened : (books.openModule modName).tableOf modName = books.tableOf modName :=
    Books.tableOf_setTable modName _
  have hanonymousOpened : FilesAnonymous (books.openModule modName).autoName
      (books.tableOf modName) anonymousSyms := hanonymous
  obtain ⟨middle, hfirst, hmiddle, hkept⟩ := forEach_exportAnonymous hopened hanonymousOpened
  obtain ⟨last, hsecond, hlast⟩ := forEach_exportNamed hmiddle hnamed
  refine ⟨last.countBuild, ?_, fun symName symObj hfound ↦ ?_⟩
  · change ((forEach (exportAnonymous modName) anonymousSyms) >>= _).run _ = _
    rw [bind_run_of_ok hfirst, bind_run_of_ok hsecond]
    rfl
  · have hkeptHere := hkept symName symObj hfound
    rw [hmiddle] at hkeptHere
    exact hlast symName symObj hkeptHere

/-! ### What a load leaves of the books -/

/-- Every symbol is still exported, as the same object. -/
def KeepsSymbols (before after : Books) : Prop :=
  ∀ modName, TableExtends (before.tableOf modName) (after.tableOf modName)

/-- The symbols of a module and the record of it are as they were. -/
def SameAt (before after : Books) (modName : String) : Prop :=
  after.symbolsOf modName = before.symbolsOf modName ∧ after.seen modName = before.seen modName

/-- The module was not recorded as loaded, and is now. -/
def NewlyLoaded (before after : Books) (modName : String) : Prop :=
  before.seen modName = none ∧ after.seen modName ≠ none

def UnchangedOrLoaded (before after : Books) (modName : String) : Prop :=
  SameAt before after modName ∨ NewlyLoaded before after modName

/-- A path of a source whose module is being evaluated: it is marked, but not recorded. -/
def IsOpen (books : Books) (modPath : ModPath) : Prop :=
  modPath.IsSource ∧ modPath ∈ books.modPathsSeen ∧ books.seen modPath.modName ≠ some modPath

/-- What the books keep while modules are loaded. -/
structure Steady (before after : Books) : Prop where
  seen : ∀ modName modPath, before.seen modName = some modPath →
    after.seen modName = some modPath
  paths : before.modPathsSeen ⊆ after.modPathsSeen
  isOpen : ∀ modPath, IsOpen after modPath ↔ IsOpen before modPath
  building : after.corpusBuilding = before.corpusBuilding
  symbols : KeepsSymbols before after

section Steady

variable {before middle after : Books}

theorem SameAt.tableOf {modName : String} (hsame : SameAt before after modName) :
    after.tableOf modName = before.tableOf modName := by
  rw [Books.tableOf, Books.tableOf, hsame.1]

theorem Steady.refl (books : Books) : Steady books books :=
  ⟨fun _ _ hseen ↦ hseen, subset_rfl, fun _ ↦ Iff.rfl, rfl, fun _ _ _ hfound ↦ hfound⟩

theorem Steady.trans (hfirst : Steady before middle) (hsecond : Steady middle after) :
    Steady before after where
  seen := fun modName modPath hseen ↦ hsecond.seen _ _ (hfirst.seen modName modPath hseen)
  paths := hfirst.paths.trans hsecond.paths
  isOpen := fun modPath ↦ (hsecond.isOpen modPath).trans (hfirst.isOpen modPath)
  building := hsecond.building.trans hfirst.building
  symbols := fun modName symName symObj hfound ↦
    hsecond.symbols modName symName symObj (hfirst.symbols modName symName symObj hfound)

theorem UnchangedOrLoaded.refl (books : Books) (modName : String) :
    UnchangedOrLoaded books books modName :=
  Or.inl ⟨rfl, rfl⟩

theorem UnchangedOrLoaded.trans {modName : String}
    (hfirst : UnchangedOrLoaded before middle modName)
    (hsecond : UnchangedOrLoaded middle after modName) :
    UnchangedOrLoaded before after modName := by
  rcases hfirst with ⟨hsymbols, hseen⟩ | ⟨hnone, hloaded⟩
  · rcases hsecond with ⟨hsymbols', hseen'⟩ | ⟨hnone, hloaded⟩
    · exact Or.inl ⟨hsymbols'.trans hsymbols, hseen'.trans hseen⟩
    · exact Or.inr ⟨hseen ▸ hnone, hloaded⟩
  · rcases hsecond with ⟨-, hseen'⟩ | ⟨hnone', -⟩
    · exact Or.inr ⟨hnone, hseen' ▸ hloaded⟩
    · exact absurd hnone' hloaded

end Steady

/-- The path of the copy of a module that an environment would load. -/
def candidatePath (env : Environment) (modName : String) : Option ModPath :=
  (env.candidates modName).head?.map fun candidate ↦ candidate.fullPath modName

/-- Records name the module that lies at the path, and the path is marked. A path being evaluated is
the one the environment gives, and its module is at most recorded as built from the corpus; likewise
for a module being built from the corpus, whose copy in a source, if there is one, is marked. -/
structure Sound (env : Environment) (books : Books) : Prop where
  recorded : ∀ modName modPath, books.seen modName = some modPath →
    modPath.modName = modName ∧ modPath ∈ books.modPathsSeen
  isOpen : ∀ modPath, IsOpen books modPath → candidatePath env modPath.modName = some modPath ∧
    ∀ other, books.seen modPath.modName = some other → ¬ other.IsSource
  building : ∀ modName ∈ books.corpusBuilding,
    (∀ modPath, candidatePath env modName = some modPath → modPath ∈ books.modPathsSeen) ∧
      ∀ other, books.seen modName = some other → ¬ other.IsSource

section ChangesOnly

variable {env : Environment} {modName : String} {before after : Books}

/-- Which loads are under way does not depend on the symbols of a module. -/
theorem ChangesOnly.isOpen_iff (hchanges : ChangesOnly modName before after) (modPath : ModPath) :
    IsOpen after modPath ↔ IsOpen before modPath := by
  rw [IsOpen, IsOpen, hchanges.modPathsSeen, hchanges.seen]

/-- The books stay sound when the symbols of one module change. -/
theorem ChangesOnly.sound (hchanges : ChangesOnly modName before after)
    (hsound : Sound env before) : Sound env after where
  recorded := fun other modPath hseen ↦ by
    rw [hchanges.modPathsSeen]
    exact hsound.recorded other modPath (by rwa [← hchanges.seen])
  isOpen := fun modPath hopen ↦ by
    rw [hchanges.seen]
    exact hsound.isOpen modPath ((hchanges.isOpen_iff modPath).mp hopen)
  building := fun other hother ↦ by
    rw [hchanges.modPathsSeen, hchanges.seen]
    exact hsound.building other (by rwa [← hchanges.corpusBuilding])

/-- Growing the symbols of one module takes nothing back. -/
theorem ChangesOnly.steady (hchanges : ChangesOnly modName before after)
    (hextends : TableExtends (before.tableOf modName) (after.tableOf modName)) :
    Steady before after where
  seen := fun other modPath hseen ↦ by rwa [hchanges.seen]
  paths := hchanges.modPathsSeen ▸ subset_rfl
  isOpen := hchanges.isOpen_iff
  building := hchanges.corpusBuilding
  symbols := fun other ↦ by
    by_cases hother : other = modName
    · rwa [hother]
    · rw [Books.tableOf, Books.tableOf, hchanges.elsewhere other hother]
      exact fun _ _ hfound ↦ hfound

theorem ChangesOnly.unchanged (hchanges : ChangesOnly modName before after) {other : String}
    (hother : other ≠ modName) : UnchangedOrLoaded before after other :=
  Or.inl ⟨hchanges.elsewhere other hother, hchanges.seen other⟩

end ChangesOnly

/-! ### Imports -/

section Imports

variable {load : String → BuilderEffect Unit} {modName : String}

/-- Books in which the module has an entry are left alone. -/
def LeavesLoaded (modName : String) (before after : Books) : Prop :=
  before.symbolsOf modName ≠ none → after = before

instance : Std.Refl (LeavesLoaded modName) :=
  ⟨fun _ _ ↦ rfl⟩

instance : IsTrans Books (LeavesLoaded modName) :=
  ⟨fun _ _ _ hfirst hsecond hloaded ↦ by
    have hmiddle := hfirst hloaded
    subst hmiddle
    exact hsecond hloaded⟩

/-- What `importSymbol` does once the module is there or was loaded. -/
def findSymbol (modName symName : String) : BuilderEffect SymObj := do
  let books ← get
  match books.symbolsOf modName with
  | none => raise (.mibNotFoundError s!"No module {modName} loaded")
  | some table =>
    match AList.lookup symName table with
    | none => raise (.smiError s!"No symbol {modName}::{symName}")
    | some symObj => pure symObj

/-- An import loads the module first if it has no symbols, and then looks the symbol up. -/
theorem importSymbol_run (load : String → BuilderEffect Unit) (modName symName : String)
    (books : Books) :
    (importSymbol load modName symName).run books =
      (runIf (books.symbolsOf modName = none) (load modName) >>=
        fun _ ↦ findSymbol modName symName).run books :=
  rfl

/-- Looking a symbol up changes nothing. -/
theorem findSymbol_run_snd (modName symName : String) (books : Books) :
    ((findSymbol modName symName).run books).2 = books := by
  change (Effect.run (match books.symbolsOf modName with
    | none => raise _
    | some table => match AList.lookup symName table with
      | none => raise _
      | some symObj => pure symObj) books).2 = books
  cases books.symbolsOf modName with
  | none => rfl
  | some table =>
    cases hsymbol : AList.lookup symName table with
    | none => simp only [hsymbol, raise_run]
    | some symObj => simp only [hsymbol, pure_run]

/-- A module whose symbol is found has symbols. -/
theorem symbolsOf_of_findSymbol {symName : String} {books after : Books} {symObj : SymObj}
    (hrun : (findSymbol modName symName).run books = (.ok symObj, after)) :
    after.symbolsOf modName ≠ none := by
  have hafter : after = books := by
    rw [← findSymbol_run_snd modName symName books, hrun]
  subst hafter
  intro hnone
  change Effect.run (match after.symbolsOf modName with
    | none => raise _
    | some table => match AList.lookup symName table with
      | none => raise _
      | some symObj => pure symObj) after = _ at hrun
  rw [hnone] at hrun
  cases hrun

/-- Once a module has symbols, importing from it loads nothing. -/
theorem keeps_importSymbol (modName symName : String) :
    Keeps (LeavesLoaded modName) (importSymbol load modName symName) := by
  intro books hloaded
  rw [importSymbol_run, runIf_of_false _ hloaded, bind_run_of_ok (pure_run () books)]
  exact findSymbol_run_snd modName symName books

theorem keeps_importEach (load : String → BuilderEffect Unit) (modName : String)
    (symNames : List String) :
    Keeps (LeavesLoaded modName) (importEach load modName symNames) := by
  induction symNames with
  | nil => exact keeps_pure []
  | cons symName symNames ih =>
    exact (keeps_importSymbol modName symName).bind fun _ ↦ ih.bind fun _ ↦ keeps_pure _

/-- An import from a module without an entry loads it, whatever comes of the import. -/
theorem importEach_run_snd_of_unloaded {books : Books} (hnone : books.symbolsOf modName = none)
    (symName : String) (symNames : List String) :
    ((importEach load modName (symName :: symNames)).run books).2 =
      ((load modName).run books).2 := by
  have hsymbol : (importSymbol load modName symName).run books =
      (load modName >>= fun _ ↦ findSymbol modName symName).run books := by
    rw [importSymbol_run, runIf_of_true _ hnone]
  rw [importEach]
  rcases ok_or_error (load modName) books with ⟨value, middle, hok⟩ | ⟨exception, middle, herror⟩
  · rw [hok]
    rw [bind_run_of_ok hok] at hsymbol
    have hfound := findSymbol_run_snd modName symName middle
    rcases ok_or_error (findSymbol modName symName) middle with
      ⟨symObj, after, hfind⟩ | ⟨exception, after, hfind⟩
    · rw [hfind] at hfound hsymbol
      obtain rfl : after = middle := hfound
      rw [bind_run_of_ok hsymbol]
      have hrest : Keeps (LeavesLoaded modName)
          (importEach load modName symNames >>= fun rest ↦ pure (symObj :: rest)) :=
        (keeps_importEach load modName symNames).bind fun rest ↦ keeps_pure (symObj :: rest)
      exact hrest after (symbolsOf_of_findSymbol hfind)
    · rw [hfind] at hfound hsymbol
      rw [bind_run_of_error hsymbol]
      exact hfound
  · rw [bind_run_of_error herror] at hsymbol
    rw [bind_run_of_error hsymbol, herror]

/-- An import leaves the books alone or as the load of the module leaves them. -/
theorem importSymbols_run_snd (load : String → BuilderEffect Unit) (modName : String)
    (symNames : List String) (books : Books) :
    ((importSymbols load modName symNames).run books).2 =
      if modName ≠ "" ∧ symNames ≠ [] ∧ books.symbolsOf modName = none then
        ((load modName).run books).2
      else books := by
  by_cases hname : modName = ""
  · rw [importSymbols, if_pos hname, if_neg fun hloads ↦ hloads.1 hname]
    rfl
  rw [importSymbols, if_neg hname]
  cases symNames with
  | nil => exact (if_neg fun hloads ↦ hloads.2.1 rfl).symm
  | cons symName symNames =>
    by_cases hnone : books.symbolsOf modName = none
    · rw [if_pos ⟨hname, List.cons_ne_nil _ _, hnone⟩]
      exact importEach_run_snd_of_unloaded hnone symName symNames
    · rw [if_neg fun hloads ↦ hnone hloads.2.2]
      exact keeps_importEach load modName _ books hnone

end Imports

/-! ### The code of a module -/

section Code

variable (load : String → BuilderEffect Unit) (loadOrderly : String → Books → Prop)

/-- The load that an import makes, if it makes one, is orderly. -/
def ImportOrderly (modName : String) (symNames : List String) (books : Books) : Prop :=
  modName ≠ "" ∧ symNames ≠ [] ∧ books.symbolsOf modName = none → loadOrderly modName books

variable (undone : BuilderError → Prop)

/-- Executed in these books, the code of a module exports orderly, imports orderly, and does not
raise once it has exported something, nor ever an exception that does not undo the load. -/
def CodeOrderly (modName : String) : Code → Bool → Books → Prop
  | .done, _, _ => True
  | .raise exception, exported, _ => exported = false ∧ undone exception
  | .importSymbols other symNames next, exported, books =>
    ImportOrderly loadOrderly other symNames books ∧
      CodeOrderly modName (next ((importSymbols load other symNames).run books).1) exported
        ((importSymbols load other symNames).run books).2
  | .exportSymbols anonymousSyms namedSyms next, exported, books =>
    (WritesNothing books modName anonymousSyms namedSyms ∧
      CodeOrderly modName (next ((exportSymbols modName anonymousSyms namedSyms).run books).1)
        exported ((exportSymbols modName anonymousSyms namedSyms).run books).2) ∨
    (FilesAll books modName anonymousSyms namedSyms ∧
      CodeOrderly modName (next ((exportSymbols modName anonymousSyms namedSyms).run books).1)
        true ((exportSymbols modName anonymousSyms namedSyms).run books).2)

/-- An orderly load keeps the books sound and steady, and changes them only by modules it has loaded
completely. -/
structure Loads (env : Environment) (before after : Books) : Prop where
  sound : Sound env after
  steady : Steady before after
  unchanged : ∀ modName, UnchangedOrLoaded before after modName

/-- What the loads that the code of a module makes are known to do. -/
def LoadSpec (env : Environment) : Prop :=
  ∀ modName books, Sound env books → loadOrderly modName books →
    Loads env books ((load modName).run books).2

/-- What the code of a module does to the books: only its own module may have changed, and only if
it does not raise. -/
structure Executes (env : Environment) (modName : String) (exported : Bool) (before : Books)
    (result : Except BuilderError Unit) (after : Books) : Prop where
  sound : Sound env after
  steady : Steady before after
  elsewhere : ∀ other, other ≠ modName → UnchangedOrLoaded before after other
  raised : ∀ exception, result = .error exception →
    exported = false ∧ UnchangedOrLoaded before after modName

variable {load loadOrderly undone} {env : Environment} {modName : String}

/-- Code that is executed in an orderly way raises nothing but what undoes the load. -/
theorem CodeOrderly.undone_of_raised {code : Code} {exported : Bool} {books : Books}
    (horderly : CodeOrderly load loadOrderly undone modName code exported books)
    {exception : BuilderError}
    (hraised : ((exec load modName code).run books).1 = .error exception) : undone exception := by
  induction code generalizing exported books with
  | done => cases hraised
  | raise raised =>
    obtain rfl : raised = exception := Except.error.inj hraised
    exact horderly.2
  | importSymbols other symNames next ih => exact ih _ horderly.2 hraised
  | exportSymbols anonymousSyms namedSyms next ih =>
    rcases horderly with ⟨-, hrest⟩ | ⟨-, hrest⟩
    · exact ih _ hrest hraised
    · exact ih _ hrest hraised

/-- Imports load whole modules, if each load does. -/
theorem loads_importSymbols (hload : LoadSpec load loadOrderly env) {other : String}
    {symNames : List String} {books : Books} (hsound : Sound env books)
    (horderly : ImportOrderly loadOrderly other symNames books) :
    Loads env books ((importSymbols load other symNames).run books).2 := by
  rw [importSymbols_run_snd]
  split_ifs with hloads
  · exact hload other books hsound (horderly hloads)
  · exact ⟨hsound, Steady.refl books, UnchangedOrLoaded.refl books⟩

/-- Loads before the rest of the code count as its own. -/
theorem Loads.executes {exported : Bool} {before middle after : Books}
    {result : Except BuilderError Unit} (hloads : Loads env before middle)
    (hrest : Executes env modName exported middle result after) :
    Executes env modName exported before result after where
  sound := hrest.sound
  steady := hloads.steady.trans hrest.steady
  elsewhere := fun other hother ↦ (hloads.unchanged other).trans (hrest.elsewhere other hother)
  raised := fun exception hraised ↦ by
    obtain ⟨hexported, hunchanged⟩ := hrest.raised exception hraised
    exact ⟨hexported, (hloads.unchanged modName).trans hunchanged⟩

/-- An export that writes nothing changes no module. -/
theorem loads_exportSymbols {books : Books} {anonymousSyms : List SymObj}
    {namedSyms : List (String × SymObj)} (hsound : Sound env books)
    (hnothing : WritesNothing books modName anonymousSyms namedSyms) :
    Loads env books ((exportSymbols modName anonymousSyms namedSyms).run books).2 := by
  have hchanges := keeps_exportSymbols modName anonymousSyms namedSyms books
  have hsame := exportSymbols_run_of_writesNothing hnothing
  have htable := SameAt.tableOf ⟨hsame.1, hchanges.seen modName⟩
  refine ⟨hchanges.sound hsound, hchanges.steady fun _ _ hfound ↦ by rwa [htable], ?_⟩
  intro other
  by_cases hother : other = modName
  · subst hother
    exact Or.inl ⟨hsame.1, hchanges.seen other⟩
  · exact hchanges.unchanged hother

/-- The code of a module, executed in an orderly way. The induction is on the code, with the books
and the flag of what was exported so far. -/
theorem executes_exec (hload : LoadSpec load loadOrderly env) (code : Code) (exported : Bool)
    (books : Books) (hsound : Sound env books)
    (horderly : CodeOrderly load loadOrderly undone modName code exported books) :
    Executes env modName exported books ((exec load modName code).run books).1
      ((exec load modName code).run books).2 := by
  induction code generalizing exported books with
  | done =>
    refine ⟨hsound, Steady.refl books, fun other _ ↦ UnchangedOrLoaded.refl books other, ?_⟩
    intro exception hraised
    cases hraised
  | raise exception =>
    exact ⟨hsound, Steady.refl books, fun other _ ↦ UnchangedOrLoaded.refl books other,
      fun _ _ ↦ ⟨horderly.1, UnchangedOrLoaded.refl books modName⟩⟩
  | importSymbols other symNames next ih =>
    obtain ⟨himport, hrest⟩ := horderly
    have hloads := loads_importSymbols hload hsound himport
    exact hloads.executes (ih _ exported _ hloads.sound hrest)
  | exportSymbols anonymousSyms namedSyms next ih =>
    rcases horderly with ⟨hnothing, hrest⟩ | ⟨hfiles, hrest⟩
    · have hloads := loads_exportSymbols hsound hnothing
      exact hloads.executes (ih _ exported _ hloads.sound hrest)
    · have hchanges := keeps_exportSymbols modName anonymousSyms namedSyms books
      obtain ⟨after, hrun, hextends⟩ := exportSymbols_run_of_files hfiles
      rw [hrun] at hchanges hrest
      have hexec : (exec load modName (.exportSymbols anonymousSyms namedSyms next)).run books =
          (exec load modName (next (.ok ()))).run after := by
        change (exec load modName (next ((exportSymbols modName anonymousSyms namedSyms).run
          books).1)).run ((exportSymbols modName anonymousSyms namedSyms).run books).2 = _
        rw [hrun]
      have hnext := ih _ true after (hchanges.sound hsound) hrest
      rw [hexec]
      refine ⟨hnext.sound, (hchanges.steady hextends).trans hnext.steady, ?_, ?_⟩
      · exact fun other hother ↦ (hchanges.unchanged hother).trans (hnext.elsewhere other hother)
      · intro exception hraised
        cases (hnext.raised exception hraised).1

end Code

/-! ### A module that is recorded -/

/-- The module is recorded, and all else is as it was. -/
structure RecordsOnly (modName : String) (modPath : ModPath) (before after : Books) : Prop where
  here : after.seen modName = some modPath
  elsewhere : ∀ other, other ≠ modName → after.seen other = before.seen other
  mibSymbols : after.mibSymbols = before.mibSymbols

section RecordsOnly

variable {modName : String} {modPath : ModPath} {books before after : Books}

/-- What was recorded before a module that was not, still is. -/
theorem RecordsOnly.seen (hrecords : RecordsOnly modName modPath before after)
    (hnone : books.seen modName = none)
    (hkept : ∀ other otherPath, books.seen other = some otherPath →
      before.seen other = some otherPath)
    (other : String) (otherPath : ModPath) (hseen : books.seen other = some otherPath) :
    after.seen other = some otherPath := by
  have hother : other ≠ modName := by
    rintro rfl
    rw [hnone] at hseen
    cases hseen
  rw [hrecords.elsewhere other hother]
  exact hkept other otherPath hseen

/-- Recording a module changes no symbols. -/
theorem RecordsOnly.symbolsOf (hrecords : RecordsOnly modName modPath before after)
    (other : String) : after.symbolsOf other = before.symbolsOf other := by
  unfold Books.symbolsOf
  rw [hrecords.mibSymbols]

/-- A module that was not recorded is loaded, and the others are as they have been left. -/
theorem RecordsOnly.unchangedOrLoaded (hrecords : RecordsOnly modName modPath before after)
    (hnone : books.seen modName = none)
    (helsewhere : ∀ other, other ≠ modName → UnchangedOrLoaded books before other)
    (other : String) : UnchangedOrLoaded books after other := by
  by_cases hother : other = modName
  · subst hother
    refine Or.inr ⟨hnone, ?_⟩
    rw [hrecords.here]
    exact Option.some_ne_none _
  · rcases helsewhere other hother with ⟨hsymbols, hseen⟩ | ⟨hnotBefore, hloaded⟩
    · exact Or.inl ⟨(hrecords.symbolsOf other).trans hsymbols,
        (hrecords.elsewhere other hother).trans hseen⟩
    · exact Or.inr ⟨hnotBefore, by rwa [hrecords.elsewhere other hother]⟩

end RecordsOnly

/-! ### A module evaluated from a source -/

section Evaluation

variable {load : String → BuilderEffect Unit} {loadOrderly : String → Books → Prop}
  {env : Environment} {modName : String} {candidate : Candidate} {books after : Books}

/-- A source whose code runs to its end is recorded. -/
theorem evaluate_run_of_ok
    (hrun : (exec load modName candidate.codeObj).run
      (books.seePath (candidate.fullPath modName)) = (.ok (), after)) :
    (evaluate load modName candidate).run books =
      (.ok (), after.record modName (candidate.fullPath modName)) := by
  change ((handle (exec load modName candidate.codeObj) _) >>= _).run _ = _
  rw [bind_run_of_ok (handle_run_of_ok hrun)]
  rfl

/-- A source whose code raises an `Exception` is reported, and its path taken back. -/
theorem evaluate_run_of_error {exception : BuilderError} (hundone : exception.isException = true)
    (hrun : (exec load modName candidate.codeObj).run
      (books.seePath (candidate.fullPath modName)) = (.error exception, after)) :
    (evaluate load modName candidate).run books =
      (.error (.mibLoadError (candidate.fullPath modName) exception),
        after.forgetPath (candidate.fullPath modName)) := by
  change ((handle (exec load modName candidate.codeObj) _) >>= _).run _ = _
  apply bind_run_of_error
  rw [handle_run_of_error hrun, if_pos hundone]
  rfl

/-- Code that ends with what is no `Exception` leaves the path marked. -/
theorem evaluate_run_of_baseException {exception : BuilderError}
    (hbase : exception.isException = false)
    (hrun : (exec load modName candidate.codeObj).run
      (books.seePath (candidate.fullPath modName)) = (.error exception, after)) :
    (evaluate load modName candidate).run books = (.error exception, after) := by
  change ((handle (exec load modName candidate.codeObj) _) >>= _).run _ = _
  apply bind_run_of_error
  rw [handle_run_of_error hrun, if_neg (by rw [hbase]; exact Bool.false_ne_true)]
  rfl

/-- The module is not recorded, and the copy the environment gives for it is not marked. -/
structure Unseen (env : Environment) (books : Books) (modName : String) (candidate : Candidate) :
    Prop where
  seen : books.seen modName = none
  path : candidate.fullPath modName ∉ books.modPathsSeen
  candidate : candidatePath env modName = some (candidate.fullPath modName)

/-- Marking the path of a source opens that load and no other. -/
theorem Unseen.isOpen_seePath_iff (hunseen : Unseen env books modName candidate)
    (modPath : ModPath) :
    IsOpen (books.seePath (candidate.fullPath modName)) modPath ↔
      modPath = candidate.fullPath modName ∨ IsOpen books modPath := by
  constructor
  · rintro ⟨hsource, hmarked, hseen⟩
    exact (Finset.mem_insert.mp hmarked).imp_right fun hmem ↦ ⟨hsource, hmem, hseen⟩
  · rintro (rfl | ⟨hsource, hmarked, hseen⟩)
    · refine ⟨trivial, Finset.mem_insert_self _ _, ?_⟩
      change books.seen modName ≠ _
      rw [hunseen.seen]
      exact Option.some_ne_none _ |>.symm
    · exact ⟨hsource, Finset.mem_insert_of_mem hmarked, hseen⟩

/-- The books stay sound when a load begins. -/
theorem Unseen.sound_seePath (hunseen : Unseen env books modName candidate)
    (hsound : Sound env books) : Sound env (books.seePath (candidate.fullPath modName)) where
  recorded := fun other modPath hseen ↦ by
    obtain ⟨hname, hmarked⟩ := hsound.recorded other modPath hseen
    exact ⟨hname, Finset.mem_insert_of_mem hmarked⟩
  isOpen := fun modPath hopen ↦ by
    rcases (hunseen.isOpen_seePath_iff modPath).mp hopen with rfl | hopen
    · refine ⟨hunseen.candidate, fun other hother ↦ ?_⟩
      have hseen : books.seen modName = some other := hother
      rw [hunseen.seen] at hseen
      cases hseen
    · exact hsound.isOpen modPath hopen
  building := fun other hother ↦ by
    obtain ⟨hmarked, hseen⟩ := hsound.building other hother
    exact ⟨fun modPath hpath ↦ Finset.mem_insert_of_mem (hmarked modPath hpath), hseen⟩

/-- A module being built from the corpus is not one whose copy in a source is not marked. -/
theorem Unseen.ne_of_building (hunseen : Unseen env books modName candidate)
    (hsound : Sound env books) {other : String} (hother : other ∈ books.corpusBuilding) :
    other ≠ modName := by
  rintro rfl
  exact hunseen.path ((hsound.building other hother).1 _ hunseen.candidate)

/-- The code raised, before it had exported anything: the mark is taken away again. -/
theorem Unseen.loads_of_error (hunseen : Unseen env books modName candidate)
    (hsound : Sound env books) {exception : BuilderError}
    (hexec : Executes env modName false (books.seePath (candidate.fullPath modName))
      (.error exception) after) :
    Loads env books (after.forgetPath (candidate.fullPath modName)) := by
  obtain ⟨hafter, hsteady, helsewhere, hraised⟩ := hexec
  obtain ⟨-, hhere⟩ := hraised exception rfl
  have hopenHere : IsOpen after (candidate.fullPath modName) :=
    (hsteady.isOpen _).mpr ((hunseen.isOpen_seePath_iff _).mpr (Or.inl rfl))
  have hopen : ∀ modPath, IsOpen (after.forgetPath (candidate.fullPath modName)) modPath ↔
      IsOpen books modPath := by
    intro modPath
    constructor
    · rintro ⟨hsource, hmarked, hseen⟩
      obtain ⟨hne, hmem⟩ := Finset.mem_erase.mp hmarked
      have hbefore := (hunseen.isOpen_seePath_iff modPath).mp
        ((hsteady.isOpen modPath).mp ⟨hsource, hmem, hseen⟩)
      exact hbefore.resolve_left hne
    · intro hbefore
      obtain ⟨hsource, hmem, hseen⟩ := (hsteady.isOpen modPath).mpr
        ((hunseen.isOpen_seePath_iff modPath).mpr (Or.inr hbefore))
      refine ⟨hsource, Finset.mem_erase.mpr ⟨?_, hmem⟩, hseen⟩
      rintro rfl
      exact hunseen.path hbefore.2.1
  constructor
  · constructor
    · intro other modPath hseen
      obtain ⟨hname, hmem⟩ := hafter.recorded other modPath hseen
      refine ⟨hname, Finset.mem_erase.mpr ⟨?_, hmem⟩⟩
      rintro rfl
      have hother : modName = other := hname
      exact hopenHere.2.2 (hother ▸ hseen)
    · intro modPath hopenPath
      exact hafter.isOpen modPath ⟨hopenPath.1, Finset.mem_of_mem_erase hopenPath.2.1,
        hopenPath.2.2⟩
    · intro other hother
      obtain ⟨hmarked, hseen⟩ := hafter.building other hother
      refine ⟨fun modPath hpath ↦ Finset.mem_erase.mpr ⟨?_, hmarked modPath hpath⟩, hseen⟩
      rintro rfl
      have hbefore : other ∈ books.corpusBuilding := by
        have hmem : other ∈ after.corpusBuilding := hother
        rwa [hsteady.building] at hmem
      exact hunseen.path ((hsound.building other hbefore).1 _ hpath)
  · refine ⟨hsteady.seen, fun modPath hmem ↦ Finset.mem_erase.mpr ⟨?_, ?_⟩, hopen,
      hsteady.building, hsteady.symbols⟩
    · rintro rfl
      exact hunseen.path hmem
    · exact hsteady.paths (Finset.mem_insert_of_mem hmem)
  · intro other
    by_cases hother : other = modName
    · subst hother
      exact hhere
    · exact helsewhere other hother

theorem recordsOnly_record (books : Books) (modName : String) (modPath : ModPath) :
    RecordsOnly modName modPath books (books.record modName modPath) where
  here := by rw [Books.seen_record, if_pos rfl]
  elsewhere := fun other hother ↦ by rw [Books.seen_record, if_neg hother]
  mibSymbols := rfl

/-- An open path other than the candidate's is of another module. -/
theorem Unseen.ne_of_isOpen (hunseen : Unseen env books modName candidate)
    (hsound : Sound env books) {modPath : ModPath} (hopen : IsOpen books modPath) :
    modPath.modName ≠ modName := by
  intro hname
  have hpath := (hsound.isOpen modPath hopen).1
  rw [hname, hunseen.candidate, Option.some.injEq] at hpath
  subst hpath
  exact hunseen.path hopen.2.1

/-- The module that is recorded is the one whose path was open. -/
theorem Unseen.isOpen_record_iff (hunseen : Unseen env books modName candidate)
    (hsound : Sound env books) (hafter : Sound env after)
    (hsteady : Steady (books.seePath (candidate.fullPath modName)) after) (modPath : ModPath) :
    IsOpen (after.record modName (candidate.fullPath modName)) modPath ↔
      IsOpen books modPath := by
  have hrecords := recordsOnly_record after modName (candidate.fullPath modName)
  have hopenHere : IsOpen after (candidate.fullPath modName) :=
    (hsteady.isOpen _).mpr ((hunseen.isOpen_seePath_iff _).mpr (Or.inl rfl))
  constructor
  · rintro ⟨hsource, hmarked, hseen⟩
    have hopenAfter : IsOpen after modPath := by
      refine ⟨hsource, hmarked, ?_⟩
      by_cases hname : modPath.modName = modName
      · intro hrecorded
        rw [hname] at hrecorded
        exact (hafter.isOpen _ hopenHere).2 modPath hrecorded hsource
      · rwa [← hrecords.elsewhere _ hname]
    have hbefore := (hunseen.isOpen_seePath_iff modPath).mp
      ((hsteady.isOpen modPath).mp hopenAfter)
    refine hbefore.resolve_left ?_
    rintro rfl
    exact hseen hrecords.here
  · intro hbefore
    obtain ⟨hsource, hmem, hseen⟩ := (hsteady.isOpen modPath).mpr
      ((hunseen.isOpen_seePath_iff modPath).mpr (Or.inr hbefore))
    refine ⟨hsource, hmem, ?_⟩
    rwa [hrecords.elsewhere _ (hunseen.ne_of_isOpen hsound hbefore)]

/-- The books are sound again when a load is recorded. -/
theorem Unseen.sound_record (hunseen : Unseen env books modName candidate)
    (hsound : Sound env books) (hafter : Sound env after)
    (hsteady : Steady (books.seePath (candidate.fullPath modName)) after) :
    Sound env (after.record modName (candidate.fullPath modName)) := by
  have hrecords := recordsOnly_record after modName (candidate.fullPath modName)
  have hopenHere : IsOpen after (candidate.fullPath modName) :=
    (hsteady.isOpen _).mpr ((hunseen.isOpen_seePath_iff _).mpr (Or.inl rfl))
  constructor
  · intro other modPath hseen
    by_cases hother : other = modName
    · subst hother
      rw [hrecords.here, Option.some.injEq] at hseen
      subst hseen
      exact ⟨rfl, hopenHere.2.1⟩
    · rw [hrecords.elsewhere other hother] at hseen
      exact hafter.recorded other modPath hseen
  · intro modPath hopenPath
    have hbefore := (hunseen.isOpen_record_iff hsound hafter hsteady modPath).mp hopenPath
    have hafterPath := hafter.isOpen modPath ((hsteady.isOpen modPath).mpr
      ((hunseen.isOpen_seePath_iff modPath).mpr (Or.inr hbefore)))
    refine ⟨hafterPath.1, ?_⟩
    rw [hrecords.elsewhere _ (hunseen.ne_of_isOpen hsound hbefore)]
    exact hafterPath.2
  · intro other hother
    have hbefore : other ∈ books.corpusBuilding := by
      have hmem : other ∈ after.corpusBuilding := hother
      rwa [hsteady.building] at hmem
    rw [hrecords.elsewhere other (hunseen.ne_of_building hsound hbefore)]
    exact hafter.building other hother

/-- The code ran to its end: the module is recorded. -/
theorem Unseen.loads_of_ok (hunseen : Unseen env books modName candidate)
    (hsound : Sound env books)
    (hexec : Executes env modName false (books.seePath (candidate.fullPath modName))
      (.ok ()) after) :
    Loads env books (after.record modName (candidate.fullPath modName)) := by
  obtain ⟨hafter, hsteady, helsewhere, -⟩ := hexec
  have hrecords := recordsOnly_record after modName (candidate.fullPath modName)
  refine ⟨hunseen.sound_record hsound hafter hsteady, ⟨?_, fun modPath hmem ↦ ?_, ?_,
    hsteady.building, hsteady.symbols⟩, hrecords.unchangedOrLoaded hunseen.seen helsewhere⟩
  · exact hrecords.seen hunseen.seen hsteady.seen
  · exact hsteady.paths (Finset.mem_insert_of_mem hmem)
  · exact hunseen.isOpen_record_iff hsound hafter hsteady

/-- Evaluating a source loads whole modules or nothing. -/
theorem Unseen.loads_evaluate (hunseen : Unseen env books modName candidate)
    (hsound : Sound env books) (hload : LoadSpec load loadOrderly env)
    (horderly : CodeOrderly load loadOrderly (·.isException = true) modName candidate.codeObj false
      (books.seePath (candidate.fullPath modName))) :
    Loads env books ((evaluate load modName candidate).run books).2 := by
  have hexec := executes_exec hload candidate.codeObj false _ (hunseen.sound_seePath hsound)
    horderly
  rcases ok_or_error (exec load modName candidate.codeObj)
    (books.seePath (candidate.fullPath modName)) with ⟨value, after, hok⟩ | ⟨_, after, herror⟩
  · rw [hok] at hexec
    rw [evaluate_run_of_ok hok]
    exact hunseen.loads_of_ok hsound hexec
  · rw [herror] at hexec
    have hundone := horderly.undone_of_raised (congrArg Prod.fst herror)
    rw [evaluate_run_of_error hundone herror]
    exact hunseen.loads_of_error hsound hexec

end Evaluation

/-! ### A module built from the corpus -/

section Building

variable {load : String → BuilderEffect Unit} {loadOrderly : String → Books → Prop}
  {env : Environment} {modName : String} {corpus : CorpusSource} {code : Code}
  {books after : Books}

/-- A module of the corpus whose code runs to its end is recorded, its path with it. -/
theorem buildFromCorpus_run_of_ok
    (hrun : (exec load modName code).run (books.startBuilding modName) = (.ok (), after)) :
    (buildFromCorpus load corpus modName code).run books =
      (.ok (), ((after.stopBuilding modName).record modName (.corpus corpus.path modName)).seePath
        (.corpus corpus.path modName)) := by
  change ((handle (exec load modName code) _) >>= _).run _ = _
  rw [bind_run_of_ok (handle_run_of_ok hrun)]
  rfl

/-- A module of the corpus whose code raises is no longer being built. -/
theorem buildFromCorpus_run_of_error {exception : BuilderError}
    (hrun : (exec load modName code).run (books.startBuilding modName) =
      (.error exception, after)) :
    (buildFromCorpus load corpus modName code).run books =
      (.error exception, after.stopBuilding modName) := by
  change ((handle (exec load modName code) _) >>= _).run _ = _
  exact bind_run_of_error (handle_run_of_error hrun)

/-- The module is not recorded nor being built, and its copy in a source, if there is one, is
marked. -/
structure Buildable (env : Environment) (books : Books) (modName : String) : Prop where
  seen : books.seen modName = none
  building : modName ∉ books.corpusBuilding
  candidate : ∀ modPath, candidatePath env modName = some modPath → modPath ∈ books.modPathsSeen

theorem Buildable.sound_startBuilding (hbuildable : Buildable env books modName)
    (hsound : Sound env books) : Sound env (books.startBuilding modName) where
  recorded := hsound.recorded
  isOpen := hsound.isOpen
  building := fun other hother ↦ by
    rcases Finset.mem_insert.mp hother with rfl | hmem
    · refine ⟨hbuildable.candidate, fun modPath hseen ↦ ?_⟩
      have hrecorded : books.seen other = some modPath := hseen
      rw [hbuildable.seen] at hrecorded
      cases hrecorded
    · exact hsound.building other hmem

/-- The set of modules being built is restored when one of them ends. -/
theorem Buildable.corpusBuilding_stop (hbuildable : Buildable env books modName)
    (hsteady : Steady (books.startBuilding modName) after) :
    (after.stopBuilding modName).corpusBuilding = books.corpusBuilding := by
  change after.corpusBuilding.erase modName = books.corpusBuilding
  rw [hsteady.building]
  exact Finset.erase_insert hbuildable.building

/-- A module of the corpus that raises before it exports is not loaded, and its imports are. -/
theorem Buildable.loads_of_error (hbuildable : Buildable env books modName)
    {exception : BuilderError}
    (hexec : Executes env modName false (books.startBuilding modName) (.error exception) after) :
    Loads env books (after.stopBuilding modName) := by
  obtain ⟨hafter, hsteady, helsewhere, hraised⟩ := hexec
  obtain ⟨-, hhere⟩ := hraised exception rfl
  refine ⟨⟨hafter.recorded, hafter.isOpen, fun other hother ↦ ?_⟩,
    ⟨hsteady.seen, hsteady.paths, hsteady.isOpen, hbuildable.corpusBuilding_stop hsteady,
      hsteady.symbols⟩, fun other ↦ ?_⟩
  · exact hafter.building other (Finset.mem_of_mem_erase hother)
  · by_cases hother : other = modName
    · subst hother
      exact hhere
    · exact helsewhere other hother

/-- The books of a module that has been built from a corpus. -/
def recordBuilt (books : Books) (modName : String) (modPath : ModPath) : Books :=
  ((books.stopBuilding modName).record modName modPath).seePath modPath

theorem recordsOnly_recordBuilt (books : Books) (modName : String) (modPath : ModPath) :
    RecordsOnly modName modPath books (recordBuilt books modName modPath) where
  here := (recordsOnly_record (books.stopBuilding modName) modName modPath).here
  elsewhere := (recordsOnly_record (books.stopBuilding modName) modName modPath).elsewhere
  mibSymbols := rfl

/-- A path of a corpus is never open, and no source is recorded for a module being built. -/
theorem isOpen_recordBuilt_iff (hafter : Sound env after)
    (hbuilding : modName ∈ after.corpusBuilding) (path : String) (modPath : ModPath) :
    IsOpen (recordBuilt after modName (.corpus path modName)) modPath ↔ IsOpen after modPath := by
  have hrecords := recordsOnly_recordBuilt after modName (.corpus path modName)
  refine and_congr_right fun hsource ↦ and_congr ?_ (not_congr ?_)
  · refine Finset.mem_insert.trans (or_iff_right ?_)
    rintro rfl
    exact hsource
  · by_cases hname : modPath.modName = modName
    · rw [hname, hrecords.here]
      refine iff_of_false ?_ fun hseen ↦ ?_
      · intro hpath
        rw [← Option.some.inj hpath] at hsource
        exact hsource
      · exact (hafter.building modName hbuilding).2 modPath hseen hsource
    · rw [hrecords.elsewhere _ hname]

/-- The books are sound again when a module of the corpus is recorded. -/
theorem sound_recordBuilt (hafter : Sound env after) (hbuilding : modName ∈ after.corpusBuilding)
    (path : String) : Sound env (recordBuilt after modName (.corpus path modName)) := by
  have hrecords := recordsOnly_recordBuilt after modName (.corpus path modName)
  constructor
  · intro other modPath hseen
    by_cases hother : other = modName
    · subst hother
      rw [hrecords.here, Option.some.injEq] at hseen
      subst hseen
      exact ⟨rfl, Finset.mem_insert_self _ _⟩
    · rw [hrecords.elsewhere other hother] at hseen
      obtain ⟨hname, hmem⟩ := hafter.recorded other modPath hseen
      exact ⟨hname, Finset.mem_insert_of_mem hmem⟩
  · intro modPath hopen
    obtain ⟨hpath, hseen⟩ :=
      hafter.isOpen modPath ((isOpen_recordBuilt_iff hafter hbuilding path modPath).mp hopen)
    refine ⟨hpath, fun other hother ↦ ?_⟩
    by_cases hname : modPath.modName = modName
    · rw [hname, hrecords.here, Option.some.injEq] at hother
      subst hother
      exact id
    · rw [hrecords.elsewhere _ hname] at hother
      exact hseen other hother
  · intro other hother
    obtain ⟨hne, hmem⟩ := Finset.mem_erase.mp hother
    obtain ⟨hmarked, hseen⟩ := hafter.building other hmem
    rw [hrecords.elsewhere other hne]
    exact ⟨fun modPath hpath ↦ Finset.mem_insert_of_mem (hmarked modPath hpath), hseen⟩

/-- The code ran to its end: the module is recorded under a path of the corpus. -/
theorem Buildable.loads_of_ok (hbuildable : Buildable env books modName)
    (hexec : Executes env modName false (books.startBuilding modName) (.ok ()) after) :
    Loads env books (((after.stopBuilding modName).record modName
      (.corpus corpus.path modName)).seePath (.corpus corpus.path modName)) := by
  obtain ⟨hafter, hsteady, helsewhere, -⟩ := hexec
  have hrecords := recordsOnly_recordBuilt after modName (.corpus corpus.path modName)
  have hbuilding : modName ∈ after.corpusBuilding := by
    rw [hsteady.building]
    exact Finset.mem_insert_self _ _
  refine ⟨sound_recordBuilt hafter hbuilding corpus.path, ⟨?_, fun modPath hmem ↦ ?_,
    fun modPath ↦ ?_, hbuildable.corpusBuilding_stop hsteady, hsteady.symbols⟩,
      hrecords.unchangedOrLoaded hbuildable.seen helsewhere⟩
  · exact hrecords.seen hbuildable.seen hsteady.seen
  · exact Finset.mem_insert_of_mem (hsteady.paths hmem)
  · exact (isOpen_recordBuilt_iff hafter hbuilding corpus.path modPath).trans
      (hsteady.isOpen modPath)

/-- Building from the corpus loads whole modules or nothing. -/
theorem Buildable.loads_buildFromCorpus (hbuildable : Buildable env books modName)
    (hsound : Sound env books) (hload : LoadSpec load loadOrderly env)
    (horderly : CodeOrderly load loadOrderly (fun _ ↦ True) modName code false
      (books.startBuilding modName)) :
    Loads env books ((buildFromCorpus load corpus modName code).run books).2 := by
  have hexec := executes_exec hload code false _ (hbuildable.sound_startBuilding hsound) horderly
  rcases ok_or_error (exec load modName code) (books.startBuilding modName) with
    ⟨value, after, hok⟩ | ⟨_, after, herror⟩
  · rw [hok] at hexec
    rw [buildFromCorpus_run_of_ok hok]
    exact hbuildable.loads_of_ok hexec
  · rw [herror] at hexec
    rw [buildFromCorpus_run_of_error herror]
    exact hbuildable.loads_of_error hexec

end Building

/-! ### Loading a module -/

section Loading

variable {env : Environment} {modName : String} {books : Books}

/-- The copy of a module that a load evaluates: the first the environment gives, unless its path is
marked. -/
def evaluated (env : Environment) (modName : String) (books : Books) : Option Candidate :=
  (env.candidates modName).head?.filter
    fun candidate ↦ candidate.fullPath modName ∉ books.modPathsSeen

/-- What building the module does, where a load that evaluates no copy comes to it. -/
def built (env : Environment) (modName : String) (books : Books) : Option Code :=
  if env.corpusMayAnswer = .ok true ∧ modName ∉ books.corpusBuilding then
    env.mibCorpus.bind fun corpus ↦ corpus.build modName
  else none

/-- In these books the load of the module executes code in an orderly way only. -/
def LoadOrderly (env : Environment) : ℕ → String → Books → Prop
  | 0, _, _ => True
  | depth + 1, modName, books =>
    books.seen modName = none →
      match evaluated env modName books with
      | some candidate =>
        CodeOrderly (loadModule env depth) (LoadOrderly env depth) (·.isException = true) modName
          candidate.codeObj false (books.seePath (candidate.fullPath modName))
      | none => ∀ code ∈ built env modName books,
        CodeOrderly (loadModule env depth) (LoadOrderly env depth) (fun _ ↦ True) modName code false
          (books.startBuilding modName)

/-- The first candidate is evaluated, unless its path has been seen. -/
theorem evaluated_eq_some_iff {candidate : Candidate} :
    evaluated env modName books = some candidate ↔
      (env.candidates modName).head? = some candidate ∧
        candidate.fullPath modName ∉ books.modPathsSeen := by
  simp only [evaluated, Option.filter_eq_some_iff, decide_eq_true_eq]

/-- Where a copy is to be evaluated, the load comes to that. -/
theorem loadFromSources_run_of_some {load : String → BuilderEffect Unit} {candidate : Candidate}
    (hevaluated : evaluated env modName books = some candidate) :
    (loadFromSources load (env.candidates modName) modName).run books =
      (evaluate load modName candidate).run books := by
  obtain ⟨hhead, hunseen⟩ := evaluated_eq_some_iff.mp hevaluated
  obtain ⟨rest, hcandidates⟩ := List.head?_eq_some_iff.mp hhead
  rw [hcandidates]
  change (runIf (candidate.fullPath modName ∉ books.modPathsSeen) _).run books = _
  rw [runIf_of_true _ hunseen]

/-- Where no candidate is evaluated, the sources change nothing. -/
theorem loadFromSources_run_of_none {load : String → BuilderEffect Unit}
    (hevaluated : evaluated env modName books = none) :
    (loadFromSources load (env.candidates modName) modName).run books = (.ok (), books) := by
  cases hcandidates : env.candidates modName with
  | nil => rfl
  | cons candidate rest =>
    have hmarked : ¬ candidate.fullPath modName ∉ books.modPathsSeen := by
      intro hunseen
      have hsome := evaluated_eq_some_iff.mpr
        ⟨by rw [hcandidates, List.head?_cons], hunseen⟩
      rw [hevaluated] at hsome
      cases hsome
    change (runIf (candidate.fullPath modName ∉ books.modPathsSeen) _).run books = _
    rw [runIf_of_false _ hmarked, pure_run]

/-- The corpus is asked unless it is closed to the module or building it already. -/
theorem built_eq_some_iff {code : Code} :
    built env modName books = some code ↔ env.corpusMayAnswer = .ok true ∧
      modName ∉ books.corpusBuilding ∧
        ∃ corpus, env.mibCorpus = some corpus ∧ corpus.build modName = some code := by
  unfold built
  split_ifs with hanswers
  · rw [Option.bind_eq_some_iff]
    exact ⟨fun hcorpus ↦ ⟨hanswers.1, hanswers.2, hcorpus⟩, fun hall ↦ hall.2.2⟩
  · exact iff_of_false nofun fun hall ↦ hanswers ⟨hall.1, hall.2.1⟩

theorem loadModuleFromCorpus_run_of_some (load : String → BuilderEffect Unit) {code : Code}
    (hbuilt : built env modName books = some code) :
    ∃ corpus, (loadModuleFromCorpus load env modName).run books =
      (buildFromCorpus load corpus modName code >>= fun _ ↦ pure true).run books := by
  obtain ⟨hanswers, hbuilding, corpus, hcorpus, hcode⟩ := built_eq_some_iff.mp hbuilt
  refine ⟨corpus, ?_⟩
  rw [loadModuleFromCorpus, hcorpus]
  simp only [hanswers]
  change Effect.run (if modName ∈ books.corpusBuilding then _ else _) books = _
  rw [if_neg hbuilding, hcode]

/-- A corpus that does not answer changes nothing. -/
theorem loadModuleFromCorpus_run_snd_of_none (load : String → BuilderEffect Unit)
    (hbuilt : built env modName books = none) :
    ((loadModuleFromCorpus load env modName).run books).2 = books := by
  rw [loadModuleFromCorpus]
  cases hcorpus : env.mibCorpus with
  | none => rfl
  | some corpus =>
    cases hanswers : env.corpusMayAnswer with
    | error exception => rfl
    | ok mayAnswer =>
      cases mayAnswer with
      | false => rfl
      | true =>
        change (Effect.run (if modName ∈ books.corpusBuilding then _ else _) books).2 = _
        split_ifs with hbuilding
        · rfl
        · cases hcode : corpus.build modName with
          | none => rfl
          | some code =>
            have hsome := built_eq_some_iff.mpr ⟨hanswers, hbuilding, corpus, hcorpus, hcode⟩
            rw [hbuilt] at hsome
            cases hsome

/-- What a load does once no copy of the module was evaluated. -/
def loadUnrecorded (env : Environment) (depth : ℕ) (modName : String) : BuilderEffect Unit := do
  let books ← get
  runIf (books.seen modName = none) do
    let built ← loadModuleFromCorpus (loadModule env depth) env modName
    runIf (built = false) (raise (.mibNotFoundError s!"MIB file {modName}.py[co] not found"))

/-- A recorded module is not loaded again. -/
theorem loadModule_run_of_seen (depth : ℕ) (hseen : books.seen modName ≠ none) :
    (loadModule env (depth + 1) modName).run books = (.ok (), books) := by
  change (runIf (books.seen modName = none) _).run books = _
  rw [runIf_of_false _ hseen, pure_run]

/-- A module that is not recorded is looked for in the sources, and then in the corpus. -/
theorem loadModule_run_of_unseen (depth : ℕ) (hseen : books.seen modName = none) :
    (loadModule env (depth + 1) modName).run books =
      (loadFromSources (loadModule env depth) (env.candidates modName) modName >>=
        fun _ ↦ loadUnrecorded env depth modName).run books := by
  change (runIf (books.seen modName = none) _).run books = _
  rw [runIf_of_true _ hseen]
  rfl

theorem loadUnrecorded_run_of_seen (depth : ℕ) (hseen : books.seen modName ≠ none) :
    (loadUnrecorded env depth modName).run books = (.ok (), books) := by
  change (runIf (books.seen modName = none) _).run books = _
  rw [runIf_of_false _ hseen, pure_run]

theorem loadUnrecorded_run_of_unseen (depth : ℕ) (hseen : books.seen modName = none) :
    (loadUnrecorded env depth modName).run books =
      (loadModuleFromCorpus (loadModule env depth) env modName >>= fun built ↦
        runIf (built = false)
          (raise (.mibNotFoundError s!"MIB file {modName}.py[co] not found"))).run books := by
  change (runIf (books.seen modName = none) _).run books = _
  rw [runIf_of_true _ hseen]

/-- A load that evaluates a copy of the module ends as the evaluation does. -/
theorem loadModule_run_of_evaluated {depth : ℕ} {candidate : Candidate}
    (hseen : books.seen modName = none)
    (hevaluated : evaluated env modName books = some candidate) :
    (loadModule env (depth + 1) modName).run books =
      (evaluate (loadModule env depth) modName candidate).run books := by
  rw [loadModule_run_of_unseen depth hseen]
  rcases ok_or_error (exec (loadModule env depth) modName candidate.codeObj)
    (books.seePath (candidate.fullPath modName)) with
    ⟨value, after, hok⟩ | ⟨exception, after, herror⟩
  · have hrun := (loadFromSources_run_of_some hevaluated).trans (evaluate_run_of_ok hok)
    rw [bind_run_of_ok hrun, loadUnrecorded_run_of_seen, evaluate_run_of_ok hok]
    rw [Books.seen_record, if_pos rfl]
    exact Option.some_ne_none _
  · cases hundone : exception.isException with
    | true =>
      have hrun := (loadFromSources_run_of_some hevaluated).trans
        (evaluate_run_of_error hundone herror)
      rw [bind_run_of_error hrun, evaluate_run_of_error hundone herror]
    | false =>
      have hrun := (loadFromSources_run_of_some hevaluated).trans
        (evaluate_run_of_baseException hundone herror)
      rw [bind_run_of_error hrun, evaluate_run_of_baseException hundone herror]

/-- Without a source to evaluate, the corpus decides whether the module is found. -/
theorem loadModule_run_of_not_evaluated {depth : ℕ} (hseen : books.seen modName = none)
    (hevaluated : evaluated env modName books = none) :
    (loadModule env (depth + 1) modName).run books =
      (loadModuleFromCorpus (loadModule env depth) env modName >>= fun built ↦
        runIf (built = false)
          (raise (.mibNotFoundError s!"MIB file {modName}.py[co] not found"))).run books := by
  rw [loadModule_run_of_unseen depth hseen,
    bind_run_of_ok (loadFromSources_run_of_none hevaluated),
    loadUnrecorded_run_of_unseen depth hseen]

/-- A load that builds the module from the corpus ends as the building does. -/
theorem loadModule_run_of_built (depth : ℕ) {code : Code} (hseen : books.seen modName = none)
    (hevaluated : evaluated env modName books = none)
    (hbuilt : built env modName books = some code) :
    ∃ corpus, (loadModule env (depth + 1) modName).run books =
      (buildFromCorpus (loadModule env depth) corpus modName code).run books := by
  obtain ⟨corpus, hcorpus⟩ :=
    loadModuleFromCorpus_run_of_some (loadModule env depth) hbuilt
  refine ⟨corpus, ?_⟩
  rw [loadModule_run_of_not_evaluated hseen hevaluated]
  rcases ok_or_error (buildFromCorpus (loadModule env depth) corpus modName code) books with
    ⟨value, after, hok⟩ | ⟨exception, after, herror⟩
  · rw [bind_run_of_ok (hcorpus.trans (bind_run_of_ok hok)), hok]
    rfl
  · rw [bind_run_of_error (hcorpus.trans (bind_run_of_error herror)), herror]

/-- A module that is nowhere leaves the books as they were. -/
theorem loadModule_run_snd_of_missing {depth : ℕ} (hseen : books.seen modName = none)
    (hevaluated : evaluated env modName books = none) (hbuilt : built env modName books = none) :
    ((loadModule env (depth + 1) modName).run books).2 = books := by
  have hcorpus :=
    loadModuleFromCorpus_run_snd_of_none (loadModule env depth) hbuilt
  rw [loadModule_run_of_not_evaluated hseen hevaluated]
  rcases ok_or_error (loadModuleFromCorpus (loadModule env depth) env modName) books with
    ⟨value, after, hok⟩ | ⟨exception, after, herror⟩
  · rw [hok] at hcorpus
    rw [bind_run_of_ok hok]
    cases value <;> exact hcorpus
  · rw [herror] at hcorpus
    rw [bind_run_of_error herror]
    exact hcorpus

/-- A source that is evaluated was neither recorded nor open. -/
theorem unseen_of_evaluated {candidate : Candidate} (hseen : books.seen modName = none)
    (hevaluated : evaluated env modName books = some candidate) :
    Unseen env books modName candidate := by
  obtain ⟨hhead, hunmarked⟩ := evaluated_eq_some_iff.mp hevaluated
  refine ⟨hseen, hunmarked, ?_⟩
  rw [candidatePath, hhead]
  rfl

/-- A module that is built was neither recorded nor being built. -/
theorem buildable_of_built {code : Code} (hseen : books.seen modName = none)
    (hevaluated : evaluated env modName books = none)
    (hbuilt : built env modName books = some code) : Buildable env books modName := by
  refine ⟨hseen, (built_eq_some_iff.mp hbuilt).2.1, fun modPath hpath ↦ ?_⟩
  obtain ⟨candidate, hhead, rfl⟩ := Option.map_eq_some_iff.mp hpath
  by_contra hunmarked
  have hsome := evaluated_eq_some_iff.mpr ⟨hhead, hunmarked⟩
  rw [hevaluated] at hsome
  cases hsome

/-- An orderly load, by induction on what is left of the stack: every load that the code of the
module makes has less of it. -/
theorem loadSpec_loadModule (env : Environment) (depth : ℕ) :
    LoadSpec (loadModule env depth) (LoadOrderly env depth) env := by
  induction depth with
  | zero => exact fun modName books hsound _ ↦
      ⟨hsound, Steady.refl books, UnchangedOrLoaded.refl books⟩
  | succ depth ih =>
    intro modName books hsound horderly
    by_cases hseen : books.seen modName = none
    swap
    · rw [loadModule_run_of_seen depth hseen]
      exact ⟨hsound, Steady.refl books, UnchangedOrLoaded.refl books⟩
    have hordered := horderly hseen
    cases hevaluated : evaluated env modName books with
    | some candidate =>
      rw [hevaluated] at hordered
      rw [loadModule_run_of_evaluated hseen hevaluated]
      exact (unseen_of_evaluated hseen hevaluated).loads_evaluate hsound ih hordered
    | none =>
      rw [hevaluated] at hordered
      cases hbuilt : built env modName books with
      | none =>
        rw [loadModule_run_snd_of_missing hseen hevaluated hbuilt]
        exact ⟨hsound, Steady.refl books, UnchangedOrLoaded.refl books⟩
      | some code =>
        obtain ⟨corpus, hrun⟩ := loadModule_run_of_built depth hseen hevaluated hbuilt
        rw [hrun]
        exact (buildable_of_built hseen hevaluated hbuilt).loads_buildFromCorpus hsound ih
          (hordered code hbuilt)

end Loading

end Pysnmp.Smi.BuilderLoads
