import Pysnmp.Foundation.Relational
import Pysnmp.Foundation.Run
import Pysnmp.Smi.BuilderLoads

/-!
# The books of the MIB builder agree

Between two calls the books are `Settled`: the marked paths of sources are those of the modules
recorded as loaded. Such books never keep a module from being loaded (`Settled.loadable`). `Agrees`
says what is asked of one call, and `books_agree` that every call of a run meets it when the calls
are `Orderly`.

The calls that are not are of five kinds: a module raises when it has exported something, and what
it exported stays; its code ends with what is no `Exception`, a `KeyboardInterrupt` say, and its
path stays marked, so that the module is not found when it is asked for again; an export fails after
its first symbol; a symbol is filed under a label, or under a generated name, that is taken, since
only the name it is passed under is looked up; and everything is unloaded while a module has symbols
and no record, or a record and no symbols (`not_books_agree`).
-/

set_option autoImplicit false
set_option relaxedAutoImplicit false

namespace Pysnmp.Smi.BuilderBooks

open Foundation Foundation.Effect MibBuilder BuilderLoads

/-! ### Between the calls -/

/-- The books between two calls: a module is recorded under a marked path where it lies, every
marked path of a source is recorded, and nothing is being built. -/
structure Settled (books : Books) : Prop where
  recorded : ∀ modName modPath, books.seen modName = some modPath →
    modPath.modName = modName ∧ modPath ∈ books.modPathsSeen
  marked : ∀ modPath ∈ books.modPathsSeen, modPath.IsSource →
    books.seen modPath.modName = some modPath
  building : books.corpusBuilding = ∅

section Settled

variable {env : Environment} {modName : String} {books before after : Books}

/-- A new builder is settled. -/
theorem settled_empty : Settled Books.empty where
  recorded := fun _ _ hseen ↦ by cases hseen
  marked := fun _ hmem ↦ absurd hmem (Finset.notMem_empty _)
  building := rfl

theorem Settled.sound (hsettled : Settled books) (env : Environment) : Sound env books where
  recorded := hsettled.recorded
  isOpen := fun modPath hopen ↦ absurd (hsettled.marked modPath hopen.2.1 hopen.1) hopen.2.2
  building := fun other hother ↦ by
    rw [hsettled.building] at hother
    exact absurd hother (Finset.notMem_empty _)

/-- Loads leave the books settled. -/
theorem Settled.of_loads (hsettled : Settled before) (hloads : Loads env before after) :
    Settled after where
  recorded := hloads.sound.recorded
  marked := fun modPath hmem hsource ↦ by
    by_contra hseen
    have hopen := (hloads.steady.isOpen modPath).mp ⟨hsource, hmem, hseen⟩
    exact hopen.2.2 (hsettled.marked modPath hopen.2.1 hsource)
  building := hloads.steady.building.trans hsettled.building

/-- Exports leave the books settled. -/
theorem Settled.of_changesOnly (hsettled : Settled before)
    (hchanges : ChangesOnly modName before after) : Settled after where
  recorded := fun other modPath hseen ↦ by
    rw [hchanges.modPathsSeen]
    exact hsettled.recorded other modPath (by rwa [← hchanges.seen])
  marked := fun modPath hmem hsource ↦ by
    rw [hchanges.seen]
    exact hsettled.marked modPath (by rwa [← hchanges.modPathsSeen]) hsource
  building := hchanges.corpusBuilding.trans hsettled.building

/-- A load of the module returns in every environment in which its code, executed in these books,
runs to its end. -/
def Loadable (books : Books) (modName : String) : Prop :=
  ∀ env depth,
    (∀ candidate ∈ (env.candidates modName).head?,
      ((exec (loadModule env depth) modName candidate.codeObj).run
        (books.seePath (candidate.fullPath modName))).1 = .ok () →
      ((loadModule env (depth + 1) modName).run books).1 = .ok ()) ∧
    ∀ corpus code, env.candidates modName = [] → env.mibCorpus = some corpus →
      env.corpusMayAnswer = .ok true → corpus.build modName = some code →
      ((exec (loadModule env depth) modName code).run (books.startBuilding modName)).1 = .ok () →
      ((loadModule env (depth + 1) modName).run books).1 = .ok ()

/-- Nothing in settled books stands between the code of a module and the load of it. -/
theorem Settled.loadable (hsettled : Settled books) (modName : String) :
    Loadable books modName := by
  intro env depth
  by_cases hseen : books.seen modName = none
  swap
  · rw [loadModule_run_of_seen depth hseen]
    exact ⟨fun _ _ _ ↦ rfl, fun _ _ _ _ _ _ _ ↦ rfl⟩
  constructor
  · intro candidate hhead hexec
    have hunmarked : candidate.fullPath modName ∉ books.modPathsSeen := by
      intro hmarked
      have hrecorded : books.seen modName = some (candidate.fullPath modName) :=
        hsettled.marked _ hmarked trivial
      rw [hseen] at hrecorded
      cases hrecorded
    rw [loadModule_run_of_evaluated hseen (evaluated_eq_some_iff.mpr ⟨hhead, hunmarked⟩)]
    rcases ok_or_error (exec (loadModule env depth) modName candidate.codeObj)
      (books.seePath (candidate.fullPath modName)) with ⟨value, after, hok⟩ | ⟨_, after, herror⟩
    · rw [evaluate_run_of_ok hok]
    · rw [herror] at hexec
      cases hexec
  · intro corpus code hcandidates hcorpus hanswers hcode hexec
    have hevaluated : evaluated env modName books = none := by
      rw [evaluated, hcandidates]
      rfl
    have hbuilding : modName ∉ books.corpusBuilding := by
      rw [hsettled.building]
      exact Finset.notMem_empty _
    obtain ⟨_, hrun⟩ := loadModule_run_of_built depth hseen hevaluated
      (built_eq_some_iff.mpr ⟨hanswers, hbuilding, corpus, hcorpus, hcode⟩)
    rw [hrun]
    rcases ok_or_error (exec (loadModule env depth) modName code) (books.startBuilding modName) with
      ⟨value, after, hok⟩ | ⟨_, after, herror⟩
    · rw [buildFromCorpus_run_of_ok hok]
    · rw [herror] at hexec
      cases hexec

end Settled

/-! ### Unloading -/

section Unloading

variable {modName : String} {books before middle after : Books}

/-- Withdrawing all symbols of a module leaves none. -/
theorem forEach_unexportSymbol {symNames : List String}
    (hkeys : (books.tableOf modName).keys = symNames) :
    ∃ after, (forEach (unexportSymbol modName) symNames).run books = (.ok (), after) ∧
      (after.tableOf modName).keys = [] := by
  induction symNames generalizing books with
  | nil => exact ⟨books, rfl, hkeys⟩
  | cons symName rest ih =>
    have hmem : symName ∈ books.tableOf modName := by
      rw [AList.mem_keys, hkeys]
      exact List.mem_cons_self
    have hfirst : (unexportSymbol modName symName).run books =
        (.ok (), books.withdraw modName symName) := by
      change Effect.run (if symName ∈ books.tableOf modName then _ else _) books = _
      rw [if_pos hmem]
      rfl
    have hrest : ((books.withdraw modName symName).tableOf modName).keys = rest := by
      rw [Books.withdraw, Books.tableOf_setTable, AList.keys_erase, hkeys, List.erase_cons_head]
    obtain ⟨after, hrun, hempty⟩ := ih hrest
    refine ⟨after, ?_, hempty⟩
    rw [forEach_cons, bind_run_of_ok hfirst, hrun]

/-- Withdrawing the whole of a module that has an entry takes the entry away. -/
theorem unexportSymbols_run_of_entry (hentry : books.symbolsOf modName ≠ none) :
    ∃ after, (unexportSymbols modName []).run books = (.ok (), after) ∧
      after.symbolsOf modName = none ∧ ChangesOnly modName books after := by
  obtain ⟨emptied, hloop, hempty⟩ := forEach_unexportSymbol (rfl : (books.tableOf modName).keys = _)
  have hrun : (unexportSymbols modName []).run books =
      (.ok (), (emptied.closeModule modName).countBuild) := by
    change Effect.run (if books.symbolsOf modName = none then _ else _) books = _
    rw [if_neg hentry]
    change ((forEach (unexportSymbol modName) (books.tableOf modName).keys) >>= _).run books = _
    rw [bind_run_of_ok hloop]
    change ((runIf ((emptied.tableOf modName).keys = []) _) >>= _).run emptied = _
    rw [runIf_of_true _ hempty]
    rfl
  refine ⟨_, hrun, ?_, Keeps.of_run (keeps_unexportSymbols modName []) hrun⟩
  change (emptied.closeModule modName).symbolsOf modName = none
  rw [Books.symbolsOf_closeModule, if_pos rfl]

/-- A module without symbols is not unloaded. -/
theorem unloadModule_run_of_missing (hmissing : books.symbolsOf modName = none) :
    (unloadModule modName).run books =
      (.error (.mibNotFoundError s!"No module {modName}"), books) := by
  change Effect.run (if books.symbolsOf modName = none then _ else _) books = _
  rw [if_pos hmissing]
  rfl

/-- The record of a module and the mark of its path are taken away with the symbols. -/
def forget (modName : String) (modPath : ModPath) (books : Books) : Books :=
  (books.forgetPath modPath).unrecord modName

/-- What unloading a module with symbols does: without a record of the module it raises. -/
theorem Settled.unloadModule_run (hsettled : Settled books)
    (hentry : books.symbolsOf modName ≠ none) :
    ∃ middle, ChangesOnly modName books middle ∧ middle.symbolsOf modName = none ∧
      ((books.seen modName = none ∧
          (unloadModule modName).run books = (.error .keyError, middle)) ∨
        ∃ modPath, books.seen modName = some modPath ∧
          (unloadModule modName).run books = (.ok (), forget modName modPath middle)) := by
  obtain ⟨middle, hrun, hnone, hchanges⟩ := unexportSymbols_run_of_entry hentry
  refine ⟨middle, hchanges, hnone, ?_⟩
  have hunload : (unloadModule modName).run books =
      (forgetModule modName (middle.seen modName)).run middle := by
    change Effect.run (if books.symbolsOf modName = none then _ else _) books = _
    rw [if_neg hentry, bind_run_of_ok hrun]
    rfl
  rw [hunload, hchanges.seen]
  cases hseen : books.seen modName with
  | none => exact Or.inl ⟨rfl, rfl⟩
  | some modPath =>
    refine Or.inr ⟨modPath, rfl, ?_⟩
    have hmarked : modPath ∈ middle.modPathsSeen := by
      rw [hchanges.modPathsSeen]
      exact (hsettled.recorded modName modPath hseen).2
    change Effect.run (if modPath ∈ middle.modPathsSeen then _ else _) middle = _
    rw [if_pos hmarked]
    rfl

/-- Forgetting takes a module off the record. -/
theorem seen_forget (modPath : ModPath) (other : String) :
    (forget modName modPath books).seen other =
      if other = modName then none else books.seen other := by
  rw [forget, Books.seen_unrecord]
  rfl

/-- Forgetting a recorded module leaves the books settled. -/
theorem Settled.forget_seen {modPath : ModPath} (hsettled : Settled books)
    (hseen : books.seen modName = some modPath) :
    Settled (forget modName modPath books) where
  recorded := fun other otherPath hother ↦ by
    rw [seen_forget] at hother
    split_ifs at hother with hname
    obtain ⟨hpath, hmem⟩ := hsettled.recorded other otherPath hother
    refine ⟨hpath, Finset.mem_erase.mpr ⟨?_, hmem⟩⟩
    rintro rfl
    exact hname (hpath.symm.trans (hsettled.recorded modName _ hseen).1)
  marked := fun otherPath hmem hsource ↦ by
    obtain ⟨hne, hmarked⟩ := Finset.mem_erase.mp hmem
    have hrecorded := hsettled.marked otherPath hmarked hsource
    rw [seen_forget, if_neg]
    · exact hrecorded
    · intro hname
      rw [hname, hseen, Option.some.injEq] at hrecorded
      exact hne hrecorded.symm
  building := hsettled.building

/-- Modules without symbols stay so, and a module whose record is gone has none. -/
structure Drops (before after : Books) : Prop where
  symbols : ∀ modName, before.symbolsOf modName = none → after.symbolsOf modName = none
  unloaded : ∀ modName, before.seen modName ≠ none → after.seen modName = none →
    after.symbolsOf modName = none

/-- From settled books, unloading drops modules and leaves settled books. -/
def Unloads (before after : Books) : Prop :=
  Settled before → Settled after ∧ Drops before after

theorem Drops.refl (books : Books) : Drops books books :=
  ⟨fun _ hnone ↦ hnone, fun _ hseen hnone ↦ absurd hnone hseen⟩

theorem Drops.trans (hfirst : Drops before middle) (hsecond : Drops middle after) :
    Drops before after where
  symbols := fun modName hnone ↦ hsecond.symbols modName (hfirst.symbols modName hnone)
  unloaded := fun modName hseen hnone ↦ by
    by_cases hmiddle : middle.seen modName = none
    · exact hsecond.symbols modName (hfirst.unloaded modName hseen hmiddle)
    · exact hsecond.unloaded modName hmiddle hnone

instance : Std.Refl Unloads :=
  ⟨fun books hsettled ↦ ⟨hsettled, Drops.refl books⟩⟩

instance : IsTrans Books Unloads :=
  ⟨fun _ _ _ hfirst hsecond hsettled ↦ by
    obtain ⟨hmiddle, hdrops⟩ := hfirst hsettled
    obtain ⟨hafter, hdrops'⟩ := hsecond hmiddle
    exact ⟨hafter, hdrops.trans hdrops'⟩⟩

/-- Withdrawing the symbols of a module only takes away. -/
theorem drops_of_changesOnly (hchanges : ChangesOnly modName before after)
    (hnone : after.symbolsOf modName = none) : Drops before after where
  symbols := fun other hother ↦ by
    by_cases hname : other = modName
    · rwa [hname]
    · rwa [hchanges.elsewhere other hname]
  unloaded := fun other hseen hafter ↦ absurd (hchanges.seen other ▸ hafter) hseen

theorem drops_forget (modPath : ModPath) (hnone : books.symbolsOf modName = none) :
    Drops books (forget modName modPath books) where
  symbols := fun _ hother ↦ hother
  unloaded := fun other hseen hafter ↦ by
    rw [seen_forget] at hafter
    split_ifs at hafter with hname
    · rw [hname]
      exact hnone
    · exact absurd hafter hseen

/-- Unloading a module only takes away. -/
theorem keeps_unloadModule (modName : String) : Keeps Unloads (unloadModule modName) := by
  intro books hsettled
  by_cases hentry : books.symbolsOf modName = none
  · rw [unloadModule_run_of_missing hentry]
    exact ⟨hsettled, Drops.refl books⟩
  obtain ⟨middle, hchanges, hnone, ⟨-, hrun⟩ | ⟨modPath, hseen, hrun⟩⟩ :=
    hsettled.unloadModule_run hentry
  · rw [hrun]
    exact ⟨hsettled.of_changesOnly hchanges, drops_of_changesOnly hchanges hnone⟩
  · rw [hrun]
    refine ⟨(hsettled.of_changesOnly hchanges).forget_seen (by rw [hchanges.seen, hseen]), ?_⟩
    exact (drops_of_changesOnly hchanges hnone).trans (drops_forget modPath hnone)

/-- Unloading modules only takes away. -/
theorem keeps_unloadModules (modNames : List String) : Keeps Unloads (unloadModules modNames) :=
  keeps_get.bind fun _ ↦ Keeps.forEach fun modName _ ↦ keeps_unloadModule modName

/-- The modules with symbols are those recorded as loaded. -/
def AllRecorded (books : Books) : Prop :=
  ∀ modName, books.symbolsOf modName = none ↔ books.seen modName = none

/-- Modules with symbols that are the recorded ones are all recorded. -/
theorem allRecorded_of_keys (hkeys : books.mibSymbols.keys = books.modSeen.keys) :
    AllRecorded books := by
  intro modName
  rw [Books.symbolsOf, Books.seen, AList.lookup_eq_none, AList.lookup_eq_none, AList.mem_keys,
    AList.mem_keys, hkeys]

/-- Unloading every module with symbols empties the books, if these are the modules recorded. -/
theorem Settled.forEach_unloadModule {modNames : List String} (hsettled : Settled books)
    (hrecorded : AllRecorded books)
    (hnames : ∀ modName, books.symbolsOf modName ≠ none ↔ modName ∈ modNames)
    (hnodup : modNames.Nodup) :
    ∃ after, (forEach unloadModule modNames).run books = (.ok (), after) ∧
      ∀ modName, after.symbolsOf modName = none ∧ after.seen modName = none := by
  induction modNames generalizing books with
  | nil =>
    have hnone : ∀ modName, books.symbolsOf modName = none := fun modName ↦
      not_not.mp fun hentry ↦ absurd ((hnames modName).mp hentry) List.not_mem_nil
    exact ⟨books, rfl, fun modName ↦ ⟨hnone modName, (hrecorded modName).mp (hnone modName)⟩⟩
  | cons modName rest ih =>
    obtain ⟨hnotMem, hnodupRest⟩ := List.nodup_cons.mp hnodup
    have hentry := (hnames modName).mpr List.mem_cons_self
    obtain ⟨middle, hchanges, hnone, ⟨hseen, -⟩ | ⟨modPath, hseen, hrun⟩⟩ :=
      hsettled.unloadModule_run hentry
    · exact absurd ((hrecorded modName).mpr hseen) hentry
    · let next := forget modName modPath middle
      have hnext : ∀ other, next.symbolsOf other =
          if other = modName then none else books.symbolsOf other := by
        intro other
        split_ifs with hother
        · rw [hother]
          exact hnone
        · exact hchanges.elsewhere other hother
      have hnextSeen : ∀ other, next.seen other =
          if other = modName then none else books.seen other := by
        intro other
        rw [seen_forget, hchanges.seen]
      have hnextSettled : Settled next :=
        (hsettled.of_changesOnly hchanges).forget_seen (by rw [hchanges.seen, hseen])
      have hnextRecorded : AllRecorded next := by
        intro other
        rw [hnext, hnextSeen]
        split_ifs
        · exact iff_of_true rfl rfl
        · exact hrecorded other
      have hnextNames : ∀ other, next.symbolsOf other ≠ none ↔ other ∈ rest := by
        intro other
        rw [hnext]
        split_ifs with hother
        · subst hother
          exact iff_of_false (fun hne ↦ hne rfl) hnotMem
        · rw [hnames other, List.mem_cons, or_iff_right hother]
      obtain ⟨after, hloop, hempty⟩ := ih hnextSettled hnextRecorded hnextNames hnodupRest
      exact ⟨after, by rw [forEach_cons, bind_run_of_ok hrun, hloop], hempty⟩

/-- Unloading all modules returns with none recorded and no symbols, if all are recorded. -/
theorem Settled.unloadModules_run (hsettled : Settled books) (hrecorded : AllRecorded books) :
    ∃ after, (unloadModules []).run books = (.ok (), after) ∧
      ∀ modName, after.symbolsOf modName = none ∧ after.seen modName = none := by
  refine hsettled.forEach_unloadModule hrecorded (fun modName ↦ ?_) books.mibSymbols.keys_nodup
  rw [if_pos rfl, ← AList.mem_keys, ← AList.lookup_isSome, ← Option.isSome_iff_ne_none,
    Books.symbolsOf]

end Unloading

/-! ### Exporting again -/

section Retrying

variable {modName : String} {books other : Books}

theorem sameSymbols_setTable (hsame : SameSymbols modName books other)
    (table : Dict String SymObj) :
    SameSymbols modName (books.setTable modName table) (other.setTable modName table) := by
  refine ⟨?_, hsame.2⟩
  rw [Books.symbolsOf_setTable, Books.symbolsOf_setTable, if_pos rfl, if_pos rfl]

theorem respects_exportAnonymous (modName : String) (symObj : SymObj) :
    Respects (SameSymbols modName) (exportAnonymous modName symObj) := by
  refine Respects.get_bind (fun books other hsame ↦ ?_) fun books ↦ respects_modify ?_
  · rw [hsame.2]
  · intro first second hsame
    have hset := sameSymbols_setTable hsame
      (AList.insert (anonymousName books.autoName) symObj (first.tableOf modName))
    rw [Books.publish, Books.publish, hsame.tableOf]
    exact ⟨hset.1, congrArg (· + 1) hset.2⟩

theorem respects_exportNamed (modName : String) (named : String × SymObj) :
    Respects (SameSymbols modName) (exportNamed modName named) := by
  refine Respects.get_bind (fun books other hsame ↦ ?_) fun books ↦ ?_
  · rw [hsame.tableOf]
  · refine (respects_raise _).ite ((respects_liftExcept _).bind fun filed ↦ respects_modify ?_)
    intro first second hsame
    rw [Books.publish, Books.publish, hsame.tableOf]
    exact sameSymbols_setTable hsame _

theorem respects_countBuild (modName : String) :
    Respects (SameSymbols modName) (modify Books.countBuild : BuilderEffect Unit) :=
  respects_modify fun _ _ hsame ↦ hsame

/-- An export depends on the symbols of its module only. -/
theorem respects_exportSymbols (modName : String) (anonymousSyms : List SymObj)
    (namedSyms : List (String × SymObj)) :
    Respects (SameSymbols modName) (exportSymbols modName anonymousSyms namedSyms) := by
  refine Respects.bind (respects_modify fun first second hsame ↦ ?_) fun _ ↦ ?_
  · rw [Books.openModule, Books.openModule, hsame.tableOf]
    exact sameSymbols_setTable hsame _
  refine Respects.bind (Respects.forEach fun symObj _ ↦ respects_exportAnonymous modName symObj) ?_
  refine fun _ ↦ Respects.bind (Respects.forEach fun named _ ↦ ?_) ?_
  · exact respects_exportNamed modName named
  · exact fun _ ↦ respects_countBuild modName

theorem respects_unexportSymbol (modName symName : String) :
    Respects (SameSymbols modName) (unexportSymbol modName symName) := by
  refine Respects.get_bind (fun books other hsame ↦ ?_) fun books ↦ ?_
  · rw [hsame.tableOf]
  · refine (respects_modify fun first second hsame ↦ ?_).ite (respects_raise _)
    rw [Books.withdraw, Books.withdraw, hsame.tableOf]
    exact sameSymbols_setTable hsame _

/-- A withdrawal depends on the symbols of its module only. -/
theorem respects_unexportSymbols (modName : String) (symNames : List String) :
    Respects (SameSymbols modName) (unexportSymbols modName symNames) := by
  refine Respects.get_bind (fun books other hsame ↦ ?_) fun books ↦ ?_
  · rw [hsame.1]
  refine (respects_raise _).ite (Respects.get_bind (fun first second hsame ↦ ?_) fun opened ↦ ?_)
  · rw [hsame.tableOf]
  refine Respects.bind
    (Respects.forEach fun symName _ ↦ respects_unexportSymbol modName symName) fun _ ↦ ?_
  refine Respects.get_bind (fun first second hsame ↦ ?_) fun emptied ↦ ?_
  · rw [hsame.tableOf]
  refine Respects.bind (Respects.runIf (respects_modify fun first second hsame ↦ ?_)) ?_
  · refine ⟨?_, hsame.2⟩
    rw [Books.symbolsOf_closeModule, Books.symbolsOf_closeModule, if_pos rfl, if_pos rfl]
  · exact fun _ ↦ respects_countBuild modName

/-- After any withdrawals from a module, an export under its name comes to what it would have come
to before. -/
def Retriable (before after : Books) (modName : String) : Prop :=
  ∀ withdrawals anonymousSyms namedSyms,
    ((forEach (unexportSymbols modName) withdrawals >>=
      fun _ ↦ exportSymbols modName anonymousSyms namedSyms).run after).1 =
    ((forEach (unexportSymbols modName) withdrawals >>=
      fun _ ↦ exportSymbols modName anonymousSyms namedSyms).run before).1

/-- A module with the same symbols can be exported to as before. -/
theorem retriable_of_sameSymbols (hsame : SameSymbols modName books other) :
    Retriable books other modName := by
  intro withdrawals anonymousSyms namedSyms
  have hwithdraw : Respects (SameSymbols modName)
      (forEach (unexportSymbols modName) withdrawals) :=
    Respects.forEach fun symNames _ ↦ respects_unexportSymbols modName symNames
  exact ((hwithdraw.bind fun _ ↦ respects_exportSymbols modName anonymousSyms namedSyms)
    books other hsame).1.symm

end Retrying

/-! ### Runs -/

/-- The books agree after a call. Symbols are not replaced. A call that raises leaves the books as
they were, apart from modules that loading the failed one has loaded completely, and can be made
again. Unloading everything returns and empties the books, and what was unloaded can be loaded
again. -/
def Agrees (books : Books) (call : Call) : Prop :=
  match call with
  | .loadModule _ _ modName =>
    KeepsSymbols books (step books call) ∧
      ((call.effect.run books).1 ≠ .ok () →
        (∀ other, UnchangedOrLoaded books (step books call) other) ∧
          Loadable (step books call) modName)
  | .exportSymbols modName _ _ =>
    KeepsSymbols books (step books call) ∧
      ((call.effect.run books).1 ≠ .ok () →
        (∀ other, SameAt books (step books call) other) ∧
          Retriable books (step books call) modName)
  | .unexportSymbols _ _ => True
  | .unloadModules modNames =>
    (modNames = [] → (call.effect.run books).1 = .ok () ∧
      ∀ other, (step books call).symbolsOf other = none ∧ (step books call).seen other = none) ∧
    ∀ other, books.seen other ≠ none → (step books call).seen other = none →
      (step books call).symbolsOf other = none ∧ Loadable (step books call) other

/-- The code that a load executes is executed in an orderly way, an export is orderly, and where
everything is unloaded, the modules with symbols are those recorded as loaded. -/
def Orderly (books : Books) : Call → Prop
  | .loadModule env depth modName => LoadOrderly env depth modName books
  | .exportSymbols modName anonymousSyms namedSyms =>
    ExportOrderly books modName anonymousSyms namedSyms
  | .unexportSymbols _ _ => True
  | .unloadModules modNames => modNames = [] → AllRecorded books

section Runs

variable {books : Books}

/-- An orderly export meets what is asked of it. -/
theorem agrees_exportSymbols {modName : String} {anonymousSyms : List SymObj}
    {namedSyms : List (String × SymObj)}
    (horderly : ExportOrderly books modName anonymousSyms namedSyms) :
    Agrees books (.exportSymbols modName anonymousSyms namedSyms) := by
  have hchanges := keeps_exportSymbols modName anonymousSyms namedSyms books
  rcases horderly with hnothing | hfiles
  · have hsame := exportSymbols_run_of_writesNothing hnothing
    have htable := hsame.tableOf
    refine ⟨(hchanges.steady fun _ _ hfound ↦ by rwa [htable]).symbols, fun _ ↦
      ⟨fun other ↦ ?_, retriable_of_sameSymbols hsame⟩⟩
    by_cases hother : other = modName
    · rw [hother]
      exact ⟨hsame.1, hchanges.seen modName⟩
    · exact ⟨hchanges.elsewhere other hother, hchanges.seen other⟩
  · obtain ⟨after, hrun, hextends⟩ := exportSymbols_run_of_files hfiles
    have hreturns : ((exportSymbols modName anonymousSyms namedSyms).run books).1 = .ok () := by
      rw [hrun]
    refine ⟨?_, fun hraises ↦ absurd hreturns hraises⟩
    have hsteady := (Keeps.of_run (keeps_exportSymbols modName _ _) hrun).steady hextends
    have hstep : step books (.exportSymbols modName anonymousSyms namedSyms) = after := by
      change ((exportSymbols modName anonymousSyms namedSyms).run books).2 = after
      rw [hrun]
    rw [hstep]
    exact hsteady.symbols

/-- So does unloading, of all modules if all are recorded. -/
theorem agrees_unloadModules (hsettled : Settled books) {modNames : List String}
    (hrecorded : modNames = [] → AllRecorded books) :
    Agrees books (.unloadModules modNames) := by
  constructor
  · rintro rfl
    obtain ⟨after, hrun, hempty⟩ := hsettled.unloadModules_run (hrecorded rfl)
    have hstep : (Call.unloadModules []).effect.run books = (.ok (), after) := hrun
    rw [step, hstep]
    exact ⟨rfl, hempty⟩
  · intro other hseen hnone
    obtain ⟨hafter, hdrops⟩ := keeps_unloadModules modNames books hsettled
    exact ⟨hdrops.unloaded other hseen hnone, hafter.loadable other⟩

/-- Each call, by its kind. -/
theorem agrees_and_settled {call : Call} (hsettled : Settled books)
    (horderly : Orderly books call) : Agrees books call ∧ Settled (step books call) := by
  cases call with
  | loadModule env depth modName =>
    have hloads := loadSpec_loadModule env depth modName books (hsettled.sound env) horderly
    have hafter := hsettled.of_loads hloads
    exact ⟨⟨hloads.steady.symbols, fun _ ↦ ⟨hloads.unchanged, hafter.loadable modName⟩⟩, hafter⟩
  | exportSymbols modName anonymousSyms namedSyms =>
    have hchanges := keeps_exportSymbols modName anonymousSyms namedSyms books
    exact ⟨agrees_exportSymbols horderly, hsettled.of_changesOnly hchanges⟩
  | unexportSymbols modName symNames =>
    exact ⟨trivial, hsettled.of_changesOnly (keeps_unexportSymbols modName symNames books)⟩
  | unloadModules modNames =>
    exact ⟨agrees_unloadModules hsettled horderly, (keeps_unloadModules modNames books hsettled).1⟩

/-- The books agree after every call of a run whose calls are orderly. -/
theorem books_agree (calls : List Call) (horderly : EveryStep step Orderly Books.empty calls) :
    EveryStep step Agrees Books.empty calls :=
  EveryStep.of_invariant horderly Settled settled_empty
    fun _ _ hsettled hcall ↦ agrees_and_settled hsettled hcall

end Runs

/-! ### A few modules -/

/-- Sources with four modules: one that exports a symbol, one that imports it and then raises, one
that raises when it has exported a symbol, and one whose code is interrupted. -/
def sampleEnv : Environment where
  candidates := fun modName ↦
    if modName = "A-MIB" then
      [⟨"mibs", ".py", .exportSymbols [] [("a", .labelled 1 "")] fun _ ↦ .done⟩]
    else if modName = "B-MIB" then
      [⟨"mibs", ".py", .importSymbols "A-MIB" ["a"] fun _ ↦ .raise (.other 0)⟩]
    else if modName = "C-MIB" then
      [⟨"mibs", ".py", .exportSymbols [] [("c", .labelled 3 "")] fun _ ↦ .raise (.other 0)⟩]
    else if modName = "D-MIB" then
      [⟨"mibs", ".py", .raise (.baseException 0)⟩]
    else []
  mibCorpus := none
  corpusMayAnswer := .ok true

/-- The same sources, where no module does anything. -/
def quietEnv : Environment where
  candidates := fun _ ↦ [⟨"mibs", ".py", .done⟩]
  mibCorpus := none
  corpusMayAnswer := .ok true

/-- The load of a module that raises when it has exported a symbol leaves the symbol there; a module
whose code was interrupted is not found when it is loaded again; a symbol filed under its label
replaces the one of that name; and modules cannot be unloaded once the application has exported a
symbol under a name of its own. -/
theorem not_books_agree :
    ¬ EveryStep step Agrees Books.empty [.loadModule sampleEnv 2 "C-MIB"] ∧
      ¬ EveryStep step Agrees Books.empty [.loadModule sampleEnv 2 "D-MIB"] ∧
      ¬ EveryStep step Agrees Books.empty
        [.exportSymbols "A-MIB" [] [("a", .labelled 1 "a")],
          .exportSymbols "A-MIB" [] [("b", .labelled 2 "a")]] ∧
      ¬ EveryStep step Agrees Books.empty
        [.exportSymbols "APP" [] [("a", .labelled 1 "a")], .unloadModules []] := by
  refine ⟨fun hagrees ↦ ?_, fun hagrees ↦ ?_, fun hagrees ↦ ?_, fun hagrees ↦ ?_⟩
  · rcases (hagrees.1.2 (by decide)).1 "C-MIB" with ⟨hsymbols, -⟩ | ⟨-, hloaded⟩
    · revert hsymbols
      decide
    · revert hloaded
      decide
  · have hagain := ((hagrees.1.2 (by decide)).2 quietEnv 1).1 ⟨"mibs", ".py", .done⟩ rfl rfl
    revert hagain
    decide
  · have hkept := hagrees.2.1.1 "A-MIB" "a" (.labelled 1 "a") (by decide)
    revert hkept
    decide
  · have hreturns := (hagrees.2.1.1 rfl).1
    revert hreturns
    decide

theorem books_agree_sampleEnv :
    EveryStep step Agrees Books.empty
      [.loadModule sampleEnv 2 "B-MIB", .exportSymbols "A-MIB" [] [("b", .labelled 2 "")],
        .unloadModules [], .loadModule sampleEnv 2 "A-MIB"] :=
  books_agree _
    ⟨fun _ ↦ ⟨fun _ _ ↦ Or.inr ⟨⟨trivial, by decide, by decide, trivial⟩, trivial⟩, rfl, rfl⟩,
      Or.inr ⟨trivial, by decide, by decide, trivial⟩,
      fun _ ↦ allRecorded_of_keys (by decide),
      fun _ ↦ Or.inr ⟨⟨trivial, by decide, by decide, trivial⟩, trivial⟩, trivial⟩

end Pysnmp.Smi.BuilderBooks
