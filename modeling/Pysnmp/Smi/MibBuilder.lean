import Pysnmp.Foundation.Dict
import Pysnmp.Foundation.Effect

/-!
# The books of the MIB builder

A `MibBuilder` keeps the symbols it has exported, by module and by name, and a record of the modules
it has loaded, with the path each was loaded from. To load a module is to execute its code, and the
code calls back: it imports symbols from other modules, which loads them, and exports its own. A
module is built from the corpus where no source has it; what `synthesis.load_module` then does to
the builder is such a code too.

What the application passes in (the sources as they stand, and the corpus) is the `Environment` of a
call. The interpreter's recursion limit is the argument `depth` of `loadModule`.
-/

set_option autoImplicit false
set_option relaxedAutoImplicit false

namespace Pysnmp.Smi.MibBuilder

open Foundation Foundation.Effect

/-! ### Symbols, errors and paths -/

/-- What can be exported: a class, an object with a label, or an object that has no label. -/
inductive SymObj
  | classType (ident : ℕ)
  | labelled (ident : ℕ) (label : String)
  | unlabelled (ident : ℕ)
  deriving DecidableEq, Repr

/-- Where a module is loaded from. -/
inductive ModPath
  | source (srcName modName sfx : String)
  | corpus (path modName : String)
  deriving DecidableEq, Repr

/-- The module that lies at a path. -/
def ModPath.modName : ModPath → String
  | .source _ modName _ => modName
  | .corpus _ modName => modName

/-- Whether a path is one of a source. -/
def ModPath.IsSource : ModPath → Prop
  | .source _ _ _ => True
  | .corpus _ _ => False

instance : DecidablePred ModPath.IsSource
  | .source _ _ _ => .isTrue trivial
  | .corpus _ _ => .isFalse id

/-- The exceptions that the builder raises, and those of a module's own code: the others that are
an `Exception`, and those that are not, as `KeyboardInterrupt` and `SystemExit`. -/
inductive BuilderError
  | smiError (message : String)
  | mibNotFoundError (message : String)
  | mibLoadError (modPath : ModPath) (cause : BuilderError)
  | mibCorpusCycleError (modName : String)
  | attributeError
  | keyError
  | recursionError
  | other (ident : ℕ)
  | baseException (ident : ℕ)
  deriving DecidableEq, Repr

/-- `except Exception` catches it. -/
def BuilderError.isException : BuilderError → Bool
  | .baseException _ => false
  | _ => true

/-! ### The builder -/

/-- The books of a builder. -/
structure Books where
  mibSymbols : Dict String (Dict String SymObj)
  modSeen : Dict String ModPath
  modPathsSeen : Finset ModPath
  corpusBuilding : Finset String
  autoName : ℕ
  lastBuildId : ℕ

namespace Books

/-- The books of a new builder. -/
def empty : Books where
  mibSymbols := ∅
  modSeen := ∅
  modPathsSeen := ∅
  corpusBuilding := ∅
  autoName := 0
  lastBuildId := 0

variable (books : Books)

/-- The symbols exported by a module, `none` where it has no entry. -/
def symbolsOf (modName : String) : Option (Dict String SymObj) :=
  AList.lookup modName books.mibSymbols

/-- The path a module is recorded as loaded from. -/
def seen (modName : String) : Option ModPath :=
  AList.lookup modName books.modSeen

/-- The symbols a module has exported, none where it has no entry. -/
def tableOf (modName : String) : Dict String SymObj :=
  (books.symbolsOf modName).getD ∅

/-- Replace the symbols of a module. -/
def setTable (modName : String) (table : Dict String SymObj) : Books :=
  { books with mibSymbols := AList.insert modName table books.mibSymbols }

/-- `if modName not in self.mibSymbols: self.mibSymbols[modName] = {}`. -/
def openModule (modName : String) : Books :=
  books.setTable modName (books.tableOf modName)

/-- `mibSymbols[symName] = symObj`. -/
def publish (modName symName : String) (symObj : SymObj) : Books :=
  books.setTable modName (AList.insert symName symObj (books.tableOf modName))

/-- `del mibSymbols[symName]`. -/
def withdraw (modName symName : String) : Books :=
  books.setTable modName (AList.erase symName (books.tableOf modName))

/-- `del self.mibSymbols[modName]`. -/
def closeModule (modName : String) : Books :=
  { books with mibSymbols := AList.erase modName books.mibSymbols }

def countName : Books :=
  { books with autoName := books.autoName + 1 }

def countBuild : Books :=
  { books with lastBuildId := books.lastBuildId + 1 }

/-- `self.__modPathsSeen.add(modPath)`. -/
def seePath (modPath : ModPath) : Books :=
  { books with modPathsSeen := insert modPath books.modPathsSeen }

/-- `self.__modPathsSeen.remove(modPath)`. -/
def forgetPath (modPath : ModPath) : Books :=
  { books with modPathsSeen := books.modPathsSeen.erase modPath }

/-- `self.__modSeen[modName] = modPath`. -/
def record (modName : String) (modPath : ModPath) : Books :=
  { books with modSeen := AList.insert modName modPath books.modSeen }

/-- `del self.__modSeen[modName]`. -/
def unrecord (modName : String) : Books :=
  { books with modSeen := AList.erase modName books.modSeen }

/-- `self.__corpusBuilding.add(modName)`. -/
def startBuilding (modName : String) : Books :=
  { books with corpusBuilding := insert modName books.corpusBuilding }

/-- `self.__corpusBuilding.discard(modName)`. -/
def stopBuilding (modName : String) : Books :=
  { books with corpusBuilding := books.corpusBuilding.erase modName }

variable {books}

@[simp] theorem symbolsOf_setTable (modName other : String) (table : Dict String SymObj) :
    (books.setTable modName table).symbolsOf other =
      if other = modName then some table else books.symbolsOf other :=
  Dict.lookup_insert_ite books.mibSymbols modName other table

@[simp] theorem tableOf_setTable (modName : String) (table : Dict String SymObj) :
    (books.setTable modName table).tableOf modName = table := by
  rw [tableOf, symbolsOf_setTable, if_pos rfl, Option.getD_some]

@[simp] theorem symbolsOf_closeModule (modName other : String) :
    (books.closeModule modName).symbolsOf other =
      if other = modName then none else books.symbolsOf other :=
  Dict.lookup_erase_ite books.mibSymbols modName other

@[simp] theorem seen_record (modName other : String) (modPath : ModPath) :
    (books.record modName modPath).seen other =
      if other = modName then some modPath else books.seen other :=
  Dict.lookup_insert_ite books.modSeen modName other modPath

@[simp] theorem seen_unrecord (modName other : String) :
    (books.unrecord modName).seen other =
      if other = modName then none else books.seen other :=
  Dict.lookup_erase_ite books.modSeen modName other

theorem tableOf_of_symbolsOf {modName : String} {table : Dict String SymObj}
    (htable : books.symbolsOf modName = some table) : books.tableOf modName = table := by
  rw [tableOf, htable, Option.getD_some]

end Books

/-- A program on the books of a builder. -/
abbrev BuilderEffect (α : Type) := Effect Books BuilderError α

/-! ### Exporting and withdrawing symbols -/

/-- The name `exportSymbols` generates for an anonymous symbol. -/
def anonymousName (autoName : ℕ) : String :=
  "__pysnmp_" ++ toString autoName

def moduleID : String :=
  "PYSNMP_MODULE_ID"

/-- The name a symbol is filed under, and the object with its label: that of a labelled object is
the label, where there is one, and otherwise the object takes the name for a label. -/
def filing (symName : String) (symObj : SymObj) : Except BuilderError (String × SymObj) :=
  if symName = moduleID then .ok (symName, symObj)
  else
    match symObj with
    | .classType _ => .ok (symName, symObj)
    | .labelled ident label =>
      if label ≠ "" then .ok (label, symObj) else .ok (symName, .labelled ident symName)
    | .unlabelled _ => .error .attributeError

def exportAnonymous (modName : String) (symObj : SymObj) : BuilderEffect Unit := do
  let books ← get
  modify fun books' ↦ (books'.publish modName (anonymousName books.autoName) symObj).countName

def exportNamed (modName : String) (named : String × SymObj) : BuilderEffect Unit := do
  let books ← get
  if named.1 ∈ books.tableOf modName then
    raise (.smiError s!"Symbol {named.1} already exported at {modName}")
  else do
    let filed ← liftExcept (filing named.1 named.2)
    modify fun books ↦ books.publish modName filed.1 filed.2

/-- `MibBuilder.exportSymbols`. -/
def exportSymbols (modName : String) (anonymousSyms : List SymObj)
    (namedSyms : List (String × SymObj)) : BuilderEffect Unit := do
  modify fun books ↦ books.openModule modName
  forEach (exportAnonymous modName) anonymousSyms
  forEach (exportNamed modName) namedSyms
  modify Books.countBuild

def unexportSymbol (modName symName : String) : BuilderEffect Unit := do
  let books ← get
  if symName ∈ books.tableOf modName then
    modify fun books ↦ books.withdraw modName symName
  else
    raise (.smiError s!"No symbol {modName}::{symName}")

/-- Withdraw symbols, all of them when given none, and the entry of the module with the last. -/
def withdrawSymbols (modName : String) (symNames : List String) : BuilderEffect Unit := do
  let books ← get
  forEach (unexportSymbol modName)
    (if symNames = [] then (books.tableOf modName).keys else symNames)
  let books ← get
  runIf ((books.tableOf modName).keys = []) (modify fun books ↦ books.closeModule modName)
  modify Books.countBuild

/-- `MibBuilder.unexportSymbols`; without names it withdraws the whole module. -/
def unexportSymbols (modName : String) (symNames : List String) : BuilderEffect Unit := do
  let books ← get
  if books.symbolsOf modName = none then raise (.smiError s!"No module {modName}")
  else withdrawSymbols modName symNames

/-! ### Loading modules -/

/-- What the code of a module does to the builder: it imports symbols, exports its own under its own
name, and goes on with what came of the call, until it is done or raises. -/
inductive Code
  | done
  | raise (exception : BuilderError)
  | importSymbols (modName : String) (symNames : List String)
      (next : Except BuilderError (List SymObj) → Code)
  | exportSymbols (anonymousSyms : List SymObj) (namedSyms : List (String × SymObj))
      (next : Except BuilderError Unit → Code)

/-- A copy of a module found in a source. -/
structure Candidate where
  srcName : String
  sfx : String
  codeObj : Code

/-- `mibSource.fullPath(modName, sfx)`. -/
def Candidate.fullPath (candidate : Candidate) (modName : String) : ModPath :=
  .source candidate.srcName modName candidate.sfx

/-- A corpus, and what building a module from it does to the builder. -/
structure CorpusSource where
  path : String
  build : String → Option Code

/-- What a call finds outside the builder: the copies of a module, in the order `_candidates` gives
them, the corpus, and whether that may answer. -/
structure Environment where
  candidates : String → List Candidate
  mibCorpus : Option CorpusSource
  corpusMayAnswer : Except BuilderError Bool

section Loading

variable (loadModule : String → BuilderEffect Unit)

def importSymbol (modName symName : String) : BuilderEffect SymObj := do
  let books ← get
  runIf (books.symbolsOf modName = none) (loadModule modName)
  let books ← get
  match books.symbolsOf modName with
  | none => raise (.mibNotFoundError s!"No module {modName} loaded")
  | some table =>
    match AList.lookup symName table with
    | none => raise (.smiError s!"No symbol {modName}::{symName}")
    | some symObj => pure symObj

def importEach (modName : String) : List String → BuilderEffect (List SymObj)
  | [] => pure []
  | symName :: symNames => do
    let symObj ← importSymbol loadModule modName symName
    let rest ← importEach modName symNames
    pure (symObj :: rest)

/-- `MibBuilder.importSymbols`. Without a compiler `loadModules` loads one module, and raises what
that raises. -/
def importSymbols (modName : String) (symNames : List String) : BuilderEffect (List SymObj) :=
  if modName = "" then
    raise (.smiError "importSymbols: empty MIB module name")
  else
    importEach loadModule modName symNames

/-- Execute the code of a module. -/
def exec (modName : String) : Code → BuilderEffect Unit
  | .done => pure ()
  | .raise exception => raise exception
  | .importSymbols other symNames next => do
    let outcome ← outcomeOf (importSymbols loadModule other symNames)
    exec modName (next outcome)
  | .exportSymbols anonymousSyms namedSyms next => do
    let outcome ← outcomeOf (MibBuilder.exportSymbols modName anonymousSyms namedSyms)
    exec modName (next outcome)

/-- Execute a copy of a module, with its path marked, and record the module as loaded. The mark is
taken away where the code raises an `Exception`, and no other time. -/
def evaluate (modName : String) (candidate : Candidate) : BuilderEffect Unit := do
  let modPath := candidate.fullPath modName
  modify fun books ↦ books.seePath modPath
  handle (exec loadModule modName candidate.codeObj) fun exception ↦
    if exception.isException then do
      modify fun books ↦ books.forgetPath modPath
      raise (.mibLoadError modPath exception)
    else
      raise exception
  modify fun books ↦ books.record modName modPath

/-- The loop over the candidates; it ends with the first of them. -/
def loadFromSources (candidates : List Candidate) (modName : String) : BuilderEffect Unit :=
  match candidates with
  | [] => pure ()
  | candidate :: _ => do
    let books ← get
    runIf (candidate.fullPath modName ∉ books.modPathsSeen) (evaluate loadModule modName candidate)

/-- Build a module from the corpus, and record it as loaded. -/
def buildFromCorpus (corpus : CorpusSource) (modName : String) (code : Code) :
    BuilderEffect Unit := do
  modify fun books ↦ books.startBuilding modName
  handle (exec loadModule modName code) fun exception ↦ do
    modify fun books ↦ books.stopBuilding modName
    raise exception
  modify fun books ↦ books.stopBuilding modName
  modify fun books ↦ books.record modName (.corpus corpus.path modName)
  modify fun books ↦ books.seePath (.corpus corpus.path modName)

/-- `MibBuilder._loadModuleFromCorpus`. -/
def loadModuleFromCorpus (env : Environment) (modName : String) : BuilderEffect Bool :=
  match env.mibCorpus with
  | none => pure false
  | some corpus => do
    let mayAnswer ← liftExcept env.corpusMayAnswer
    if mayAnswer = false then pure false
    else do
      let books ← get
      if modName ∈ books.corpusBuilding then raise (.mibCorpusCycleError modName)
      else
        match corpus.build modName with
        | none => pure false
        | some code => do
          buildFromCorpus loadModule corpus modName code
          pure true

end Loading

/-- `MibBuilder.loadModule`, with what is left of the interpreter's stack. -/
def loadModule (env : Environment) : ℕ → String → BuilderEffect Unit
  | 0, _ => raise .recursionError
  | depth + 1, modName => do
    let books ← get
    runIf (books.seen modName = none) do
      loadFromSources (loadModule env depth) (env.candidates modName) modName
      let books ← get
      runIf (books.seen modName = none) do
        let built ← loadModuleFromCorpus (loadModule env depth) env modName
        runIf (built = false) (raise (.mibNotFoundError s!"MIB file {modName}.py[co] not found"))

/-! ### Unloading modules -/

/-- `self.__modPathsSeen.remove(self.__modSeen[modName])` and `del self.__modSeen[modName]`. -/
def forgetModule (modName : String) : Option ModPath → BuilderEffect Unit
  | none => raise .keyError
  | some modPath => do
    let books ← get
    if modPath ∈ books.modPathsSeen then do
      modify fun books ↦ books.forgetPath modPath
      modify fun books ↦ books.unrecord modName
    else
      raise .keyError

def unloadModule (modName : String) : BuilderEffect Unit := do
  let books ← get
  if books.symbolsOf modName = none then raise (.mibNotFoundError s!"No module {modName}")
  else do
    unexportSymbols modName []
    let books ← get
    forgetModule modName (books.seen modName)

/-- `MibBuilder.unloadModules`; without names it unloads every module that has symbols. -/
def unloadModules (modNames : List String) : BuilderEffect Unit := do
  let books ← get
  forEach unloadModule (if modNames = [] then books.mibSymbols.keys else modNames)

/-! ### Calls -/

/-- A call of the application. -/
inductive Call
  | loadModule (env : Environment) (depth : ℕ) (modName : String)
  | exportSymbols (modName : String) (anonymousSyms : List SymObj)
      (namedSyms : List (String × SymObj))
  | unexportSymbols (modName : String) (symNames : List String)
  | unloadModules (modNames : List String)

/-- What a call does. -/
def Call.effect : Call → BuilderEffect Unit
  | .loadModule env depth modName => MibBuilder.loadModule env depth modName
  | .exportSymbols modName anonymousSyms namedSyms =>
    MibBuilder.exportSymbols modName anonymousSyms namedSyms
  | .unexportSymbols modName symNames => MibBuilder.unexportSymbols modName symNames
  | .unloadModules modNames => MibBuilder.unloadModules modNames

/-- The books after a call, whether it returns or raises. -/
def step (books : Books) (call : Call) : Books :=
  (call.effect.run books).2

end Pysnmp.Smi.MibBuilder
