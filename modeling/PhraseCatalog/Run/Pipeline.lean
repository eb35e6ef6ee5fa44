import PhraseCatalog.Emit.Write
import PhraseCatalog.Language.Table
import PhraseCatalog.Run.Formatter
import PhraseCatalog.Run.Resolve
import PhraseCatalog.Run.Settings

/-! One run: scan the source code, resolve its phrases, write the modules, format them. -/

set_option autoImplicit false

namespace PhraseCatalog.Run

open Emit Files Log

/-- What a run works on and leaves behind: the files, and everything that was logged, opened, sent
or started. -/
structure Site where
  files : Node
  log : List Entry := []
  clients : List Model.Connection := []
  calls : List String := []
  requests : List Model.Request := []
  commands : List (List String) := []

/-- A step of a run. A step that fails keeps what was done before. -/
abbrev Action (α : Type) : Type := EStateM Failure Site α

namespace Action

/-- Takes over an outcome and its entries. -/
def ofReport {ε α : Type} (cause : ε → Failure) (report : Report ε α) : Action α := fun site =>
  let site := { site with log := site.log ++ report.log }
  match report.outcome with
  | .ok a => .ok a site
  | .error fault => .error (cause fault) site

def note (entries : List Entry) : Action Unit :=
  modify fun site => { site with log := site.log ++ entries }

def makeOutputDir (outputDir : String) : Action Unit := fun site =>
  match site.files.makeNamed outputDir with
  | (files, none) => .ok () { site with files := files }
  | (files, some fault) => .error (.files fault) { site with files := files }

/-- Opens a client with its credential. -/
def openClient (settings : Model.Settings) : Action Unit :=
  modify fun site =>
    { site with
      clients := site.clients ++ [settings.connection]
      log := site.log ++ settings.openingLog }

def loadPhrases (sourceRoot : String) : Action (List String) := fun site =>
  ofReport .scan (Scan.loadPhrases site.files sourceRoot) site

/-- Opens the store: its place and its rows. -/
def openStore (path : String) : Action (List String × Rows) := fun site =>
  match Store.openAt site.files (.ofString path) with
  | .error fault => .error (.store fault) site
  | .ok (place, rows, files) =>
    .ok (place, rows) { site with files := files, log := site.log ++ [Store.openedEntry path] }

/-- Resolves the phrases, keeping the rows at the place of the store. -/
def resolvePhrases (resolver : Resolver) (translate : Model.Translator) (workers : Nat)
    (place : List String) (rows : Rows) (phrases : List String) : Action Catalog := fun site =>
  let resolution := resolver translate workers rows phrases
  let site :=
    { site with
      files := site.files.put place (.file (.table resolution.rows))
      log := site.log ++ resolution.log
      calls := site.calls ++ resolution.calls
      requests := site.requests ++ resolution.requests }
  match resolution.outcome with
  | .ok catalog => .ok catalog site
  | .error failure => .error failure site

def writeModules (outputDir : String) (catalog : Catalog) (languages : List String) :
    Action Paths := fun site =>
  let (files, report) := Emit.writeModules .table site.files outputDir catalog languages
  ofReport .files report { site with files := files }

def format (formatter : Formatter) (outputDir : String) : Action Unit :=
  let command := formatCommand outputDir
  modify fun site =>
    let (outcome, files) := formatter command site.files
    { site with
      files := files
      commands := site.commands ++ [command]
      log := site.log ++ formatLog command outcome }

end Action

/-- Where translations come from: something given, or a chat service. -/
inductive Source
  | given (translate : Model.Translator)
  | service (service : Model.Service)

/-- The translator of a run; for a service a client is opened. -/
def openTranslator (settings : Settings) : Source → Action Model.Translator
  | .given translate => pure translate
  | .service service =>
    match settings.model with
    | none => throw .noModel
    | some model => do
      Action.openClient model
      return model.translator service settings.style

def finishedEntry (catalog : Catalog) : Entry :=
  ⟨.info, .run, "Auto i18n sentences: " ++ toString catalog.length, false⟩

/-- One run that leaves it to a resolver how the phrases are resolved, and to a formatter what becomes
of the files that were written. Its result is the catalog. -/
def runBy (resolver : Resolver) (settings : Settings) (source : Source) (formatter : Formatter) :
    Action Catalog := do
  let translate ← openTranslator settings source
  Action.makeOutputDir settings.outputDir
  let phrases ← Action.loadPhrases settings.sourceRoot
  let (place, rows) ← Action.openStore settings.storePath
  let catalog ← Action.resolvePhrases resolver translate settings.workers place rows phrases
  let _ ← Action.writeModules settings.outputDir catalog settings.languages
  Action.note [finishedEntry catalog]
  if settings.formatOutput then
    Action.format formatter settings.outputDir
  return catalog

def run (settings : Settings) (source : Source) (shell : Shell) : Action Catalog :=
  runBy resolve settings source shell.formatter

end PhraseCatalog.Run
