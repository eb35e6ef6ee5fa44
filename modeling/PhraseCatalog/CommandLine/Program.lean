import PhraseCatalog.CommandLine.Help
import PhraseCatalog.CommandLine.Options
import PhraseCatalog.Run.Pipeline

/-! The whole program as a function: command line, environment, files and services in, what it
leaves behind out. -/

set_option autoImplicit false

namespace PhraseCatalog.CommandLine

open Log

def styleVariable : String := "I18N_AI_PROMPT"

/-- How the program ends. -/
inductive Ending
  | completed
  /-- Help was shown, or the command line was refused. -/
  | stopped (stop : Stop)
  /-- The credential or a setting was refused. -/
  | refused
  | failed (failure : Run.Failure)
deriving DecidableEq, Repr

def Ending.exitStatus? : Ending → Option Nat
  | .completed => none
  | .stopped .help => some 0
  | .stopped (.usage _) => some 2
  | .refused => some 1
  | .failed _ => none

/-- What the program leaves behind, and how it ended. -/
structure Outcome where
  site : Run.Site
  ending : Ending
  trace : Bool

def Outcome.log (outcome : Outcome) : List Entry := shown (threshold outcome.trace) outcome.site.log

def noKeyEntry (provider : Model.Provider) : Entry :=
  ⟨.error, .run, "API key not found! Set " ++ String.intercalate " or " provider.keyVariables
    ++ " in the environment.", false⟩

def refusedEntry (message : String) : Entry :=
  ⟨.error, .run, "Invalid configuration: " ++ message, false⟩

/-- The settings that options and environment make, or why they are refused. -/
def settingsOf (options : Options) (env : List (String × String)) (apiKey : String) :
    Except String (Model.Settings × Run.Settings) :=
  match Model.Settings.make options.provider (some apiKey) (some options.model) options.siteUrl
      options.siteName with
  | .error fault => .error fault.message
  | .ok model =>
    let settings : Run.Settings :=
      { outputDir := options.outdir
        languages := Language.parseCodes options.lang
        style := if options.style = "" then (env.lookup styleVariable).getD "" else options.style
        sourceRoot := options.source
        model := some model
        formatOutput := options.formatOutput
        workers := 1 }
    match settings.validate with
    | .error fault => .error fault.message
    | .ok settings => .ok (model, settings)

/-- The entries that announce a run, and before the one that names the languages the warnings about
those without a name. The credential is not among what they show. -/
def announcement (locales : Language.Locales) (model : Model.Settings) (settings : Run.Settings) :
    List Entry :=
  let names := settings.languages.map fun code => (code, Language.englishName locales code)
  let labels := names.map fun (code, naming) => code ++ " (" ++ naming.name.getD "None" ++ ")"
  [⟨.info, .run, "Output Dir: " ++ settings.outputDir ++ ", Source: " ++ settings.sourceRoot
      ++ ", LLM Provider: " ++ model.provider.name ++ ", Model: " ++ model.model
      ++ ", Style Directive: " ++ Text.quoted settings.style, false⟩]
    ++ names.flatMap (·.2.log)
    ++ [⟨.info, .run, "will auto translate langs code to: " ++ String.intercalate ", " labels,
      false⟩]

/-- Runs the pipeline after its announcement. -/
def launch (resolver : Run.Resolver) (model : Model.Settings) (settings : Run.Settings)
    (service : Model.Service) (formatter : Run.Formatter) (trace : Bool) (files : Files.Node) :
    Outcome :=
  let site : Run.Site := { files := files, log := announcement .table model settings }
  match Run.runBy resolver settings (.service service) formatter site with
  | .ok _ site => ⟨site, .completed, trace⟩
  | .error failure site => ⟨site, .failed failure, trace⟩

/-- The program, which leaves it to a resolver how phrases are resolved, and to a formatter what becomes
of the files that were written. Command line, credential and settings are checked before anything is
touched. -/
def programBy (rule : ClusterRule) (resolver : Run.Resolver) (argv : List String)
    (env : List (String × String)) (service : Model.Service) (formatter : Run.Formatter)
    (files : Files.Node) : Outcome :=
  match parse rule argv with
  | .error stop => ⟨{ files := files }, .stopped stop, false⟩
  | .ok options =>
    match options.provider.resolveKey env with
    | none =>
      ⟨{ files := files, log := [noKeyEntry options.provider] }, .refused, options.trace⟩
    | some apiKey =>
      match settingsOf options env apiKey with
      | .error message =>
        ⟨{ files := files, log := [refusedEntry message] }, .refused, options.trace⟩
      | .ok (model, settings) =>
        launch resolver model settings service formatter options.trace files

def program (rule : ClusterRule) (argv : List String) (env : List (String × String))
    (service : Model.Service) (shell : Run.Shell) (files : Files.Node) : Outcome :=
  programBy rule Run.resolve argv env service shell.formatter files

end PhraseCatalog.CommandLine
