import Mathlib.Logic.Basic
import Mathlib.Tactic.ByContra
import PhraseCatalog.CommandLine.Program
import PhraseCatalog.Proofs.Run.Aside

/-! What is checked before anything is touched: the command line, the credential and the settings. The
program exits by these checks alone, and then it has done nothing; else it opens one client. -/

set_option autoImplicit false

namespace PhraseCatalog.CommandLine

open Log

/-! ## The checks -/

theorem resolveKey_eq_none_iff {provider : Model.Provider} {env : List (String × String)} :
    provider.resolveKey env = none
      ↔ ∀ name ∈ provider.keyVariables, ∀ value, env.lookup name = some value → value = "" := by
  simp [Model.Provider.resolveKey, Option.filter_eq_none_iff]

theorem ne_empty_of_resolveKey {provider : Model.Provider} {env : List (String × String)}
    {key : String} (h : provider.resolveKey env = some key) : key ≠ "" := by
  obtain ⟨name, -, hname⟩ := List.exists_of_findSome?_eq_some h
  simpa using (Option.filter_eq_some_iff.mp hname).2

/-- The model settings that options and a credential make. -/
def Options.modelSettings (options : Options) (apiKey : String) : Model.Settings :=
  ⟨options.provider, apiKey, options.model, options.siteUrl, options.siteName⟩

/-- The settings of a run that options and an environment make. -/
def Options.runSettings (options : Options) (env : List (String × String))
    (model : Model.Settings) : Run.Settings :=
  { outputDir := options.outdir
    languages := Language.parseCodes options.lang
    style := if options.style = "" then (env.lookup styleVariable).getD "" else options.style
    sourceRoot := options.source
    model := some model
    formatOutput := options.formatOutput
    workers := 1 }

/-- Why the settings that options make are refused, whatever the environment and the credential. -/
def Options.refusal? (options : Options) : Option String :=
  if options.model = "" then some Model.SettingsFault.noModel.message
  else
    match (options.runSettings [] (options.modelSettings "")).validate with
    | .error fault => some fault.message
    | .ok _ => none

theorem settingsOf_eq (options : Options) (env : List (String × String)) {apiKey : String}
    (hkey : apiKey ≠ "") : settingsOf options env apiKey
      = match options.refusal? with
        | some message => .error message
        | none => .ok (options.modelSettings apiKey,
          options.runSettings env (options.modelSettings apiKey)) := by
  by_cases hmodel : options.model = ""
  · simp [settingsOf, Model.Settings.make, Options.refusal?, hkey, hmodel]
  · simp only [settingsOf, Model.Settings.make, Options.refusal?, Option.getD_some, hkey, hmodel,
      if_false, Options.runSettings, Run.Settings.validate]
    by_cases houtdir : options.outdir = ""
    · simp [houtdir]
    · cases Language.validateCodes (Language.parseCodes options.lang) <;> simp [houtdir]
      rfl

/-- The options name a model, an output directory and known languages. -/
structure Options.Complete (options : Options) : Prop where
  model : options.model ≠ ""
  outdir : options.outdir ≠ ""
  languages : Language.parseCodes options.lang ≠ []
  known : ∀ code ∈ Language.parseCodes options.lang, code ∈ Language.knownCodes

theorem Options.refusal?_eq_none_iff {options : Options} :
    options.refusal? = none ↔ options.Complete := by
  have hvalid := @Run.Settings.validate_eq_ok_iff (options.runSettings [] (options.modelSettings ""))
  rw [refusal?]
  constructor
  · intro h
    split at h
    · cases h
    rename_i hmodel
    split at h
    · cases h
    rename_i settings hsettings
    obtain ⟨houtdir, ⟨hlanguages, hknown⟩, -⟩ := hvalid.mp hsettings
    exact ⟨hmodel, houtdir, hlanguages, hknown⟩
  · intro h
    have hsettings := hvalid.mpr ⟨h.outdir, ⟨h.languages, h.known⟩, Nat.one_ne_zero, rfl⟩
    rw [if_neg h.model, hsettings]

/-! ## The program -/

/-- The run that options and a credential start. -/
def Options.launch (options : Options) (resolver : Run.Resolver) (env : List (String × String))
    (apiKey : String) (service : Model.Service) (formatter : Run.Formatter) (files : Files.Node) :
    Outcome :=
  CommandLine.launch resolver (options.modelSettings apiKey)
    (options.runSettings env (options.modelSettings apiKey)) service formatter options.trace files

theorem programBy_of_stop {rule : ClusterRule} {argv : List String} {stop : Stop}
    (hparse : parse rule argv = .error stop) (resolver : Run.Resolver)
    (env : List (String × String)) (service : Model.Service) (formatter : Run.Formatter)
    (files : Files.Node) :
    programBy rule resolver argv env service formatter files
      = ⟨{ files := files }, .stopped stop, false⟩ := by
  simp only [programBy, hparse]

section Parsed
variable {rule : ClusterRule} {argv : List String} {options : Options}
  (hparse : parse rule argv = .ok options) (resolver : Run.Resolver) {env : List (String × String)}
  (service : Model.Service) (formatter : Run.Formatter) (files : Files.Node)
include hparse

theorem programBy_of_noKey (hnone : options.provider.resolveKey env = none) :
    programBy rule resolver argv env service formatter files
      = ⟨{ files := files, log := [noKeyEntry options.provider] }, .refused, options.trace⟩ := by
  simp only [programBy, hparse, hnone]

theorem programBy_of_refusal {key message : String}
    (hkey : options.provider.resolveKey env = some key) (hrefusal : options.refusal? = some message) :
    programBy rule resolver argv env service formatter files
      = ⟨{ files := files, log := [refusedEntry message] }, .refused, options.trace⟩ := by
  simp only [programBy, hparse, hkey, settingsOf_eq options env (ne_empty_of_resolveKey hkey),
    hrefusal]

theorem programBy_of_complete {key : String} (hkey : options.provider.resolveKey env = some key)
    (hcomplete : options.refusal? = none) :
    programBy rule resolver argv env service formatter files
      = options.launch resolver env key service formatter files := by
  simp only [programBy, hparse, hkey, settingsOf_eq options env (ne_empty_of_resolveKey hkey),
    hcomplete]
  rfl

end Parsed

/-- How the program ends with what a run has come to. -/
def concluded (trace : Bool) : EStateM.Result Run.Failure Run.Site Emit.Catalog → Outcome
  | .ok _ site => ⟨site, .completed, trace⟩
  | .error failure site => ⟨site, .failed failure, trace⟩

/-- The site of a launch when its client is opened. -/
def Options.opened (options : Options) (env : List (String × String)) (key : String)
    (files : Files.Node) : Run.Site :=
  let model := options.modelSettings key
  { files := files
    log := announcement .table model (options.runSettings env model) ++ model.openingLog
    clients := [model.connection] }

theorem Options.launch_eq (options : Options) (resolver : Run.Resolver)
    (env : List (String × String)) (key : String) (service : Model.Service)
    (formatter : Run.Formatter) (files : Files.Node) :
    let model := options.modelSettings key
    let settings := options.runSettings env model
    options.launch resolver env key service formatter files
      = concluded options.trace (Run.proceed resolver settings formatter
        (model.translator service settings.style) (options.opened env key files)) := by
  intro model settings
  have hrun := Run.runBy_service (show settings.model = some model from rfl) resolver service
    formatter { files := files, log := announcement .table model settings }
  unfold launch CommandLine.launch
  exact (congrArg (concluded options.trace) hrun :)

theorem concluded_of_leaving {trace : Bool} {clients : List Model.Connection}
    {result : EStateM.Result Run.Failure Run.Site Emit.Catalog}
    (h : Run.Action.leaving (Run.Site.withClients clients) result = result) :
    (concluded trace result).ending.exitStatus? = none
      ∧ (concluded trace result).site.clients = clients := by
  rw [← h]
  cases result <;> exact ⟨rfl, rfl⟩

/-- A launch opens one client, and does not exit. -/
theorem Options.launch_clients (options : Options) (resolver : Run.Resolver)
    (env : List (String × String)) (key : String) (service : Model.Service)
    (formatter : Run.Formatter) (files : Files.Node) :
    let outcome := options.launch resolver env key service formatter files
    outcome.ending.exitStatus? = none
      ∧ outcome.site.clients = [(options.modelSettings key).connection] := by
  intro outcome
  have hopened : Run.Site.withClients [(options.modelSettings key).connection]
      (options.opened env key files) = options.opened env key files := rfl
  rw [show outcome = _ from options.launch_eq resolver env key service formatter files]
  exact concluded_of_leaving ((Run.proceed_commutes resolver _ formatter _ _).leaving_eq hopened)

/-! ## Exits -/

/-- What keeps the program from running. -/
inductive Unfit (rule : ClusterRule) (argv : List String) (env : List (String × String)) : Prop
  /-- Help is asked for, or the command line is refused. -/
  | commandLine {stop : Stop} (hparse : parse rule argv = .error stop)
  /-- Every variable that may hold the credential is unset or empty. -/
  | credential {options : Options} (hparse : parse rule argv = .ok options)
    (h : ∀ name ∈ options.provider.keyVariables, ∀ value, env.lookup name = some value → value = "")
  | model {options : Options} (hparse : parse rule argv = .ok options) (h : options.model = "")
  | outdir {options : Options} (hparse : parse rule argv = .ok options) (h : options.outdir = "")
  | noLanguage {options : Options} (hparse : parse rule argv = .ok options)
    (h : Language.parseCodes options.lang = [])
  | unknownLanguage {options : Options} {code : String} (hparse : parse rule argv = .ok options)
    (hcode : code ∈ Language.parseCodes options.lang) (h : code ∉ Language.knownCodes)

theorem unfit_iff_of_parse {rule : ClusterRule} {argv : List String}
    {env : List (String × String)} {options : Options} (hparse : parse rule argv = .ok options) :
    Unfit rule argv env ↔ options.provider.resolveKey env = none ∨ ¬ options.Complete := by
  have hsame : ∀ {other : Options}, parse rule argv = .ok other → other = options := by
    intro other hother
    rw [hparse, Except.ok.injEq] at hother
    exact hother.symm
  constructor
  · intro h
    cases h with
    | commandLine hstop => rw [hparse] at hstop; cases hstop
    | credential hother h =>
      obtain rfl := hsame hother
      exact .inl (resolveKey_eq_none_iff.mpr h)
    | model hother h =>
      obtain rfl := hsame hother
      exact .inr fun hcomplete => hcomplete.model h
    | outdir hother h =>
      obtain rfl := hsame hother
      exact .inr fun hcomplete => hcomplete.outdir h
    | noLanguage hother h =>
      obtain rfl := hsame hother
      exact .inr fun hcomplete => hcomplete.languages h
    | unknownLanguage hother hcode h =>
      obtain rfl := hsame hother
      exact .inr fun hcomplete => h (hcomplete.known _ hcode)
  · rintro (hnone | hrefused)
    · exact .credential hparse (resolveKey_eq_none_iff.mp hnone)
    · by_contra hfit
      refine hrefused ⟨fun h => hfit (.model hparse h), fun h => hfit (.outdir hparse h),
        fun h => hfit (.noLanguage hparse h), fun code hcode => ?_⟩
      by_contra h
      exact hfit (.unknownLanguage hparse hcode h)

/-- For all command lines, environments and files, and by either rule for several letters in one word,
the program exits just where something keeps it from running; then all files are as they were, and no
client is opened, no request sent, no phrase given to a translator and no command started. Else one
client is opened, with the credential. -/
theorem program_exits_iff_unfit (rule : ClusterRule) (resolver : Run.Resolver)
    (argv : List String) (env : List (String × String)) (service : Model.Service)
    (formatter : Run.Formatter) (files : Files.Node) :
    let outcome := programBy rule resolver argv env service formatter files
    (outcome.ending.exitStatus?.isSome ↔ Unfit rule argv env)
    ∧ (Unfit rule argv env → outcome.site.files = files ∧ outcome.site.clients = []
      ∧ outcome.site.requests = [] ∧ outcome.site.calls = [] ∧ outcome.site.commands = [])
    ∧ (¬ Unfit rule argv env → ∃ options key, parse rule argv = .ok options
      ∧ options.provider.resolveKey env = some key
      ∧ outcome.site.clients = [⟨key, options.provider.baseUrl⟩]) := by
  intro outcome
  cases hparse : parse rule argv with
  | error stop =>
    have hunfit : Unfit rule argv env := .commandLine hparse
    have houtcome : outcome = _ := programBy_of_stop hparse resolver env service formatter files
    rw [houtcome]
    refine ⟨iff_of_true ?_ hunfit, fun _ => ⟨rfl, rfl, rfl, rfl, rfl⟩, fun h => absurd hunfit h⟩
    cases stop <;> rfl
  | ok options =>
    have hunfit := @unfit_iff_of_parse rule argv env options hparse
    cases hkey : options.provider.resolveKey env with
    | none =>
      have houtcome : outcome = _ :=
        programBy_of_noKey hparse resolver service formatter files hkey
      rw [houtcome]
      exact ⟨iff_of_true rfl (hunfit.mpr (.inl hkey)), fun _ => ⟨rfl, rfl, rfl, rfl, rfl⟩,
        fun h => absurd (hunfit.mpr (.inl hkey)) h⟩
    | some key =>
      cases hrefusal : options.refusal? with
      | some message =>
        have hrefused : ¬ options.Complete := by
          rw [← Options.refusal?_eq_none_iff, hrefusal]
          exact Option.some_ne_none message
        have houtcome : outcome = _ :=
          programBy_of_refusal hparse resolver service formatter files hkey hrefusal
        rw [houtcome]
        exact ⟨iff_of_true rfl (hunfit.mpr (.inr hrefused)), fun _ => ⟨rfl, rfl, rfl, rfl, rfl⟩,
          fun h => absurd (hunfit.mpr (.inr hrefused)) h⟩
      | none =>
        have hfit : ¬ Unfit rule argv env := by
          rw [hunfit, hkey]
          simpa using Options.refusal?_eq_none_iff.mp hrefusal
        have houtcome : outcome = _ :=
          programBy_of_complete hparse resolver service formatter files hkey hrefusal
        obtain ⟨hexit, hclients⟩ := options.launch_clients resolver env key service formatter files
        rw [houtcome]
        exact ⟨iff_of_false (by simp [hexit]) hfit, fun h => absurd h hfit,
          fun _ => ⟨options, key, rfl, hkey, hclients⟩⟩

/-- A language that nobody knows is refused before a client is opened. -/
theorem program_exits_iff_unfit_language :
    let env := [("OPENAI_CLIENT", ""), ("OPENAI_API_KEY", "k")]
    let outcome := fun argv => programBy .later Run.resolve argv env (fun _ => .noChoices)
      Run.bareShell.formatter Run.emptyOutput
    (Unfit .later ["-l", "en,xx"] env ∧ (outcome ["-l", "en,xx"]).ending.exitStatus?.isSome
        ∧ (outcome ["-l", "en,xx"]).site.files = Run.emptyOutput
        ∧ (outcome ["-l", "en,xx"]).site.clients = [])
      ∧ ¬ Unfit .later ["-l", "en"] env
      ∧ (outcome ["-l", "en"]).site.clients = [⟨"k", "https://api.openai.com/v1"⟩] := by
  intro env outcome
  have hrefused : parse .later ["-l", "en,xx"] = .ok { Options.default with lang := "en,xx" } := rfl
  have hparse : parse .later ["-l", "en"] = .ok { Options.default with lang := "en" } := rfl
  have hunfit : Unfit .later ["-l", "en,xx"] env :=
    .unknownLanguage hrefused (show "xx" ∈ Language.parseCodes "en,xx" by decide) (by decide)
  have hfit : ¬ Unfit .later ["-l", "en"] env := by
    rw [unfit_iff_of_parse hparse, not_or, not_not]
    exact ⟨Option.some_ne_none "k", by decide, by decide,
      show Language.parseCodes "en" ≠ [] by decide,
      show ∀ code ∈ Language.parseCodes "en", code ∈ Language.knownCodes by decide⟩
  obtain ⟨hexit, hspared, -⟩ := program_exits_iff_unfit .later Run.resolve ["-l", "en,xx"] env
    (fun _ => .noChoices) Run.bareShell.formatter Run.emptyOutput
  obtain ⟨hfiles, hclients, -⟩ := hspared hunfit
  obtain ⟨-, -, hopened⟩ := program_exits_iff_unfit .later Run.resolve ["-l", "en"] env
    (fun _ => .noChoices) Run.bareShell.formatter Run.emptyOutput
  obtain ⟨options, key, hoptions, hkey, hopened⟩ := hopened hfit
  rw [hparse, Except.ok.injEq] at hoptions
  subst hoptions
  obtain rfl : "k" = key := Option.some.inj hkey
  exact ⟨⟨hunfit, hexit.mpr hunfit, hfiles, hclients⟩, hfit, hopened⟩

end PhraseCatalog.CommandLine
