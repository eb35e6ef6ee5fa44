import PhraseCatalog.Proofs.Run.Course

/-! What a run leaves to its service. Apart from the opening of the client and the requests for
phrases, no step looks at what the service has seen or changes it, so that it makes no difference
whether that is changed before the step or after it. -/

set_option autoImplicit false

namespace PhraseCatalog.Run

open Emit Files Log

/-! ## Local steps -/

/-- What a step makes of the files: its result, the files after it, and what it adds to the log and the
commands. -/
structure Effect (α : Type) where
  outcome : Except Failure α
  files : Node
  log : List Entry := []
  commands : List (List String) := []

def Effect.on {α : Type} (effect : Effect α) (site : Site) : EStateM.Result Failure Site α :=
  let site := { site with
    files := effect.files
    log := site.log ++ effect.log
    commands := site.commands ++ effect.commands }
  match effect.outcome with
  | .ok a => .ok a site
  | .error failure => .error failure site

namespace Action
variable {α β : Type}

/-- The action looks at the files alone, and leaves the service alone. -/
def Local (action : Action α) : Prop :=
  ∃ effect : Node → Effect α, ∀ site : Site, action site = (effect site.files).on site

theorem makeOutputDir_local (outputDir : String) : (makeOutputDir outputDir).Local := by
  refine ⟨fun files => ⟨match (files.makeNamed outputDir).2 with
    | none => .ok ()
    | some fault => .error (.files fault), (files.makeNamed outputDir).1, [], []⟩, fun site => ?_⟩
  simp only [makeOutputDir, Effect.on, List.append_nil]
  rcases site.files.makeNamed outputDir with ⟨made, _ | fault⟩ <;> rfl

def reportEffect {ε : Type} (cause : ε → Failure) (report : Report ε α) (files : Node) : Effect α :=
  ⟨report.outcome.mapError cause, files, report.log, []⟩

theorem ofReport_eq {ε : Type} (cause : ε → Failure) (report : Report ε α) (site : Site) :
    ofReport cause report site = (reportEffect cause report site.files).on site := by
  simp only [ofReport, Effect.on, reportEffect, List.append_nil]
  cases report.outcome <;> rfl

theorem loadPhrases_local (sourceRoot : String) : (loadPhrases sourceRoot).Local :=
  ⟨fun files => reportEffect .scan (Scan.loadPhrases files sourceRoot) files,
    fun site => ofReport_eq .scan (Scan.loadPhrases site.files sourceRoot) site⟩

theorem openStore_local (path : String) : (openStore path).Local := by
  refine ⟨fun files => match Store.openAt files (.ofString path) with
    | .ok (place, rows, opened) => ⟨.ok (place, rows), opened, [Store.openedEntry path], []⟩
    | .error fault => ⟨.error (.store fault), files, [], []⟩,
    fun site => ?_⟩
  simp only [openStore]
  rcases Store.openAt site.files (.ofString path) with fault | ⟨place, rows, opened⟩ <;>
    simp [Effect.on]

theorem writeModules_local (outputDir : String) (catalog : Catalog) (languages : List String) :
    (writeModules outputDir catalog languages).Local := by
  let written := fun files : Node => Emit.writeModules .table files outputDir catalog languages
  refine ⟨fun files => reportEffect .files (written files).2 (written files).1, fun site => ?_⟩
  exact ofReport_eq .files (written site.files).2 { site with files := (written site.files).1 }

theorem note_local (entries : List Entry) : (note entries).Local := by
  refine ⟨fun files => ⟨.ok (), files, entries, []⟩, fun site => ?_⟩
  simp only [Effect.on, List.append_nil]
  rfl

theorem format_local (formatter : Formatter) (outputDir : String) :
    (format formatter outputDir).Local := by
  let command := formatCommand outputDir
  exact ⟨fun files => ⟨.ok (), (formatter command files).2,
    formatLog command (formatter command files).1, [command]⟩, fun site => rfl⟩

/-! ## Changes beside the steps -/

/-- Changes the site that an action leaves. -/
def leaving (change : Site → Site) : EStateM.Result Failure Site α → EStateM.Result Failure Site α
  | .ok a site => .ok a (change site)
  | .error failure site => .error failure (change site)

/-- It makes no difference whether the change is made before the action or after it. -/
def Commutes (action : Action α) (change : Site → Site) : Prop :=
  ∀ site, action (change site) = leaving change (action site)

variable {change : Site → Site}

theorem commutes_pure (a : α) : (pure a : Action α).Commutes change := fun _ => rfl

theorem Commutes.bind {action : Action α} {next : α → Action β} (h : action.Commutes change)
    (hnext : ∀ a, (next a).Commutes change) : (action >>= next).Commutes change := by
  intro site
  have hsite := h site
  cases hrun : action site with
  | ok a s =>
    rw [hrun] at hsite
    rw [bind_of_ok next hrun, bind_of_ok next hsite]
    exact hnext a s
  | error failure s =>
    rw [hrun] at hsite
    rw [bind_of_error next hrun, bind_of_error next hsite]
    rfl

/-- Where there is nothing to change before the action, there is nothing to change after it. -/
theorem Commutes.leaving_eq {action : Action α} (h : action.Commutes change) {site : Site}
    (hsite : change site = site) : leaving change (action site) = action site := by
  rw [← h site, hsite]

end Action

/-- The change makes no difference to the effect of a step. -/
structure Aside (change : Site → Site) : Prop where
  files : ∀ site, (change site).files = site.files
  on : ∀ {α : Type} (effect : Effect α) (site : Site),
    effect.on (change site) = Action.leaving change (effect.on site)

namespace Site

def withClients (clients : List Model.Connection) (site : Site) : Site :=
  { site with clients := clients }

def withRequests (requests : List Model.Request) (site : Site) : Site :=
  { site with requests := requests }

end Site

theorem aside_withClients (clients : List Model.Connection) : Aside (Site.withClients clients) where
  files _ := rfl
  on effect site := by
    unfold Effect.on
    cases effect.outcome <;> rfl

theorem aside_withRequests (requests : List Model.Request) : Aside (Site.withRequests requests) where
  files _ := rfl
  on effect site := by
    unfold Effect.on
    cases effect.outcome <;> rfl

namespace Action
variable {α : Type} {change : Site → Site}

theorem Local.commutes {action : Action α} (h : action.Local) (haside : Aside change) :
    action.Commutes change := by
  obtain ⟨effect, heffect⟩ := h
  intro site
  rw [heffect, heffect, haside.files, haside.on]

/-- What a run does with its catalog is no matter of the service. -/
theorem publish_commutes (haside : Aside change) (settings : Settings) (formatter : Formatter)
    (catalog : Catalog) : (publish settings formatter catalog).Commutes change := by
  unfold publish
  refine ((writeModules_local _ catalog _).commutes haside).bind fun _ => ?_
  refine ((note_local [finishedEntry catalog]).commutes haside).bind fun _ => ?_
  split
  · exact ((format_local formatter _).commutes haside).bind fun _ => commutes_pure catalog
  · exact commutes_pure catalog

theorem resolvePhrases_commutes (resolver : Resolver) (translate : Model.Translator) (workers : Nat)
    (place : List String) (rows : Rows) (phrases : List String) (clients : List Model.Connection) :
    (resolvePhrases resolver translate workers place rows phrases).Commutes
      (Site.withClients clients) := by
  intro site
  simp only [resolvePhrases]
  cases (resolver translate workers rows phrases).outcome <;> rfl

end Action

/-! ## A run with its translator -/

/-- What is left of a run when it has its translator. -/
def proceed (resolver : Resolver) (settings : Settings) (formatter : Formatter)
    (translate : Model.Translator) : Action Catalog := do
  Action.makeOutputDir settings.outputDir
  let phrases ← Action.loadPhrases settings.sourceRoot
  let (place, rows) ← Action.openStore settings.storePath
  let catalog ← Action.resolvePhrases resolver translate settings.workers place rows phrases
  publish settings formatter catalog

theorem proceed_commutes (resolver : Resolver) (settings : Settings) (formatter : Formatter)
    (translate : Model.Translator) (clients : List Model.Connection) :
    (proceed resolver settings formatter translate).Commutes (Site.withClients clients) := by
  have haside := aside_withClients clients
  unfold proceed
  refine ((Action.makeOutputDir_local _).commutes haside).bind fun _ => ?_
  refine ((Action.loadPhrases_local _).commutes haside).bind fun phrases => ?_
  refine ((Action.openStore_local _).commutes haside).bind fun ⟨place, rows⟩ => ?_
  exact (Action.resolvePhrases_commutes resolver translate _ place rows phrases clients).bind
    fun catalog => Action.publish_commutes haside settings formatter catalog

theorem runBy_eq_proceed (resolver : Resolver) (settings : Settings) (source : Source)
    (formatter : Formatter) : runBy resolver settings source formatter
      = openTranslator settings source >>= proceed resolver settings formatter := by
  rw [runBy_eq]
  simp only [gather, bind_assoc]
  rfl

/-- The site when a run on a service has opened its client. -/
def Site.opened (site : Site) (model : Model.Settings) : Site :=
  { site with
    clients := site.clients ++ [model.connection]
    log := site.log ++ model.openingLog }

theorem runBy_service {settings : Settings} {model : Model.Settings}
    (hmodel : settings.model = some model) (resolver : Resolver) (service : Model.Service)
    (formatter : Formatter) (site : Site) :
    runBy resolver settings (.service service) formatter site
      = proceed resolver settings formatter (model.translator service settings.style)
        (site.opened model) := by
  rw [runBy_eq_proceed]
  refine Action.bind_of_ok _ ?_
  simp only [openTranslator, hmodel]
  rfl

end PhraseCatalog.Run
