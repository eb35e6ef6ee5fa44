import PhraseCatalog.Proofs.CommandLine.Preflight

/-! The credential goes to the client and nowhere else. Two environments that only differ in their
credentials make two runs that only differ in what the client is opened with: the key decides whether
there is a run, and no step of it looks at the clients. -/

set_option autoImplicit false

namespace PhraseCatalog.CommandLine

open Log

/-! ## Environments -/

/-- The variables that may hold a credential. -/
def credentialNames : List String := Model.Provider.all.flatMap (·.keyVariables)

/-- The environments differ in credentials alone: another variable has one value in both, and one of
these holds something in both or in none. -/
structure SameButCredentials (env env' : List (String × String)) : Prop where
  others : ∀ name, name ∉ credentialNames → env.lookup name = env'.lookup name
  held : ∀ name ∈ credentialNames, (∃ value, env.lookup name = some value ∧ value ≠ "")
    ↔ ∃ value, env'.lookup name = some value ∧ value ≠ ""

namespace SameButCredentials
variable {env env' : List (String × String)} (h : SameButCredentials env env')
include h

theorem resolveKey_eq_none_iff (provider : Model.Provider) :
    provider.resolveKey env = none ↔ provider.resolveKey env' = none := by
  have hnames : ∀ name ∈ provider.keyVariables, name ∈ credentialNames := by
    cases provider <;> decide
  have hunheld : ∀ name ∈ provider.keyVariables,
      (∀ value, env.lookup name = some value → value = "")
        ↔ ∀ value, env'.lookup name = some value → value = "" := by
    intro name hname
    have hheld := not_congr (h.held name (hnames name hname))
    simpa only [not_exists, not_and, not_not] using hheld
  rw [CommandLine.resolveKey_eq_none_iff, CommandLine.resolveKey_eq_none_iff]
  exact forall₂_congr hunheld

/-- The style is not among the credentials. -/
theorem runSettings_eq (options : Options) (model : Model.Settings) :
    options.runSettings env' model = options.runSettings env model := by
  simp only [Options.runSettings, h.others styleVariable (by decide)]

end SameButCredentials

/-! ## Two runs -/

def Outcome.withClients (outcome : Outcome) (clients : List Model.Connection) : Outcome :=
  { outcome with site := outcome.site.withClients clients }

theorem concluded_leaving (trace : Bool) (clients : List Model.Connection)
    (result : EStateM.Result Run.Failure Run.Site Emit.Catalog) :
    concluded trace (Run.Action.leaving (Run.Site.withClients clients) result)
      = (concluded trace result).withClients clients := by
  cases result <;> rfl

/-- The request for a phrase, its log and what is made of the response do not depend on the key. -/
theorem translator_modelSettings (options : Options) (key key' : String) :
    (options.modelSettings key').translator = (options.modelSettings key).translator := rfl

/-- With another key, a launch comes to the same, but for the client. -/
theorem Options.launch_withKey {env env' : List (String × String)} (h : SameButCredentials env env')
    (options : Options) (resolver : Run.Resolver) (key key' : String) (service : Model.Service)
    (formatter : Run.Formatter) (files : Files.Node) :
    options.launch resolver env' key' service formatter files
      = (options.launch resolver env key service formatter files).withClients
        [(options.modelSettings key').connection] := by
  let settings := options.runSettings env (options.modelSettings key)
  let translate := (options.modelSettings key).translator service settings.style
  have htranslate : (options.modelSettings key').translator service settings.style = translate := by
    rw [translator_modelSettings options key key']
  have hopened : options.opened env' key' files
      = Run.Site.withClients [(options.modelSettings key').connection]
        (options.opened env key files) := by
    simp only [opened, h.runSettings_eq]
    rfl
  have hlaunch' : options.launch resolver env' key' service formatter files
      = concluded options.trace (Run.proceed resolver settings formatter translate
        (options.opened env' key' files)) := by
    rw [options.launch_eq, h.runSettings_eq, ← htranslate]
    rfl
  have hcommutes := Run.proceed_commutes resolver settings formatter translate
    [(options.modelSettings key').connection] (options.opened env key files)
  rw [hlaunch', hopened, hcommutes, concluded_leaving, options.launch_eq]

/-- For all environments that only differ in credentials, whatever the command line, the files, the
service and the way in which phrases are resolved: the two runs end in the same way, log the same,
send the same requests and leave the same files. At most the key differs with which the client is
opened. -/
theorem program_hides_credential {env env' : List (String × String)}
    (h : SameButCredentials env env') (rule : ClusterRule) (resolver : Run.Resolver)
    (argv : List String) (service : Model.Service) (formatter : Run.Formatter)
    (files : Files.Node) :
    let outcome := programBy rule resolver argv env service formatter files
    let outcome' := programBy rule resolver argv env' service formatter files
    outcome'.ending = outcome.ending ∧ outcome'.site.log = outcome.site.log
      ∧ outcome'.log = outcome.log ∧ outcome'.site.requests = outcome.site.requests
      ∧ outcome'.site.calls = outcome.site.calls ∧ outcome'.site.commands = outcome.site.commands
      ∧ outcome'.site.files = outcome.site.files
      ∧ outcome'.site.clients.map (·.baseUrl) = outcome.site.clients.map (·.baseUrl) := by
  intro outcome outcome'
  suffices hsame : ∃ clients, outcome' = outcome.withClients clients
      ∧ clients.map (·.baseUrl) = outcome.site.clients.map (·.baseUrl) by
    obtain ⟨clients, heq, hclients⟩ := hsame
    rw [heq]
    exact ⟨rfl, rfl, rfl, rfl, rfl, rfl, rfl, hclients⟩
  cases hparse : parse rule argv with
  | error stop =>
    have houtcome : outcome' = outcome :=
      (programBy_of_stop hparse resolver env' service formatter files).trans
        (programBy_of_stop hparse resolver env service formatter files).symm
    exact ⟨_, houtcome, rfl⟩
  | ok options =>
    have hnone := h.resolveKey_eq_none_iff options.provider
    cases hkey : options.provider.resolveKey env with
    | none =>
      have houtcome : outcome' = outcome :=
        (programBy_of_noKey hparse resolver service formatter files (hnone.mp hkey)).trans
          (programBy_of_noKey hparse resolver service formatter files hkey).symm
      exact ⟨_, houtcome, rfl⟩
    | some key =>
      obtain ⟨key', hkey'⟩ : ∃ key', options.provider.resolveKey env' = some key' := by
        rw [← Option.ne_none_iff_exists', ne_eq, ← hnone, hkey]
        exact Option.some_ne_none key
      cases hrefusal : options.refusal? with
      | some message =>
        have houtcome : outcome' = outcome :=
          (programBy_of_refusal hparse resolver service formatter files hkey' hrefusal).trans
            (programBy_of_refusal hparse resolver service formatter files hkey hrefusal).symm
        exact ⟨_, houtcome, rfl⟩
      | none =>
        have hlaunch : outcome = _ :=
          programBy_of_complete hparse resolver service formatter files hkey hrefusal
        have hlaunch' : outcome' = _ :=
          programBy_of_complete hparse resolver service formatter files hkey' hrefusal
        obtain ⟨-, hclients⟩ := options.launch_clients resolver env key service formatter files
        refine ⟨[(options.modelSettings key').connection], ?_, ?_⟩
        · rw [hlaunch, hlaunch', options.launch_withKey h]
        · rw [hlaunch, hclients]
          rfl

/-- Two environments with one style and two keys. -/
def firstKey : List (String × String) :=
  [("I18N_AI_PROMPT", "short"), ("OPENAI_CLIENT", ""), ("OPENAI_API_KEY", "first")]

def secondKey : List (String × String) :=
  [("OPENAI_API_KEY", "second"), ("I18N_AI_PROMPT", "short")]

theorem sameButCredentials_keys : SameButCredentials firstKey secondKey where
  others name hname := by
    simp only [credentialNames, Model.Provider.all, Model.Provider.keyVariables,
      List.flatMap_cons, List.flatMap_nil, List.append_nil, List.cons_append, List.nil_append,
      List.mem_cons, List.not_mem_nil, or_false, not_or] at hname
    obtain ⟨hclient, hkey, -⟩ := hname
    simp only [firstKey, secondKey, List.lookup_cons, List.lookup_nil,
      beq_eq_false_iff_ne.mpr hclient, beq_eq_false_iff_ne.mpr hkey]
  held name hname := by
    simp only [credentialNames, Model.Provider.all, Model.Provider.keyVariables,
      List.flatMap_cons, List.flatMap_nil, List.append_nil, List.cons_append, List.nil_append,
      List.mem_cons, List.not_mem_nil, or_false] at hname
    rcases hname with rfl | rfl | rfl <;> simp [firstKey, secondKey, List.lookup_cons]

/-- The clients are opened with their keys, and nothing else tells the two runs apart. -/
theorem program_hides_credential_keys :
    let outcome := fun env => programBy .later Run.resolve ["-l", "en"] env (fun _ => .noChoices)
      Run.bareShell.formatter Run.emptyOutput
    SameButCredentials firstKey secondKey
      ∧ (outcome firstKey).site.clients = [⟨"first", "https://api.openai.com/v1"⟩]
      ∧ (outcome secondKey).site.clients = [⟨"second", "https://api.openai.com/v1"⟩]
      ∧ (outcome secondKey).ending = (outcome firstKey).ending
      ∧ (outcome secondKey).log = (outcome firstKey).log
      ∧ (outcome secondKey).site.requests = (outcome firstKey).site.requests
      ∧ (outcome secondKey).site.files = (outcome firstKey).site.files := by
  intro outcome
  have hparse : parse .later ["-l", "en"] = .ok { Options.default with lang := "en" } := rfl
  have hrefusal : Options.refusal? { Options.default with lang := "en" } = none := by decide
  have hclients : ∀ env key, Model.Provider.openai.resolveKey env = some key →
      (outcome env).site.clients = [⟨key, "https://api.openai.com/v1"⟩] := by
    intro env key hkey
    have hlaunch : outcome env = _ :=
      programBy_of_complete hparse Run.resolve _ _ Run.emptyOutput hkey hrefusal
    rw [hlaunch]
    exact (Options.launch_clients _ _ env key _ _ _).2
  obtain ⟨hending, -, hlog, hrequests, -, -, hfiles, -⟩ := program_hides_credential
    sameButCredentials_keys .later Run.resolve ["-l", "en"] (fun _ => .noChoices)
    Run.bareShell.formatter Run.emptyOutput
  exact ⟨sameButCredentials_keys, hclients firstKey "first" rfl, hclients secondKey "second" rfl,
    hending, hlog, hrequests, hfiles⟩

end PhraseCatalog.CommandLine
