import Mathlib.Data.List.Perm.Basic
import Mathlib.Logic.Function.Basic
import Mathlib.Tactic.Tauto
import PhraseCatalog.Proofs.CommandLine.Preflight
import PhraseCatalog.Proofs.Run.Requests
import PhraseCatalog.Proofs.Text.Pieces

/-! Command lines that name options and join values to them by `=`. Each such word is read as its own
option, whatever the value is, and what has been read so far does not depend on the order. So an
option that is named has its value and any other its default, and a run goes by just these. -/

set_option autoImplicit false

namespace PhraseCatalog.CommandLine

/-! ## Words -/

namespace Flag

/-- The word for an option that starts with two dashes. -/
def longName (flag : Flag) : String := flag.names.getLastD ""

/-- The word that sets an option; a value is joined to the name by `=`. -/
def word (flag : Flag) (text : String) : String :=
  if flag.takesValue then flag.longName ++ "=" ++ text else flag.longName

example : (all.map fun flag => flag.word "a=b") =
    ["--help", "--outdir=a=b", "--lang=a=b", "--prompt=a=b", "--source=a=b", "--log-trace",
     "--no-format", "--llm-provider=a=b", "--model=a=b", "--openrouter-site-url=a=b",
     "--openrouter-site-name=a=b"] := by decide

def reading (flag : Flag) (text : String) : Word :=
  .option flag (if flag.takesValue then some ⟨text, true⟩ else none) false

theorem toList_word {flag : Flag} (h : flag.takesValue = true) (text : String) :
    (flag.word text).toList = flag.longName.toList ++ '=' :: text.toList := by
  rw [word, if_pos h, String.toList_append, String.toList_append, List.append_assoc]
  rfl

theorem ofName?_longName (flag : Flag) : ofName? flag.longName = some flag := by
  cases flag <;> decide

theorem exists_longName_eq (flag : Flag) :
    ∃ c rest, flag.longName.toList = '-' :: '-' :: c :: rest := by
  cases flag <;> exact ⟨_, _, rfl⟩

theorem ofName?_of_equals_mem {name : String} (h : '=' ∈ name.toList) : ofName? name = none := by
  have hwords : ∀ entry ∈ words, '=' ∉ entry.1.toList := by decide
  rw [ofName?, List.lookup_eq_none_iff]
  intro entry hentry
  rw [bne_iff_ne]
  rintro rfl
  exact hwords entry hentry h

theorem equals_notMem_longName (flag : Flag) : '=' ∉ flag.longName.toList := by
  intro h
  have hnone := ofName?_of_equals_mem h
  rw [ofName?_longName] at hnone
  cases hnone

theorem word_ne_separator (flag : Flag) (text : String) : flag.word text ≠ "--" := by
  obtain ⟨c, rest, hname⟩ := flag.exists_longName_eq
  intro h
  have hlist := congrArg String.toList h
  unfold word at hlist
  split at hlist <;> simp [hname] at hlist

end Flag

theorem assigned?_append {name : String} {flag : Flag} (hname : Flag.ofName? name = some flag)
    (hequals : '=' ∉ name.toList) (text : String) :
    assigned? (name.toList ++ '=' :: text.toList)
      = some (.option flag (some ⟨text, true⟩) (isShort name)) := by
  have htake := Text.takeWhile_ne_append text.toList hequals
  have hdrop := Text.dropWhile_ne_append text.toList hequals
  simp only [assigned?, hdrop, htake, String.ofList_toList, hname, Option.map_some]

theorem classify_longName (flag : Flag) :
    classify flag.longName = .ok (.option flag none false) := by
  cases flag <;> rfl

/-- Whatever text is joined to an option, the word is taken for this option with this text. -/
theorem classify_word (flag : Flag) (text : String) :
    classify (flag.word text) = .ok (flag.reading text) := by
  cases hvalue : flag.takesValue with
  | false =>
    simp only [Flag.word, Flag.reading, hvalue, Bool.false_eq_true, if_false, classify_longName]
  | true =>
    have hword := Flag.toList_word hvalue text
    have hassigned := assigned?_append flag.ofName?_longName flag.equals_notMem_longName text
    -- no name holds an `=`, so that the word is looked at up to its first one
    have hname : Flag.ofName? (flag.word text) = none :=
      Flag.ofName?_of_equals_mem (hword ▸ List.mem_append_right _ List.mem_cons_self)
    have hshort : isShort flag.longName = false := by cases flag <;> rfl
    obtain ⟨c, rest, hlong⟩ := flag.exists_longName_eq
    rw [hlong] at hword hassigned
    simp only [List.cons_append] at hword hassigned
    simp only [classify, hword, hname, hassigned, hshort, Flag.reading, hvalue, if_true]

theorem classifyAll_words (settings : List (Flag × String)) :
    classifyAll (settings.map fun (flag, text) => flag.word text)
      = .ok (settings.map fun (flag, text) => (flag.word text, flag.reading text)) := by
  induction settings with
  | nil => rfl
  | cons setting settings ih =>
    obtain ⟨flag, text⟩ := setting
    rw [List.map_cons, classifyAll, if_neg (flag.word_ne_separator text), classify_word, ih]
    rfl

/-! ## Options from words -/

/-- An option that takes a value takes all that is attached to it. -/
theorem clusterOf_of_takesValue (rule : ClusterRule) {flag : Flag} (h : flag.takesValue = true)
    (attached : Attached) (short : Bool) :
    clusterOf rule flag (some attached) short = .ok ⟨[(flag, attached.text)], .complete⟩ := by
  have htext : String.ofList attached.text.toList = attached.text := String.ofList_toList
  rw [clusterOf]
  cases hlist : attached.text.toList
  all_goals
    rw [hlist] at htext
    rw [expand.eq_def, ← htext]
    simp [h]

theorem Options.setAll_cons (options : Options) (flag : Flag) (text : String)
    (settings : List (Flag × String)) :
    options.setAll ((flag, text) :: settings)
      = (do (← options.set flag text).setAll settings) := by
  rw [setAll, List.foldlM_cons]
  rfl

theorem consume_reading (rule : ClusterRule) (options : Options) (extras : List String)
    (flag : Flag) {text : String} (htext : flag.takesValue = false → text = "")
    (rest : List (String × Word)) :
    consume rule options extras ((flag.word text, flag.reading text) :: rest)
      = (do consume rule (← options.set flag text) extras rest) := by
  cases hvalue : flag.takesValue with
  | false =>
    rw [htext hvalue]
    simp [Flag.reading, hvalue, consume, clusterOf, Options.setAll]
  | true =>
    simp [Flag.reading, hvalue, consume, clusterOf_of_takesValue rule hvalue, Options.setAll]

/-- Words that set options are read one after another, and none is left over. -/
theorem consume_readings (rule : ClusterRule) (options : Options) (extras : List String)
    (settings : List (Flag × String))
    (htexts : ∀ setting ∈ settings, setting.1.takesValue = false → setting.2 = "") :
    consume rule options extras
        (settings.map fun (flag, text) => (flag.word text, flag.reading text))
      = (do return (← options.setAll settings, extras)) := by
  induction settings generalizing options with
  | nil => rfl
  | cons setting settings ih =>
    obtain ⟨flag, text⟩ := setting
    have ih' := fun options => ih options fun s hs => htexts s (List.mem_cons_of_mem _ hs)
    rw [List.map_cons, consume_reading rule _ _ _ (htexts _ List.mem_cons_self)]
    simp only [ih', Options.setAll_cons, bind_assoc]

/-- The options that texts for them make; an option without a text has its default. -/
def Options.ofTexts (texts : Flag → Option String) : Options where
  outdir := (texts .outdir).getD default.outdir
  lang := (texts .lang).getD default.lang
  style := (texts .style).getD default.style
  source := (texts .source).getD default.source
  trace := (texts .trace).isSome
  formatOutput := (texts .noFormat).isNone
  provider := ((texts .provider).bind Model.Provider.ofName?).getD default.provider
  model := (texts .model).getD default.model
  siteUrl := texts .siteUrl
  siteName := texts .siteName

/-- The option can be set to the text. -/
structure Flag.Takes (flag : Flag) (text : String) : Prop where
  ne_help : flag ≠ .help
  text_eq : flag.takesValue = false → text = ""
  provider : flag = .provider → ∃ provider, Model.Provider.ofName? text = some provider

theorem Options.set_ofTexts (texts : Flag → Option String) {flag : Flag} {text : String}
    (h : flag.Takes text) :
    (ofTexts texts).set flag text = .ok (ofTexts (Function.update texts flag (some text))) := by
  cases flag with
  | help => exact absurd rfl h.ne_help
  | provider =>
    obtain ⟨provider, hname⟩ := h.provider rfl
    simp [set, ofTexts, hname]
  | outdir | lang | style | source | trace | noFormat | model | siteUrl | siteName => rfl

/-! ## Choices -/

/-- A value for an option. A lone `--` is left out, which not every release of the option parser
takes for a value. -/
structure Argument where
  text : String
  text_ne : text ≠ "--"

/-- Which options a command line names, with which values. -/
structure Choice where
  outdir : Option Argument := none
  lang : Option Argument := none
  style : Option Argument := none
  source : Option Argument := none
  provider : Option Model.Provider := none
  model : Option Argument := none
  siteUrl : Option Argument := none
  siteName : Option Argument := none
  trace : Bool := false
  noFormat : Bool := false

namespace Choice
variable (choice : Choice)

/-- The text for an option, if it is named. -/
def text? : Flag → Option String
  | .help => none
  | .outdir => choice.outdir.map (·.text)
  | .lang => choice.lang.map (·.text)
  | .style => choice.style.map (·.text)
  | .source => choice.source.map (·.text)
  | .trace => if choice.trace then some "" else none
  | .noFormat => if choice.noFormat then some "" else none
  | .provider => choice.provider.map (·.name)
  | .model => choice.model.map (·.text)
  | .siteUrl => choice.siteUrl.map (·.text)
  | .siteName => choice.siteName.map (·.text)

def named : List (Flag × String) :=
  Flag.all.filterMap fun flag => (choice.text? flag).map fun text => (flag, text)

/-- The words that make the choice, one for each option that is named. -/
def words : List String := choice.named.map fun (flag, text) => flag.word text

/-- The options with the values that are named for them, and defaults for the others. -/
def options : Options where
  outdir := choice.outdir.elim "./i18n" (·.text)
  lang := choice.lang.elim "en,zh,ja,es,fr,hi" (·.text)
  style := choice.style.elim "" (·.text)
  source := choice.source.elim "./" (·.text)
  trace := choice.trace
  formatOutput := !choice.noFormat
  provider := choice.provider.getD .openai
  model := choice.model.elim "gpt-4o-mini" (·.text)
  siteUrl := choice.siteUrl.map (·.text)
  siteName := choice.siteName.map (·.text)

variable {choice}

theorem mem_named_iff {flag : Flag} {text : String} :
    (flag, text) ∈ choice.named ↔ choice.text? flag = some text := by
  have hall : flag ∈ Flag.all := by cases flag <;> decide
  simp [named, hall]

theorem takes {flag : Flag} {text : String} (h : choice.text? flag = some text) :
    flag.Takes text := by
  cases flag with
  | help => cases h
  | trace | noFormat =>
    obtain ⟨-, htext⟩ := Option.ite_none_right_eq_some.mp h
    obtain rfl := Option.some.inj htext
    exact ⟨nofun, fun _ => rfl, nofun⟩
  | provider =>
    obtain ⟨provider, -, rfl⟩ := Option.map_eq_some_iff.mp h
    exact ⟨nofun, nofun, fun _ => ⟨provider, by cases provider <;> rfl⟩⟩
  | outdir | lang | style | source | model | siteUrl | siteName => exact ⟨nofun, nofun, nofun⟩

theorem ofTexts_text? : Options.ofTexts choice.text? = choice.options := by
  have hgetD : ∀ (argument : Option Argument) (default : String),
      (argument.map (·.text)).getD default = argument.elim default (·.text) := by
    rintro (_ | argument) default <;> rfl
  have hprovider : (choice.provider.map (·.name)).bind Model.Provider.ofName? = choice.provider := by
    rcases choice.provider with _ | _ | _ <;> rfl
  have htrace : (choice.text? .trace).isSome = choice.trace := by
    rw [text?]
    cases choice.trace <;> rfl
  have hformat : (choice.text? .noFormat).isNone = !choice.noFormat := by
    rw [text?]
    cases choice.noFormat <;> rfl
  simp only [Options.ofTexts, htrace, hformat]
  simp only [text?, hgetD, hprovider]
  rfl

/-! ## Reading a choice -/

variable (choice) in
/-- The texts for the options among those that have been read. -/
def textsAmong (seen : List Flag) (flag : Flag) : Option String :=
  if flag ∈ seen then choice.text? flag else none

theorem textsAmong_nil : Options.ofTexts (choice.textsAmong []) = .default := rfl

theorem textsAmong_of_named {seen : List Flag}
    (h : ∀ setting ∈ choice.named, setting.1 ∈ seen) : choice.textsAmong seen = choice.text? := by
  funext flag
  unfold textsAmong
  split
  · rfl
  · rename_i hunseen
    symm
    rw [Option.eq_none_iff_forall_ne_some]
    intro text htext
    exact hunseen (h _ (mem_named_iff.mpr htext))

theorem update_textsAmong {seen : List Flag} {flag : Flag} {text : String}
    (h : choice.text? flag = some text) :
    Function.update (choice.textsAmong seen) flag (some text)
      = choice.textsAmong (flag :: seen) := by
  funext other
  by_cases hsame : other = flag
  · subst hsame
    simp [textsAmong, h]
  · simp [textsAmong, hsame]

theorem set_textsAmong {seen : List Flag} {flag : Flag} {text : String}
    (h : choice.text? flag = some text) :
    (Options.ofTexts (choice.textsAmong seen)).set flag text
      = .ok (Options.ofTexts (choice.textsAmong (flag :: seen))) := by
  rw [Options.set_ofTexts _ (takes h), update_textsAmong h]

/-- What the options are depends on which of them have been read, and not on the order. -/
theorem setAll_textsAmong {settings : List (Flag × String)}
    (h : ∀ setting ∈ settings, setting ∈ choice.named) (seen : List Flag) :
    (Options.ofTexts (choice.textsAmong seen)).setAll settings
      = .ok (Options.ofTexts (choice.textsAmong ((settings.map (·.1)).reverse ++ seen))) := by
  induction settings generalizing seen with
  | nil => rfl
  | cons setting settings ih =>
    obtain ⟨flag, text⟩ := setting
    have htext := mem_named_iff.mp (h _ List.mem_cons_self)
    have ih' := ih (fun s hs => h s (List.mem_cons_of_mem _ hs)) (flag :: seen)
    rw [Options.setAll_cons, set_textsAmong htext, List.map_cons, List.reverse_cons,
      List.append_assoc]
    exact ih'

theorem exists_settings_of_perm {argv : List String} (hargv : argv.Perm choice.words) :
    ∃ settings : List (Flag × String),
      argv = settings.map (fun (flag, text) => flag.word text) ∧ settings.Perm choice.named := by
  have h := List.eq_map_comp_perm fun ((flag, text) : Flag × String) => flag.word text
  exact (iff_of_eq (congrFun (congrFun h argv) choice.named)).mpr hargv

/-- In whatever order the words stand, the options are those of the choice. -/
theorem parse_of_perm (rule : ClusterRule) {argv : List String}
    (hargv : argv.Perm choice.words) : parse rule argv = .ok choice.options := by
  obtain ⟨settings, rfl, hsettings⟩ := exists_settings_of_perm hargv
  have hnamed : ∀ setting ∈ settings, setting ∈ choice.named := fun _ => hsettings.mem_iff.mp
  have htexts : ∀ setting ∈ settings, setting.1.takesValue = false → setting.2 = "" :=
    fun setting hsetting => (takes (mem_named_iff.mp (hnamed setting hsetting))).text_eq
  have hseen : ∀ setting ∈ choice.named, setting.1 ∈ (settings.map (·.1)).reverse ++ [] := by
    intro setting hsetting
    rw [List.append_nil, List.mem_reverse]
    exact List.mem_map_of_mem (hsettings.mem_iff.mpr hsetting)
  have hset := setAll_textsAmong hnamed []
  rw [textsAmong_nil, textsAmong_of_named hseen, ofTexts_text?] at hset
  simp only [parse, classifyAll_words, consume_readings rule _ _ settings htexts, hset]
  rfl

end Choice

/-! ## Headers and requests -/

theorem siteHeader_eq_some_iff {header : String} {text : Option String}
    {entry : String × String} :
    (text.filter (· ≠ "")).map (fun value => (header, value)) = some entry
      ↔ entry.1 = header ∧ text = some entry.2 ∧ entry.2 ≠ "" := by
  obtain ⟨name, value⟩ := entry
  simp only [Option.map_eq_some_iff, Option.filter_eq_some_iff, Prod.mk.injEq, decide_eq_true_eq]
  constructor
  · rintro ⟨_, ⟨htext, hne⟩, rfl, rfl⟩
    exact ⟨rfl, htext, hne⟩
  · rintro ⟨rfl, htext, hne⟩
    exact ⟨value, ⟨htext, hne⟩, rfl, rfl⟩

theorem mem_headers_iff {model : Model.Settings} {header value : String} :
    (header, value) ∈ model.headers
      ↔ model.provider = .openrouter ∧ value ≠ ""
        ∧ (header = "HTTP-Referer" ∧ model.siteUrl = some value
          ∨ header = "X-Title" ∧ model.siteName = some value) := by
  unfold Model.Settings.headers
  cases model.provider with
  | openai => simp
  | openrouter =>
    simp only [List.mem_filterMap, List.mem_cons, List.not_mem_nil, or_false, or_and_right,
      exists_or, exists_eq_left, siteHeader_eq_some_iff]
    tauto

theorem headers_sublist (model : Model.Settings) :
    (model.headers.map (·.1)).Sublist ["HTTP-Referer", "X-Title"] := by
  unfold Model.Settings.headers
  cases model.provider with
  | openai => exact List.nil_sublist _
  | openrouter =>
    simp only [List.filterMap_cons, List.filterMap_nil]
    cases model.siteUrl.filter (· ≠ "") <;> cases model.siteName.filter (· ≠ "") <;> simp

theorem concluded_sentOnly {allowed : Model.Request → Prop} {trace : Bool}
    {action : Run.Action Emit.Catalog} {site : Run.Site}
    (h : action.Ensures site (fun _ s => s.SentOnly allowed) fun _ s => s.SentOnly allowed) :
    (concluded trace (action site)).site.SentOnly allowed := by
  unfold Run.Action.Ensures at h
  cases hrun : action site <;> rw [hrun] at h <;> exact h

/-- A launch asks with the settings that the options make, also where the run fails. -/
theorem Options.launch_sentOnly (options : Options) {resolver : Run.Resolver}
    (hasks : resolver.AsksOnly) (env : List (String × String)) (key : String)
    (service : Model.Service) (formatter : Run.Formatter) (files : Files.Node) :
    let model := options.modelSettings key
    (options.launch resolver env key service formatter files).site.SentOnly fun request =>
      ∃ phrase, request = model.translationRequest (options.runSettings env model).style phrase := by
  intro model
  rw [options.launch_eq]
  apply concluded_sentOnly
  apply Run.proceed_sendsOnly hasks
  · intro phrase request hrequest
    rw [Run.requests_translator, List.mem_singleton] at hrequest
    exact ⟨phrase, hrequest⟩
  · exact List.forall_mem_nil _

/-! ## The program -/

/-- A command line that is read is accepted just if there is a credential and the settings are
complete. -/
theorem programBy_accepts_iff {rule : ClusterRule} {argv : List String} {options : Options}
    (hparse : parse rule argv = .ok options) (resolver : Run.Resolver) (env : List (String × String))
    (service : Model.Service) (formatter : Run.Formatter) (files : Files.Node) :
    (programBy rule resolver argv env service formatter files).ending.exitStatus? = none
      ↔ (∃ key, options.provider.resolveKey env = some key) ∧ options.Complete := by
  rw [← Options.refusal?_eq_none_iff]
  cases hkey : options.provider.resolveKey env with
  | none =>
    rw [programBy_of_noKey hparse resolver service formatter files hkey]
    simp [Ending.exitStatus?]
  | some key =>
    cases hrefusal : options.refusal? with
    | some message =>
      rw [programBy_of_refusal hparse resolver service formatter files hkey hrefusal]
      simp [Ending.exitStatus?]
    | none =>
      rw [programBy_of_complete hparse resolver service formatter files hkey hrefusal]
      simp [(options.launch_clients resolver env key service formatter files).1]

/-- For all choices of options and values, in every order of the words, the options are those of the
choice. If the command line is accepted, the program is one run of just these settings, and what it
asks the service is asked with their model, style and headers. -/
theorem program_follows_choice (choice : Choice) {argv : List String}
    (hargv : argv.Perm choice.words) (rule : ClusterRule) (resolver : Run.Resolver)
    (env : List (String × String)) (service : Model.Service) (formatter : Run.Formatter)
    (files : Files.Node) :
    let options := choice.options
    let style := if options.style = "" then (env.lookup "I18N_AI_PROMPT").getD "" else options.style
    let outcome := programBy rule resolver argv env service formatter files
    parse rule argv = .ok options
      ∧ (outcome.ending.exitStatus? = none
        ↔ (∃ key, options.provider.resolveKey env = some key) ∧ options.Complete)
      ∧ (outcome.ending.exitStatus? = none → ∃ key, options.provider.resolveKey env = some key ∧
        let model : Model.Settings :=
          { provider := options.provider
            apiKey := key
            model := options.model
            siteUrl := options.siteUrl
            siteName := options.siteName }
        let settings : Run.Settings :=
          { outputDir := options.outdir
            languages := Language.parseCodes options.lang
            style := style
            sourceRoot := options.source
            model := some model
            formatOutput := options.formatOutput
            workers := 1 }
        outcome = launch resolver model settings service formatter options.trace files
          ∧ (∀ header value, (header, value) ∈ model.headers
            ↔ options.provider = .openrouter ∧ value ≠ ""
              ∧ (header = "HTTP-Referer" ∧ options.siteUrl = some value
                ∨ header = "X-Title" ∧ options.siteName = some value))
          ∧ (model.headers.map (·.1)).Sublist ["HTTP-Referer", "X-Title"]
          ∧ (resolver.AsksOnly → ∀ request ∈ outcome.site.requests, ∃ phrase,
            request = ⟨options.model, .arr [.obj [("role", .str "user"),
              ("content", .str (Model.prompt phrase style))]], [], model.headers⟩)) := by
  intro options style outcome
  have hparse : parse rule argv = .ok options := Choice.parse_of_perm rule hargv
  have haccepts := programBy_accepts_iff hparse resolver env service formatter files
  refine ⟨hparse, haccepts, fun haccepted => ?_⟩
  obtain ⟨⟨key, hkey⟩, hcomplete⟩ := haccepts.mp haccepted
  have houtcome : outcome = options.launch resolver env key service formatter files :=
    programBy_of_complete hparse resolver service formatter files hkey
      (Options.refusal?_eq_none_iff.mpr hcomplete)
  refine ⟨key, hkey, houtcome, fun _ _ => mem_headers_iff, headers_sublist _, fun hasks => ?_⟩
  rw [houtcome]
  exact options.launch_sentOnly hasks env key service formatter files

/-- Values that are empty, hold an `=` or look like other options. -/
def tangledChoice : Choice where
  outdir := some ⟨"-o=./out put", by decide⟩
  lang := some ⟨" en, ,zh", by decide⟩
  style := some ⟨"", by decide⟩
  provider := some .openrouter
  model := some ⟨"a=b", by decide⟩
  siteUrl := some ⟨"--model=c", by decide⟩
  siteName := some ⟨"", by decide⟩
  noFormat := true

def tangledWords : List String :=
  ["--openrouter-site-name=", "--model=a=b", "--no-format", "--lang= en, ,zh", "--prompt=",
   "--llm-provider=openrouter", "--openrouter-site-url=--model=c", "--outdir=-o=./out put"]

/-- Each value goes to its own option, and the style that is left empty comes from the environment. -/
theorem program_follows_choice_tangled :
    let env := [("OPENROUTER_API_KEY", "k"), ("I18N_AI_PROMPT", "short")]
    let outcome := programBy .later Run.resolve tangledWords env (fun _ => .noChoices)
      Run.bareShell.formatter Run.emptyOutput
    let model : Model.Settings := ⟨.openrouter, "k", "a=b", some "--model=c", some ""⟩
    tangledWords.Perm tangledChoice.words
      ∧ parse .later tangledWords = .ok ⟨"-o=./out put", " en, ,zh", "", "./", false, false,
        .openrouter, "a=b", some "--model=c", some ""⟩
      ∧ outcome.ending.exitStatus? = none
      ∧ outcome = launch Run.resolve model
        ⟨"-o=./out put", ["en", "zh"], "short", "./", some model, false, 1⟩ (fun _ => .noChoices)
        Run.bareShell.formatter false Run.emptyOutput
      ∧ ∀ request ∈ outcome.site.requests,
        request.model = "a=b" ∧ request.headers = [("HTTP-Referer", "--model=c")] := by
  intro env outcome model
  have hnamed : tangledChoice.words = ["--outdir=-o=./out put", "--lang= en, ,zh", "--prompt=",
      "--no-format", "--llm-provider=openrouter", "--model=a=b", "--openrouter-site-url=--model=c",
      "--openrouter-site-name="] := by decide
  have hwords : tangledWords.Perm tangledChoice.words := by
    rw [hnamed]
    decide
  have hoptions : tangledChoice.options = ⟨"-o=./out put", " en, ,zh", "", "./", false, false,
      .openrouter, "a=b", some "--model=c", some ""⟩ := rfl
  have hcodes : Language.parseCodes " en, ,zh" = ["en", "zh"] := by decide
  have hcomplete : tangledChoice.options.Complete := by
    rw [hoptions]
    constructor
    · decide
    · decide
    · rw [hcodes]
      decide
    · rw [hcodes]
      decide
  have hstyle : (env.lookup "I18N_AI_PROMPT").getD "" = "short" := rfl
  have hheaders : model.headers = [("HTTP-Referer", "--model=c")] := by decide
  obtain ⟨hparse, haccepts, hruns⟩ := program_follows_choice tangledChoice hwords .later Run.resolve
    env (fun _ => .noChoices) Run.bareShell.formatter Run.emptyOutput
  have haccepted : outcome.ending.exitStatus? = none := haccepts.mpr ⟨⟨"k", rfl⟩, hcomplete⟩
  simp only [hoptions, hcodes, hstyle, if_true] at hparse hruns
  obtain ⟨key, hkey, hlaunch, -, -, hrequests⟩ := hruns haccepted
  obtain rfl : "k" = key := Option.some.inj hkey
  refine ⟨hwords, hparse, haccepted, hlaunch, ?_⟩
  intro request hrequest
  simp only [outcome] at hrequest
  obtain ⟨phrase, hrequest⟩ := hrequests Run.resolve_asksOnly request hrequest
  rw [hrequest]
  exact ⟨rfl, hheaders⟩

end PhraseCatalog.CommandLine
