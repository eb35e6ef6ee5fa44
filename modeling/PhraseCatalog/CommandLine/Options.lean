import PhraseCatalog.Language.Codes
import PhraseCatalog.Model.Settings
import PhraseCatalog.Run.Settings
import PhraseCatalog.Text.Letter
import PhraseCatalog.Text.Quoted

/-! The options of the command line and how a list of words is read as options. -/

set_option autoImplicit false

namespace PhraseCatalog.CommandLine

open Text

/-- What the command line sets. -/
structure Options where
  outdir : String
  lang : String
  style : String
  source : String
  trace : Bool
  formatOutput : Bool
  provider : Model.Provider
  model : String
  siteUrl : Option String
  siteName : Option String
deriving DecidableEq, Repr

def Options.default : Options :=
  { outdir := Run.defaultOutputDir
    lang := Language.defaultCodes
    style := ""
    source := Run.defaultSourceRoot
    trace := false
    formatOutput := true
    provider := .openai
    model := Model.defaultModel
    siteUrl := none
    siteName := none }

inductive Flag
  | help
  | outdir
  | lang
  | style
  | source
  | trace
  | noFormat
  | provider
  | model
  | siteUrl
  | siteName
deriving DecidableEq, Repr

namespace Flag

/-- The options in the order in which they are listed. -/
def all : List Flag :=
  [.help, .outdir, .lang, .style, .source, .trace, .noFormat, .provider, .model, .siteUrl,
   .siteName]

/-- The words for an option. -/
def names : Flag → List String
  | .help => ["-h", "--help"]
  | .outdir => ["-o", "--outdir"]
  | .lang => ["-l", "--lang"]
  | .style => ["-p", "--prompt"]
  | .source => ["-s", "--source"]
  | .trace => ["-t", "--log-trace"]
  | .noFormat => ["--no-format"]
  | .provider => ["--llm-provider"]
  | .model => ["--model"]
  | .siteUrl => ["--openrouter-site-url"]
  | .siteName => ["--openrouter-site-name"]

/-- Whether a value follows the option. -/
def takesValue : Flag → Bool
  | .help | .trace | .noFormat => false
  | _ => true

def title (flag : Flag) : String := String.intercalate "/" flag.names

/-- All words for options, in the order in which they are listed. -/
def words : List (String × Flag) :=
  all.flatMap fun flag => flag.names.map fun name => (name, flag)

def ofName? (name : String) : Option Flag := words.lookup name

end Flag

inductive UsageError
  | ambiguous (word : String) (matching : List String)
  | expectedValue (flag : Flag)
  /-- An option is given a value that it does not take. -/
  | ignoredValue (flag : Flag) (value : String)
  /-- The provider is none of those that can be chosen. -/
  | invalidChoice (flag : Flag) (value : String)
  | unrecognized (words : List String)
deriving DecidableEq, Repr

def UsageError.message : UsageError → String
  | .ambiguous word matching =>
    "ambiguous option: " ++ word ++ " could match " ++ String.intercalate ", " matching
  | .expectedValue flag => "argument " ++ flag.title ++ ": expected one argument"
  | .ignoredValue flag value =>
    "argument " ++ flag.title ++ ": ignored explicit argument " ++ quoted value
  | .invalidChoice flag value =>
    "argument " ++ flag.title ++ ": invalid choice: " ++ quoted value ++ " (choose from "
      ++ String.intercalate ", " (Model.Provider.all.map fun p => quoted p.name) ++ ")"
  | .unrecognized words => "unrecognized arguments: " ++ String.intercalate " " words

/-- Why reading the words ends without options. -/
inductive Stop
  | help
  | usage (error : UsageError)
deriving DecidableEq, Repr

/-! ## Words -/

/-- A text that stands in one word with an option. -/
structure Attached where
  text : String
  /-- Whether an `=` stands between the two. -/
  assigned : Bool
deriving DecidableEq, Repr

/-- What a word is taken for. -/
inductive Word
  /-- A value, or a word that belongs nowhere. -/
  | value
  /-- The word `--`; all words behind it are values. -/
  | separator
  /-- A word that looks like an option, but is none. -/
  | unknown
  | option (flag : Flag) (attached : Option Attached) (short : Bool)
deriving DecidableEq, Repr

def isShort (name : String) : Bool := name.toList.drop 1 |>.head?.any (· ≠ '-')

/-- Whether the text after a dash is a number, as far as `-5` and `-.5` are; one line feed may
follow. -/
def isNumber (s : List Char) : Bool :=
  let s := match s.reverse with
    | '\n' :: rest => rest.reverse
    | _ => s
  let whole := s.takeWhile isDecimal
  match s.dropWhile isDecimal with
  | [] => !whole.isEmpty
  | '.' :: fraction => !fraction.isEmpty && fraction.all isDecimal
  | _ => false

/-- The options that a word with two dashes may be short for: name, and attached value. -/
def longMatches (s : List Char) : List (String × Flag × Option Attached) :=
  let name := s.takeWhile (· ≠ '=')
  let attached := match s.dropWhile (· ≠ '=') with
    | [] => none
    | _ :: value => some ⟨String.ofList value, true⟩
  (Flag.words.filter fun (full, _) => name.isPrefixOf full.toList).map
    fun (full, flag) => (full, flag, attached)

/-- The options that a word with one dash may stand for: the one of its first letter, with the rest
of the word attached, and those it is short for. -/
def shortMatches (s : List Char) : List (String × Flag × Option Attached) :=
  Flag.words.filterMap fun (full, flag) =>
    if full.toList = s.take 2 then some (full, flag, some ⟨String.ofList (s.drop 2), false⟩)
    else if s.isPrefixOf full.toList then some (full, flag, none)
    else none

/-- The options that a word may be short for. -/
def candidates (s : List Char) : List (String × Flag × Option Attached) :=
  match s with
  | '-' :: '-' :: _ => longMatches s
  | _ => shortMatches s

/-- An option whose name and attached value are joined by `=`. -/
def assigned? (s : List Char) : Option Word :=
  match s.dropWhile (· ≠ '=') with
  | [] => none
  | _ :: value =>
    let name := String.ofList (s.takeWhile (· ≠ '='))
    (Flag.ofName? name).map fun flag =>
      .option flag (some ⟨String.ofList value, true⟩) (isShort name)

/-- What a word in front of any `--` is taken for. -/
def classify (word : String) : Except UsageError Word :=
  match word.toList with
  | '-' :: c :: rest =>
    let s := '-' :: c :: rest
    match Flag.ofName? word with
    | some flag => .ok (.option flag none (isShort word))
    | none =>
      match assigned? s with
      | some option => .ok option
      | none =>
        match candidates s with
        | [] => .ok (if isNumber (c :: rest) || s.contains ' ' then .value else .unknown)
        | [(name, flag, attached)] => .ok (.option flag attached (isShort name))
        | several => .error (.ambiguous word (several.map (·.1)))
  | _ => .ok .value

def classifyAll : List String → Except UsageError (List (String × Word))
  | [] => .ok []
  | word :: rest =>
    if word = "--" then .ok ((word, .separator) :: rest.map fun w => (w, .value))
    else do
      let kind ← classify word
      let rest ← classifyAll rest
      return (word, kind) :: rest

/-! ## Options -/

/-- Sets an option; options without a value ignore it. -/
def Options.set (options : Options) (flag : Flag) (value : String) : Except Stop Options :=
  match flag with
  | .help => .error .help
  | .outdir => .ok { options with outdir := value }
  | .lang => .ok { options with lang := value }
  | .style => .ok { options with style := value }
  | .source => .ok { options with source := value }
  | .trace => .ok { options with trace := true }
  | .noFormat => .ok { options with formatOutput := false }
  | .provider =>
    match Model.Provider.ofName? value with
    | some provider => .ok { options with provider := provider }
    | none => .error (.usage (.invalidChoice flag value))
  | .model => .ok { options with model := value }
  | .siteUrl => .ok { options with siteUrl := some value }
  | .siteName => .ok { options with siteName := some value }

/-- How several options of one letter are read from one word. Releases of the option parser differ
where a letter is none of them and where an `=` stands behind a letter. -/
inductive ClusterRule
  /-- A letter that is no option is refused, and an `=` is a letter like any other. -/
  | earlier
  /-- A letter that is no option belongs nowhere with all that follows it, and an `=` stands between a
  letter and its value. -/
  | later
deriving DecidableEq, Repr

/-- What a word ends in. -/
inductive WordEnd
  | complete
  /-- An option without a value attached. -/
  | awaiting (flag : Flag)
  /-- A letter that is no option, with all that follows it, as a word of its own. -/
  | leftover (word : String)

/-- The options of one word with their values, and its end. -/
structure Cluster where
  settled : List (Flag × String)
  ending : WordEnd

/-- The options of a word from an option with an attached text on. The text is the value of an
option that takes one; behind an option of one letter that takes none, it is more such letters, unless
the text is marked as a value. -/
def expand (rule : ClusterRule) (flag : Flag) (short assigned : Bool) :
    (attached : List Char) → Except UsageError Cluster
  | [] =>
    if flag.takesValue then .ok ⟨[(flag, "")], .complete⟩ else .error (.ignoredValue flag "")
  | c :: rest =>
    let text := String.ofList (c :: rest)
    if flag.takesValue then .ok ⟨[(flag, text)], .complete⟩
    else if !short || assigned || (rule = .later && c = '-') then .error (.ignoredValue flag text)
    else
      match Flag.ofName? (String.ofList ['-', c]) with
      | none =>
        match rule with
        | .earlier => .error (.ignoredValue flag text)
        | .later => .ok ⟨[(flag, "")], .leftover ("-" ++ text)⟩
      | some next =>
        match rule, rest with
        | _, [] => .ok ⟨[(flag, "")], .awaiting next⟩
        | .later, '=' :: rest => do
          let cluster ← expand rule next true true rest
          return { cluster with settled := (flag, "") :: cluster.settled }
        | _, rest => do
          let cluster ← expand rule next true false rest
          return { cluster with settled := (flag, "") :: cluster.settled }

def clusterOf (rule : ClusterRule) (flag : Flag) (attached : Option Attached) (short : Bool) :
    Except UsageError Cluster :=
  match attached with
  | none => .ok ⟨[], .awaiting flag⟩
  | some attached => expand rule flag short (rule = .later && attached.assigned) attached.text.toList

def Options.setAll (options : Options) (settings : List (Flag × String)) : Except Stop Options :=
  settings.foldlM (fun options (flag, value) => options.set flag value) options

/-- Reads words into options; words that belong nowhere are collected. -/
def consume (rule : ClusterRule) (options : Options) (extras : List String) :
    List (String × Word) → Except Stop (Options × List String)
  | [] => .ok (options, extras)
  | (_, .option flag attached short) :: rest =>
    match clusterOf rule flag attached short with
    | .error error => .error (.usage error)
    | .ok ⟨settled, .complete⟩ => do
      let options ← options.setAll settled
      consume rule options extras rest
    | .ok ⟨settled, .leftover word⟩ => do
      let options ← options.setAll settled
      consume rule options (extras ++ [word]) rest
    | .ok ⟨settled, .awaiting last⟩ =>
      if last.takesValue then
        match rest with
        | (value, .value) :: rest => do
          let options ← options.setAll (settled ++ [(last, value)])
          consume rule options extras rest
        | _ => .error (.usage (.expectedValue last))
      else do
        let options ← options.setAll (settled ++ [(last, "")])
        consume rule options extras rest
  | (word, _) :: rest => consume rule options (extras ++ [word]) rest

/-- The options of a command line. -/
def parse (rule : ClusterRule) (argv : List String) : Except Stop Options :=
  match classifyAll argv with
  | .error error => .error (.usage error)
  | .ok words =>
    match consume rule .default [] words with
    | .error stop => .error stop
    | .ok (options, []) => .ok options
    | .ok (_, extras) => .error (.usage (.unrecognized extras))

end PhraseCatalog.CommandLine
