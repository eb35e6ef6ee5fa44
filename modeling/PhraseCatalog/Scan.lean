import PhraseCatalog.Files.Tree
import PhraseCatalog.Log
import PhraseCatalog.Marker.Matcher
import PhraseCatalog.Text.Lines
import PhraseCatalog.Text.Utf8

/-! Scanning a file tree: which files are source code, in which order they are read, and the
phrases that they mark. -/

set_option autoImplicit false

namespace PhraseCatalog.Scan

open Files Text Log

/-- The names of directories that are never entered. -/
def ignoredNames : List String :=
  [".git", "node_modules", "dist", "public", "assets", ".husky", "drizzle", "prisma", ".vscode",
   ".idea"]

def fallbackPhrase : String := "hello"

/-- Whether a file name has the suffix `.ts` or `.tsx`; one line feed may follow it. -/
def isSourceName (name : String) : Bool :=
  let stem := match name.toList.reverse with
    | '\n' :: stem => stem
    | stem => stem
  "st.".toList.isPrefixOf stem || "xst.".toList.isPrefixOf stem

def isRead (name : String) : Bool := !(ignoredNames.contains name) && isSourceName name

def inNameOrder {α : Type} (entries : List (String × α)) : List (String × α) :=
  entries.mergeSort fun a b => decide (a.1 ≤ b.1)

/-- The entries that are files to be read. -/
def sourceEntries (entries : List (String × Node)) : List (String × Content) :=
  entries.filterMap fun (name, node) =>
    match node with
    | .file content => if isRead name then some (name, content) else none
    | .dir _ => none

mutual

/-- The source files below a node, each with the names on the way to it: those of a directory
before those of its subdirectories. -/
def sources : Node → List (List String × Content)
  | .file _ => []
  | .dir entries =>
    (inNameOrder (sourceEntries entries)).map (fun (name, content) => ([name], content))
      ++ (inNameOrder (branches entries)).flatMap (·.2)

/-- The source files below each subdirectory that is entered. -/
def branches : List (String × Node) → List (String × List (List String × Content))
  | [] => []
  | (_, .file _) :: rest => branches rest
  | (name, .dir entries) :: rest =>
    if ignoredNames.contains name then branches rest
    else
      (name, (sources (.dir entries)).map fun (names, content) => (name :: names, content))
        :: branches rest

end

/-- The source files below the directory that a text names, with their paths. There are none if it
names no directory. -/
def findSources (tree : Node) (root : String) : List (Path × Content) :=
  if root = "" then []
  else
    match tree.find? (.ofString root) with
    | some node =>
      (sources node).map fun (names, content) => ((Path.ofString root).below names, content)
    | none => []

inductive Fault
  | notText (fault : Utf8.Fault)
  /-- A matcher asks for a capture that its form lacks. -/
  | missingGroup (fault : Marker.MissingGroup)
deriving DecidableEq, Repr

def Fault.message : Fault → String
  | .notText fault => fault.message
  | .missingGroup fault => fault.message

/-- The text of a source file, its line ends made equal. -/
def readText (content : Content) : Except Utf8.Fault (List Char) :=
  (Utf8.decode content.data).map unifyLineEnds

def filePhrases (content : Content) : Except Fault (List String) :=
  match readText content with
  | .error fault => .error (.notText fault)
  | .ok text =>
    match Marker.extract Marker.registry text with
    | .error fault => .error (.missingGroup fault)
    | .ok phrases => .ok phrases

/-- The phrases of the files, with repetitions, file after file up to the first that cannot be
read. -/
def collect : List (Path × Content) → Report Fault (List String)
  | [] => ⟨[], .ok []⟩
  | (path, content) :: rest =>
    match filePhrases content with
    | .error (.notText fault) =>
      ⟨[⟨.error, .scan,
        "Error reading source file " ++ path.text ++ ": " ++ fault.message, false⟩],
        .error (.notText fault)⟩
    | .error fault => ⟨[], .error fault⟩
    | .ok phrases =>
      let own : List Entry := match phrases.length with
        | 0 => []
        | n => [⟨.debug, .scan,
          "Found " ++ toString n ++ " literals in " ++ path.text, false⟩]
      let later := collect rest
      ⟨own ++ later.log, later.outcome.map (phrases ++ ·)⟩

/-- The phrases below a directory, each once, in the order of their discovery. -/
def extractPhrases (tree : Node) (root : String) : Report Fault (List String) :=
  let found := collect (findSources tree root)
  match found.outcome with
  | .error fault => ⟨found.log, .error fault⟩
  | .ok phrases =>
    let unique := phrases.eraseDups
    ⟨found.log ++ [⟨.info, .scan,
      "Found " ++ toString unique.length ++ " unique literals in " ++ root, false⟩], .ok unique⟩

/-- The phrases below a directory; where there are none, the fallback phrase alone. -/
def loadPhrases (tree : Node) (root : String) : Report Fault (List String) :=
  let found := extractPhrases tree root
  match found.outcome with
  | .ok [] =>
    ⟨found.log ++ [⟨.info, .run,
      "No marker calls found; using fallback literal '" ++ fallbackPhrase ++ "'", false⟩],
      .ok [fallbackPhrase]⟩
  | _ => found

end PhraseCatalog.Scan
