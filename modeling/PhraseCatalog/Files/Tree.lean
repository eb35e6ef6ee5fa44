import PhraseCatalog.Files.Path
import PhraseCatalog.Json.Value
import PhraseCatalog.Text.Quoted

/-! File trees: directories, files of bytes and files that hold a table of rows. -/

set_option autoImplicit false

namespace PhraseCatalog.Files

open Text

/-- The rows of a table: a key and a text, which may be missing, in the order of their insertion. -/
abbrev Rows : Type := List (String × Option String)

/-- What a file holds. -/
inductive Content
  | bytes (data : List UInt8)
  | table (rows : Rows)
deriving DecidableEq

/-- The bytes of a file; of a table only the mark at its start is fixed. -/
def Content.data : Content → List UInt8
  | .bytes data => data
  | .table _ => "SQLite format 3\x00".toUTF8.toList

/-- A file, or a directory with its entries. -/
inductive Node
  | file (content : Content)
  | dir (entries : List (String × Node))

/-- Why an operation on a path fails. -/
inductive FaultKind
  | missing
  | exists
  | notDirectory
  | isDirectory
deriving DecidableEq, Repr

/-- A failed operation and the path that it was given. -/
structure Fault where
  kind : FaultKind
  path : String
deriving DecidableEq, Repr

def FaultKind.code : FaultKind → Nat
  | .missing => 2
  | .exists => 17
  | .notDirectory => 20
  | .isDirectory => 21

def FaultKind.message : FaultKind → String
  | .missing => "No such file or directory"
  | .exists => "File exists"
  | .notDirectory => "Not a directory"
  | .isDirectory => "Is a directory"

def Fault.message (f : Fault) : String :=
  "[Errno " ++ toString f.kind.code ++ "] " ++ f.kind.message ++ ": " ++ quoted f.path

namespace Node

def empty : Node := .dir []

def isDir : Node → Bool
  | .dir _ => true
  | .file _ => false

def content? : Node → Option Content
  | .file content => some content
  | .dir _ => none

/-- The node at a place, given by the names on the way to it. -/
def get? : Node → (place : List String) → Option Node
  | node, [] => some node
  | .dir entries, name :: names =>
    match entries.lookup name with
    | some node => node.get? names
    | none => none
  | .file _, _ :: _ => none

/-- The tree with a node at a place; directories on the way are made where they are missing, and
nothing is done behind a file. -/
def put : Node → (place : List String) → (new : Node) → Node
  | _, [], new => new
  | .dir entries, name :: names, new =>
    .dir (Json.setMember name (((entries.lookup name).getD empty).put names new) entries)
  | .file content, _ :: _, _ => .file content

/-- The tree without the node at a place. -/
def erase : Node → (place : List String) → Node
  | node, [] => node
  | .file content, _ :: _ => .file content
  | .dir entries, [name] => .dir (entries.filter (·.1 ≠ name))
  | .dir entries, name :: names =>
    match entries.lookup name with
    | some node => .dir (Json.setMember name (node.erase names) entries)
    | none => .dir entries

/-- The place of an entry of the directory at `place`; `..` is the directory above. -/
def enter (root : Node) (place : List String) (name : String) :
    Except FaultKind (List String) :=
  match root.get? place with
  | some (.dir _) => .ok (if name = ".." then place.dropLast else place ++ [name])
  | some (.file _) => .error .notDirectory
  | none => .error .missing

/-- The place that a path leads to. All on the way to it must be directories; nothing need be
there. -/
def resolve (root : Node) (path : Path) : Except FaultKind (List String) :=
  path.parts.foldlM root.enter []

def find? (root : Node) (path : Path) : Option Node :=
  match root.resolve path with
  | .ok place => root.get? place
  | .error _ => none

def isDirAt (root : Node) (path : Path) : Bool := (root.find? path).any isDir

/-! ## Changes

An operation that fails midway keeps what it has made so far. -/

def makeDirectory (root : Node) (path : Path) : Except FaultKind Node := do
  let place ← root.resolve path
  match root.get? place with
  | some _ => .error .exists
  | none => .ok (root.put place empty)

/-- Makes one directory, or keeps the one that is there; `shown` is its path in a failure. -/
def ensureDirectory (root : Node) (path : Path) (shown : String) : Node × Option Fault :=
  match root.makeDirectory path with
  | .ok root => (root, none)
  | .error kind => if root.isDirAt path then (root, none) else (root, some ⟨kind, shown⟩)

/-- Makes a directory and those it stands in, at most `steps` of them. -/
def makePath : (steps : Nat) → Node → Path → Node × Option Fault
  | 0, root, path => root.ensureDirectory path path.text
  | steps + 1, root, path =>
    match root.makeDirectory path with
    | .error .missing =>
      match makePath steps root path.parent with
      | (root, none) => root.ensureDirectory path path.text
      | failed => failed
    | _ => root.ensureDirectory path path.text

/-- Makes a directory and those it stands in, for a path in its normal spelling. -/
def makeDirectories (root : Node) (path : Path) : Node × Option Fault :=
  root.makePath path.parts.length path

/-- Makes the directory that a text names and those it stands in, at most `steps` of them; a
failure shows the path as it is spelled in the text. -/
def makeSpelled : (steps : Nat) → Node → (text : List Char) → Node × Option Fault
  | 0, root, text => root.ensureDirectory (.ofString (String.ofList text)) (String.ofList text)
  | steps + 1, root, text =>
    let last := fun (root : Node) =>
      root.ensureDirectory (.ofString (String.ofList text)) (String.ofList text)
    let (head, tail) :=
      match splitText text with
      | (head, []) => splitText head
      | split => split
    if head.isEmpty || tail.isEmpty || (root.find? (.ofString (String.ofList head))).isSome then
      last root
    else
      let (root, fault) := makeSpelled steps root head
      if fault.any (·.kind ≠ .exists) then (root, fault)
      else if tail = ['.'] then (root, none)
      else last root

/-- Makes the directory that a text names and those it stands in. -/
def makeNamed (root : Node) (text : String) : Node × Option Fault :=
  root.makeSpelled text.length text.toList

/-- Writes a file; what it held is replaced. -/
def writeFile (root : Node) (path : Path) (content : Content) : Except Fault Node :=
  match root.resolve path with
  | .error kind => .error ⟨kind, path.text⟩
  | .ok place =>
    match root.get? place with
    | some (.dir _) => .error ⟨.isDirectory, path.text⟩
    | _ => .ok (root.put place (.file content))

/-! ## Listings -/

mutual

/-- The places below a node, directories with a slash behind them. -/
def places : Node → List String
  | .file _ => []
  | .dir entries => entryPlaces entries

/-- The places of the entries and below them. -/
def entryPlaces : List (String × Node) → List String
  | [] => []
  | (name, node) :: rest =>
    (if node.isDir then name ++ "/" else name) :: (places node).map ((name ++ "/") ++ ·)
      ++ entryPlaces rest

end

/-- All places of a tree in code point order. -/
def listing (root : Node) : List String := root.places.mergeSort fun a b => decide (a ≤ b)

end Node
end PhraseCatalog.Files
