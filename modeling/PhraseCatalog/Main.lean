import PhraseCatalog.CommandLine.Program
import PhraseCatalog.Store.Handle

/-! The command line. It reads the files below the working directory, runs the program on them and
writes back what has changed. There is no network here, so that every request to a service fails,
and no command is started. The rows of a store are kept as a JSON array of pairs. -/

set_option autoImplicit false

namespace PhraseCatalog.Outer

open Files Json

def rowsOfText? (text : String) : Option Rows :=
  match Json.read text with
  | .ok (.arr items) => items.mapM fun item =>
    match item with
    | .arr [.str key, .str text] => some (key, some text)
    | .arr [.str key, .null] => some (key, none)
    | _ => none
  | _ => none

def textOfRows (rows : Rows) : String :=
  (Value.arr (rows.map fun (key, text) =>
    .arr [.str key, (text.map Value.str).getD .null])).render .tabs

/-- The content of a file of a given name and bytes. -/
def contentOf (name : String) (data : List UInt8) : Content :=
  if name = Run.storeName then
    match (Text.Utf8.decode data).toOption.bind fun text => rowsOfText? (String.ofList text) with
    | some rows => .table rows
    | none => .bytes data
  else .bytes data

/-- The bytes under which a content is kept. -/
def bytesOf : Content → List UInt8
  | .bytes data => data
  | .table rows => Text.Utf8.encode (textOfRows rows).toList

mutual

/-- The files that differ from those of an earlier tree. -/
def changes (old : Node) : Node → List (List String × Content)
  | .file content => if old.content? = some content then [] else [([], content)]
  | .dir entries => changedEntries old entries

/-- The files among the entries and below them that differ from those of an earlier directory. -/
def changedEntries (old : Node) : List (String × Node) → List (List String × Content)
  | [] => []
  | (name, node) :: rest =>
    (changes ((old.get? [name]).getD .empty) node).map (fun (names, c) => (name :: names, c))
      ++ changedEntries old rest

end

/-- The variables that the program looks at. -/
def environmentNames : List String :=
  CommandLine.styleVariable :: Model.Provider.all.flatMap Model.Provider.keyVariables

def unreachable : Model.Service := fun _ =>
  .failed ⟨"ConnectionError", "no connection to the service"⟩

def idleShell : Run.Shell := fun _ => .notStarted "no command can be started"

/-- The tree below a directory. -/
partial def readTree (path : String) : IO Node := do
  let mut entries : List (String × Node) := []
  for entry in ← (← IO.FS.realPath path).readDir do
    let below := path ++ "/" ++ entry.fileName
    let node ←
      if ← entry.path.isDir then readTree below
      else pure (Node.file (contentOf entry.fileName (← IO.FS.readBinFile below).toList))
    entries := entries ++ [(entry.fileName, node)]
  return .dir entries

def writeChanges (old new : Node) : IO Unit := do
  for (names, content) in changes old new do
    IO.FS.createDirAll (String.intercalate "/" ("." :: names.dropLast))
    IO.FS.writeBinFile (String.intercalate "/" ("." :: names)) ⟨(bytesOf content).toArray⟩

/-- Runs the program in the working directory; the result is its exit status. -/
def runHere (argv : List String) : IO UInt32 := do
  let old ← readTree "."
  let env ← environmentNames.filterMapM fun name => do
    return (← IO.getEnv name).map fun value => (name, value)
  let outcome := CommandLine.program .later argv env unreachable idleShell old
  writeChanges old outcome.site.files
  for entry in outcome.log do
    IO.eprintln ("[" ++ entry.level.name ++ "] " ++ entry.message)
  match outcome.ending with
  | .stopped .help => IO.print CommandLine.helpText
  | .stopped (.usage error) => IO.eprintln (CommandLine.usageText ++ error.message)
  | .failed failure => IO.eprintln failure.message
  | _ => pure ()
  return match outcome.ending with
    | .failed _ => 1
    | ending => UInt32.ofNat (ending.exitStatus?.getD 0)

end PhraseCatalog.Outer

/-- Runs the program on the command line. -/
def main (argv : List String) : IO UInt32 := PhraseCatalog.Outer.runHere argv
