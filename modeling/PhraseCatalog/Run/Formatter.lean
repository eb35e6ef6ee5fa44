import PhraseCatalog.Files.Tree
import PhraseCatalog.Log
import PhraseCatalog.Text.Blank

/-! The source formatter that is run over the generated modules. A formatter that fails is only
logged. -/

set_option autoImplicit false

namespace PhraseCatalog.Run

open Log

inductive CommandOutcome
  | finished (status : Int) (errors : String)
  | notStarted (reason : String)
deriving DecidableEq, Repr

/-- Anything that runs commands. -/
abbrev Shell : Type := List String → CommandOutcome

/-- Anything that formats: what a command comes to, and the files after it. -/
abbrev Formatter : Type := List String → Files.Node → CommandOutcome × Files.Node

/-- The formatter of a shell that leaves the files as they are. -/
def Shell.formatter (shell : Shell) : Formatter := fun command files => (shell command, files)

def formatCommand (outputDir : String) : List String := ["npx", "prettier", outputDir, "--write"]

def formatLog (command : List String) : CommandOutcome → List Entry
  | .notStarted reason =>
    [⟨.debug, .modules,
      "Formatter " ++ String.intercalate " " command ++ " could not be started: " ++ reason, false⟩]
  | .finished status errors =>
    if status = 0 then []
    else
      [⟨.debug, .modules, "Formatter exited with status " ++ toString status ++ ": "
        ++ String.ofList (Text.trim errors.toList), false⟩]

end PhraseCatalog.Run
