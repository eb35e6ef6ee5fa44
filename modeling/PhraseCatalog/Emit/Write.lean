import PhraseCatalog.Emit.RuntimeModule
import PhraseCatalog.Files.Tree
import PhraseCatalog.Text.Utf8

/-! Writing the two generated modules into a directory. -/

set_option autoImplicit false

namespace PhraseCatalog.Emit

open Files Log

def dataName : String := "i18n-source.ts"

def runtimeName : String := "index.ts"

/-- A text as the content of a file. -/
def textContent (text : String) : Content := .bytes (Text.Utf8.encode text.toList)

structure Paths where
  data : Path
  runtime : Path
deriving DecidableEq, Repr

def Paths.inDirectory (directory : Path) : Paths :=
  ⟨directory.child dataName, directory.child runtimeName⟩

def blockedEntry (directory : Path) (fault : Files.Fault) : Entry :=
  ⟨.error, .modules, "Error writing generated modules to " ++ directory.text ++ ": " ++ fault.message,
    false⟩

def writtenEntry (paths : Paths) : Entry :=
  ⟨.debug, .modules, "Wrote " ++ paths.data.text ++ " and " ++ paths.runtime.text, false⟩

/-- Makes the directory and writes both modules, the data module first. The result is the tree
afterwards, and the paths or what went wrong; the data module stays where the runtime module cannot
be written. -/
def writeModules (locales : Language.Locales) (tree : Node) (outputDir : String) (catalog : Catalog)
    (languages : List String) : Node × Report Files.Fault Paths :=
  let directory := Path.ofString outputDir
  let paths := Paths.inDirectory directory
  match tree.makeDirectories directory with
  | (tree, some fault) => (tree, ⟨[], .error fault⟩)
  | (tree, none) =>
    match tree.writeFile paths.data (textContent (dataModule catalog)) with
    | .error fault => (tree, ⟨[blockedEntry directory fault], .error fault⟩)
    | .ok tree =>
      let warnings := namingLog locales languages
      match tree.writeFile paths.runtime (textContent (runtimeModule locales catalog languages)) with
      | .error fault => (tree, ⟨warnings ++ [blockedEntry directory fault], .error fault⟩)
      | .ok tree => (tree, ⟨warnings ++ [writtenEntry paths], .ok paths⟩)

end PhraseCatalog.Emit
