import PhraseCatalog.Files.Path
import PhraseCatalog.Language.Codes
import PhraseCatalog.Model.Settings

/-! The settings of a run. -/

set_option autoImplicit false

namespace PhraseCatalog.Run

/-- Where the modules and the store go if nothing else is said. -/
def defaultOutputDir : String := "./i18n"

/-- Where source code is looked for if nothing else is said. -/
def defaultSourceRoot : String := "./"

def storeName : String := "i18n.sqlite"

/-- What one run needs to know. Without model settings, something else must translate. -/
structure Settings where
  outputDir : String
  languages : List String
  style : String
  sourceRoot : String
  model : Option Model.Settings
  formatOutput : Bool
  workers : Nat
deriving DecidableEq, Repr

inductive SettingsFault
  | noOutputDir
  | languages (fault : Language.CodesFault)
  | noWorkers
deriving DecidableEq, Repr

def SettingsFault.message : SettingsFault → String
  | .noOutputDir => "Please provide a output directory for the i18n, like: -o ./i18n"
  | .languages fault => fault.message
  | .noWorkers => "max_workers must be at least 1"

namespace Settings

/-- The settings, if they name a directory, known languages and at least one worker; faults are
looked for in this order. -/
def validate (settings : Settings) : Except SettingsFault Settings :=
  if settings.outputDir = "" then .error .noOutputDir
  else
    match Language.validateCodes settings.languages with
    | .error fault => .error (.languages fault)
    | .ok _ => if settings.workers = 0 then .error .noWorkers else .ok settings

theorem validate_eq_ok_iff {settings accepted : Settings} :
    settings.validate = .ok accepted
      ↔ settings.outputDir ≠ ""
        ∧ (settings.languages ≠ [] ∧ ∀ code ∈ settings.languages, code ∈ Language.knownCodes)
        ∧ settings.workers ≠ 0 ∧ accepted = settings := by
  have hcodes : (∃ codes, Language.validateCodes settings.languages = .ok codes)
      ↔ settings.languages ≠ [] ∧ ∀ code ∈ settings.languages, code ∈ Language.knownCodes := by
    simp [Language.validateCodes_eq_ok_iff]
  rw [← hcodes]
  unfold validate
  split
  · rename_i hdir
    simp [hdir]
  · rename_i hdir
    cases hvalid : Language.validateCodes settings.languages with
    | error fault => simp
    | ok codes =>
      by_cases hworkers : settings.workers = 0
      · simp [hworkers]
      · simp [hdir, hworkers, eq_comm (a := accepted)]

/-- The settings that hold where nothing else is said. -/
def default : Settings :=
  { outputDir := defaultOutputDir
    languages := Language.parseCodes Language.defaultCodes
    style := ""
    sourceRoot := defaultSourceRoot
    model := none
    formatOutput := true
    workers := 1 }

def storePath (settings : Settings) : String := Files.joinText settings.outputDir storeName

end Settings
end PhraseCatalog.Run
