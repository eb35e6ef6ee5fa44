import PhraseCatalog.Emit.DataModule
import PhraseCatalog.Run.Queue

/-! Finding a translation record for every phrase: from the store where it has one, else from the
queue, whose results are added to the store as they arrive. -/

set_option autoImplicit false

namespace PhraseCatalog.Run

open Emit Files Log

/-- The phrases that the store has a record for, with these records, and those that it has not. -/
structure Split where
  known : Catalog := []
  pending : List String := []

/-- Looks the phrases up one after another. -/
def splitPhrases (rows : Rows) : List String → Except Store.Fault Split
  | [] => .ok {}
  | phrase :: rest =>
    match Store.lookupRecord rows phrase with
    | .error fault => .error fault
    | .ok record =>
      match splitPhrases rows rest with
      | .error fault => .error fault
      | .ok split =>
        match record with
        | some record => .ok { split with known := (phrase, record) :: split.known }
        | none => .ok { split with pending := phrase :: split.pending }

def newRecords (results : List (String × Option Json.Value)) : Catalog :=
  results.filterMap fun (phrase, record) => record.map fun record => (phrase, record)

/-- Adds records to the rows up to the first that is refused. -/
def insertAll : Rows → Catalog → Rows × Option Store.Fault
  | rows, [] => (rows, none)
  | rows, (phrase, record) :: rest =>
    match Store.insertRecord rows phrase record with
    | .ok rows => insertAll rows rest
    | .error fault => (rows, some fault)

/-- The records of the phrases, each phrase once, in the order of the phrases. -/
def catalogOf (phrases : List String) (records : Catalog) : Catalog :=
  phrases.eraseDups.filterMap fun phrase =>
    (records.lookup phrase).map fun record => (phrase, record)

/-- The warning that some phrases have no translation yet. -/
def skippedLog (skipped : Nat) : List Entry :=
  if skipped = 0 then []
  else [⟨.warning, .run,
    toString skipped ++ " literals could not be translated in this run", false⟩]

/-- What resolving came to: the rows afterwards, the records of the phrases or what went wrong, and
all that was done on the way. -/
structure Resolution where
  rows : Rows
  outcome : Except Failure Catalog
  calls : List String := []
  log : List Entry := []
  requests : List Model.Request := []

/-- Anything that resolves phrases with a translator and a number of workers, on the rows of a
store. -/
abbrev Resolver : Type := Model.Translator → Nat → Rows → List String → Resolution

/-- Resolves the phrases. Of a failing row and a failing translation the first in the order of the
phrases counts; the rows added before it stay. -/
def resolve (translate : Model.Translator) (workers : Nat) (rows : Rows) (phrases : List String) :
    Resolution :=
  match splitPhrases rows phrases with
  | .error fault => { rows := rows, outcome := .error (.store fault) }
  | .ok split =>
    let delivery := runQueue translate workers split.pending
    let records := newRecords delivery.results
    let (rows, refused) := insertAll rows records
    let base : Resolution :=
      { rows := rows
        outcome := .ok (catalogOf phrases (split.known ++ records))
        calls := delivery.calls
        log := delivery.log
        requests := delivery.requests }
    match refused, delivery.failure with
    | some fault, _ => { base with outcome := .error (.store fault) }
    | none, some failure => { base with outcome := .error failure }
    | none, none =>
      { base with log := base.log ++ skippedLog (split.pending.length - records.length) }

end PhraseCatalog.Run
