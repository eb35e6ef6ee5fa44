import PhraseCatalog.Run.Failure

/-! The translation queue: phrases are translated by workers, and their results are delivered in
the order in which the phrases were handed in. -/

set_option autoImplicit false

namespace PhraseCatalog.Run

open Log Model

/-- What a queue delivers: the results up to the first failure, that failure, the phrases that were
given to the translator, what its workers logged, and the requests that were sent. -/
structure Delivery where
  results : List (String × Option Json.Value) := []
  failure : Option Failure := none
  calls : List String := []
  log : List Entry := []
  requests : List Request := []

/-- The entry that a worker writes when it takes a phrase. -/
def takenEntry (phrase : String) : Entry := ⟨.info, .run, "translate new: " ++ phrase, true⟩

def workerLog (phrase : String) (translation : Translation) : List Entry :=
  takenEntry phrase :: translation.log.map fun e => { e with byWorker := true }

/-- Translates the phrases one after another, up to the first failure. -/
def drain (translate : Translator) : List String → Delivery
  | [] => {}
  | phrase :: rest =>
    let translation := translate phrase
    match translation.outcome with
    | .error fault =>
      { failure := some (.translation fault)
        calls := [phrase]
        log := workerLog phrase translation
        requests := translation.requests }
    | .ok record =>
      let later := drain translate rest
      { results := (phrase, record) :: later.results
        failure := later.failure
        calls := phrase :: later.calls
        log := workerLog phrase translation ++ later.log
        requests := translation.requests ++ later.requests }

/-- Runs the phrases through the queue. The number of workers changes nothing but that there must
be one if there is work. -/
def runQueue (translate : Translator) (workers : Nat) (phrases : List String) : Delivery :=
  match phrases, workers with
  | [], _ => {}
  | _ :: _, 0 => { failure := some .noWorkers }
  | phrases, _ + 1 => drain translate phrases

end PhraseCatalog.Run
