import PhraseCatalog.Files.Tree
import PhraseCatalog.Model.Translate
import PhraseCatalog.Scan
import PhraseCatalog.Store.Rows

/-! What can end a run. -/

set_option autoImplicit false

namespace PhraseCatalog.Run

/-- The cause that ends a run. -/
inductive Failure
  | noModel
  | noWorkers
  | files (fault : Files.Fault)
  | scan (fault : Scan.Fault)
  | store (fault : Store.Fault)
  | translation (fault : Model.TranslationFault)
deriving DecidableEq, Repr

def Failure.message : Failure → String
  | .noModel => "An LLM configuration is required to translate literals"
  | .noWorkers => "max_workers must be greater than 0"
  | .files fault => fault.message
  | .scan fault => fault.message
  | .store fault => fault.message
  | .translation fault => fault.message

end PhraseCatalog.Run
