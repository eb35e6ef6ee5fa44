/-! Log entries and the levels at which they are shown. -/

set_option autoImplicit false

namespace PhraseCatalog.Log

/-- How grave an entry is. -/
inductive Level
  | debug
  | info
  | warning
  | error
deriving DecidableEq, Repr

def Level.rank : Level → Nat
  | .debug => 0
  | .info => 1
  | .warning => 2
  | .error => 3

def Level.name : Level → String
  | .debug => "DEBUG"
  | .info => "INFO"
  | .warning => "WARNING"
  | .error => "ERROR"

inductive Component
  | scan
  | language
  | model
  | store
  | modules
  | run
deriving DecidableEq, Repr

/-- One entry; `byWorker` marks the entries that a translation worker writes. -/
structure Entry where
  level : Level
  component : Component
  message : String
  byWorker : Bool := false
deriving DecidableEq, Repr

/-- The entries that are shown from a level on. -/
def shown (threshold : Level) (entries : List Entry) : List Entry :=
  entries.filter fun e => threshold.rank ≤ e.level.rank

/-- The least level that is shown, with and without tracing. -/
def threshold (trace : Bool) : Level := if trace then .debug else .info

/-- An outcome, with the entries that were logged on the way to it. -/
structure Report (ε α : Type) where
  log : List Entry
  outcome : Except ε α

/-! ## Console set-up -/

/-- What takes the entries of the program. -/
inductive Sink
  | console
  | silent
deriving DecidableEq, Repr

/-- A set-up of the console: the least levels shown, for all and for this program, and each sink
with its line format, if one is set. -/
structure Setup where
  all : Level
  own : Level
  sinks : List (Sink × Option String)
deriving DecidableEq, Repr

/-- Time, level and message of an entry. -/
def lineFormat : String := "%(asctime)s [%(levelname)s] %(message)s"

/-- The libraries below this program, whose entries are shown from warnings on. -/
def quietLevel : Level := .warning

/-- Sets both levels and gives every sink the line format; without a sink, the console becomes
one. -/
def Setup.configure (trace : Bool) (setup : Setup) : Setup :=
  { all := threshold trace
    own := threshold trace
    sinks := match setup.sinks with
      | [] => [(.console, some lineFormat)]
      | sinks => sinks.map fun (sink, _) => (sink, some lineFormat) }

end PhraseCatalog.Log
