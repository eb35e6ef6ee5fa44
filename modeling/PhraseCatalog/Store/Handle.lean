import PhraseCatalog.Store.Rows

/-! Handles on stores. Handles on one file share its rows; a handle in memory has rows of its
own. -/

set_option autoImplicit false

namespace PhraseCatalog.Store

open Files

/-- A store that was opened. -/
inductive Handle
  | closed
  | onFile (place : List String)
  | inMemory (rows : Rows)
deriving DecidableEq

/-- The name under which a store in memory is opened. -/
def memoryName : String := ":memory:"

namespace Handle

/-- Opens the store that a text names; the store in memory and the nameless one are private. -/
def openNamed (tree : Node) (name : String) : Except Fault (Handle × Node) :=
  if name = memoryName ∨ name = "" then .ok (.inMemory [], tree)
  else
    match openAt tree (.ofString name) with
    | .error fault => .error fault
    | .ok (place, _, tree) => .ok (.onFile place, tree)

def rows (tree : Node) : Handle → Except Fault Rows
  | .closed => .error .closed
  | .inMemory rows => .ok rows
  | .onFile place =>
    match tree.get? place with
    | some (.file (.table rows)) => .ok rows
    | some (.file (.bytes (_ :: _))) => .error .notDatabase
    | _ => .error .noTable

def lookup (tree : Node) (handle : Handle) (key : String) : Except Fault (Option Json.Value) :=
  match handle.rows tree with
  | .error fault => .error fault
  | .ok rows => lookupRecord rows key

/-- Adds a record; the handle and the tree after it. The record is written before the handle is looked
at, and only then it matters whether it is a text. -/
def insert (tree : Node) (handle : Handle) (key : String) (record : Json.Value) :
    Except Fault (Handle × Node) :=
  match record.fault? nestingLimit with
  | some error => .error (.unwritable error)
  | none =>
    match handle.rows tree with
    | .error fault => .error fault
    | .ok rows =>
      match insertRecord rows key record with
      | .error fault => .error fault
      | .ok rows =>
        match handle with
        | .onFile place => .ok (handle, tree.put place (.file (.table rows)))
        | _ => .ok (.inMemory rows, tree)

def size (tree : Node) (handle : Handle) : Except Fault Nat :=
  (handle.rows tree).map List.length

def close : Handle → Handle := fun _ => .closed

end Handle
end PhraseCatalog.Store
