import PhraseCatalog.Files.Tree
import PhraseCatalog.Json.Printer
import PhraseCatalog.Json.Reader
import PhraseCatalog.Log

/-! The rows of a store: each phrase once, with the text of its translation record. -/

set_option autoImplicit false

namespace PhraseCatalog.Store

open Files

inductive Fault
  /-- There is no directory to hold the file, or the file is a directory. -/
  | unableToOpen
  | notDatabase
  | noTable
  | duplicateKey
  | closed
  | missingText
  /-- The text of the row is not JSON. -/
  | unreadable (error : Json.ReadError)
  /-- The record is not written. -/
  | unwritable (error : Json.WriteError)
  /-- What is written holds halves of surrogate pairs, so that it is no text. -/
  | unencodable (first : Json.Half) (more : List Json.Half)
deriving DecidableEq, Repr

/-- The place of the last of the halves that follow one another without a gap. -/
def lastInRow (place : Nat) : List Json.Half → Nat
  | [] => place
  | half :: more => if half.index = place + 1 then lastInRow half.index more else place

def unencodableMessage (first : Json.Half) (more : List Json.Half) : String :=
  let last := lastInRow first.index more
  let what :=
    if last = first.index then
      "character '" ++ String.ofList (Json.unitEscape first.unit) ++ "' in position "
        ++ toString first.index
    else "characters in position " ++ toString first.index ++ "-" ++ toString last
  "'utf-8' codec can't encode " ++ what ++ ": surrogates not allowed"

def Fault.message : Fault → String
  | .unableToOpen => "unable to open database file"
  | .notDatabase => "file is not a database"
  | .noTable => "no such table: i18n"
  | .duplicateKey => "UNIQUE constraint failed: i18n.k"
  | .closed => "Cannot operate on a closed database."
  | .missingText => "the JSON object must be str, bytes or bytearray, not NoneType"
  | .unreadable error => error.message
  | .unwritable error => error.message
  | .unencodable first more => unencodableMessage first more

/-- The record under a key; a key without a row has none, and so has one whose text is the JSON
`null`. -/
def lookupRecord (rows : Rows) (key : String) : Except Fault (Option Json.Value) :=
  match rows.lookup key with
  | none => .ok none
  | some none => .error .missingText
  | some (some text) =>
    match Json.read text with
    | .error error => .error (.unreadable error)
    | .ok .null => .ok none
    | .ok record => .ok (some record)

/-- How deeply the containers of a record may be nested. Of the thousand calls that may be open,
twenty are open above the writer: eight of the run and of the writer itself, and up to a dozen of
what starts the run. What is written can be read again, as this is below `Json.nestingLimit`. -/
def nestingLimit : Nat := 980

def recordText (record : Json.Value) : String := record.render .line

/-- The text of a record that can be written and has one. -/
def writeRecord (record : Json.Value) : Except Fault String :=
  match record.fault? nestingLimit, record.halves 0 with
  | some error, _ => .error (.unwritable error)
  | none, first :: more => .error (.unencodable first more)
  | none, [] => .ok (recordText record)

/-- Adds a row at the end. A key that has a row already is refused. -/
def addRow (rows : Rows) (key text : String) : Except Fault Rows :=
  match rows.lookup key with
  | some _ => .error .duplicateKey
  | none => .ok (rows ++ [(key, some text)])

/-- Adds a record; its text is written before the rows are looked at. -/
def insertRecord (rows : Rows) (key : String) (record : Json.Value) : Except Fault Rows :=
  match writeRecord record with
  | .error fault => .error fault
  | .ok text => addRow rows key text

/-- Records that the store takes. -/
structure Storable (record : Json.Value) : Prop where
  written : record.fault? nestingLimit = none
  whole : record.halves 0 = []

instance (record : Json.Value) : Decidable (Storable record) :=
  decidable_of_iff (record.fault? nestingLimit = none ∧ record.halves 0 = [])
    ⟨fun h => ⟨h.1, h.2⟩, fun h => ⟨h.written, h.whole⟩⟩

theorem Storable.writeRecord {record : Json.Value} (h : Storable record) :
    writeRecord record = .ok (recordText record) := by
  rw [Store.writeRecord, h.written, h.whole]

theorem storable_of_writeRecord {record : Json.Value} {text : String}
    (h : writeRecord record = .ok text) : Storable record := by
  unfold writeRecord at h
  split at h
  · cases h
  · cases h
  · rename_i hwritten hwhole
    exact ⟨hwritten, hwhole⟩

/-- A record is added exactly where it has a text and its key has no row, and then it comes last. -/
theorem insertRecord_eq_ok_iff {rows new : Rows} {key : String} {record : Json.Value} :
    insertRecord rows key record = .ok new
      ↔ Storable record ∧ rows.lookup key = none
        ∧ new = rows ++ [(key, some (recordText record))] := by
  cases hwrite : writeRecord record with
  | error fault =>
    have hnot : ¬ Storable record := by
      intro h
      rw [h.writeRecord] at hwrite
      cases hwrite
    simp [insertRecord, hwrite, hnot]
  | ok text =>
    have hstorable := storable_of_writeRecord hwrite
    obtain rfl : recordText record = text := by
      simpa [hstorable.writeRecord] using hwrite
    simp only [insertRecord, hwrite, addRow, hstorable, true_and]
    cases rows.lookup key <;> simp [eq_comm]

/-- Puts a row at the end; a row that the key has already is dropped. -/
def replaceRow (rows : Rows) (key : String) (text : Option String) : Rows :=
  rows.filter (·.1 ≠ key) ++ [(key, text)]

/-- The rows of an existing file; an empty file is an empty store. -/
def contentRows : Content → Except Fault Rows
  | .table rows => .ok rows
  | .bytes [] => .ok []
  | .bytes (_ :: _) => .error .notDatabase

/-- Opens the store that a path leads to: its place, its rows, and the tree in which it is there. -/
def openAt (tree : Node) (path : Path) : Except Fault (List String × Rows × Node) :=
  match tree.resolve path with
  | .error _ => .error .unableToOpen
  | .ok place =>
    match tree.get? place with
    | some (.dir _) => .error .unableToOpen
    | some (.file content) =>
      match contentRows content with
      | .error fault => .error fault
      | .ok rows => .ok (place, rows, tree.put place (.file (.table rows)))
    | none => .ok (place, [], tree.put place (.file (.table [])))

def openedEntry (path : String) : Log.Entry :=
  ⟨.debug, .store, "Opened translation cache at " ++ path, false⟩

end PhraseCatalog.Store
