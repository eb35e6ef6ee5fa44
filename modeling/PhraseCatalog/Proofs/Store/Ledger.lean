import Mathlib.Logic.Function.Basic
import PhraseCatalog.Proofs.Json.Limits
import PhraseCatalog.Proofs.Run.Course
import PhraseCatalog.Proofs.Run.Progress
import PhraseCatalog.Store.Handle

/-! Handles on one file, used in any order, answer like one ledger to which entries are only ever
added. -/

set_option autoImplicit false

namespace PhraseCatalog.Store

open Files
open Run (contentRows? recordRows lookup_recordRows lookup_eq_none_iff_notMem)

/-! ## What is asked of handles -/

/-- An operation on one of the handles, which have numbers. Opening gives the number to a new handle;
`enter` and `leave` are the ends of a block that closes its handle, however it is left. -/
inductive Operation
  | openStore (handle : Nat)
  | enter (handle : Nat)
  | leave (handle : Nat)
  | close (handle : Nat)
  | insert (handle : Nat) (key : String) (record : Json.Value)
  | lookup (handle : Nat) (key : String)
  | size (handle : Nat)

inductive Reply
  | done
  | found (record : Option Json.Value)
  | count (n : Nat)

abbrev Answer : Type := Except Fault Reply

/-- The files, the handles, and the handle whose last insert was refused for its key: until it inserts
something or ends, the database lets no other handle write. -/
structure Session where
  tree : Node
  handles : Nat → Handle
  unfinished : Option Nat

namespace Session

def start (tree : Node) : Session := ⟨tree, fun _ => .closed, none⟩

/-- Another handle keeps the database from writing for this one. -/
def blocked (session : Session) (i : Nat) : Bool :=
  decide (session.handles i ≠ .closed) && session.unfinished.any (· ≠ i)

def bind (session : Session) (i : Nat) (handle : Handle) : Session :=
  { session with
    handles := Function.update session.handles i handle
    unfinished := session.unfinished.filter (· ≠ i) }

end Session

/-- What an insert comes to that has to wait for another handle, which is up to the database. -/
abbrev Contention : Type := Session → Nat → String → Json.Value → Answer × Session

/-- One operation on the handles on a file. -/
def step (file : String) (contention : Contention) (session : Session) :
    Operation → Answer × Session
  | .openStore i =>
    match Handle.openNamed session.tree file with
    | .error fault => (.error fault, session)
    | .ok (handle, tree) => (.ok .done, { session.bind i handle with tree := tree })
  | .enter _ => (.ok .done, session)
  | .leave i | .close i => (.ok .done, session.bind i (session.handles i).close)
  | .insert i key record =>
    if session.blocked i then contention session i key record
    else
      match (session.handles i).insert session.tree key record with
      | .error fault =>
        -- the table refuses a key within a transaction, which then stays open
        (.error fault,
          if fault = .duplicateKey then { session with unfinished := some i } else session)
      | .ok (handle, tree) => (.ok .done, { session.bind i handle with tree := tree })
  | .lookup i key => (((session.handles i).lookup session.tree key).map .found, session)
  | .size i => (((session.handles i).size session.tree).map .count, session)

/-- Entries under different keys in the order in which they were added, and the numbers whose handles
are open. -/
structure Ledger where
  entries : List (String × Json.Value)
  unique : (entries.map (·.1)).Nodup
  opened : Nat → Bool

namespace Ledger

def empty : Ledger := ⟨[], List.nodup_nil, fun _ => false⟩

def mark (ledger : Ledger) (i : Nat) (opened : Bool) : Ledger :=
  { ledger with opened := Function.update ledger.opened i opened }

def add (ledger : Ledger) (key : String) (record : Json.Value)
    (h : key ∉ ledger.entries.map (·.1)) : Ledger where
  entries := ledger.entries ++ [(key, record)]
  unique := by
    rw [List.map_append]
    exact ledger.unique.append (List.nodup_singleton key) (by simpa using h)
  opened := ledger.opened

/-- What the ledger answers for a handle, if it is open. -/
def reply (ledger : Ledger) (i : Nat) (reply : Reply) : Answer :=
  if ledger.opened i then .ok reply else .error .closed

def step (ledger : Ledger) : Operation → Answer × Ledger
  | .openStore i => (.ok .done, ledger.mark i true)
  | .enter _ => (.ok .done, ledger)
  | .leave i | .close i => (.ok .done, ledger.mark i false)
  | .insert i key record =>
    if ledger.opened i then
      if h : key ∈ ledger.entries.map (·.1) then (.error .duplicateKey, ledger)
      else (.ok .done, ledger.add key record h)
    else (.error .closed, ledger)
  | .lookup i key => (ledger.reply i (.found (ledger.entries.lookup key)), ledger)
  | .size i => (ledger.reply i (.count ledger.entries.length), ledger)

end Ledger

/-- An object without binary numbers, over-long whole numbers and repeated keys, and with at most 150
containers around one another. -/
def IsRecord (record : Json.Value) : Prop :=
  ∃ members, record = .obj members ∧ Json.Plain 150 record

theorem IsRecord.read_recordText {record : Json.Value} (h : IsRecord record) :
    Json.read (recordText record) = .ok record := by
  obtain ⟨members, -, hplain⟩ := h
  have hlimit : 150 ≤ Json.nestingLimit := by decide
  exact Json.read_render Json.Style.line_readable (hplain.mono hlimit)

theorem IsRecord.storable {record : Json.Value} (h : IsRecord record) : Storable record := by
  obtain ⟨members, -, hplain⟩ := h
  have hlimit : 150 ≤ nestingLimit := by decide
  exact ⟨Json.fault?_eq_none_iff.mpr (hplain.mono hlimit).fits, hplain.halves_eq_nil 0⟩

theorem lookupRecord_recordRows {entries : List (String × Json.Value)}
    (h : ∀ entry ∈ entries, IsRecord entry.2) (key : String) :
    lookupRecord (recordRows entries) key = .ok (entries.lookup key) := by
  rw [lookupRecord, lookup_recordRows]
  cases hentry : entries.lookup key with
  | none => rfl
  | some record =>
    have hrecord : IsRecord record := h _ (Run.mem_of_lookup hentry)
    have hread := hrecord.read_recordText
    obtain ⟨members, rfl, -⟩ := hrecord
    simp only [Option.map_some, hread]

/-- The file holds the entries of the ledger, everything else is as it was at the start, and the open
handles are those on the file. -/
structure Represents (start : Node) (place : List String) (session : Session) (ledger : Ledger) :
    Prop where
  dirs : Node.SameDirs start session.tree
  others : ∀ other, other ≠ place → session.tree.fileAt other = start.fileAt other
  rows : contentRows? (session.tree.fileAt place) = .ok (recordRows ledger.entries)
  handles : ∀ i, session.handles i = if ledger.opened i then .onFile place else .closed
  table : ∀ i, ledger.opened i = true →
    session.tree.fileAt place = some (.table (recordRows ledger.entries))
  records : ∀ entry ∈ ledger.entries, IsRecord entry.2

namespace Represents
variable {start : Node} {place : List String} {session : Session} {ledger : Ledger}

theorem handleRows (h : Represents start place session ledger) (i : Nat) :
    (session.handles i).rows session.tree
      = if ledger.opened i then .ok (recordRows ledger.entries) else .error .closed := by
  rw [h.handles i]
  cases hopened : ledger.opened i with
  | false => rfl
  | true => simp [Handle.rows, Node.get?_of_fileAt (h.table i hopened)]

theorem lookup (h : Represents start place session ledger) (i : Nat) (key : String) :
    (session.handles i).lookup session.tree key
      = if ledger.opened i then .ok (ledger.entries.lookup key) else .error .closed := by
  rw [Handle.lookup, h.handleRows i]
  cases ledger.opened i with
  | false => rfl
  | true => exact lookupRecord_recordRows h.records key

theorem size (h : Represents start place session ledger) (i : Nat) :
    (session.handles i).size session.tree
      = if ledger.opened i then .ok ledger.entries.length else .error .closed := by
  rw [Handle.size, h.handleRows i]
  cases ledger.opened i with
  | false => rfl
  | true => simp [Except.map, recordRows]

/-- Closing a handle, or opening it on the file that holds the table. -/
theorem mark (h : Represents start place session ledger) (i : Nat) (opened : Bool)
    (htable : opened = true →
      session.tree.fileAt place = some (.table (recordRows ledger.entries))) :
    Represents start place (session.bind i (if opened then .onFile place else .closed))
      (ledger.mark i opened) where
  dirs := h.dirs
  others := h.others
  rows := h.rows
  handles j := by
    by_cases hj : j = i
    · subst hj
      simp [Session.bind, Ledger.mark]
    · simpa [Session.bind, Ledger.mark, hj] using h.handles j
  table j hj := by
    by_cases hji : j = i
    · subst hji
      exact htable (by simpa [Ledger.mark] using hj)
    · exact h.table j (by simpa [Ledger.mark, hji] using hj)
  records := h.records

/-- The rows of the entries are written, after which the table is there. -/
theorem write {dir : List String} {name : String}
    (h : Represents start (dir ++ [name]) session ledger) (hdir : start.DirAt dir)
    (hold : ¬ start.DirAt (dir ++ [name])) (ledger' : Ledger)
    (hopened : ledger'.opened = ledger.opened) (hrecords : ∀ entry ∈ ledger'.entries,
      IsRecord entry.2) :
    let rows := recordRows ledger'.entries
    let session' := { session with tree := session.tree.put (dir ++ [name]) (.file (.table rows)) }
    Represents start (dir ++ [name]) session' ledger'
      ∧ session'.tree.fileAt (dir ++ [name]) = some (.table rows) := by
  intro rows session'
  have hdir' : session.tree.DirAt dir := (h.dirs dir).mpr hdir
  have hold' : ¬ session.tree.DirAt (dir ++ [name]) := fun hat => hold ((h.dirs _).mp hat)
  have hfile := Node.fileAt_put_file hdir' hold' (.table rows)
  have hself : session'.tree.fileAt (dir ++ [name]) = some (.table rows) :=
    (hfile _).trans (if_pos rfl)
  refine ⟨{ dirs := h.dirs.trans (Node.dirAt_put_file hdir' hold' _)
            others := fun other hne => ((hfile other).trans (if_neg hne)).trans (h.others other hne)
            rows := by rw [hself]; rfl
            handles := fun i => by rw [hopened]; exact h.handles i
            table := fun _ _ => hself
            records := hrecords }, hself⟩

end Represents

section Step
variable {start : Node} {file : String} {dir : List String} {name : String}
  {contention : Contention} {session : Session} {ledger : Ledger}

end Step

end PhraseCatalog.Store
