import PhraseCatalog.Text.Blank

/-! Call forms: the ways in which source code marks a phrase, and a scan of a text for one form. -/

set_option autoImplicit false

namespace PhraseCatalog.Marker

open Text

/-- The ways to pass a phrase to a marker function. -/
inductive Shape
  /-- The argument directly between the parentheses. -/
  | call
  /-- Blanks may stand around the argument. -/
  | spacedCall
  /-- Blanks may stand around the argument, and a comma behind it. -/
  | trailingCommaCall
  /-- A template literal directly behind the marker. -/
  | template
deriving DecidableEq, Repr

/-- A shape of call to one marker function. -/
structure Form where
  marker : String
  shape : Shape
deriving DecidableEq, Repr

/-- One occurrence of a form: its whole text, the quote around its argument and the text between
the quotes. -/
structure Occurrence where
  text : List Char
  quote : Char
  argument : List Char
deriving DecidableEq, Repr

def backQuote : Char := '\x60'

/-- Whether the character may stand around an argument. -/
def isQuote (c : Char) : Bool := c = '"' || c = '\'' || c = backQuote

/-- The text after a given start. -/
def after? : (start s : List Char) → Option (List Char)
  | [], s => some s
  | _ :: _, [] => none
  | a :: start, c :: s => if a = c then after? start s else none

theorem after?_eq_some_iff {start s rest : List Char} :
    after? start s = some rest ↔ s = start ++ rest := by
  induction start generalizing s with
  | nil => simp [after?]
  | cons a start ih =>
    cases s with
    | nil => simp [after?]
    | cons c s => by_cases h : a = c <;> simp [after?, h, ih, Ne.symm]

/-- A quoted argument: its quote, the text up to the next such quote, and the rest. -/
def quoted? : List Char → Option (Char × List Char × List Char)
  | [] => none
  | q :: s =>
    if isQuote q then
      match s.dropWhile (· ≠ q) with
      | [] => none
      | _ :: rest => some (q, s.takeWhile (· ≠ q), rest)
    else none

def skipComma : List Char → List Char
  | ',' :: s => s
  | s => s

/-- An occurrence of the shape behind its marker: quote, argument and rest. Without blanks around
it, an argument is not empty. -/
def Shape.argument? (shape : Shape) (s : List Char) : Option (Char × List Char × List Char) :=
  match shape with
  | .call => do
    let s ← after? ['('] s
    let (q, argument, s) ← quoted? s
    let s ← after? [')'] s
    if argument.isEmpty then none else some (q, argument, s)
  | .spacedCall => do
    let s ← after? ['('] s
    let (q, argument, s) ← quoted? (trimStart s)
    let s ← after? [')'] (trimStart s)
    some (q, argument, s)
  | .trailingCommaCall => do
    let s ← after? ['('] s
    let (q, argument, s) ← quoted? (trimStart s)
    let s ← after? [')'] (trimStart (skipComma (trimStart s)))
    some (q, argument, s)
  | .template => do
    let (q, argument, s) ← quoted? s
    if q = backQuote ∧ argument ≠ [] then some (q, argument, s) else none

def Form.match? (form : Form) (s : List Char) : Option Occurrence := do
  let behind ← after? form.marker.toList s
  let (q, argument, rest) ← form.shape.argument? behind
  some ⟨s.take (s.length - rest.length), q, argument⟩

/-- The occurrences of a form from left to right: the search goes on behind an occurrence, and one
character further where there is none. The first `skip` characters belong to the last occurrence. -/
def Form.scan (form : Form) : (skip : Nat) → List Char → List Occurrence
  | _, [] => []
  | skip + 1, _ :: rest => form.scan skip rest
  | 0, c :: rest =>
    match form.match? (c :: rest) with
    | some o => o :: form.scan (o.text.length - 1) rest
    | none => form.scan 0 rest

def Form.occurrences (form : Form) (s : List Char) : List Occurrence := form.scan 0 s

end PhraseCatalog.Marker
