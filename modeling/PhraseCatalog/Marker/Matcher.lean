import PhraseCatalog.Marker.Form

/-! Matchers: named forms with the capture that holds the phrase, the registry of the thirteen
built-in ones, and the phrases that a list of matchers finds in a text. -/

set_option autoImplicit false

namespace PhraseCatalog.Marker

/-- A form under a name; the phrase is the capture numbered `group` without its first and last
character. -/
structure Matcher where
  name : String
  form : Form
  group : Nat
deriving DecidableEq, Repr

/-- An occurrence has no capture of the number that its matcher asks for. -/
structure MissingGroup where
  group : Nat
deriving DecidableEq, Repr

def MissingGroup.message (_ : MissingGroup) : String := "no such group"

/-- The argument with its quotes. -/
def Occurrence.quotedArgument (o : Occurrence) : List Char := o.quote :: o.argument ++ [o.quote]

/-- The text between quotes of one kind, if the argument has that kind. -/
def Occurrence.between (o : Occurrence) (q : Char) : Option (List Char) :=
  if o.quote = q then some o.argument else none

/-- The captures of an occurrence: the whole, the argument with its quotes, and for calls with
blanks the text between quotes of each kind. -/
def Occurrence.captures (o : Occurrence) : Shape → List (Option (List Char))
  | .call | .template => [some o.text, some o.quotedArgument]
  | .spacedCall | .trailingCommaCall =>
    [some o.text, some o.quotedArgument, o.between '"', o.between '\'', o.between backQuote]

/-- The phrase of a capture; a capture that took no part, or with nothing between its ends, holds
none. -/
def phrase? (capture : Option (List Char)) : Option String :=
  match ((capture.getD []).drop 1).dropLast with
  | [] => none
  | key => some (String.ofList key)

def Matcher.capture (m : Matcher) (o : Occurrence) : Except MissingGroup (Option (List Char)) :=
  match (o.captures m.form.shape)[m.group]? with
  | some capture => .ok capture
  | none => .error ⟨m.group⟩

/-- The phrases that a matcher finds, with repetitions. -/
def Matcher.phrases (m : Matcher) (s : List Char) : Except MissingGroup (List String) := do
  let captures ← (m.form.occurrences s).mapM m.capture
  return captures.filterMap phrase?

/-- The phrases that the matchers find in a text, each once, in the order of their discovery. Every
matcher sees the whole text. -/
def extract (matchers : List Matcher) (s : List Char) : Except MissingGroup (List String) := do
  let found ← matchers.mapM (·.phrases s)
  return found.flatten.eraseDups

/-! ## The registry -/

def Shape.name : Shape → String
  | .call => "call"
  | .spacedCall => "spaced-call"
  | .trailingCommaCall => "trailing-comma-call"
  | .template => "template"

/-- The shape as a regular expression behind the marker. -/
def Shape.expression : Shape → String
  | .call => "\\((`[^`]+`|'[^']+'|\\\"[^\\\"]+\\\")\\)"
  | .spacedCall => "\\(\\s*(\\\"([^\\\"]*)\\\"|'([^']*)'|`([^`]*)`)\\s*\\)"
  | .trailingCommaCall => "\\(\\s*(\\\"([^\\\"]*)\\\"|'([^']*)'|`([^`]*)`)\\s*,?\\s*\\)"
  | .template => "(`[^`]+`)"

def Form.expression (form : Form) : String := form.marker ++ form.shape.expression

def Matcher.ofShape (shape : Shape) (marker : String) : Matcher :=
  ⟨marker ++ "-" ++ shape.name, ⟨marker, shape⟩, 1⟩

/-- The matchers that every scan of source code runs: direct calls first, then calls with blanks,
then template literals. -/
def registry : List Matcher :=
  ["i18n", "i18nId", "i18nKey", "i18nObj"].map (.ofShape .call)
    ++ ["i18n", "i18nKey", "i18nObj"].flatMap (fun marker =>
      [.ofShape .spacedCall marker, .ofShape .trailingCommaCall marker])
    ++ ["i18n", "i18nId", "i18nObj"].map (.ofShape .template)

end PhraseCatalog.Marker
