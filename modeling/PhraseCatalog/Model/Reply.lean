import PhraseCatalog.Json.Reader

/-! Recovering the record from a completion that may have prose around it. -/

set_option autoImplicit false

namespace PhraseCatalog.Model

open Json

def openBrace : Char := '\x7b'

def closeBrace : Char := '\x7d'

/-- The part of a text from its first opening brace to its last closing brace; empty if the closing
one stands first, and none if one of them is missing. -/
def braced? (s : List Char) : Option (List Char) :=
  if s.contains openBrace && s.contains closeBrace then
    some ((s.dropWhile (· ≠ openBrace)).reverse.dropWhile (· ≠ closeBrace)).reverse
  else none

/-- The record of a completion. There is none if the text has no braces, or no JSON object between
them; only a text that is nested too deeply is an error. -/
def recover (text : String) : Except ReadError (Option (List (String × Value))) :=
  match braced? text.toList with
  | none => .ok none
  | some body =>
    match readChars body with
    | .ok v => .ok v.members?
    | .error (.tooDeep container) => .error (.tooDeep container)
    | .error _ => .ok none

end PhraseCatalog.Model
