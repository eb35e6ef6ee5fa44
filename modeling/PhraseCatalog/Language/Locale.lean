import PhraseCatalog.Text.Blank
import PhraseCatalog.Text.Letter
import PhraseCatalog.Text.Quoted

/-! Locale identifiers: a language, then optionally a script, a territory and a variant. -/

set_option autoImplicit false

namespace PhraseCatalog.Language

open Text

/-- The parts of an identifier. -/
structure Locale where
  language : String
  script : Option String
  territory : Option String
  variant : Option String
  modifier : Option String
deriving DecidableEq, Repr

/-- Why a text names no locale. -/
inductive LocaleFault
  | empty
  | notLetters (language : String)
  | notIdentifier (identifier : String)
  | unknown (identifier : String)
deriving DecidableEq, Repr

def LocaleFault.message : LocaleFault → String
  | .empty =>
    "(\"Empty locale identifier value: ''\\n\\nIf you didn't explicitly pass an empty value to a "
      ++ "Babel function, this could be caused by there being no suitable locale environment "
      ++ "variables for the API you tried to use.\",)"
  | .notLetters language => "expected only letters, got " ++ quoted language
  | .notIdentifier identifier => quoted identifier ++ " is not a valid locale identifier"
  | .unknown identifier => "unknown locale '" ++ identifier ++ "'"

namespace Locale

/-- The parts that are there, joined by `_`. -/
def identifier (locale : Locale) : String :=
  let parts := [some locale.language, locale.script, locale.territory, locale.variant]
  let joined := String.intercalate "_" (parts.filterMap id)
  match locale.modifier with
  | some modifier => joined ++ "@" ++ modifier
  | none => joined

def isWord (s : List Char) : Bool := !s.isEmpty && s.all isLetter

/-- Takes a script of four letters off the parts. -/
def takeScript : List (List Char) → Option String × List (List Char)
  | part :: parts =>
    if part.length = 4 ∧ isWord part then (some (toTitle (String.ofList part)), parts)
    else (none, part :: parts)
  | [] => (none, [])

/-- Takes a territory of two letters or three digits off the parts. -/
def takeTerritory : List (List Char) → Option String × List (List Char)
  | part :: parts =>
    if part.length = 2 ∧ isWord part then (some (toUpper (String.ofList part)), parts)
    else if part.length = 3 ∧ part.all isDigit then (some (String.ofList part), parts)
    else (none, part :: parts)
  | [] => (none, [])

/-- Takes a variant off the parts: four characters that start with a digit, or five and more that
start with a letter. -/
def takeVariant : List (List Char) → Option String × List (List Char)
  | (c :: part) :: parts =>
    if (part.length = 3 ∧ isDigit c) ∨ (4 ≤ part.length ∧ isLetter c) then
      (some (toUpper (String.ofList (c :: part))), parts)
    else (none, (c :: part) :: parts)
  | parts => (none, parts)

/-- The locale of an identifier; what follows `@` is a modifier, and what follows a point before it
is ignored. -/
def parse (text : String) : Except LocaleFault Locale :=
  if text = "" then .error .empty
  else
    let s := text.toList
    let modifier := String.ofList ((s.dropWhile (· ≠ '@')).drop 1)
    let body := (s.takeWhile (· ≠ '@')).takeWhile (· ≠ '.')
    match splitOn '_' body with
    | [] => .error .empty
    | first :: parts =>
      let language := toLower (String.ofList first)
      if isWord language.toList then
        let (script, parts) := takeScript parts
        let (territory, parts) := takeTerritory parts
        let (variant, parts) := takeVariant parts
        if parts.isEmpty then
          .ok ⟨language, script, territory, variant, if modifier = "" then none else some modifier⟩
        else .error (.notIdentifier (String.ofList body))
      else .error (.notLetters language)

end Locale
end PhraseCatalog.Language
