import PhraseCatalog.Log
import PhraseCatalog.Text.Letter

/-! Names of languages, in English and in the language itself, as a library of locales has them. -/

set_option autoImplicit false

namespace PhraseCatalog.Language

open Text

/-- A library of locales. It gives the name that the locale of an identifier has in English and in
its own language, if there is one, or the reason why no locale is found. -/
structure Locales where
  english : (identifier : String) → Except String (Option String)
  native : (identifier : String) → Except String (Option String)

/-- A name that was looked up, and the warning where there is none. -/
structure Naming where
  name : Option String
  log : List Log.Entry := []
deriving DecidableEq, Repr

/-- The code stands for its name where none is found; the warning says why. -/
def Naming.failed (kind code reason : String) : Naming :=
  ⟨some code, [⟨.warning, .language,
    "Could not determine " ++ kind ++ " for locale '" ++ code ++ "': " ++ reason, false⟩]⟩

/-- The text with a capital first letter. -/
def capitalized (s : String) : String :=
  toUpper (String.ofList (s.toList.take 1)) ++ String.ofList (s.toList.drop 1)

/-- The English name of a language code; hyphens count as underscores. -/
def englishName (locales : Locales) (code : String) : Naming :=
  match locales.english (String.ofList (code.toList.map fun c => if c = '-' then '_' else c)) with
  | .error reason => .failed "language name" code reason
  | .ok name => ⟨name, []⟩

/-- The name of a language in that language, for readers who choose theirs from a list. -/
def nativeName (locales : Locales) (code : String) : Naming :=
  match locales.native code with
  | .error reason => .failed "native name" code reason
  | .ok none | .ok (some "") => ⟨some code, []⟩
  | .ok (some name) => ⟨some (capitalized name), []⟩

end PhraseCatalog.Language
