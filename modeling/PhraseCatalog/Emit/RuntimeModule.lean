import PhraseCatalog.Emit.DataModule
import PhraseCatalog.Emit.RuntimeText
import PhraseCatalog.Language.Names

/-! The generated runtime module: tables for the languages and the phrases of a run, and behind
them the fixed runtime. -/

set_option autoImplicit false

namespace PhraseCatalog.Emit

open Json

/-- Each phrase with its place in the catalog. -/
def phraseIds (catalog : Catalog) : List (String × Nat) := (catalog.map (·.1)).zipIdx

/-- A text as a literal, in ASCII characters. -/
def asciiLiteral (s : String) : String := String.ofList (quote true s)

/-- A text as a literal, in all characters. -/
def literal (s : String) : String := String.ofList (quote false s)

/-- An object literal with one entry a line. -/
def objectLiteral (entries : List (String × String)) : String :=
  match entries with
  | [] => "\x7b\x7d"
  | entries =>
    "\x7b\n"
      ++ String.intercalate "\n" (entries.map fun (key, value) =>
        "\t" ++ literal key ++ ": " ++ value ++ ",")
      ++ "\n\x7d"

def languageTable (languages : List String) : String :=
  "const langs: Record<string, string> = "
    ++ objectLiteral (languages.map fun code => (code, asciiLiteral code)) ++ ";"

/-- The label under which a language is offered. -/
def languageLabel (locales : Language.Locales) (code : String) : String :=
  (Language.nativeName locales code).name.getD code

/-- The languages with the labels under which they are offered. -/
def languageList (locales : Language.Locales) (languages : List String) : String :=
  let entry := fun code =>
    "\t\x7b value: " ++ asciiLiteral code ++ ", label: "
      ++ literal (languageLabel locales code) ++ " \x7d,"
  "export const languageList = [\n" ++ String.intercalate "\n" (languages.map entry) ++ "\n];"

/-- The record that stands in for a phrase without translation. -/
def missingRecord (languages : List String) : String :=
  "const nofound: Record<string, string> = "
    ++ objectLiteral (languages.map fun code => (code, "\" \"")) ++ ";"

def idTable (catalog : Catalog) : String :=
  "export const i18nSourceIdMap: Record<string, number> = "
    ++ objectLiteral ((phraseIds catalog).map fun (phrase, id) => (phrase, toString id)) ++ ";"

/-- The records by the numbers of their phrases. -/
def idList (catalog : Catalog) : String :=
  "export const i18nSourceIdList: Record<string, string>[] = "
    ++ match phraseIds catalog with
      | [] => "[];"
      | ids =>
        "[\n"
          ++ String.intercalate "\n"
            (ids.map fun (phrase, _) => "\ti18nSource[" ++ literal phrase ++ "],")
          ++ "\n];"

/-- The runtime module, with the names of the languages as a library of locales has them. -/
def runtimeModule (locales : Language.Locales) (catalog : Catalog) (languages : List String) :
    String :=
  String.intercalate "\n\n"
    ["import \x7b i18nSource \x7d from \"./i18n-source\";", languageTable languages,
     languageList locales languages, missingRecord languages, idTable catalog, idList catalog]
    ++ "\n" ++ runtimeText

/-- The warnings about languages without a name. -/
def namingLog (locales : Language.Locales) (languages : List String) : List Log.Entry :=
  languages.flatMap fun code => (Language.nativeName locales code).log

end PhraseCatalog.Emit
