import PhraseCatalog.Language.Locale
import PhraseCatalog.Language.Names

/-! The library of locales that the program is used with, as far as the names of its languages go. -/

set_option autoImplicit false

namespace PhraseCatalog.Language

/-- The name of a locale: its language, and details that are shown in parentheses. -/
structure Name where
  language : String
  details : List String := []
deriving DecidableEq, Repr

/-- The names of a locale. The root of all locales has none. -/
structure Names where
  english : Option Name
  native : Option Name

/-- The locales that have names. -/
def namesTable : List (String × Names) :=
  [("en", ⟨some ⟨"English", []⟩, some ⟨"English", []⟩⟩),
   ("zh", ⟨some ⟨"Chinese", []⟩, some ⟨"中文", []⟩⟩),
   ("ja", ⟨some ⟨"Japanese", []⟩, some ⟨"日本語", []⟩⟩),
   ("es", ⟨some ⟨"Spanish", []⟩, some ⟨"español", []⟩⟩),
   ("fr", ⟨some ⟨"French", []⟩, some ⟨"français", []⟩⟩),
   ("hi", ⟨some ⟨"Hindi", []⟩, some ⟨"हिन्दी", []⟩⟩),
   ("de", ⟨some ⟨"German", []⟩, some ⟨"Deutsch", []⟩⟩),
   ("ru", ⟨some ⟨"Russian", []⟩, some ⟨"русский", []⟩⟩),
   ("pt", ⟨some ⟨"Portuguese", []⟩, some ⟨"português", []⟩⟩),
   ("it", ⟨some ⟨"Italian", []⟩, some ⟨"italiano", []⟩⟩),
   ("ko", ⟨some ⟨"Korean", []⟩, some ⟨"한국어", []⟩⟩),
   ("tr", ⟨some ⟨"Turkish", []⟩, some ⟨"Türkçe", []⟩⟩),
   ("vi", ⟨some ⟨"Vietnamese", []⟩, some ⟨"Tiếng Việt", []⟩⟩),
   ("th", ⟨some ⟨"Thai", []⟩, some ⟨"ไทย", []⟩⟩),
   ("id", ⟨some ⟨"Indonesian", []⟩, some ⟨"Indonesia", []⟩⟩),
   ("ar", ⟨some ⟨"Arabic", []⟩, some ⟨"العربية", []⟩⟩),
   ("pl", ⟨some ⟨"Polish", []⟩, some ⟨"polski", []⟩⟩),
   ("nl", ⟨some ⟨"Dutch", []⟩, some ⟨"Nederlands", []⟩⟩),
   ("sv", ⟨some ⟨"Swedish", []⟩, some ⟨"svenska", []⟩⟩),
   ("uk", ⟨some ⟨"Ukrainian", []⟩, some ⟨"українська", []⟩⟩),
   ("pt_BR", ⟨some ⟨"Portuguese", ["Brazil"]⟩, some ⟨"português", ["Brasil"]⟩⟩),
   ("en_US", ⟨some ⟨"English", ["United States"]⟩, some ⟨"English", ["United States"]⟩⟩),
   ("en_GB", ⟨some ⟨"English", ["United Kingdom"]⟩, some ⟨"English", ["United Kingdom"]⟩⟩),
   ("zh_Hans", ⟨some ⟨"Chinese", ["Simplified"]⟩, some ⟨"中文", ["简体"]⟩⟩),
   ("zh_Hant", ⟨some ⟨"Chinese", ["Traditional"]⟩, some ⟨"中文", ["繁體"]⟩⟩),
   ("zh_Hans_CN", ⟨some ⟨"Chinese", ["Simplified", "China"]⟩, some ⟨"中文", ["简体", "中国"]⟩⟩),
   ("zh_CN", ⟨some ⟨"Chinese", ["Simplified", "China"]⟩, some ⟨"中文", ["简体", "中国"]⟩⟩),
   ("zh_Hant_TW", ⟨some ⟨"Chinese", ["Traditional", "Taiwan"]⟩, some ⟨"中文", ["繁體", "台灣"]⟩⟩),
   ("zh_TW", ⟨some ⟨"Chinese", ["Traditional", "Taiwan"]⟩, some ⟨"中文", ["繁體", "台灣"]⟩⟩),
   ("es_MX", ⟨some ⟨"Spanish", ["Mexico"]⟩, some ⟨"español", ["México"]⟩⟩),
   ("fr_CA", ⟨some ⟨"French", ["Canada"]⟩, some ⟨"français", ["Canada"]⟩⟩),
   ("ja_JP", ⟨some ⟨"Japanese", ["Japan"]⟩, some ⟨"日本語", ["日本"]⟩⟩),
   ("de_AT", ⟨some ⟨"German", ["Austria"]⟩, some ⟨"Deutsch", ["Österreich"]⟩⟩),
   ("root", ⟨none, none⟩)]

/-- The names of a locale: as it is written, else without its script and its variant. -/
def names? (locale : Locale) : Option Names :=
  let bare := { locale with modifier := none }
  (namesTable.lookup bare.identifier).or
    (namesTable.lookup { bare with script := none, variant := none }.identifier)

/-- The name with its details, a modifier among them where there are others. -/
def Name.text (name : Name) (modifier : Option String) : String :=
  match name.details with
  | [] => name.language
  | details =>
    name.language ++ " (" ++ String.intercalate ", " (details ++ modifier.toList) ++ ")"

def locate (identifier : String) : Except LocaleFault (Locale × Names) := do
  let locale ← Locale.parse identifier
  match names? locale with
  | some names => .ok (locale, names)
  | none => .error (.unknown locale.identifier)

/-- The locales of the table. -/
def Locales.table : Locales :=
  let lookup := fun (pick : Names → Option Name) (identifier : String) =>
    match locate identifier with
    | .error fault => .error fault.message
    | .ok (locale, names) => .ok ((pick names).map (·.text locale.modifier))
  ⟨lookup (·.english), lookup (·.native)⟩

end PhraseCatalog.Language
