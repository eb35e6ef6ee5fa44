import PhraseCatalog.Json.Printer

/-! The instruction that is sent to the chat model for one phrase. -/

set_option autoImplicit false

namespace PhraseCatalog.Model

/-- The languages that every phrase is translated into, with an example of a translation. -/
def targetLanguages : List (String × String × String) :=
  [("en", "English", "Hello, \x7bname\x7d"),
   ("es", "Spanish", "Hola, \x7bname\x7d"),
   ("zh", "Chinese", "你好, \x7bname\x7d"),
   ("fr", "French", "Bonjour, \x7bname\x7d"),
   ("hi", "Hindi", "नमस्ते, \x7bname\x7d"),
   ("ja", "Japanese", "こんにちは, \x7bname\x7d")]

/-- Names as an enumeration: commas between them, and a word before the last. -/
def enumerate : List String → String
  | [] => ""
  | [name] => name
  | names => String.intercalate ", " names.dropLast ++ ", and " ++ names.getLastD ""

/-- The example record that shows the model the form of its answer. -/
def exampleRecord : Json.Value :=
  .obj (targetLanguages.map fun (code, _, sample) => (code, .str sample))

/-- What every instruction starts with. -/
def promptOpening : String :=
  "Translate the following text into " ++ enumerate (targetLanguages.map (·.2.1)) ++ ". "
    ++ "Ensure the translation is concise, professional, elegant, and suitable for a UI-friendly "
    ++ "commercial context. Your output should be in JSON format: " ++ exampleRecord.render .line
    ++ " Please respond only in this JSON format. "

def phraseMark : String := "Please translate: "

def prompt (phrase style : String) : String :=
  promptOpening ++ style ++ " " ++ phraseMark ++ phrase

end PhraseCatalog.Model
