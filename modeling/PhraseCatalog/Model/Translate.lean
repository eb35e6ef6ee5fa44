import PhraseCatalog.Model.Client
import PhraseCatalog.Model.Prompt
import PhraseCatalog.Model.Reply
import PhraseCatalog.Text.Quoted

/-! Translating one phrase by asking the model. -/

set_option autoImplicit false

namespace PhraseCatalog.Model

open Json Log Text

/-- Why a phrase cannot be translated at all. -/
inductive TranslationFault
  | service (fault : ServiceFault)
  | unreadable (error : ReadError)
deriving DecidableEq, Repr

def TranslationFault.message : TranslationFault → String
  | .service fault => fault.message
  | .unreadable error => error.message

/-- What asking for one phrase came to: its record or none, the entries logged and the requests
sent. -/
structure Translation where
  outcome : Except TranslationFault (Option Value)
  log : List Entry := []
  requests : List Request := []

/-- Anything that translates phrases. -/
abbrev Translator : Type := String → Translation

def Settings.translationRequest (settings : Settings) (style phrase : String) : Request :=
  let message := Value.obj [("role", .str "user"), ("content", .str (prompt phrase style))]
  settings.request (.arr [message]) []

/-- The translator that asks a service. A completion that is empty or holds no record leaves the
phrase without a translation, with a warning. -/
def Settings.translator (settings : Settings) (service : Service) (style : String) : Translator :=
  fun phrase =>
    let request := settings.translationRequest style phrase
    let answer := chat settings service request
    match answer.outcome with
    | .error fault => ⟨.error (.service fault), answer.log, [request]⟩
    | .ok none | .ok (some "") =>
      let warning : Entry :=
        ⟨.warning, .model, "LLM returned no message for: " ++ quoted phrase, false⟩
      ⟨.ok none, answer.log ++ [warning], [request]⟩
    | .ok (some text) =>
      match recover text with
      | .error error => ⟨.error (.unreadable error), answer.log, [request]⟩
      | .ok (some members) => ⟨.ok (some (.obj members)), answer.log, [request]⟩
      | .ok none =>
        let warning : Entry := ⟨.warning, .model,
          "Could not parse LLM response for " ++ quoted phrase ++ ": " ++ text, false⟩
        ⟨.ok none, answer.log ++ [warning], [request]⟩

end PhraseCatalog.Model
