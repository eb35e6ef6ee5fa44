import PhraseCatalog.Text.Letter
import PhraseCatalog.Text.Quoted

/-! The chat service: its providers, and the settings that a run needs to use one. -/

set_option autoImplicit false

namespace PhraseCatalog.Model

open Text

/-- The services that can be used. -/
inductive Provider
  | openai
  | openrouter
deriving DecidableEq, Repr

namespace Provider

def name : Provider → String
  | .openai => "openai"
  | .openrouter => "openrouter"

def all : List Provider := [.openai, .openrouter]

/-- The provider of a name, in small letters. -/
def ofName? (name : String) : Option Provider := all.find? (·.name = name)

def baseUrl : Provider → String
  | .openai => "https://api.openai.com/v1"
  | .openrouter => "https://openrouter.ai/api/v1"

/-- The environment variables that may hold the credential, in the order in which they are tried. -/
def keyVariables : Provider → List String
  | .openai => ["OPENAI_CLIENT", "OPENAI_API_KEY"]
  | .openrouter => ["OPENROUTER_API_KEY"]

/-- The credential that an environment holds: the first variable that is set and not empty. -/
def resolveKey (provider : Provider) (env : List (String × String)) : Option String :=
  provider.keyVariables.findSome? fun name => (env.lookup name).filter (· ≠ "")

end Provider

/-- The model that is asked where none is named. -/
def defaultModel : String := "gpt-4o-mini"

/-- What a run needs to know about the service. -/
structure Settings where
  provider : Provider
  apiKey : String
  model : String
  siteUrl : Option String
  siteName : Option String
deriving DecidableEq, Repr

inductive SettingsFault
  | unknownProvider (name : String)
  | noKey
  | noModel
deriving DecidableEq, Repr

def SettingsFault.message : SettingsFault → String
  | .unknownProvider name => quoted name ++ " is not a valid LLMProvider"
  | .noKey => "API key is required"
  | .noModel => "Model name is required"

namespace Settings

/-- Settings for a provider; the key and the model must be there and not be empty. -/
def make (provider : Provider) (apiKey model siteUrl siteName : Option String) :
    Except SettingsFault Settings :=
  if apiKey.getD "" = "" then .error .noKey
  else if model.getD "" = "" then .error .noModel
  else .ok ⟨provider, apiKey.getD "", model.getD "", siteUrl, siteName⟩

/-- Settings for the provider of a name, in letters of any case. -/
def ofName (provider : String) (apiKey model siteUrl siteName : Option String) :
    Except SettingsFault Settings :=
  match Provider.ofName? (toLower provider) with
  | none => .error (.unknownProvider (toLower provider))
  | some provider => make provider apiKey model siteUrl siteName

/-- The headers that go with every request; only one provider takes any. -/
def headers (settings : Settings) : List (String × String) :=
  match settings.provider with
  | .openai => []
  | .openrouter =>
    [("HTTP-Referer", settings.siteUrl), ("X-Title", settings.siteName)].filterMap
      fun (header, value) => (value.filter (· ≠ "")).map fun value => (header, value)

end Settings
end PhraseCatalog.Model
