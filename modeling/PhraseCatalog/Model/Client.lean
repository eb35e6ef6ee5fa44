import PhraseCatalog.Json.Printer
import PhraseCatalog.Log
import PhraseCatalog.Model.Settings

/-! Talking to the chat service: what a client is opened with, what a request carries, and what
comes back. -/

set_option autoImplicit false

namespace PhraseCatalog.Model

open Json Log

/-- What a client is opened with. -/
structure Connection where
  apiKey : String
  baseUrl : String
deriving DecidableEq, Repr

def Settings.connection (settings : Settings) : Connection :=
  ⟨settings.apiKey, settings.provider.baseUrl⟩

def Settings.openingLog (settings : Settings) : List Entry :=
  [⟨.debug, .model, "Creating OpenAI client with base_url=" ++ settings.provider.baseUrl, false⟩,
   ⟨.info, .model, "Initialized LLM client with provider=" ++ settings.provider.name
      ++ ", model=" ++ settings.model, false⟩]

/-- One request: the model, the messages, further options and the headers. -/
structure Request where
  model : String
  messages : Value
  options : List (String × Value)
  headers : List (String × String)

def Settings.request (settings : Settings) (messages : Value) (options : List (String × Value)) :
    Request :=
  ⟨settings.model, messages, options, settings.headers⟩

/-- The arguments of a request in the order in which they are sent; an option named like an earlier
argument takes its place, and headers are sent only if there are any. -/
def Request.arguments (request : Request) : List (String × Value) :=
  let base := request.options.foldl (fun members (k, v) => setMember k v members)
    [("model", .str request.model), ("messages", request.messages)]
  if request.headers.isEmpty then base
  else setMember "extra_headers" (.obj (request.headers.map fun (k, v) => (k, .str v))) base

/-- A request that fails: the kind of failure and its message, as the service reports them. -/
structure ServiceFault where
  kind : String
  message : String
deriving DecidableEq, Repr

/-- What comes back for a request. -/
inductive Response
  /-- A first choice, with a text or without one. -/
  | content (text : Option String)
  | noChoices
  | failed (fault : ServiceFault)
deriving DecidableEq, Repr

/-- A chat service answers requests. -/
abbrev Service : Type := Request → Response

/-- How many characters of a completion are logged. -/
def excerptLength : Nat := 100

/-- The text of the first choice, if there is one. -/
def chat (settings : Settings) (service : Service) (request : Request) :
    Report ServiceFault (Option String) :=
  let name := settings.provider.name
  let sending : Entry := ⟨.debug, .model,
    "Sending chat completion request to " ++ name ++ " (model: " ++ settings.model ++ ")", false⟩
  match service request with
  | .failed fault =>
    ⟨[sending, ⟨.error, .model, "Error calling " ++ name ++ " API: " ++ fault.message, false⟩],
      .error fault⟩
  | .noChoices => ⟨[sending], .ok none⟩
  | .content none => ⟨[sending], .ok none⟩
  | .content (some "") => ⟨[sending], .ok (some "")⟩
  | .content (some text) =>
    let excerpt := String.ofList (text.toList.take excerptLength)
    let received : Entry :=
      ⟨.debug, .model, "Received response from " ++ name ++ ": " ++ excerpt ++ "...", false⟩
    ⟨[sending, received], .ok (some text)⟩

end PhraseCatalog.Model
