import QueryGate.Settings
import QueryGate.Text.Case

/-!
# Language models

A request to a language model names its provider.  What the model answers is not known here: a
`Backend` says, from the requests made before and the request itself, what comes back.  An
`Exchange` is the state of a conversation, which is the list of requests made.
-/

namespace QueryGate
namespace Assistant

/-- Where language models are. -/
inductive Provider where
  | mock
  | openai
  | anthropic
  deriving DecidableEq, Repr

namespace Provider

/-- Every provider. -/
def list : List Provider := [mock, openai, anthropic]

/-- The name of a provider. -/
def name : Provider → String
  | mock => "mock"
  | openai => "openai"
  | anthropic => "anthropic"

/-- The provider with the given lower-case name. -/
def ofName? (name : String) : Option Provider := list.find? fun p => p.name == name

end Provider

/-- The names of the providers. -/
def supported : List String := Provider.list.map Provider.name

/-- Why there is no answer. -/
inductive Fault where
  /-- There is no provider of that name. -/
  | unsupported (name : String)
  | noKey (provider : Provider)
  /-- The package that talks to the provider is missing. -/
  | notInstalled (provider : Provider)
  /-- The provider failed with the given message. -/
  | failed (message : String)
  deriving DecidableEq

/-- The message of a fault. -/
def Fault.message : Fault → String
  | .unsupported name =>
    "LLM provider '" ++ name ++ "' is not supported.  Choose from: " ++ ", ".intercalate supported
  | .noKey provider =>
    provider.name ++ "_api_key is not set.  Set " ++ upperText provider.name
      ++ "_API_KEY in your .env file or environment."
  | .notInstalled provider =>
    "The '" ++ provider.name ++ "' package is not installed.  Run: pip install " ++ provider.name
  | .failed message => message

/-- A request: who is asked, what, and under which instructions. -/
structure Request where
  provider : Provider
  prompt : String
  system : String
  deriving DecidableEq, Repr

/-- The instructions of a request that has none of its own. -/
def defaultSystem : String := "You are a helpful analytics assistant."

/-- What comes back for a request, given the requests made before. -/
abbrev Backend := List Request → Request → Except Fault String

/-- The requests made so far. -/
abbrev History := List Request

/-- Asks the provider with the given name, whatever its letter case; a name that no provider has
makes no request. -/
def ask (backend : Backend) (history : History) (provider prompt system : String) :
    Except Fault String × History :=
  let name := lowerText provider
  match Provider.ofName? name with
  | none => (.error (.unsupported name), history)
  | some p =>
    let request : Request := ⟨p, prompt, if system.isEmpty then defaultSystem else system⟩
    (backend history request, history ++ [request])

/-- The number of characters of a prompt that the mock provider repeats. -/
def echoLength : Nat := 200

/-- The answer of the mock provider. -/
def echo (prompt : String) : String := "[MOCK] " ++ String.ofList (prompt.toList.take echoLength)

/-- A backend that gives prepared answers in order, and empty ones when there are no more. -/
def scripted (replies : List (Except Fault String)) : Backend := fun history _ =>
  (replies[history.length]?).getD (.ok "")

/-- The packages through which providers are reached: whether they are there, and what the providers
answer. -/
structure Client where
  installed : Bool
  openaiContent : Option String
  anthropicTexts : List String

/-- What goes out to a provider. -/
inductive Sent where
  /-- A client is made with a key. -/
  | key (provider : Provider) (key : String)
  /-- An answer is asked for; the fields are in the order of their names. -/
  | create (fields : List (String × Value))

/-- The largest number of tokens that is asked for. -/
def maxTokens : Int := 1024

/-- A message of a conversation. -/
def message (role content : String) : Value :=
  .map [(.text "role", .text role), (.text "content", .text content)]

/-- The key of a provider. -/
def keyOf (settings : Settings) : Provider → String
  | .mock => ""
  | .openai => settings.openaiApiKey
  | .anthropic => settings.anthropicApiKey

/-- The fields of a request to a provider. -/
def payload (settings : Settings) (r : Request) : List (String × Value) :=
  match r.provider with
  | .mock => []
  | .openai =>
    [("max_tokens", .int maxTokens),
      ("messages", .list [message "system" r.system, message "user" r.prompt]),
      ("model", .text settings.openaiModel), ("temperature", .float Binary64.zero)]
  | .anthropic =>
    [("max_tokens", .int maxTokens), ("messages", .list [message "user" r.prompt]),
      ("model", .text settings.anthropicModel), ("system", .text r.system)]

/-- The text of the answer of a client. -/
def Client.text (client : Client) : Provider → String
  | .mock => ""
  | .openai => client.openaiContent.getD ""
  | .anthropic => client.anthropicTexts.head?.getD ""

/-- What happens when a request is made through a client. -/
def exchange (settings : Settings) (client : Client) (r : Request) :
    Except Fault String × List Sent :=
  match r.provider with
  | .mock => (.ok (echo r.prompt), [])
  | p =>
    let key := keyOf settings p
    if key.isEmpty then (.error (.noKey p), [])
    else if !client.installed then (.error (.notInstalled p), [])
    else (.ok (client.text p), [.key p key, .create (payload settings r)])

/-- The backend that goes through a client. -/
def direct (settings : Settings) (client : Client) : Backend :=
  fun _ r => (exchange settings client r).1

end Assistant
end QueryGate
