import Synopsis.Datum
import Synopsis.Settings
import Synopsis.Text.Lines
/-!
# Endpoints

An endpoint is a place that completes conversations, with the model, the key and the bounds that
requests to it carry. What is not given is looked up among the variables of the surroundings, and
then has a default. A value that is empty counts as not given.
-/

namespace Synopsis

/-- A number as it was given: whole or not. -/
inductive Quantity where
  | whole (n : Int)
  | real (x : Float)

namespace Quantity

def datum : Quantity → Datum
  | .whole n => .int n
  | .real x => .float x

def text (q : Quantity) : String := q.datum.asText

end Quantity

abbrev Variables := Table String

inductive KeySource where
  | «variables»
  | given (key : Option String)

structure EndpointOptions where
  model : Option String := none
  baseUrl : Option String := none
  temperature : Option Quantity := some (.real 0.3)
  maxTokens : Option Quantity := some (.whole 1000)
  key : KeySource := .«variables»
  timeout : Option Quantity := some (.real 60.0)

structure Endpoint where
  model : String
  baseUrl : String
  temperature : Option Quantity
  maxTokens : Option Quantity
  key : Option String
  timeout : Option Quantity

namespace Endpoint

def defaultModel : String := "gpt-4o-mini"

def defaultBaseUrl : String := "https://api.openai.com/v1"

def modelVariables : List String := ["BRIEFLY_LLM_MODEL", "OPENAI_MODEL"]

def baseUrlVariables : List String := ["BRIEFLY_LLM_BASE_URL", "OPENAI_BASE_URL"]

def keyVariables : List String := ["BRIEFLY_LLM_API_KEY", "OPENAI_API_KEY"]

def nonempty? (s : String) : Option String := if s == "" then none else some s

/-- The first value that is not empty among some variables. -/
def firstValue? (names : List String) (known : Variables) : Option String :=
  names.findSome? fun name => (Table.get? name known).bind nonempty?

def ofOptions (known : Variables) (options : EndpointOptions) : Endpoint :=
  let baseUrl := options.baseUrl.getD
    ((firstValue? baseUrlVariables known).getD defaultBaseUrl)
  { model := ((options.model.bind nonempty?).or (firstValue? modelVariables known)).getD
      defaultModel
    baseUrl := String.ofList (Text.dropTrailing '/' baseUrl.toList)
    temperature := options.temperature
    maxTokens := options.maxTokens
    key := match options.key with
      | .«variables» => firstValue? keyVariables known
      | .given key => key
    timeout := options.timeout }

def optionsOf (settings : SummarySettings) : EndpointOptions :=
  let default : EndpointOptions := {}
  { model := settings.model
    baseUrl := settings.baseUrl.bind nonempty?
    temperature := (settings.temperature.map Quantity.real).or default.temperature
    maxTokens := (settings.maxTokens.map Quantity.whole).or default.maxTokens
    key := match settings.apiKey.bind nonempty? with
      | some key => .given (some key)
      | none => .«variables»
    timeout := (settings.requestTimeout.map Quantity.real).or default.timeout }

end Endpoint

end Synopsis
