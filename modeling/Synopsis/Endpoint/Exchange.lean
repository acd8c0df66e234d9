import Synopsis.Endpoint.Basic
import Synopsis.Json.Printer
import Synopsis.Json.Reader
import Synopsis.Text.Utf8
/-!
# Exchanges with an endpoint

A question becomes a request, and what the network brings back becomes an answer or a fault. Whether
there is a request at all depends on the key and on the scheme of the address. An answer is the text
of the first choice, without blanks at its ends.
-/

namespace Synopsis

/-- What a model is asked, and what it is told to do. -/
structure Question where
  prompt : String
  instructions : Option String
  deriving DecidableEq, Repr

/-- A request to an endpoint. The headers are sorted by name. -/
structure Request where
  url : String
  headers : List (String × String)
  body : String
  timeout : Quantity

inductive Delivery where
  | response (body : ByteArray)
  | refusal (status : Int) (reason : String) (body : ByteArray)
  | unreachable (reason : String)
  | timeout

namespace Endpoint

inductive Fault where
  | noKey
  /-- The address has no scheme. -/
  | noScheme (url : String)
  /-- A number of the request has too many digits to be written. -/
  | longValue
  | refused (status : Int) (detail : String)
  | unreachable (reason : String)
  | timedOut (timeout : String)
  | invalidResponse
  /-- The response is nested too deeply; the refusal in words. -/
  | deepResponse (reason : String)
  /-- A number of the response has too many digits to be read. -/
  | longNumeral (digits : Nat)
  | emptyResponse
  /-- A failure that was arranged beforehand. -/
  | arranged (reason : String)
  deriving DecidableEq, Repr

def Fault.message : Fault → String
  | .noKey => "An API key is required for AI summarization. " ++
      "Set OPENAI_API_KEY (or BRIEFLY_LLM_API_KEY) or pass --no-ai."
  | .noScheme url => "unknown url type: " ++ Text.quoted url
  | .longValue => Decimal.longWriteMessage
  | .refused status detail => s!"LLM request failed with status {status}: {detail}"
  | .unreachable reason => "LLM request failed: " ++ reason
  | .timedOut timeout => s!"LLM request timed out after {timeout}s"
  | .invalidResponse => "LLM endpoint returned invalid JSON"
  | .deepResponse reason => reason
  | .longNumeral digits => Decimal.longNumeralMessage digits
  | .emptyResponse => "LLM endpoint returned an empty response"
  | .arranged reason => reason

/-- Whether a summary is done without when the fault arises. -/
def Fault.isTolerated : Fault → Bool
  | .noScheme _ => false
  | .longValue => false
  | .longNumeral _ => false
  | _ => true

/-! ## The request -/

/-- An address without blanks, brackets and a label around it. -/
def bareUrl (url : String) : String :=
  let cs := Text.trim url.toList
  let cs := match cs, cs.getLast? with
    | '<' :: inside, some '>' => Text.trim inside.dropLast
    | cs, _ => cs
  match Text.dropPrefix? "URL:".toList cs with
  | some rest => Text.strip (String.ofList rest)
  | none => String.ofList cs

/-- What stands before the last fragment of an address. -/
def withoutFragment (cs : List Char) : List Char :=
  if cs.contains '#' then (cs.reverse.dropWhile (· != '#')).drop 1 |>.reverse else cs

def hasScheme (url : String) : Bool :=
  let address := withoutFragment url.toList
  let scheme := address.takeWhile fun c => c != '/' && c != ':'
  !scheme.isEmpty && (address.drop scheme.length).head? == some ':'

def address (e : Endpoint) : String := bareUrl (e.baseUrl ++ "/chat/completions")

def message (role content : String) : Datum :=
  .table [("role", .text role), ("content", .text content)]

def messages (question : Question) : List Datum :=
  ((question.instructions.bind nonempty?).map (message "system")).toList ++
    [message "user" question.prompt]

def payload (e : Endpoint) (question : Question) : Datum :=
  .table ([("model", .text e.model), ("messages", .list (messages question))] ++
    (e.temperature.map fun q => ("temperature", q.datum)).toList ++
    (e.maxTokens.map fun q => ("max_tokens", q.datum)).toList)

/-- The time that a request may take; none and zero stand for a minute. -/
def patience (e : Endpoint) : Quantity :=
  match e.timeout with
  | some q => if q.datum.isSet then q else .real 60.0
  | none => .real 60.0

def request (e : Endpoint) (question : Question) : Except Fault Request :=
  match e.key.bind nonempty? with
  | none => .error .noKey
  | some key =>
    let payload := e.payload question
    if payload.holdsLong then .error .longValue
    else if !hasScheme e.address then .error (.noScheme e.address)
    else .ok {
      url := e.address
      headers := [("authorization", "Bearer " ++ key), ("content-type", "application/json")]
      body := Json.print payload
      timeout := e.patience }

/-! ## The answer -/

/-- The text of the first choice of a response; empty if there is none. -/
def content (response : Datum) : String :=
  let text? := do
    let choices ← (← response.get? "choices").items?
    let message ← (← choices.head?).get? "message"
    (← message.get? "content").text?
  text?.getD ""

def answerOf (body : ByteArray) : Except Fault String :=
  match Text.Utf8.decode body.toList with
  | .error _ => .error .invalidResponse
  | .ok text =>
    match Json.parse text with
    | .error (.syntaxAt _ _) => .error .invalidResponse
    | .error (.longInteger digits) => .error (.longNumeral digits)
    | .error e => .error (.deepResponse (e.message text))
    | .ok response =>
      let answer := content response
      if answer == "" then .error .emptyResponse else .ok (Text.strip answer)

/-- Why a request was refused: the body of the refusal, or else its reason. -/
def refusalDetail (reason : String) (body : ByteArray) : String :=
  (nonempty? (Text.strip (Text.Utf8.decodeSkipping body.toList))).getD reason

/-- The answer that a delivery brings, of a request that could take `timeout`. -/
def answer (timeout : Quantity) : Delivery → Except Fault String
  | .response body => answerOf body
  | .refusal status reason body => .error (.refused status (refusalDetail reason body))
  | .unreachable reason => .error (.unreachable reason)
  | .timeout => .error (.timedOut timeout.text)

end Endpoint

end Synopsis
