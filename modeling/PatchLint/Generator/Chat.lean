import PatchLint.Config.Basic
import PatchLint.Generator.Prompt
import PatchLint.Generator.Reply

/-!
# Chat endpoints

A generator behind an HTTP endpoint for chats. What the network does is given from outside as a list
of answers, one for each request; when they are used up, the connection fails.

A failure of the request, and one of the way through the response to the reply, is turned into a
`GenerationError` at the end of the step in which it can arise (`transportError`, `accessError`).
-/

namespace PatchLint

/-! ## The network -/

/-- What the network does with a request. -/
inductive HttpAnswer where
  | response (status : Int) (reason body : String)
  | timeout
  | connectionFailed (message : String)
  /-- The client refuses the request or the response as malformed. -/
  | malformed
  deriving DecidableEq, Repr

/-- A request to a chat endpoint. -/
structure ChatCall where
  url : String
  headers : List (String × String)
  timeout : Binary64
  model : String
  systemMessage : String
  userMessage : String
  temperature : Binary64
  maxTokens : Int

/-- The answers that are still to come, and the requests that have been made. -/
structure Network where
  answers : List HttpAnswer := []
  calls : List ChatCall := []

/-- Makes a request. -/
def Network.post (n : Network) (call : ChatCall) : HttpAnswer × Network :=
  let calls := n.calls ++ [call]
  match n.answers with
  | [] => (.connectionFailed "unscripted", ⟨[], calls⟩)
  | a :: rest => (a, ⟨rest, calls⟩)

/-! ## The endpoint -/

/-- An endpoint and how it is asked. -/
structure ChatEndpoint where
  baseUrl : String
  model : String
  apiKey : String
  timeout : Binary64
  temperature : Binary64
  maxTokens : Int
  headers : List (String × String) := []

/-- A text without slashes at its end. -/
def trimSlashes (s : String) : String := String.ofList (Text.trimEnd (· = '/') s.toList)

namespace ChatEndpoint

/-- The address that requests go to. -/
def url (e : ChatEndpoint) : String := trimSlashes e.baseUrl ++ "/chat/completions"

/-- The request with a message to the generator. -/
def callWith (e : ChatEndpoint) (userMessage : String) : ChatCall where
  url := e.url
  headers := e.headers.foldl (fun hs (k, v) => Json.insertField k v hs)
    [("Authorization", "Bearer " ++ e.apiKey), ("Content-Type", "application/json")]
  timeout := e.timeout
  model := e.model
  systemMessage := systemPrompt
  userMessage := userMessage
  temperature := e.temperature
  maxTokens := e.maxTokens

end ChatEndpoint

/-- What a status says about a failure, if it is one. -/
def statusFault? (status : Int) (reason url : String) : Option String :=
  let kind? := if 400 ≤ status ∧ status < 500 then some "Client"
    else if 500 ≤ status ∧ status < 600 then some "Server"
    else none
  kind?.map fun kind =>
    Text.showInt status ++ " " ++ kind ++ " Error: " ++ reason ++ " for url: " ++ url

/-- What a fault in the body of a response is. A body that breaks the grammar counts as a failed request,
one that goes beyond what the reader converts does not. -/
def bodyFault (body : String) (f : Json.Fault) : Failure :=
  match f.cause with
  | .nesting _ => .nesting
  | .digits _ => .invalidValue
  | _ => .request (f.message body.toList)

/-- The value in the body of a response. -/
def bodyValue (limit : Option Nat) (body : String) : Except Failure Json :=
  (Json.parseWithin limit body.toList).mapError (bodyFault body)

/-- The value that the network answers with. -/
def HttpAnswer.value (limit : Option Nat) (url : String) : HttpAnswer → Except Failure Json
  | .timeout => .error .timedOut
  | .connectionFailed message => .error (.request message)
  | .malformed => .error .invalidValue
  | .response status reason body =>
    match statusFault? status reason url with
    | some fault => .error (.request fault)
    | none => bodyValue limit body

/-- What a failure of a request is to callers. -/
def transportError (timeout : Binary64) : Failure → Failure
  | .timedOut => .generation (.timedOut timeout)
  | .request reason => .generation (.requestFailed reason)
  | .invalidValue => .generation .notJson
  | f => f

/-! ## The reply in a response -/

/-- What an item of a value is asked for by. -/
inductive ItemKey where
  | name (name : String)
  | position (index : Nat)
  deriving DecidableEq, Repr

/-- The item of a value. Objects have items by name, lists and texts by position; the items of a text
are its characters. -/
def Json.item : Json → ItemKey → Except Failure Json
  | .obj fields, .name key =>
    match Json.lookup key fields with
    | some v => .ok v
    | none => .error .missingKey
  | .obj _, .position _ => .error .missingKey
  | .arr items, .position index =>
    match items[index]? with
    | some v => .ok v
    | none => .error .outOfRange
  | .str s, .position index =>
    match s.toList[index]? with
    | some c => .ok (.str (String.singleton c))
    | none => .error .outOfRange
  | _, _ => .error .wrongType

/-- Where the reply stands in the value of a response: the content of the message of the first choice. -/
def replyPath : List ItemKey := [.name "choices", .position 0, .name "message", .name "content"]

/-- What a missing item is to callers. -/
def accessError : Failure → Failure
  | .missingKey | .outOfRange | .wrongType => .generation .noResponse
  | f => f

/-- The reply in the value of a response. -/
def replyText (data : Json) : Except Failure Text :=
  match (replyPath.foldlM Json.item data).mapError accessError with
  | .error f => .error f
  | .ok (.str s) =>
    if (Text.strip s.toList).isEmpty then .error (.generation .noResponse) else .ok s.toList
  | .ok _ => .error (.generation .noResponse)

/-! ## Generating -/

namespace ChatEndpoint

/-- The fix that the network's answer amounts to. -/
def interpret (e : ChatEndpoint) (limit : Option Nat) (answer : HttpAnswer) :
    Except Failure GeneratedFix := do
  let data ← (answer.value limit e.url).mapError (transportError e.timeout)
  let reply ← replyText data
  readReply limit reply

/-- Asks for a fix, with readers that go no deeper than a limit. -/
def generate (e : ChatEndpoint) (limit : Option Nat) (request : FixRequest) (network : Network) :
    Except Failure GeneratedFix × Network :=
  match userPrompt limit request with
  | .error f => (.error f, network)
  | .ok message =>
    let (answer, network) := network.post (e.callWith message)
    (e.interpret limit answer, network)

/-- The generator behind an endpoint. A `Generator` can fail only in ways that callers know of, so its readers go
as deep as the texts do; readers with a limit let `Failure.nesting` through to the callers (`generate`), and a
run that asks them can break off there. -/
def generator (e : ChatEndpoint) : Generator Network := fun request network =>
  let (answer, network) := e.generate none request network
  (answer.mapError Failure.toGeneration, network)

end ChatEndpoint

/-! ## Choosing an endpoint -/

/-- The settings that come from the environment. -/
structure Environment where
  openrouterKey : Option String := none
  ollamaUrl : Option String := none

/-- A text, unless it is absent or empty. -/
def nonempty? (s : Option String) : Option String := s.filter (!·.isEmpty)

/-- The address of a local server, with the version at its end. -/
def withVersion (url : String) : String :=
  let trimmed := trimSlashes url
  if Text.endsWith trimmed.toList "/v1".toList then url else trimmed ++ "/v1"

/-- The endpoint that is configured, if one is and it can be used. -/
def endpoint? (c : GeneratorConfig) (env : Environment) : Option ChatEndpoint :=
  match c.provider with
  | .none => none
  | .ollama =>
    let url := (nonempty? c.baseUrl).or (nonempty? env.ollamaUrl)
    some {
      baseUrl := (url.map withVersion).getD "http://localhost:11434/v1"
      model := (nonempty? c.model).getD "qwen2.5-coder"
      apiKey := "ollama"
      timeout := c.timeout
      temperature := c.temperature
      maxTokens := c.maxTokens }
  | .openrouter =>
    (nonempty? env.openrouterKey).map fun key => {
      baseUrl := (nonempty? c.baseUrl).getD "https://openrouter.ai/api/v1"
      model := (nonempty? c.model).getD "anthropic/claude-3.5-sonnet"
      apiKey := key
      timeout := c.timeout
      temperature := c.temperature
      maxTokens := c.maxTokens
      headers := [("HTTP-Referer", "https://codefixer.dev"), ("X-Title", "CodeFixer")] }

/-- Whether an endpoint is configured that cannot be used without a key. -/
def lacksKey (c : GeneratorConfig) (env : Environment) : Bool :=
  c.provider == .openrouter && (nonempty? env.openrouterKey).isNone

end PatchLint
