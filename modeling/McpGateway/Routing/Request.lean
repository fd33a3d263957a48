import McpGateway.Foundation.Json

/-!
# Parsed requests

The JSON-RPC request the router works on, its decoding from a body, its structural validation and
the questions routing asks of it.
-/

namespace McpGateway.Routing

open Go

/-! ## Header names -/

def mcpServerNameHeader : String := "x-mcp-servername"
def toolAnnotationsHeader : String := "x-mcp-annotation-hints"
def toolHeader : String := "x-mcp-toolname"
def promptHeader : String := "x-mcp-promptname"
def methodHeader : String := "x-mcp-method"
def sessionHeader : String := "mcp-session-id"
def authorityHeader : String := ":authority"
def authorizationHeader : String := "authorization"
def routingKey : String := "router-key"
def initHostHeader : String := "mcp-init-host"
def mcpAuthorizedHeader : String := "x-mcp-authorized"
def mcpVirtualServerHeader : String := "x-mcp-virtualserver"
def mcpVerifiedSubHeader : String := "x-mcp-verified-sub"
def elicitationRequestIDHeader : String := "x-mcp-request-id"
def elicitationIDHeader : String := "x-mcp-elicitation-id"

def internalOnlyHeaders : List String :=
  [mcpAuthorizedHeader, mcpVirtualServerHeader, mcpVerifiedSubHeader]

def methodToolCall : String := "tools/call"
def methodPromptGet : String := "prompts/get"
def methodInitialize : String := "initialize"

/-! ## The request -/

/-- A JSON-RPC request or response of a client, with what the gateway learns about it.  The source
caches the session id in a field on first use; the headers never change after that, so the model
reads it from the headers every time. -/
structure MCPRequest where
  id : Any := .nil
  jsonrpc : String := ""
  method : String := ""
  params : Option (GoMap Any) := none
  result : Option (GoMap Any) := none
  headers : GoMap String := ∅
  serverName : String := ""
  backendSessionID : String := ""
  clientElicitation : Bool := false

namespace MCPRequest

/-- Store one field of the body; the type of the value decides whether that is possible. -/
def setField (field : String) (v : Json) (r : MCPRequest) : Option MCPRequest :=
  match field with
  | "id" => (Any.ofJson v).map fun a => { r with id := a }
  | "jsonrpc" => (Struct.decodeString v r.jsonrpc).map fun s => { r with jsonrpc := s }
  | "method" => (Struct.decodeString v r.method).map fun s => { r with method := s }
  | "params" => (Struct.decodeMap v r.params).map fun m => { r with params := m }
  | "result" => (Struct.decodeMap v r.result).map fun m => { r with result := m }
  | _ => some r

/-- `json.Unmarshal(body, &mcpRequest)` for a request pointer that is still nil: the text `null`
leaves it nil. -/
def unmarshal (body : Bytes) : Option (Option MCPRequest) := do
  match ← Json.parse body with
  | .null => some none
  | v => do
    let r ← Struct.decode ["id", "jsonrpc", "method", "params", "result"] setField v {}
    some (some r)

lemma unmarshal_unbound {body : Bytes} {r : MCPRequest} (h : unmarshal body = some (some r)) :
    r.serverName = "" ∧ r.backendSessionID = "" := by
  obtain ⟨v, -, hv⟩ := bind_eq_some_iff.1 h
  split at hv
  next => cases hv
  next =>
    obtain ⟨r', hr', hsome⟩ := bind_eq_some_iff.1 hv
    cases hsome
    refine Struct.decode_keeps
      (P := fun r : MCPRequest => r.serverName = "" ∧ r.backendSessionID = "") ?_ hr' ⟨rfl, rfl⟩
    intro n v s s' hset hs
    unfold setField at hset
    split at hset
    all_goals first
      | (obtain ⟨_, -, rfl⟩ := map_eq_some_iff.1 hset; exact hs)
      | (cases hset; exact hs)

variable (r : MCPRequest)

def getSingleHeaderValue (key : String) : String :=
  r.headers.get key

def getSessionID : String :=
  r.headers.get sessionHeader

lemma getSessionID_congr {a b : MCPRequest} (h : a.headers = b.headers) :
    a.getSessionID = b.getSessionID := by
  rw [getSessionID, getSessionID, h]

def isNotificationRequest : Bool :=
  hasPrefix r.method "notifications"

def isToolCall : Bool :=
  r.method = methodToolCall

def isPromptGet : Bool :=
  r.method = methodPromptGet

def isInitializeRequest : Bool :=
  r.method = methodInitialize || r.method = "notifications/initialized"

def param (key : String) : Option Any :=
  r.params.bind (·.lookup key)

def clientSupportsElicitation : Bool :=
  r.method = methodInitialize &&
    (match (r.param "capabilities").bind Any.asMap with
      | some caps => (caps.lookup "elicitation").isSome
      | none => false)

def isElicitationResponse : Bool :=
  r.method = "" &&
    (match (r.result.bind (·.lookup "action")).bind Any.asString with
      | some a => a = "accept" || a = "decline" || a = "cancel"
      | none => false)

inductive InvalidRequest where
  | jsonInvalid
  | version
  | noMethod
  | noID (method : String)
  deriving DecidableEq, Repr

def InvalidRequest.text : InvalidRequest → String
  | .jsonInvalid => "JSON invalid"
  | .version => "json rpc version invalid"
  | .noMethod => "no method set in json rpc payload"
  | .noID m => "no id set in json rpc payload for none notification method: " ++ m ++ " "

def validate : Option MCPRequest → Except InvalidRequest Unit
  | none => .error .jsonInvalid
  | some r =>
    if r.jsonrpc ≠ "2.0" then .error .version
    else if r.method = "" ∧ r.isElicitationResponse = false then .error .noMethod
    else if r.id.isNil ∧ r.isNotificationRequest = false then .error (.noID r.method)
    else .ok ()

/-- The `name` parameter, when it is a string. -/
def nameParam : String :=
  ((r.param "name").bind Any.asString).getD ""

def toolName : String :=
  if r.isToolCall then r.nameParam else ""

def promptName : String :=
  if r.isPromptGet then r.nameParam else ""

/-- Replace the `name` parameter. -/
def rewriteName (name : String) : MCPRequest :=
  { r with params := some (AList.insert "name" (.string name) (r.params.getD ∅)) }

def reWriteToolName (actualTool : String) : MCPRequest :=
  r.rewriteName actualTool

def reWritePromptName (actualPrompt : String) : MCPRequest :=
  r.rewriteName actualPrompt

def jsonField (name : String) (value : Bytes) : Bytes :=
  Json.quote name ++ bytes ":" ++ value

/-- `json.Marshal(r)`: empty fields are left out, except the id and the version.  Values decoded from
JSON can always be written, so the error result of the source never occurs. -/
def toBytes : Bytes :=
  let mapField (name : String) (m : Option (GoMap Any)) : List Bytes :=
    match m with
    | some m => if m.entries.isEmpty then [] else [jsonField name (Any.marshalMap m)]
    | none => []
  Json.bracket "\x7b" "\x7d" <|
    [jsonField "id" r.id.marshal, jsonField "jsonrpc" (Json.quote r.jsonrpc)] ++
    (if r.method = "" then [] else [jsonField "method" (Json.quote r.method)]) ++
    mapField "params" r.params ++ mapField "result" r.result

end MCPRequest

end McpGateway.Routing
