import McpGateway.Foundation.Json

/-!
# A2A requests

Path resolution, the envelope parse and the error bodies of the A2A side of the external processor.
`passesGate` is the whole condition under which a body may go on to an agent.
-/

namespace McpGateway.ExtProc

open Go

def a2aPathPrefix : String := "/a2a/"
def a2aBackendPath : String := "/a2a"

def a2aErrParse : Int := -32700
def a2aErrInvalidParams : Int := -32602
def a2aErrPushNotSupported : Int := -32003
def a2aErrUnsupportedOp : Int := -32004

structure A2AAgent where
  name : String
  hostname : String
  deriving DecidableEq, Repr

structure A2AState where
  discovery : Bool := false
  agent : String := ""
  method : String := ""
  streaming : Bool := false
  deriving DecidableEq, Repr

def isA2APath (path : String) : Bool :=
  hasPrefix path a2aPathPrefix

def supportedA2AMethods : List String :=
  ["SendMessage", "SendStreamingMessage", "GetTask", "CancelTask", "SubscribeToTask"]

def isSupportedA2AMethod (method : String) : Bool :=
  supportedA2AMethods.contains method

def isA2AStreamingMethod (method : String) : Bool :=
  method = "SendStreamingMessage" || method = "SubscribeToTask"

/-- `strings.Trim(s, "/")` on runes. -/
def trimSlashes (cs : List Char) : List Char :=
  ((cs.dropWhile (· == '/')).reverse.dropWhile (· == '/')).reverse

/-- The namespace and the agent prefix of `/a2a/{namespace}/{prefix}`; a query and further segments
are ignored. -/
def resolveA2APath (path : String) : Option (String × String) :=
  let rest := (trimPrefix path a2aPathPrefix).toList.takeWhile (· != '?')
  match splitList (· == '/') (trimSlashes rest) with
  | ns :: agent :: _ =>
    if ns = [] ∨ agent = [] then none else some (String.ofList ns, String.ofList agent)
  | _ => none

/-- The envelope of a request; `id` and `pushConfig` are kept as they were written. -/
structure A2ARequest where
  method : String := ""
  id : Option Json := none
  pushConfig : Option Json := none

namespace A2ARequest

def setConfiguration (v : Json) (r : A2ARequest) : Option A2ARequest :=
  Struct.decode ["pushNotificationConfig"] (fun _ v r => some { r with pushConfig := some v }) v r

def setParams (v : Json) (r : A2ARequest) : Option A2ARequest :=
  Struct.decode ["configuration"] (fun _ v r => setConfiguration v r) v r

def setField (field : String) (v : Json) (r : A2ARequest) : Option A2ARequest :=
  match field with
  | "method" => (Struct.decodeString v r.method).map fun s => { r with method := s }
  | "id" => some { r with id := some v }
  | "params" => setParams v r
  | _ => some r

end A2ARequest

def parseA2ARequest (body : Bytes) : Option A2ARequest := do
  let v ← Json.parse body
  Struct.decode ["method", "id", "params"] A2ARequest.setField v {}

/-- The body is a JSON-RPC envelope of a supported method without a push-notification config. -/
def passesGate (body : Bytes) : Bool :=
  match parseA2ARequest body with
  | none => false
  | some req => isSupportedA2AMethod req.method && !req.pushConfig.isSome

def a2aErrorBody (id : Option Json) (code : Int) (message : String) : Bytes :=
  bytes "\x7b\"jsonrpc\":\"2.0\",\"id\":" ++ (id.getD .null).compact ++
    bytes (",\"error\":\x7b\"code\":" ++ toString code ++ ",\"message\":") ++ Json.quote message ++
    bytes "\x7d\x7d"

end McpGateway.ExtProc
