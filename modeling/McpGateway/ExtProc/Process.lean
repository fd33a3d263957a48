import McpGateway.ExtProc.A2A
import McpGateway.ExtProc.Rewriter
import McpGateway.Foundation.Headers
import McpGateway.Routing.Response
import McpGateway.Routing.Router

/-!
# The external processor

The message loop of `ExtProcServer.Process`, one message at a time: `step` takes the state of the
stream and a message of Envoy's and gives the answer and the next state.
-/

namespace McpGateway.ExtProc

open Go Config Routing Session Http

structure HttpHeaders where
  headers : Option Headers
  endOfStream : Bool

inductive ProcessingRequest where
  | requestHeaders (h : Option HttpHeaders)
  | requestBody (body : Bytes)
  | responseHeaders (h : Option HttpHeaders)
  | responseBody (body : Bytes) (endOfStream : Bool)

structure ImmediateResponse where
  status : Nat
  headers : Headers
  body : Bytes

inductive ProcessingResponse where
  | requestHeaders (m : Option Mutation)
  | requestBody (m : Option Mutation) (body : Option Bytes)
  | responseHeaders (m : Option Mutation) (streamed : Bool)
  | responseBody (body : Bytes)
  | immediate (r : ImmediateResponse)

/-- `ExtProcServer`. -/
structure Server where
  router : Router
  responseHandler : ResponseHandler
  maxRequestBodySize : Nat
  /-- `GetAgentByPath`; nil disables A2A routing -/
  a2aBroker : Option (String → String → Option A2AAgent)

/-- The variables of one run of `Process`. -/
structure Stream where
  localRequestHeaders : Option HttpHeaders := none
  requestPath : String := ""
  endOfStream : Bool := false
  mcpRequest : Option MCPRequest := none
  rewriter : Option SseRewriter := none
  a2a : Option A2AState := none
  a2aObserved : Bool := false

abbrev StepResult := ProcessingResponse × Option Stream

def getSingleValueHeader (headers : Option Headers) (name : String) : String :=
  ((headers.getD []).values name).headD ""

def headerMapToMap (headers : Option Headers) : GoMap String :=
  GoMap.ofPairs (headers.getD [])

/-! ## Answers -/

def immediateText (status : Nat) (message : String) : ProcessingResponse :=
  .immediate ⟨status, [("content-type", "text/plain")], bytes message⟩

def immediateJSON (status : Nat) (body : Bytes) : ProcessingResponse :=
  .immediate ⟨status, [("content-type", "application/json")], body⟩

def doNothingBody : ProcessingResponse := .requestBody none none

def decisionHeaders (d : Decision) : Headers :=
  (if d.authority = "" then [] else [(authorityHeader, d.authority)]) ++
    (if d.path = "" then [] else [(":path", d.path)]) ++
    d.setHeaders.pairs.filter fun kv => kv.1 ≠ authorityHeader ∧ kv.1 ≠ ":path"

def decisionToResponse (d : Decision) : ProcessingResponse :=
  match d.error with
  | some e =>
    if e.jsonRPCErr = "" then immediateText e.statusCode e.message
    else
      .immediate ⟨e.statusCode, decisionHeaders d ++ [("content-type", "text/event-stream")],
        bytes e.jsonRPCErr⟩
  | none => .requestBody (some ⟨d.unsetHeaders, decisionHeaders d⟩) d.bodyMutation

namespace Server

variable (s : Server)

/-! ## Request phases -/

def handleRequestHeaders (h : HttpHeaders) : Gw ProcessingResponse := do
  let cfg ← op .loadConfig
  let auth := getSingleValueHeader h.headers authorizationHeader
  let sub : Headers :=
    match extractSubClaim auth with
    | .ok "" => []
    | .ok sub => [(mcpVerifiedSubHeader, sub)]
    | .error _ => []
  pure (.requestHeaders (some
    ⟨internalOnlyHeaders, (authorityHeader, cfg.mcpGatewayExternalHostname) :: sub⟩))

/-- The headers phase of an A2A request: discovery goes to the broker as it is, an invocation is
pointed at its agent. -/
def a2aRequestHeaders (resolve : String → String → Option A2AAgent) (method path : String) :
    ProcessingResponse × A2AState :=
  if method ≠ "POST" then (.requestHeaders none, { discovery := true })
  else
    match (resolveA2APath path).bind fun p => resolve p.1 p.2 with
    | none =>
      (immediateJSON 200
        (a2aErrorBody none a2aErrInvalidParams "no agent registered for the requested path"), {})
    | some agent =>
      (.requestHeaders (some
        ⟨internalOnlyHeaders, [(authorityHeader, agent.hostname), (":path", a2aBackendPath)]⟩),
        { agent := agent.name })

def onRequestHeaders (st : Stream) (h : HttpHeaders) : Gw StepResult := do
  let path := getSingleValueHeader h.headers ":path"
  let method := getSingleValueHeader h.headers ":method"
  let st := { st with
    localRequestHeaders := some h
    endOfStream := h.endOfStream
    requestPath := path }
  match s.a2aBroker with
  | some resolve =>
    if isA2APath path then
      let (resp, a2a) := a2aRequestHeaders resolve method path
      pure (resp, some { st with a2a := some a2a })
    else do
      let resp ← handleRequestHeaders h
      pure (resp, some st)
  | none => do
    let resp ← handleRequestHeaders h
    pure (resp, some st)

def a2aRequestBody (st : A2AState) (body : Bytes) : ProcessingResponse × A2AState :=
  if st.discovery then (doNothingBody, st)
  else
    match parseA2ARequest body with
    | none =>
      (immediateJSON 200 (a2aErrorBody none a2aErrParse "invalid json-rpc request"), st)
    | some req =>
      if isSupportedA2AMethod req.method = false then
        (immediateJSON 200
          (a2aErrorBody req.id a2aErrUnsupportedOp "method not supported by this gateway"), st)
      else if req.pushConfig.isSome then
        (immediateJSON 200 (a2aErrorBody req.id a2aErrPushNotSupported
          "gateway does not support push notifications"), st)
      else
        (doNothingBody,
          { st with method := req.method, streaming := isA2AStreamingMethod req.method })

/-- The body phase of an MCP request.  Envoy buffers the body and sends it once, so the request of
the stream is still nil here. -/
def mcpRequestBody (st : Stream) (headers : Option Headers) (body : Bytes) : Gw StepResult :=
  match MCPRequest.unmarshal body with
  | none => pure (immediateText 400 "invalid request body", some st)
  | some parsed =>
    match MCPRequest.validate parsed with
    | .error _ =>
      pure (immediateText 400 "invalid mcp request", some { st with mcpRequest := parsed })
    | .ok _ => do
      let parsed := parsed.map fun r => { r with headers := headerMapToMap headers }
      let (d, mcpReq) ← s.router.routeRequest parsed
      pure (decisionToResponse d, some { st with mcpRequest := mcpReq })

def isJSONContent (headers : Option Headers) : Bool :=
  contains (toLower (getSingleValueHeader headers "content-type")) "application/json"

def tooLarge (body : Bytes) : Bool :=
  0 < s.maxRequestBodySize && s.maxRequestBodySize < body.length

def onRequestBody (st : Stream) (body : Bytes) : Gw StepResult :=
  if st.endOfStream then pure (doNothingBody, some st)
  else
    match st.localRequestHeaders.bind HttpHeaders.headers with
    | none => pure (immediateText 500 "internal error", none)
    | some hs =>
      if s.tooLarge body then pure (immediateText 413 "request body too large", none)
      else if isJSONContent (some hs) = false then pure (doNothingBody, some st)
      else if body = [] then pure (doNothingBody, some st)
      else
        match st.a2a with
        | some a =>
          let (resp, a) := a2aRequestBody a body
          pure (resp, some { st with a2a := some a })
        | none => s.mcpRequestBody st (some hs) body

/-! ## Response phases -/

def populateElicitation : Option MCPRequest → Gw (Option MCPRequest)
  | none => pure none
  | some req =>
    if req.isToolCall then do
      match ← op (.getClientElicitation req.getSessionID) with
      | .ok b => pure (some { req with clientElicitation := b })
      | .error _ => pure (some { req with clientElicitation := false })
    else pure (some req)

def onResponseHeaders (st : Stream) (h : Option HttpHeaders) : Gw StepResult :=
  match h, st.localRequestHeaders with
  | some h, some reqHeaders =>
    let statusCode := getSingleValueHeader h.headers ":status"
    match st.a2a with
    | some a =>
      let observe := a.streaming && statusCode = "200"
      pure (.responseHeaders none observe,
        if observe then some { st with a2aObserved := true } else none)
    | none => do
      let mcpReq ← populateElicitation st.mcpRequest
      let d ← s.responseHandler.handleResponse {
        statusCode := statusCode
        gatewaySessionID := getSingleValueHeader reqHeaders.headers sessionHeader
        responseSessionID := getSingleValueHeader h.headers sessionHeader
        initHost := getSingleValueHeader reqHeaders.headers initHostHeader
        request := mcpReq }
      let st := { st with mcpRequest := mcpReq }
      let resp := .responseHeaders (some ⟨[], d.setHeaders.pairs⟩) d.streamBody
      match d.streamBody, mcpReq with
      | true, some req => pure (resp, some { st with rewriter := some { req := req } })
      | _, _ => pure (resp, none)
  | _, _ => pure (immediateText 500 "internal error", none)

def onResponseBody (st : Stream) (body : Bytes) (endOfStream : Bool) : Gw StepResult := do
  match st.rewriter with
  | none => pure (.responseBody body, if endOfStream then none else some st)
  | some w => do
    let (out, w) ← w.process body
    if endOfStream then do
      let (rest, _) ← w.flush
      pure (.responseBody (out ++ rest), none)
    else pure (.responseBody out, some { st with rewriter := some w })

def step (st : Stream) : ProcessingRequest → Gw StepResult
  | .requestHeaders none => pure (immediateText 500 "internal error", none)
  | .requestHeaders (some h) => s.onRequestHeaders st h
  | .requestBody body => s.onRequestBody st body
  | .responseHeaders h => s.onResponseHeaders st h
  | .responseBody body eos => onResponseBody st body eos

end Server

end McpGateway.ExtProc
