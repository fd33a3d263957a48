import McpGateway.Routing.Effects

/-!
# The router of the 2025-11-25 protocol

`RouteRequest` with its branches: tool calls, prompt gets, elicitation responses and everything that
goes to the broker, the lazy initialization of upstream sessions behind a singleflight group, and
the resolution of per-user tokens.  Routing rewrites the request as it goes, so a branch returns the
request along with its decision.
-/

namespace McpGateway.Routing

open Go Config Session

/-- `Router202511` without what it reaches through calls. -/
structure Router where
  jwtManager : Option JWTManager
  elicitationEnabled : Bool

abbrev Routed := Decision × MCPRequest

namespace Router

variable (r : Router)

/-! ## Sessions and tokens -/

def validateSession (sessionID : String) : Gw (Option RouterError) :=
  if sessionID = "" then pure (some ⟨400, "no session ID found"⟩)
  else
    match r.jwtManager with
    | none => panic .nilDereference
    | some m => do
      let now ← op .now
      match m.validate now sessionID with
      | .ok false => pure none
      | _ => pure (some ⟨401, "session no longer valid"⟩)

/-- A token for one backend initialization against `host`, signed with the manager's key. -/
def generateBackendInitToken (host : String) : Gw (Except String String) :=
  if host = "" then pure (.error "host is required for backend-init token")
  else do
    let now ← op .now
    let uuid ← op .uuid
    op (.sign (JWTManager.backendInitClaims host now uuid))

/-! ## Upstream sessions -/

def isWithheld (key : String) : Bool :=
  let k := toLower key
  hasPrefix k ":" || k = sessionHeader || k = initHostHeader || k = routingKey ||
    k = mcpAuthorizedHeader || k = mcpVirtualServerHeader

def passThroughHeaders (mcpReq : MCPRequest) : GoMap String :=
  let kept := GoMap.ofPairs (mcpReq.headers.pairs.filter fun kv => !isWithheld kv.1)
  let h := AList.insert methodHeader mcpReq.method kept
  let h := AList.insert mcpServerNameHeader mcpReq.serverName h
  let h := if mcpReq.toolName = "" then h else AList.insert toolHeader mcpReq.toolName h
  let h := if mcpReq.promptName = "" then h else AList.insert promptHeader mcpReq.promptName h
  AList.insert "user-agent" "mcp-router" h

def sessionCloser (client : ClientSession) (sessionID : String) : Gw Unit := do
  op (.closeClient client)
  let _ ← op (.deleteSessions [sessionID])
  pure ()

def keepSession (m : JWTManager) (conf : MCPServer) (sessionID : String) (client : ClientSession) :
    Gw (Except RouterError String) := do
  let now ← op .now
  match m.getExpiresIn now sessionID with
  | .error _ => do
    sessionCloser client sessionID
    pure (.error ⟨401, "invalid session"⟩)
  | .ok expiresAt => do
    let now ← op .now
    let ttl : Duration := expiresAt * second - now
    if ttl ≤ 0 then do
      sessionCloser client sessionID
      pure (.error ⟨401, "invalid session"⟩)
    else do
      match ← op (.addSession sessionID conf.name client.id ttl) with
      | .error _ => do
        op (.closeClient client)
        pure (.error ⟨500, "internal error"⟩)
      | .ok _ => do
        op (.afterFunc ttl client sessionID)
        pure (.ok client.id)

def openSession (m : JWTManager) (routingCfg : MCPServersConfig) (conf : MCPServer)
    (headers : GoMap String) (mcpReq : MCPRequest) : Gw (Except RouterError String) := do
  match ← generateBackendInitToken conf.hostname with
  | .error e => pure (.error ⟨500, "failed to generate backend-init token: " ++ e⟩)
  | .ok initToken => do
    let headers := AList.insert initHostHeader conf.hostname
      (AList.insert routingKey initToken headers)
    match ← op (.initForClient routingCfg.mcpGatewayInternalHostname conf headers
        mcpReq.clientElicitation) with
    | .error e => pure (.error ⟨500, "failed to create session for mcp server: " ++ e⟩)
    | .ok client => keepSession m conf mcpReq.getSessionID client

/-- The user's token for the server replaces the client's authorization, when there is one. -/
def withUserToken (conf : MCPServer) (mcpReq : MCPRequest) (headers : GoMap String) :
    Gw (GoMap String) :=
  if r.elicitationEnabled ∧ conf.tokenURLElicitation.isSome then do
    match ← op (.getUserToken mcpReq.getSessionID conf.name) with
    | .ok (some userToken) => pure (AList.insert authorizationHeader userToken headers)
    | _ => pure headers
  else pure headers

def readClientElicitation (mcpReq : MCPRequest) : Gw (Except String MCPRequest) :=
  if mcpReq.clientElicitation then pure (.ok mcpReq)
  else do
    match ← op (.getClientElicitation mcpReq.getSessionID) with
    | .error e => pure (.error e)
    | .ok b => pure (.ok { mcpReq with clientElicitation := b })

/-- The function run under the singleflight key: look again, and initialize when there is still no
session. -/
def initializeOnce (routingCfg : MCPServersConfig) (conf : MCPServer) (mcpReq : MCPRequest) :
    Gw (Except RouterError String × MCPRequest) := do
  match ← op (.getSession mcpReq.getSessionID) with
  | .error e => pure (.error ⟨500, "failed to check for existing session: " ++ e⟩, mcpReq)
  | .ok found =>
    match found.lookup mcpReq.serverName with
    | some id => pure (.ok id, mcpReq)
    | none => do
      let headers ← r.withUserToken conf mcpReq (passThroughHeaders mcpReq)
      match ← readClientElicitation mcpReq with
      | .error e => pure (.error ⟨500, "failed to read client elicitation flag: " ++ e⟩, mcpReq)
      | .ok mcpReq =>
        match r.jwtManager with
        | none => panic .nilDereference
        | some m => do
          let res ← openSession m routingCfg conf headers mcpReq
          pure (res, mcpReq)

/-- `singleflight.Group.Do`: the leader runs the function and publishes its result, the others wait
for it. -/
def flightDo (key : String) (fn : Gw (Except RouterError String × MCPRequest))
    (mcpReq : MCPRequest) : Gw (Except RouterError String × MCPRequest) := do
  match ← op (.flightJoin key) with
  | .leader call => do
    let (res, mcpReq) ← fn
    op (.flightDone key call res)
    pure (res, mcpReq)
  | .follower call => do
    let res ← op (.flightWait call)
    pure (res, mcpReq)

def groupKey (sessionID serverName : String) : String :=
  sessionID ++ "/" ++ serverName

def initializeMCPServerSession (mcpReq : MCPRequest) :
    Gw (Except RouterError String × MCPRequest) := do
  let routingCfg ← op .loadConfig
  match routingCfg.getServerConfigByName mcpReq.serverName with
  | none => pure (.error ⟨500, "failed check for server: " ++ unknownServer⟩, mcpReq)
  | some conf =>
    flightDo (groupKey mcpReq.getSessionID mcpReq.serverName)
      (r.initializeOnce routingCfg conf mcpReq) mcpReq

/-! ## Routing to an upstream -/

/-- Forward with the upstream session `remoteSession`. -/
def forwardToUpstream (serverInfo : MCPServer) (headers : GoMap String) (remoteSession : String)
    (mcpReq : MCPRequest) : Routed :=
  let mcpReq := { mcpReq with backendSessionID := remoteSession }
  let headers := AList.insert sessionHeader remoteSession headers
  let body := mcpReq.toBytes
  match serverInfo.path with
  | none => (.reject 500 "internal error", mcpReq)
  | some path =>
    ({ authority := serverInfo.hostname
       path := path
       setHeaders := AList.insert "content-length" (itoa body.length) headers
       unsetHeaders := internalOnlyHeaders
       bodyMutation := some body }, mcpReq)

def routeToUpstream (mcpReq : MCPRequest) (serverInfo : MCPServer) (headers : GoMap String) :
    Gw Routed := do
  match ← op (.getSession mcpReq.getSessionID) with
  | .error _ => pure (.reject 500 "internal error", mcpReq)
  | .ok found =>
    let remoteSession := found.get mcpReq.serverName
    if remoteSession ≠ "" then pure (forwardToUpstream serverInfo headers remoteSession mcpReq)
    else do
      let (res, mcpReq) ← r.initializeMCPServerSession mcpReq
      match res with
      | .error e => pure (.reject e.statusCode e.text, mcpReq)
      | .ok id => pure (forwardToUpstream serverInfo headers id mcpReq)

inductive TokenResolution where
  /-- a token is on record: it is sent as the authorization -/
  | injected (token : String)
  /-- the user is asked for one -/
  | elicit (requestID elicitationID : String)
  /-- the call fails with a tool error -/
  | toolError (text : String)
  | internalError

def resolveUpstreamToken (mcpReq : MCPRequest) (serverInfo : MCPServer) : Gw TokenResolution := do
  match ← op (.getUserToken mcpReq.getSessionID serverInfo.name) with
  | .error _ => pure .internalError
  | .ok (some token) => pure (.injected token)
  | .ok none =>
    match extractSubClaim (mcpReq.getSingleHeaderValue authorizationHeader) with
    | .error e => pure (.toolError ("authorization token missing sub claim: " ++ e))
    | .ok sub => do
      match ← op (.getClientElicitation mcpReq.getSessionID) with
      | .error _ => pure .internalError
      | .ok false =>
        pure (.toolError
          "upstream server requires a per-user token but client does not support elicitation")
      | .ok true => do
        match ← op (.elicitationStore ⟨mcpReq.getSessionID, serverInfo.name, sub⟩) with
        | .error _ => pure .internalError
        | .ok elicitationID => pure (.elicit (Go.text mcpReq.id.marshal) elicitationID)

def hint (key : String) : Option Bool → String
  | none => key ++ "=unspecified"
  | some true => key ++ "=true"
  | some false => key ++ "=false"

def annotationHints (a : ToolAnnotation) : String :=
  ",".intercalate [hint "readOnly" a.readOnlyHint, hint "destructive" a.destructiveHint,
    hint "idempotent" a.idempotentHint, hint "openWorld" a.openWorldHint]

def toolError (mcpReq : MCPRequest) (text : String) : Decision where
  error := some { statusCode := 200, jsonRPCErr := buildSSEToolError mcpReq.id text }
  setHeaders := AList.insert sessionHeader mcpReq.getSessionID ∅

/-- The headers of a tool call to `serverInfo`. -/
def toolHeaders (table : Table) (toolName : String) (serverInfo : MCPServer)
    (mcpReq : MCPRequest) : GoMap String :=
  let h : GoMap String :=
    match table.toolAnnotations serverInfo.id toolName with
    | some a => AList.insert toolAnnotationsHeader (annotationHints a) ∅
    | none => ∅
  AList.insert mcpServerNameHeader serverInfo.name
    (AList.insert toolHeader (trimPrefix toolName serverInfo.namePrefix)
      (AList.insert methodHeader mcpReq.method h))

/-! ## The broker and the hairpin -/

def reinjectInternal (mcpReq : MCPRequest) (headers : GoMap String) : GoMap String :=
  internalOnlyHeaders.foldl (fun h name =>
    if mcpReq.getSingleHeaderValue name = "" then h
    else AList.insert name (mcpReq.getSingleHeaderValue name) h) headers

def brokerDecision (mcpReq : MCPRequest) : Decision where
  brokerPass := true
  setHeaders := reinjectInternal mcpReq
    (AList.insert mcpServerNameHeader "mcpBroker" (AList.insert methodHeader mcpReq.method ∅))

def hairpinDecision (mcpReq : MCPRequest) : Decision where
  authority := mcpReq.getSingleHeaderValue initHostHeader
  setHeaders := AList.insert methodHeader mcpReq.method ∅
  unsetHeaders := [initHostHeader, routingKey] ++ internalOnlyHeaders

def isHairpin (mcpReq : MCPRequest) : Bool :=
  mcpReq.isInitializeRequest && mcpReq.getSingleHeaderValue initHostHeader ≠ ""

def routeBrokerPassthrough (mcpReq : MCPRequest) : Gw Routed :=
  if isHairpin mcpReq then
    match r.jwtManager with
    | none => pure (.reject 500 "internal error", mcpReq)
    | some m => do
      let now ← op .now
      match m.validateBackendInitToken now (mcpReq.getSingleHeaderValue routingKey)
          (mcpReq.getSingleHeaderValue initHostHeader) with
      | .error _ => pure (.reject 400 "bad request", mcpReq)
      | .ok _ => pure (hairpinDecision mcpReq, mcpReq)
  else pure (brokerDecision mcpReq, mcpReq)

/-! ## The branches -/

def routeToolToServer (mcpReq : MCPRequest) (serverInfo : MCPServer) (headers : GoMap String) :
    Gw Routed :=
  if r.elicitationEnabled ∧ serverInfo.tokenURLElicitation.isSome then do
    match ← resolveUpstreamToken mcpReq serverInfo with
    | .internalError => pure (.reject 500 "internal error", mcpReq)
    | .toolError text => pure (toolError mcpReq text, mcpReq)
    | .elicit requestID elicitationID =>
      pure ({ path := "/mcp/elicitation"
              setHeaders := AList.insert elicitationIDHeader elicitationID
                (AList.insert elicitationRequestIDHeader requestID
                  (AList.insert mcpServerNameHeader "mcpBroker" headers)) }, mcpReq)
    | .injected token =>
      r.routeToUpstream mcpReq serverInfo (AList.insert authorizationHeader token headers)
  else r.routeToUpstream mcpReq serverInfo headers

def routeToolCall (table : Table) (mcpReq : MCPRequest) : Gw Routed :=
  let toolName := mcpReq.toolName
  if toolName = "" then pure (.reject 400 "no tool name set", mcpReq)
  else do
    match ← r.validateSession mcpReq.getSessionID with
    | some e => pure (.reject e.statusCode e.text, mcpReq)
    | none =>
      match table.routeOf toolName with
      | none =>
        if table.isBrokerTool toolName then r.routeBrokerPassthrough mcpReq
        else pure (toolError mcpReq "MCP error -32602: Tool not found", mcpReq)
      | some route =>
        let serverInfo := routeToMCPServer route
        let headers := toolHeaders table toolName serverInfo mcpReq
        let mcpReq := ({ mcpReq with serverName := serverInfo.name }).reWriteToolName
          (trimPrefix toolName serverInfo.namePrefix)
        r.routeToolToServer mcpReq serverInfo headers

/-- The headers of a prompt get from `serverInfo`. -/
def promptHeaders (promptName : String) (serverInfo : MCPServer) (mcpReq : MCPRequest) : GoMap String :=
  AList.insert mcpServerNameHeader serverInfo.name
    (AList.insert promptHeader (trimPrefix promptName serverInfo.namePrefix)
      (AList.insert methodHeader mcpReq.method ∅))

def routePromptGet (table : Table) (mcpReq : MCPRequest) : Gw Routed :=
  let promptName := mcpReq.promptName
  if promptName = "" then pure (.reject 400 "no prompt name set", mcpReq)
  else do
    match ← r.validateSession mcpReq.getSessionID with
    | some e => pure (.reject e.statusCode e.text, mcpReq)
    | none =>
      match table.lookupPrompt promptName with
      | none =>
        pure ({ error := some { statusCode := 200, jsonRPCErr := promptNotFound }
                setHeaders := AList.insert sessionHeader mcpReq.getSessionID ∅ }, mcpReq)
      | some route =>
        let serverInfo := routeToMCPServer route
        let headers := promptHeaders promptName serverInfo mcpReq
        let mcpReq := ({ mcpReq with serverName := serverInfo.name }).reWritePromptName
          (trimPrefix promptName serverInfo.namePrefix)
        r.routeToUpstream mcpReq serverInfo headers

def elicitationDecision (conf : MCPServer) (path : String) (entry : IdEntry) (body : Bytes) :
    Decision where
  authority := conf.hostname
  path := path
  setHeaders := AList.insert "content-length" (itoa body.length)
    (AList.insert mcpServerNameHeader entry.serverName (AList.insert sessionHeader entry.sessionID ∅))
  unsetHeaders := internalOnlyHeaders
  bodyMutation := some body

def routeElicitationResponse (mcpReq : MCPRequest) : Gw Routed := do
  match ← r.validateSession mcpReq.getSessionID with
  | some e => pure (.reject e.statusCode e.text, mcpReq)
  | none => do
    let gatewayID := mcpReq.id.sprint
    match ← op (.idLookup gatewayID) with
    | .error _ => pure (.reject 500 "internal error", mcpReq)
    | .ok none => pure (.reject 400 "unknown elicitation ID", mcpReq)
    | .ok (some entry) =>
      if entry.gatewaySessionID ≠ mcpReq.getSessionID then
        pure (.reject 403 "session mismatch", mcpReq)
      else do
        let mcpReq := { mcpReq with id := entry.backendID }
        let routingCfg ← op .loadConfig
        match routingCfg.getServerConfigByName entry.serverName with
        | none => pure (.reject 500 "internal error", mcpReq)
        | some conf =>
          match conf.path with
          | none => pure (.reject 500 "internal error", mcpReq)
          | some path => do
            op (.idRemove gatewayID)
            pure (elicitationDecision conf path entry mcpReq.toBytes, mcpReq)

/-- The switch of `RouteRequest`. -/
def routeByMethod (table : Table) (mcpReq : MCPRequest) : Gw Routed :=
  if mcpReq.isElicitationResponse then r.routeElicitationResponse mcpReq
  else if mcpReq.method = methodToolCall then r.routeToolCall table mcpReq
  else if mcpReq.method = methodPromptGet then r.routePromptGet table mcpReq
  else r.routeBrokerPassthrough mcpReq

/-- Route a parsed request; `none` stands for a body that was not parsed. -/
def routeRequest : Option MCPRequest → Gw (Decision × Option MCPRequest)
  | none => pure (.reject 400 "no parsed request", none)
  | some mcpReq => do
    let table ← op .loadTable
    let (d, mcpReq) ← r.routeByMethod table mcpReq
    pure (d, some mcpReq)

end Router

end McpGateway.Routing
