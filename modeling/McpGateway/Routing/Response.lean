import McpGateway.Routing.Effects

/-!
# The response phase

`HandleResponse`: what the router records when an answer comes back.  An initialize answer may record
that the client supports elicitation, a 404 drops the upstream session of the request's session and
server, and a 401 drops the user's token for the server.
-/

namespace McpGateway.Routing

open Go Session

structure ResponseHandler where
  jwtManager : Option JWTManager
  elicitationEnabled : Bool

/-- What the response phase knows of an exchange.  `initHost` is empty for an initialization that
comes directly from a client. -/
structure ResponseInput where
  statusCode : String
  gatewaySessionID : String
  responseSessionID : String
  initHost : String
  request : Option MCPRequest

structure ResponseDecision where
  setHeaders : GoMap String
  streamBody : Bool

namespace ResponseHandler

variable (h : ResponseHandler)

/-- How long the session in the answer still lasts; zero when it is no session of the gateway. -/
def sessionTTL (sid : String) : Gw Duration :=
  match h.jwtManager with
  | none => pure 0
  | some m => do
    let now ← op .now
    match m.getExpiresIn now sid with
    | .error _ => pure 0
    | .ok expiresAt => do
      let now ← op .now
      pure (expiresAt * second - now)

def declaresElicitation (input : ResponseInput) : Bool :=
  (match input.request with
    | some req => req.clientSupportsElicitation
    | none => false) && input.initHost = "" && input.responseSessionID ≠ ""

def recordElicitation (input : ResponseInput) : Gw Unit :=
  if declaresElicitation input then do
    let ttl ← h.sessionTTL input.responseSessionID
    if ttl ≤ 0 then pure ()
    else do
      let _ ← op (.setClientElicitation input.responseSessionID ttl)
      pure ()
  else pure ()

def dropSession (input : ResponseInput) : Gw Unit :=
  match input.request with
  | none => pure ()
  | some req =>
    if input.statusCode = "404" then do
      let _ ← op (.removeServerSession req.getSessionID req.serverName)
      pure ()
    else pure ()

def dropUserToken (input : ResponseInput) : Gw Unit :=
  match input.request with
  | none => pure ()
  | some req =>
    if input.statusCode = "401" ∧ h.elicitationEnabled then do
      let cfg ← op .loadConfig
      match cfg.getServerConfigByName req.serverName with
      | none => pure ()
      | some serverInfo =>
        if serverInfo.tokenURLElicitation.isSome then do
          let _ ← op (.deleteUserToken req.getSessionID req.serverName)
          pure ()
        else pure ()
    else pure ()

def streamsBody (input : ResponseInput) : Bool :=
  match input.request with
  | none => false
  | some req => req.isToolCall && req.clientElicitation && input.statusCode = "200"

def handleResponse (input : ResponseInput) : Gw ResponseDecision := do
  h.recordElicitation input
  dropSession input
  h.dropUserToken input
  pure {
    setHeaders :=
      if input.gatewaySessionID = "" then ∅
      else AList.insert sessionHeader input.gatewaySessionID ∅
    streamBody := streamsBody input }

end ResponseHandler

end McpGateway.Routing
