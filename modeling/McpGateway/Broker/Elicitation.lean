import McpGateway.Routing.Effects

/-!
# The answer that asks for a token

A tool call to a server that needs a token of the user is sent to the broker instead, which answers
it with the URL of the page where the user can enter one.

- `serveHTTP_status` lists the status codes of that answer.
-/

namespace McpGateway.Broker

open Go Config Routing

def urlElicitationRequiredCode : String := "-32042"

structure ElicitationRequest where
  method : String
  requestID : String
  elicitationID : String
  sessionID : String
  forwardedProto : String

structure ElicitationReply where
  status : Nat
  headers : List (String × String) := []
  body : String := ""
  deriving DecidableEq, Repr

structure ElicitationHandler where
  /-- `ElicitationMap.Lookup`: the entry of an id that can still be claimed -/
  elicitationMap : String → Except String (Option ElicitationEntry)
  config : MCPServersConfig

namespace ElicitationHandler

variable (h : ElicitationHandler)

def buildElicitationURL (serverName elicitationID : String) (r : ElicitationRequest) : String :=
  let escapedID := Url.queryEscape elicitationID
  let configured := ((h.config.getServerConfigByName serverName).bind
    (·.tokenURLElicitation)).filter fun conf => conf.url ≠ ""
  match configured with
  | some conf => conf.url ++ "?elicitation_id=" ++ escapedID
  | none =>
    let scheme := if r.forwardedProto = "" then "https" else r.forwardedProto
    scheme ++ "://" ++ h.config.mcpGatewayExternalHostname ++ "/tokens?elicitation_id=" ++ escapedID

def elicitationEvent (requestID elicitationID elicitURL : String) : String :=
  "\nevent: message\ndata: \x7b\"jsonrpc\":\"2.0\",\"id\":" ++ requestID ++
    ",\"error\":\x7b\"code\":" ++ urlElicitationRequiredCode ++
    ",\"message\":\"URL elicitation required\",\"data\":\x7b\"elicitations\":" ++
    "[\x7b\"mode\":\"url\",\"elicitationId\":" ++ quote elicitationID ++ ",\"url\":" ++ quote elicitURL ++
    ",\"message\":\"Authorization is required to access this service.\"\x7d]\x7d\x7d\x7d\n\n"

def serveHTTP (r : ElicitationRequest) : ElicitationReply :=
  if r.method ≠ "POST" then ⟨405, [], ""⟩
  else if r.requestID = "" ∨ r.elicitationID = "" then ⟨400, [], ""⟩
  else
    match h.elicitationMap r.elicitationID with
    | .error _ => ⟨500, [], ""⟩
    | .ok none => ⟨400, [], ""⟩
    | .ok (some entry) =>
      let session := if r.sessionID = "" then [] else [(sessionHeader, r.sessionID)]
      ⟨200, ("content-type", "text/event-stream") :: session,
        elicitationEvent r.requestID r.elicitationID
          (h.buildElicitationURL entry.serverName r.elicitationID r)⟩

lemma serveHTTP_status (r : ElicitationRequest) : (h.serveHTTP r).status ∈ [200, 400, 405, 500] := by
  unfold serveHTTP
  split
  · decide
  · split
    · decide
    · split
      · decide
      · decide
      · exact mem_cons_self

end ElicitationHandler

end McpGateway.Broker
