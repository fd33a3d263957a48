import McpGateway.Broker.Sessions
import McpGateway.Routing.Protocol

/-!
# Per-user tool lists

A `tools/list` request asks every user-specific server for the caller's own tools, each over a pooled
connection of the caller's session, and keeps the upstream session id of that connection in the
session cache.  The servers are asked at once, so the code of one server is a task of its own.
-/

namespace McpGateway.Broker

open Go Effect Routing Session Upstream

variable (srv : UserSpecificServer) (userHeaders : GoMap String) (gatewaySessionID : String)

def getOrCreateUserSession : Gw (Except String ClientSession) := do
  let key := userSessionKey gatewaySessionID srv.name
  match ← op (.poolLoad key userHeaders) with
  | some cached => pure (.ok cached)
  | none => do
    match ← op (.connectUser srv.url userHeaders) with
    | .error e => pure (.error e)
    | .ok session => do
      match ← op (.poolLoadOrStore key session userHeaders) with
      | (winner, true) => do
        op (.closeClient session)
        pure (.ok winner)
      | (_, false) => pure (.ok session)

def evictUserSession (serverName : String) : Gw Unit :=
  closePoolEntry (userSessionKey gatewaySessionID serverName)

def relistTools : Gw (Except String (ClientSession × List (Option Tool))) := do
  evictUserSession gatewaySessionID srv.name
  match ← getOrCreateUserSession srv userHeaders gatewaySessionID with
  | .error e => pure (.error ("reconnect: " ++ e))
  | .ok session => do
    match ← op (.listTools session) with
    | .ok tools => pure (.ok (session, tools))
    | .error e => do
      evictUserSession gatewaySessionID srv.name
      pure (.error ("list tools: " ++ e))

def listUserTools : Gw (Except String (ClientSession × List (Option Tool))) := do
  match ← getOrCreateUserSession srv userHeaders gatewaySessionID with
  | .error e => pure (.error ("connect: " ++ e))
  | .ok session => do
    match ← op (.listTools session) with
    | .ok tools => pure (.ok (session, tools))
    | .error _ => relistTools srv userHeaders gatewaySessionID

def serveUserTool (tool : Tool) : Tool :=
  { tool with
    name := srv.namePrefix ++ tool.name
    metadata := some [(gatewayServerID, .string srv.id)] }

def doFetchTools (policy : InvalidToolPolicy) : Gw (Except String (List Tool × String)) := do
  match ← listUserTools srv userHeaders gatewaySessionID with
  | .error e => pure (.error e)
  | .ok (session, listed) =>
    let (validTools, invalids) := validateTools (listed.filterMap id)
    if invalids ≠ [] ∧ policy = .rejectServer then
      pure (.error ("server " ++ srv.id ++ " rejected: " ++ itoa invalids.length ++ " invalid tools"))
    else pure (.ok (validTools.map (serveUserTool srv), session.id))

def cacheUserSession (sessionID : String) : Gw Unit :=
  if sessionID = "" then pure ()
  else do
    let now ← op .now
    let ttl := gatewaySessionTTL gatewaySessionID now
    if ttl ≤ 0 then pure ()
    else do
      let _ ← op (.addSession gatewaySessionID srv.name sessionID ttl)
      pure ()

def fetchToolsFromServer (policy : InvalidToolPolicy) : Gw (Except String (List Tool)) := do
  match ← doFetchTools srv userHeaders gatewaySessionID policy with
  | .error e => pure (.error e)
  | .ok (tools, sessionID) => do
    cacheUserSession srv gatewaySessionID sessionID
    pure (.ok tools)

/-! ## The request -/

def gatewaySessionHeader : String := "Mcp-Session-Id"

/-- `headers.Get(name)` for a canonical name. -/
def headerGet (headers : HttpHeader) (name : String) : String :=
  ((headers.lookup name).getD []).headD ""

def isWithheldFromUser (key : String) : Bool :=
  let lower := toLower key
  lower = "mcp-session-id" || hasPrefix lower "x-mcp-" || lower = "cookie" ||
    lower = "proxy-authorization"

def filterUserHeaders (h : HttpHeader) : GoMap String :=
  GoMap.ofPairs (h.pairs.filterMap fun kv =>
    if isWithheldFromUser kv.1 then none else kv.2.head?.map fun v => (kv.1, v))

/-- The tools of one user-specific server for a `tools/list` request.  A server that fails is left
out. -/
def fetchUserSpecificTools (policy : InvalidToolPolicy) (headers : HttpHeader) : Gw (List Tool) := do
  let sid := headerGet headers gatewaySessionHeader
  if sid = "" then pure []
  else do
    match ← fetchToolsFromServer srv (filterUserHeaders headers) sid policy with
    | .error _ => pure []
    | .ok tools => pure tools

/-- A `tools/list` request as one user-specific server sees it: the session is checked before the
request is dispatched. -/
def serveToolsList (m : JWTManager) (policy : InvalidToolPolicy) (headers : HttpHeader) :
    Gw (Except HttpReply (List Tool)) := do
  let sid := headerGet headers gatewaySessionHeader
  match ← checkSession m sid with
  | some reply => do
    dropSession sid
    pure (.error reply)
  | none => do
    let tools ← fetchUserSpecificTools srv policy headers
    pure (.ok tools)

/-! ## Its protocol -/

/-- What asking a user-specific server for the tools of a session may call: it stores an upstream
session only under the session of the request, which is a token of the gateway, and the server it
asked. -/
def FetchProtocol (signer : Signer) (srv : UserSpecificServer) (G : String) (_ : List GwEv) : Op → Prop
  | .now | .connectUser .. | .listTools _ | .closeClient _ | .dropServerSession _ => True
  | .poolLoad key _ | .poolLoadOrStore key _ _ | .poolDelete key =>
    key = userSessionKey G srv.name ∧ IsToken signer G
  | .addSession key S _ _ => key = G ∧ S = srv.name ∧ IsToken signer G
  | _ => False

section Obeys

variable {srv} {G : String} {signer : Signer} {tr : List GwEv} (hG : IsToken signer G)

include hG

lemma getOrCreateUserSession_obeys :
    (getOrCreateUserSession srv userHeaders G).Obeys (FetchProtocol signer srv G)
      (fun _ _ => True) tr := by
  refine obeys_op.2 ⟨⟨rfl, hG⟩, fun cached => ?_⟩
  cases cached with
  | some session => exact trivial
  | none =>
    refine obeys_op.2 ⟨trivial, fun connected => ?_⟩
    cases connected with
    | error e => exact trivial
    | ok session =>
      refine obeys_op.2 ⟨⟨rfl, hG⟩, fun stored => ?_⟩
      rcases stored with ⟨winner, _ | _⟩
      · exact trivial
      · exact obeys_op.2 ⟨trivial, fun _ => trivial⟩

lemma evictUserSession_obeys :
    (evictUserSession G srv.name).Obeys (FetchProtocol signer srv G) (fun _ _ => True) tr :=
  closePoolEntry_obeys (fun _ => ⟨rfl, hG⟩) fun _ _ => trivial

lemma relistTools_obeys :
    (relistTools srv userHeaders G).Obeys (FetchProtocol signer srv G) (fun _ _ => True) tr := by
  refine obeys_seq (evictUserSession_obeys hG) fun _ _ _ _ => ?_
  refine obeys_seq (getOrCreateUserSession_obeys userHeaders hG) fun res _ _ _ => ?_
  cases res with
  | error e => exact trivial
  | ok session =>
    refine obeys_op.2 ⟨trivial, fun listed => ?_⟩
    cases listed with
    | ok tools => exact trivial
    | error e => exact obeys_seq (evictUserSession_obeys hG) fun _ _ _ _ => trivial

lemma listUserTools_obeys :
    (listUserTools srv userHeaders G).Obeys (FetchProtocol signer srv G) (fun _ _ => True) tr := by
  refine obeys_seq (getOrCreateUserSession_obeys userHeaders hG) fun res _ _ _ => ?_
  cases res with
  | error e => exact trivial
  | ok session =>
    refine obeys_op.2 ⟨trivial, fun listed => ?_⟩
    cases listed with
    | ok tools => exact trivial
    | error e => exact relistTools_obeys userHeaders hG

lemma doFetchTools_obeys (policy : InvalidToolPolicy) :
    (doFetchTools srv userHeaders G policy).Obeys (FetchProtocol signer srv G)
      (fun _ _ => True) tr := by
  refine obeys_seq (listUserTools_obeys userHeaders hG) fun res _ _ _ => ?_
  rcases res with e | ⟨session, listed⟩
  · exact trivial
  · dsimp only
    split_ifs <;> exact trivial

lemma fetchToolsFromServer_obeys (policy : InvalidToolPolicy) :
    (fetchToolsFromServer srv userHeaders G policy).Obeys (FetchProtocol signer srv G)
      (fun _ _ => True) tr := by
  refine obeys_seq (doFetchTools_obeys userHeaders hG policy) fun res tr' _ _ => ?_
  rcases res with e | ⟨tools, sessionID⟩
  · exact trivial
  · have hcache : (cacheUserSession srv G sessionID).Obeys (FetchProtocol signer srv G)
        (fun _ _ => True) tr' := by
      unfold cacheUserSession
      split_ifs with hempty
      · exact trivial
      · refine obeys_op.2 ⟨trivial, fun now => ?_⟩
        dsimp only
        split_ifs with httl
        · exact trivial
        · exact obeys_op.2 ⟨⟨rfl, rfl, hG⟩, fun _ => trivial⟩
    exact obeys_seq hcache fun _ _ _ _ => trivial

end Obeys

lemma checkSession_obeys {A : List GwEv → Op → Prop} {m : JWTManager} {sid : String}
    {tr : List GwEv} (hnow : A tr .now) :
    (checkSession m sid).Obeys A (fun res _ => res = none → IsToken m.signer sid) tr := by
  refine obeys_op.2 ⟨hnow, fun now => ?_⟩
  rcases hv : m.validate now sid with e | _ | _
  · exact fun h => by cases h
  · exact fun _ => isToken_of_validate hv
  · exact fun h => by cases h

lemma serveToolsList_obeys {srv : UserSpecificServer} {m : JWTManager} {policy : InvalidToolPolicy}
    {headers : HttpHeader} {tr : List GwEv} :
    (serveToolsList srv m policy headers).Obeys
      (FetchProtocol m.signer srv (headerGet headers gatewaySessionHeader)) (fun _ _ => True) tr := by
  refine obeys_seq (checkSession_obeys trivial) fun res tr' _ htoken => ?_
  cases res with
  | some reply =>
    unfold dropSession
    dsimp only
    split_ifs with hsid
    · exact trivial
    · exact obeys_op.2 ⟨trivial, fun _ => trivial⟩
  | none =>
    have hfetch : (fetchUserSpecificTools srv policy headers).Obeys
        (FetchProtocol m.signer srv (headerGet headers gatewaySessionHeader)) (fun _ _ => True)
        tr' := by
      unfold fetchUserSpecificTools
      dsimp only
      split_ifs with hsid
      · exact trivial
      · refine obeys_seq (fetchToolsFromServer_obeys (filterUserHeaders headers)
          (htoken rfl) policy) fun res _ _ _ => ?_
        cases res <;> exact trivial
    exact obeys_seq hfetch fun _ _ _ _ => trivial

end McpGateway.Broker
