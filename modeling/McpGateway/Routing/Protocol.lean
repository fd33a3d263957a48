import McpGateway.Routing.Response
import McpGateway.Routing.Router

/-!
# What routing a request does

One pass over the router's code that says everything later arguments need:

- `Accepted` lists the decisions that let a request continue, with where each of their values comes
  from.  `routeRequest_obeys` is the inversion: every decision without an error is one of these.
- `RequestProtocol` says which calls the code of one request may make, given the calls answered to it
  so far: it only touches the cache under its own session, it stores an upstream session only as the
  leader of the flight for that session and server, and only after it saw none in the cache.
-/

namespace McpGateway.Routing

open Go Effect Config Session

/-! ## Flights -/

inductive Flight where
  | idle
  /-- it leads the call for the key -/
  | leading (key : String) (call : Nat)
  /-- it leads the call and found `seen` in the cache -/
  | cleared (key : String) (call : Nat) (seen : GoMap String)

variable {key : String}

namespace Flight

def next (f : Flight) : GwEv → Flight
  | ⟨.flightJoin key, .leader call⟩ => .leading key call
  | ⟨.getSession _, .ok m⟩ =>
    match f with
    | .leading key call => .cleared key call m
    | f => f
  | ⟨.addSession .., _⟩ =>
    match f with
    | .cleared key call _ => .leading key call
    | f => f
  | ⟨.flightDone .., _⟩ => .idle
  | _ => f

/-- The thread does the shared call for the others that wait for it. -/
def Leads (f : Flight) (key : String) (call : Nat) : Prop :=
  f = .leading key call ∨ ∃ m, f = .cleared key call m

lemma leads_next {f : Flight} {e : GwEv} {call : Nat} (h : (f.next e).Leads key call) : e =
    ⟨.flightJoin key, .leader call⟩ ∨ (f.Leads key call ∧ ∀ key' call' res,
    e.op ≠ .flightDone key' call' res) := by
  unfold next at h
  split at h
  next key' call' =>
    rcases h with h | ⟨m, h⟩ <;> cases h
    exact .inl rfl
  next m =>
    refine .inr ⟨?_, fun _ _ _ => by simp⟩
    split at h
    next key' call' =>
      rcases h with h | ⟨m', h⟩ <;> cases h
      exact .inl rfl
    next => exact h
  next =>
    refine .inr ⟨?_, fun _ _ _ => by simp⟩
    split at h
    next key' call' m =>
      rcases h with h | ⟨m', h⟩ <;> cases h
      exact .inr ⟨m, rfl⟩
    next => exact h
  next => rcases h with h | ⟨m, h⟩ <;> cases h
  next _ _ _ hdone =>
    refine .inr ⟨h, fun key' call' res heq => ?_⟩
    obtain ⟨o, r⟩ := e
    cases heq
    exact hdone _ _ _ _ rfl

lemma cleared_next {f : Flight} {e : GwEv} {call : Nat} {m : GoMap String}
    (h : f.next e = .cleared key call m) : (∃ key', e = ⟨.getSession key', .ok m⟩ ∧ f = .leading key call) ∨
    (f = .cleared key call m ∧ ∀ key' S u ttl, e.op ≠ .addSession key' S u ttl) := by
  unfold next at h
  split at h
  next => cases h
  next m' =>
    split at h
    next key' call' =>
      cases h
      exact .inl ⟨_, rfl, rfl⟩
    next => exact .inr ⟨h, fun _ _ _ _ => by simp⟩
  next =>
    split at h
    next => cases h
    next hne => exact absurd h (hne _ _ _)
  next => cases h
  next _ _ hadd _ =>
    refine .inr ⟨h, fun key' S u ttl heq => ?_⟩
    obtain ⟨o, r⟩ := e
    cases heq
    exact hadd _ _ _ _ _ rfl

end Flight

/-- The flight after the answered calls `tr`. -/
def flight (tr : List GwEv) : Flight :=
  tr.foldl Flight.next .idle

lemma flight_append (tr : List GwEv) (e : GwEv) : flight (tr ++ [e]) = (flight tr).next e := by
  simp [flight]

lemma leads_answered {tr : List GwEv} {call : Nat}
    (h : (flight tr).Leads key call) : Answered tr (.flightJoin key) (.leader call) := by
  induction tr using List.reverseRecOn with
  | nil => rcases h with h | ⟨m, h⟩ <;> cases h
  | append_singleton tr e ih =>
    rw [flight_append] at h
    rcases Flight.leads_next h with rfl | ⟨hbefore, -⟩
    · exact answered_append _ _ _
    · exact (ih hbefore).mono (prefix_append _ _)

/-! ## Where an upstream session comes from -/

/-- The code itself read the session in the cache under `(G, S)`, or stored it there. -/
def Obtained (tr : List GwEv) (G S u : String) : Prop :=
  (∃ m, Answered tr (.getSession G) (.ok m) ∧ m.lookup S = some u) ∨
    ∃ ttl b, Answered tr (.addSession G S u ttl) (.ok b)

/-- The code obtained the session itself, or was handed the result of the flight it joined. -/
def Offers (tr : List GwEv) (G S u : String) : Prop :=
  Obtained tr G S u ∨ ∃ call, Answered tr (.flightJoin (Router.groupKey G S)) (.follower call) ∧
      Answered tr (.flightWait call) (.ok u)

variable {tr tr' : List GwEv} {G S u : String}

lemma Obtained.mono (h : Obtained tr G S u) (hp : tr <+: tr') : Obtained tr' G S u := by
  rcases h with ⟨m, hm, hu⟩ | ⟨ttl, b, hb⟩
  · exact .inl ⟨m, hm.mono hp, hu⟩
  · exact .inr ⟨ttl, b, hb.mono hp⟩

lemma Offers.mono (h : Offers tr G S u) (hp : tr <+: tr') : Offers tr' G S u := by
  rcases h with h | ⟨call, hj, hw⟩
  · exact .inl (h.mono hp)
  · exact .inr ⟨call, hj.mono hp, hw.mono hp⟩

/-- The upstream session for server `S` that an answer names, or else the one named before. -/
def namedSession (S : String) (before : Option String) : GwEv → Option String
  | ⟨.getSession _, .ok m⟩ => m.lookup S
  | ⟨.addSession _ _ u _, .ok _⟩ => some u
  | ⟨.flightWait _, .ok u⟩ => some u
  | ⟨.idLookup _, .ok (some e)⟩ => some e.sessionID
  | _ => before

/-- The upstream session for `S` that the cache, the flight or the id map named last. -/
def handed (S : String) (tr : List GwEv) : Option String :=
  tr.foldl (namedSession S) none

lemma handed_append (S : String) (tr : List GwEv) (e : GwEv) :
    handed S (tr ++ [e]) = namedSession S (handed S tr) e := by
  simp [handed]

def Hands (tr : List GwEv) (G S u : String) : Prop :=
  Offers tr G S u ∧ handed S tr = some u

/-- The string is a token of the gateway. -/
def IsToken (signer : Signer) (t : String) : Prop :=
  ∃ c, signer.verify t = some c

variable {m : JWTManager}

lemma isToken_of_validate {now : Time} {t : String}
    (h : m.validate now t = .ok false) : IsToken m.signer t := by
  unfold JWTManager.validate JWTManager.parseWithClaims at h
  cases hv : m.signer.verify t with
  | none => simp [hv] at h
  | some c => exact ⟨c, hv⟩

lemma isToken_of_getExpiresIn {now : Time} {t : String} {e : Int}
    (h : m.getExpiresIn now t = .ok e) : IsToken m.signer t := by
  unfold JWTManager.getExpiresIn JWTManager.parseWithClaims at h
  cases hv : m.signer.verify t with
  | none => simp [hv] at h
  | some c => exact ⟨c, hv⟩

/-! ## Accepted decisions -/

/-- The headers of a decision that forwards to an upstream on session `u`. -/
def upstreamHeaders (base : GoMap String) (token : Option String) (u : String) (body : Bytes) :
    GoMap String :=
  let h : GoMap String := match token with
    | some t => AList.insert authorizationHeader t base
    | none => base
  AList.insert "content-length" (itoa body.length) (AList.insert sessionHeader u h)

def upstreamDecision (route : ServerRoute) (path : String) (headers : GoMap String)
    (body : Bytes) : Decision where
  authority := route.host
  path := path
  setHeaders := headers
  unsetHeaders := internalOnlyHeaders
  bodyMutation := some body

def elicitDecision (base : GoMap String) (requestID elicitationID : String) : Decision where
  path := "/mcp/elicitation"
  setHeaders := AList.insert elicitationIDHeader elicitationID
    (AList.insert elicitationRequestIDHeader requestID
      (AList.insert mcpServerNameHeader "mcpBroker" base))

inductive Branch where
  | tool
  | prompt
  | reply
  | hairpin
  | broker
  deriving DecidableEq, Repr

def branchOf (table : Table) (req : MCPRequest) : Branch :=
  if req.isElicitationResponse then .reply
  else if req.method = methodToolCall then
    if (table.routeOf req.toolName).isSome then .tool else .broker
  else if req.method = methodPromptGet then .prompt
  else if Router.isHairpin req then .hairpin
  else .broker

/-- The decisions that let `req` continue, with the rewritten request.  `tr` holds the answers the
values come from. -/
inductive Accepted (r : Router) (table : Table) (req : MCPRequest) (tr : List GwEv) :
    Decision → MCPRequest → Prop where
  | tool {route : ServerRoute} {path u : String} {body : Bytes} {token : Option String}
      {req' : MCPRequest} (hbranch : branchOf table req = .tool)
      (hroute : table.routeOf req.toolName = some route)
      (hu : Hands tr req.getSessionID route.name u)
      (htoken : ∀ t, token = some t →
        Answered tr (.getUserToken req.getSessionID route.name) (.ok (some t)))
      (hreq : req'.headers = req.headers ∧ req'.serverName = route.name ∧ req'.backendSessionID = u)
      (hbody : body = (req.reWriteToolName (trimPrefix req.toolName route.namePrefix)).toBytes)
      (hname : req.toolName ≠ "") :
      Accepted r table req tr
        (upstreamDecision route path
          (upstreamHeaders (Router.toolHeaders table req.toolName (routeToMCPServer route) req)
            token u body) body) req'
  | elicit {route : ServerRoute} {requestID elicitationID : String} {req' : MCPRequest}
      (hbranch : branchOf table req = .tool)
      (hroute : table.routeOf req.toolName = some route)
      (hreq : req'.headers = req.headers ∧ req'.backendSessionID = req.backendSessionID) :
      Accepted r table req tr
        (elicitDecision (Router.toolHeaders table req.toolName (routeToMCPServer route) req)
          requestID elicitationID) req'
  | prompt {route : ServerRoute} {path u : String} {body : Bytes} {req' : MCPRequest}
      (hbranch : branchOf table req = .prompt)
      (hroute : table.lookupPrompt req.promptName = some route)
      (hu : Hands tr req.getSessionID route.name u)
      (hreq : req'.headers = req.headers ∧ req'.serverName = route.name ∧ req'.backendSessionID = u)
      (hbody : body = (req.reWritePromptName (trimPrefix req.promptName route.namePrefix)).toBytes)
      (hname : req.promptName ≠ "") :
      Accepted r table req tr
        (upstreamDecision route path
          (upstreamHeaders (Router.promptHeaders req.promptName (routeToMCPServer route) req)
            none u body) body) req'
  | reply {cfg : MCPServersConfig} {conf : MCPServer} {path : String} {entry : IdEntry}
      {body : Bytes} {req' : MCPRequest} (hbranch : branchOf table req = .reply)
      (hentry : Answered tr (.idLookup req.id.sprint) (.ok (some entry)))
      (hsession : entry.gatewaySessionID = req.getSessionID)
      (hu : ∀ S, handed S tr = some entry.sessionID)
      (hcfg : Answered tr .loadConfig cfg)
      (hconf : cfg.getServerConfigByName entry.serverName = some conf)
      (hreq : req'.headers = req.headers ∧ req'.backendSessionID = req.backendSessionID ∧
        req'.serverName = req.serverName)
      (hbody : body = ({ req with id := entry.backendID } : MCPRequest).toBytes) :
      Accepted r table req tr (Router.elicitationDecision conf path entry body) req'
  | hairpin {m : JWTManager} {now : Time} (hbranch : branchOf table req = .hairpin)
      (hm : r.jwtManager = some m) (hnow : Answered tr .now now)
      (htoken : m.validateBackendInitToken now (req.getSingleHeaderValue routingKey)
        (req.getSingleHeaderValue initHostHeader) = .ok ()) :
      Accepted r table req tr (Router.hairpinDecision req) req
  | broker (hbranch : branchOf table req = .broker) :
      Accepted r table req tr (Router.brokerDecision req) req

/-! ## The protocol of routing -/

/-- The authorization among the headers is the client's own, or the user's token for the server. -/
def Authorized (req₀ : MCPRequest) (tr : List GwEv) (S : String) (headers : GoMap String) : Prop :=
  ∀ token, headers.lookup authorizationHeader = some token →
    req₀.headers.lookup authorizationHeader = some token ∨
      Answered tr (.getUserToken req₀.getSessionID S) (.ok (some token))

lemma Authorized.mono {req₀ : MCPRequest} {headers : GoMap String} (h : Authorized req₀ tr S headers)
    (hp : tr <+: tr') : Authorized req₀ tr' S headers := by
  intro token htoken
  rcases h token htoken with hown | hread
  · exact .inl hown
  · exact .inr (hread.mono hp)

lemma Authorized.insert {req₀ : MCPRequest} {headers : GoMap String}
    (h : Authorized req₀ tr S headers) {k : String} (hk : k ≠ authorizationHeader) (v : String) :
    Authorized req₀ tr S (AList.insert k v headers) := by
  intro token htoken
  rw [lookup_insert, if_neg hk.symm] at htoken
  exact h token htoken

lemma authorized_passThroughHeaders {req₀ mcpReq : MCPRequest} (hreq : mcpReq.headers = req₀.headers)
    (tr : List GwEv) (S : String) : Authorized req₀ tr S (Router.passThroughHeaders mcpReq) := by
  have hkept : Authorized req₀ tr S
      (GoMap.ofPairs (mcpReq.headers.pairs.filter fun kv => !Router.isWithheld kv.1)) := by
    intro token htoken
    have hmem := List.mem_of_mem_filter (mem_of_lookup_ofPairs htoken)
    rw [mem_pairs_iff, hreq] at hmem
    exact .inl hmem
  have hnamed := (hkept.insert (k := methodHeader) (by decide) mcpReq.method).insert
    (k := mcpServerNameHeader) (by decide) mcpReq.serverName
  unfold Router.passThroughHeaders
  refine Authorized.insert ?_ (by decide) _
  split_ifs
  · exact hnamed
  · exact hnamed.insert (by decide) _
  · exact hnamed.insert (by decide) _
  · exact (hnamed.insert (by decide) _).insert (by decide) _

/-- Whether the code that routes `req₀` may make a call after the answered calls `tr`. -/
def RequestProtocol (signer : Signer) (req₀ : MCPRequest) (tr : List GwEv) : Op → Prop
  | .panic _ | .now | .uuid | .loadTable | .loadConfig | .getClientElicitation _
  | .flightWait _ | .closeClient _ | .idLookup _ => True
  | .getSession key | .getUserToken key _ => key = req₀.getSessionID
  | .sign c => ∃ cfg s now id, Answered tr .loadConfig cfg ∧ s ∈ cfg.servers ∧
      Answered tr .now now ∧ c = JWTManager.backendInitClaims s.hostname now id
  | .addSession key S _ _ => key = req₀.getSessionID ∧ IsToken signer key ∧
      (∃ cfg s, Answered tr .loadConfig cfg ∧ s ∈ cfg.servers ∧ s.name = S) ∧
      ∃ call m, flight tr = .cleared (Router.groupKey key S) call m ∧ m.lookup S = none
  | .afterFunc _ _ sid => sid = req₀.getSessionID
  | .initForClient _ conf headers _ => (∃ call m,
      flight tr = .cleared (Router.groupKey req₀.getSessionID conf.name) call m ∧
        m.lookup conf.name = none) ∧ Authorized req₀ tr conf.name headers
  | .deleteSessions keys => keys = [req₀.getSessionID]
  | .flightJoin key => flight tr = .idle ∧ IsToken signer req₀.getSessionID ∧
      ∃ S, key = Router.groupKey req₀.getSessionID S
  | .flightDone key call res => (flight tr).Leads key call ∧
      ∃ S, key = Router.groupKey req₀.getSessionID S ∧
        ∀ u, res = .ok u → Obtained tr req₀.getSessionID S u
  | .elicitationStore e => e.sessionID = req₀.getSessionID ∧ IsToken signer e.sessionID ∧
      extractSubClaim (req₀.getSingleHeaderValue authorizationHeader) = .ok e.sub
  | .idRemove id => ∃ e, Answered tr (.idLookup id) (.ok (some e)) ∧
      e.gatewaySessionID = req₀.getSessionID
  | _ => False

lemma exists_signer (m : Option JWTManager) :
    ∃ signer : Signer, ∀ m', m = some m' → m'.signer = signer := by
  cases m with
  | none => exact ⟨⟨fun _ => none, fun h => by simp at h, rfl⟩, fun m h => by simp at h⟩
  | some m => exact ⟨m.signer, fun m' h => by cases h; rfl⟩

section Requests

variable {signer : Signer} {r : Router} {req₀ mcpReq : MCPRequest} {cfg : MCPServersConfig} {conf : MCPServer}
  {headers seen : GoMap String} {call : Nat} {route : ServerRoute} {table : Table}
  (hsigner : ∀ m, r.jwtManager = some m → m.signer = signer)

namespace Router

lemma generateBackendInitToken_obeys {s : MCPServer} (hcfg : Answered tr .loadConfig cfg)
    (hs : s ∈ cfg.servers) : (generateBackendInitToken s.hostname).Obeys (RequestProtocol signer req₀)
    (fun _ tr' => flight tr' = flight tr) tr := by
  unfold generateBackendInitToken
  split_ifs with hhost
  · exact rfl
  · refine obeys_op.2 ⟨trivial, fun now => obeys_op.2 ⟨trivial, fun uuid => ⟨?_, fun t => ?_⟩⟩⟩
    · refine ⟨cfg, s, now, uuid, ?_, hs, ?_, rfl⟩
      · exact (hcfg.mono (prefix_append _ _)).mono (prefix_append _ _)
      · exact (answered_append tr .now now).mono (prefix_append _ _)
    · simp only [Prog.obeys_ret, flight_append]
      rfl

lemma sessionCloser_obeys (client : ClientSession) (tr : List GwEv) :
    (sessionCloser client req₀.getSessionID).Obeys (RequestProtocol signer req₀)
    (fun _ tr' => flight tr' = flight tr) tr := by
  refine obeys_op.2 ⟨trivial, fun _ => obeys_op.2 ⟨rfl, fun res => ?_⟩⟩
  show flight _ = flight tr
  simp only [flight_append]
  rfl

/-- While the flight for `S` is led, the result may only be a session the code has obtained. -/
def LeaderPost (G S : String) (call : Nat) (res : Except RouterError String) (tr : List GwEv) : Prop :=
  (flight tr).Leads (groupKey G S) call ∧ ∀ u, res = .ok u → Obtained tr G S u ∧ handed S tr = some u

lemma withUserToken_obeys (hreq : mcpReq.getSessionID = req₀.getSessionID)
    (hauth : Authorized req₀ tr conf.name headers) :
    (r.withUserToken conf mcpReq headers).Obeys (RequestProtocol signer req₀)
      (fun headers' tr' => flight tr' = flight tr ∧ Authorized req₀ tr' conf.name headers') tr := by
  unfold withUserToken
  split_ifs with helicit
  · rw [hreq]
    refine obeys_op.2 ⟨rfl, fun stored => ?_⟩
    have hf : flight (tr ++ [⟨.getUserToken req₀.getSessionID conf.name, stored⟩]) = flight tr :=
      flight_append _ _
    rcases stored with e | _ | token
    · exact ⟨hf, hauth.mono (prefix_append _ _)⟩
    · exact ⟨hf, hauth.mono (prefix_append _ _)⟩
    · refine ⟨hf, fun t ht => ?_⟩
      rw [lookup_insert, if_pos rfl] at ht
      cases ht
      exact .inr (answered_append _ _ _)
  · exact ⟨rfl, hauth⟩

lemma readClientElicitation_obeys (mcpReq : MCPRequest) (tr : List GwEv) :
    (readClientElicitation mcpReq).Obeys (RequestProtocol signer req₀)
      (fun res tr' => flight tr' = flight tr ∧
        ∀ req', res = .ok req' → ∃ b, req' = { mcpReq with clientElicitation := b }) tr := by
  unfold readClientElicitation
  split_ifs with hknown
  · exact ⟨rfl, fun req' h => ⟨mcpReq.clientElicitation, by cases h; rfl⟩⟩
  · refine obeys_op.2 ⟨trivial, fun res => ?_⟩
    have hf : flight (tr ++ [⟨.getClientElicitation mcpReq.getSessionID, res⟩]) = flight tr :=
      flight_append _ _
    cases res with
    | error e => exact ⟨hf, fun req' h => by simp at h⟩
    | ok b => exact ⟨hf, fun req' h => ⟨b, by cases h; rfl⟩⟩

/-- The request is answered with an error. -/
def Refused (d : Decision) : Prop :=
  d.error ≠ none ∧ d.authority = ""

lemma refused_reject (statusCode : Nat) (message : String) : Refused (.reject statusCode message) :=
  ⟨by simp [Decision.reject], rfl⟩

lemma refused_toolError (mcpReq : MCPRequest) (text : String) : Refused (toolError mcpReq text) :=
  ⟨by simp [toolError], rfl⟩

/-- The request that is forwarded on session `u`. -/
def Rewritten (req₀ : MCPRequest) (S u : String) (req' : MCPRequest) : Prop :=
  req'.headers = req₀.headers ∧ req'.serverName = S ∧ req'.backendSessionID = u

lemma forwardToUpstream_inv (headers : GoMap String) (u : String) (mcpReq : MCPRequest)
    (hreq : mcpReq.headers = req₀.headers) (hname : mcpReq.serverName = route.name) :
    Refused (forwardToUpstream (routeToMCPServer route) headers u mcpReq).1 ∨ ∃ path body,
    (forwardToUpstream (routeToMCPServer route) headers u mcpReq).1 =
    upstreamDecision route path (upstreamHeaders headers none u body) body ∧
    Rewritten req₀ route.name u (forwardToUpstream (routeToMCPServer route) headers u mcpReq).2 ∧ body =
    mcpReq.toBytes := by
  unfold forwardToUpstream
  dsimp only
  cases hpath : (routeToMCPServer route).path with
  | none => exact .inl (refused_reject _ _)
  | some path => exact .inr ⟨path, _, rfl, ⟨hreq, hname, rfl⟩, rfl⟩

lemma resolveUpstreamToken_obeys {serverInfo : MCPServer}
    (hreq : mcpReq.headers = req₀.headers) (htok : IsToken signer req₀.getSessionID)
    (hf : flight tr = .idle) :
    (resolveUpstreamToken mcpReq serverInfo).Obeys (RequestProtocol signer req₀)
      (fun res tr' => flight tr' = .idle ∧ ∀ t, res = .injected t →
        Answered tr' (.getUserToken req₀.getSessionID serverInfo.name) (.ok (some t))) tr := by
  have hauth : mcpReq.getSingleHeaderValue authorizationHeader =
      req₀.getSingleHeaderValue authorizationHeader := by
    rw [MCPRequest.getSingleHeaderValue, MCPRequest.getSingleHeaderValue, hreq]
  unfold resolveUpstreamToken
  rw [MCPRequest.getSessionID_congr hreq, hauth]
  refine obeys_op.2 ⟨rfl, fun stored => ?_⟩
  have hf₁ : flight (tr ++ [⟨.getUserToken req₀.getSessionID serverInfo.name, stored⟩]) = .idle :=
    (flight_append _ _).trans hf
  rcases stored with e | _ | token
  · exact ⟨hf₁, fun t h => by simp at h⟩
  · dsimp only
    cases hsub : extractSubClaim (req₀.getSingleHeaderValue authorizationHeader) with
    | error e => exact ⟨hf₁, fun t h => by simp at h⟩
    | ok sub =>
      refine obeys_op.2 ⟨trivial, fun elicits => ?_⟩
      have hf₂ := (flight_append _ ⟨.getClientElicitation req₀.getSessionID, elicits⟩).trans hf₁
      rcases elicits with e | _ | _
      · exact ⟨hf₂, fun t h => by simp at h⟩
      · exact ⟨hf₂, fun t h => by simp at h⟩
      · refine obeys_op.2 ⟨⟨rfl, htok, hsub⟩, fun id => ?_⟩
        have hf₃ := (flight_append _
          ⟨.elicitationStore ⟨req₀.getSessionID, serverInfo.name, sub⟩, id⟩).trans hf₂
        cases id with
        | error e | ok elicitationID => exact ⟨hf₃, fun t h => by simp at h⟩
  · refine ⟨hf₁, fun t h => ?_⟩
    cases h
    exact answered_append _ _ _

lemma routeBrokerPassthrough_obeys (hf : flight tr = .idle) :
    (r.routeBrokerPassthrough mcpReq).Obeys (RequestProtocol signer req₀)
      (fun res tr' => flight tr' = .idle ∧ (Refused res.1 ∨ res.2 = mcpReq ∧
        ((isHairpin mcpReq = false ∧ res.1 = brokerDecision mcpReq) ∨
          ∃ m now, isHairpin mcpReq = true ∧ r.jwtManager = some m ∧ Answered tr' .now now ∧
            m.validateBackendInitToken now (mcpReq.getSingleHeaderValue routingKey)
              (mcpReq.getSingleHeaderValue initHostHeader) = .ok () ∧
            res.1 = hairpinDecision mcpReq))) tr := by
  unfold routeBrokerPassthrough
  split_ifs with hhair
  · cases hm : r.jwtManager with
    | none => exact ⟨hf, .inl (refused_reject _ _)⟩
    | some m =>
      refine obeys_op.2 ⟨trivial, fun now => ?_⟩
      have hf₁ : flight (tr ++ [⟨.now, now⟩]) = .idle := (flight_append _ _).trans hf
      cases hv : m.validateBackendInitToken now (mcpReq.getSingleHeaderValue routingKey)
          (mcpReq.getSingleHeaderValue initHostHeader) with
      | error e => exact ⟨hf₁, .inl (refused_reject _ _)⟩
      | ok _ =>
        exact ⟨hf₁, .inr ⟨rfl, .inr ⟨m, now, hhair, rfl, answered_append _ _ _, hv, rfl⟩⟩⟩
  · exact ⟨hf, .inr ⟨rfl, .inl ⟨by simpa using hhair, rfl⟩⟩⟩

def RoutePost (r : Router) (table : Table) (req₀ : MCPRequest) (res : Routed) (tr : List GwEv) : Prop :=
  flight tr = .idle ∧ (Refused res.1 ∨ Accepted r table req₀ tr res.1 res.2)

include hsigner

lemma validateSession_obeys (sid : String) (tr : List GwEv) :
    (r.validateSession sid).Obeys (RequestProtocol signer req₀)
      (fun res tr' => flight tr' = flight tr ∧ (res = none → IsToken signer sid)) tr := by
  unfold validateSession
  split_ifs with hsid
  · exact ⟨rfl, fun h => by simp at h⟩
  · cases hm : r.jwtManager with
    | none => exact obeys_panic trivial
    | some m =>
      refine obeys_op.2 ⟨trivial, fun now => ?_⟩
      have hidle : flight (tr ++ [⟨.now, now⟩]) = flight tr := flight_append _ _
      split
      next hv => exact ⟨hidle, fun _ => hsigner m hm ▸ isToken_of_validate hv⟩
      next => exact ⟨hidle, fun h => by simp at h⟩

lemma keepSession_obeys (hm : r.jwtManager = some m) {client : ClientSession}
    (hcfg : Answered tr .loadConfig cfg) (hconf : conf ∈ cfg.servers)
    (hf : flight tr = .cleared (groupKey req₀.getSessionID conf.name) call seen)
    (hseen : seen.lookup conf.name = none) :
    (keepSession m conf req₀.getSessionID client).Obeys (RequestProtocol signer req₀)
      (LeaderPost req₀.getSessionID conf.name call) tr := by
  -- a refused session is closed; the flight stays as it was
  have hrefuse : ∀ (tr : List GwEv) (e : RouterError),
      flight tr = .cleared (groupKey req₀.getSessionID conf.name) call seen →
      (sessionCloser client req₀.getSessionID >>= fun _ =>
        pure (f := Gw) (Except.error e : Except RouterError String)).Obeys
        (RequestProtocol signer req₀) (LeaderPost req₀.getSessionID conf.name call) tr := by
    intro tr e hf
    refine obeys_seq (sessionCloser_obeys client tr) fun _ tr' _ hflight => ?_
    exact ⟨.inr ⟨seen, hflight.trans hf⟩, fun u hu => by simp at hu⟩
  refine obeys_op.2 ⟨trivial, fun now => ?_⟩
  have hf₁ : flight (tr ++ [⟨.now, now⟩]) = _ := (flight_append _ _).trans hf
  split
  next => exact hrefuse _ _ hf₁
  next expiresAt hexp =>
    refine obeys_op.2 ⟨trivial, fun now' => ?_⟩
    have hf₂ : flight (tr ++ [⟨.now, now⟩] ++ [⟨.now, now'⟩]) = _ := (flight_append _ _).trans hf₁
    dsimp only
    split_ifs with httl
    · exact hrefuse _ _ hf₂
    · have hcfg₂ := (hcfg.mono (prefix_append _ [⟨.now, now⟩])).mono
        (prefix_append _ [⟨.now, now'⟩])
      refine obeys_op.2 ⟨⟨rfl, hsigner m hm ▸ isToken_of_getExpiresIn hexp,
        ⟨cfg, conf, hcfg₂, hconf, rfl⟩, call, seen, hf₂, hseen⟩, fun res => ?_⟩
      have hf₃ := flight_append (tr ++ [⟨.now, now⟩] ++ [⟨.now, now'⟩])
        ⟨.addSession req₀.getSessionID conf.name client.id (expiresAt * second - now'), res⟩
      rw [hf₂] at hf₃
      cases res with
      | error e =>
        refine obeys_op.2 ⟨trivial, fun _ => ⟨.inl ((flight_append _ _).trans hf₃), ?_⟩⟩
        intro u hu
        simp at hu
      | ok b =>
        refine obeys_op.2 ⟨rfl, fun _ => ⟨.inl ((flight_append _ _).trans hf₃), ?_⟩⟩
        intro u hu
        cases hu
        refine ⟨.inr ⟨_, b, (answered_append _ _ _).mono (prefix_append _ _)⟩, ?_⟩
        simp only [handed_append, namedSession]

lemma openSession_obeys (hm : r.jwtManager = some m)
    (hreq : mcpReq.getSessionID = req₀.getSessionID)
    (hcfg : Answered tr .loadConfig cfg) (hconf : conf ∈ cfg.servers)
    (hauth : Authorized req₀ tr conf.name headers)
    (hf : flight tr = .cleared (groupKey req₀.getSessionID conf.name) call seen)
    (hseen : seen.lookup conf.name = none) :
    (openSession m cfg conf headers mcpReq).Obeys (RequestProtocol signer req₀)
      (LeaderPost req₀.getSessionID conf.name call) tr := by
  refine obeys_seq (generateBackendInitToken_obeys hcfg hconf) fun res tr₁ hp₁ hf₁ => ?_
  rw [hf] at hf₁
  cases res with
  | error e => exact ⟨.inr ⟨seen, hf₁⟩, fun u hu => by simp at hu⟩
  | ok initToken =>
    have hsent := ((hauth.mono hp₁).insert (k := routingKey) (by decide) initToken).insert
      (k := initHostHeader) (by decide) conf.hostname
    refine obeys_op.2 ⟨⟨⟨call, seen, hf₁, hseen⟩, hsent⟩, fun opened => ?_⟩
    cases opened with
    | error e =>
      exact ⟨.inr ⟨seen, (flight_append _ _).trans hf₁⟩, fun u hu => by simp at hu⟩
    | ok client =>
      rw [hreq]
      exact keepSession_obeys hsigner hm ((hcfg.mono hp₁).mono (prefix_append _ _)) hconf
        ((flight_append _ _).trans hf₁) hseen

lemma initializeOnce_obeys (hheaders : mcpReq.headers = req₀.headers)
    (hcfg : Answered tr .loadConfig cfg)
    (hconf : cfg.getServerConfigByName mcpReq.serverName = some conf)
    (hf : flight tr = .leading (groupKey req₀.getSessionID mcpReq.serverName) call) :
    (r.initializeOnce cfg conf mcpReq).Obeys (RequestProtocol signer req₀)
      (fun res tr' => LeaderPost req₀.getSessionID mcpReq.serverName call res.1 tr' ∧
        ∃ b, res.2 = { mcpReq with clientElicitation := b }) tr := by
  have hsame : mcpReq = { mcpReq with clientElicitation := mcpReq.clientElicitation } := rfl
  have hreq := MCPRequest.getSessionID_congr hheaders
  have hname : conf.name = mcpReq.serverName := MCPServersConfig.getServerConfigByName_name hconf
  refine obeys_op.2 ⟨hreq, fun res => ?_⟩
  have hf₁ := flight_append tr ⟨.getSession mcpReq.getSessionID, res⟩
  rw [hf] at hf₁
  cases res with
  | error e => exact ⟨⟨.inl hf₁, fun u hu => by simp at hu⟩, _, hsame⟩
  | ok found =>
    dsimp only
    -- another request may have opened the session while this one waited for the flight
    cases hfound : found.lookup mcpReq.serverName with
    | some id =>
      refine ⟨⟨.inr ⟨found, hf₁⟩, fun u hu => ?_⟩, _, hsame⟩
      cases hu
      refine ⟨.inl ⟨found, hreq ▸ answered_append _ _ _, hfound⟩, ?_⟩
      rw [handed_append]
      exact hfound
    | none =>
      refine obeys_seq (withUserToken_obeys hreq (authorized_passThroughHeaders hheaders _ _))
        fun headers tr₂ hp₂ hpost₂ => ?_
      obtain ⟨hf₂, hauth⟩ := hpost₂
      refine obeys_seq (readClientElicitation_obeys mcpReq tr₂) fun res tr₃ hp₃ hres => ?_
      obtain ⟨hf₃, hreq'⟩ := hres
      rw [hf₂, hf₁] at hf₃
      cases res with
      | error e => exact ⟨⟨.inr ⟨found, hf₃⟩, fun u hu => by simp at hu⟩, _, hsame⟩
      | ok req' =>
        obtain ⟨b, rfl⟩ := hreq' req' rfl
        cases hm : r.jwtManager with
        | none => exact obeys_panic trivial
        | some m =>
          have hcfg₃ : Answered tr₃ .loadConfig cfg :=
            ((hcfg.mono (prefix_append _ _)).mono hp₂).mono hp₃
          rw [← hname] at hf₃ hfound
          refine obeys_seq (openSession_obeys hsigner hm hreq hcfg₃
            (MCPServersConfig.getServerConfigByName_mem hconf) (hauth.mono hp₃) hf₃ hfound) fun res tr₄ _ hpost => ?_
          rw [hname] at hpost
          exact ⟨hpost, b, rfl⟩

lemma initializeMCPServerSession_obeys (hheaders : mcpReq.headers = req₀.headers)
    (htok : IsToken signer req₀.getSessionID)
    (hf : flight tr = .idle) :
    (r.initializeMCPServerSession mcpReq).Obeys (RequestProtocol signer req₀)
      (fun res tr' => flight tr' = .idle ∧
        (∀ u, res.1 = .ok u → Hands tr' req₀.getSessionID mcpReq.serverName u) ∧
        ∃ b, res.2 = { mcpReq with clientElicitation := b }) tr := by
  have hsame : mcpReq = { mcpReq with clientElicitation := mcpReq.clientElicitation } := rfl
  have hreq := MCPRequest.getSessionID_congr hheaders
  unfold initializeMCPServerSession
  rw [hreq]
  refine obeys_op.2 ⟨trivial, fun cfg => ?_⟩
  have hf₁ : flight (tr ++ [⟨.loadConfig, cfg⟩]) = .idle := (flight_append _ _).trans hf
  cases hconf : cfg.getServerConfigByName mcpReq.serverName with
  | none => exact ⟨hf₁, fun u hu => by simp at hu, _, hsame⟩
  | some conf =>
    refine obeys_op.2 ⟨⟨hf₁, htok, mcpReq.serverName, rfl⟩, fun role => ?_⟩
    have hf₂ := flight_append (tr ++ [⟨.loadConfig, cfg⟩])
      ⟨.flightJoin (groupKey req₀.getSessionID mcpReq.serverName), role⟩
    cases role with
    | leader call =>
      have hcfg := (answered_append tr .loadConfig cfg).mono (prefix_append _
        [⟨.flightJoin (groupKey req₀.getSessionID mcpReq.serverName), .leader call⟩])
      refine obeys_seq (initializeOnce_obeys hsigner hheaders hcfg hconf hf₂) ?_
      rintro ⟨res, req'⟩ tr' _ ⟨⟨hleads, hobt⟩, hb⟩
      refine obeys_op.2 ⟨⟨hleads, mcpReq.serverName, rfl, fun u hu => (hobt u hu).1⟩, fun _ =>
        ⟨flight_append _ _, fun u hu => ⟨?_, ?_⟩, hb⟩⟩
      · exact .inl ((hobt u hu).1.mono (prefix_append _ _))
      · exact (handed_append _ _ _).trans (hobt u hu).2
    | follower call =>
      rw [hf₁] at hf₂
      refine obeys_op.2 ⟨trivial, fun res => ⟨(flight_append _ _).trans hf₂, ?_, _, hsame⟩⟩
      intro u hu
      dsimp only at hu
      subst hu
      refine ⟨.inr ⟨call, ?_, answered_append _ _ _⟩, handed_append _ _ _⟩
      exact (answered_append _ _ _).mono (prefix_append _ _)

lemma routeToUpstream_obeys (hreq : mcpReq.headers = req₀.headers)
    (hname : mcpReq.serverName = route.name) (htok : IsToken signer req₀.getSessionID)
    (hf : flight tr = .idle) :
    (r.routeToUpstream mcpReq (routeToMCPServer route) headers).Obeys
      (RequestProtocol signer req₀)
      (fun res tr' => flight tr' = .idle ∧ (Refused res.1 ∨ ∃ path u body,
        Hands tr' req₀.getSessionID route.name u ∧
        res.1 = upstreamDecision route path (upstreamHeaders headers none u body) body ∧
        Rewritten req₀ route.name u res.2 ∧ body = mcpReq.toBytes)) tr := by
  have hsid := MCPRequest.getSessionID_congr hreq
  refine obeys_op.2 ⟨hsid, fun res => ?_⟩
  have hf₁ := flight_append tr ⟨.getSession mcpReq.getSessionID, res⟩
  rw [hf] at hf₁
  cases res with
  | error e => exact ⟨hf₁, .inl (refused_reject _ _)⟩
  | ok found =>
    dsimp only
    split_ifs with hfound
    · rcases forwardToUpstream_inv headers _ mcpReq hreq hname with hrefused | ⟨path, body, hd, hr⟩
      · exact ⟨hf₁, .inl hrefused⟩
      · have hlookup := GoMap.lookup_of_get_ne hfound
        rw [hname] at hlookup
        refine ⟨hf₁, .inr ⟨path, _, body, ⟨.inl (.inl ⟨found, hsid ▸ answered_append _ _ _, ?_⟩), ?_⟩,
          hd, hr⟩⟩
        · rw [hlookup, hname]
        · rw [handed_append, hname]
          exact hlookup
    · refine obeys_seq (initializeMCPServerSession_obeys hsigner hreq htok hf₁) ?_
      rintro ⟨res, req'⟩ tr' _ ⟨hidle, hoffers, b, hb⟩
      dsimp only at hb
      subst hb
      cases res with
      | error e => exact ⟨hidle, .inl (refused_reject _ _)⟩
      | ok u =>
        rcases forwardToUpstream_inv headers u { mcpReq with clientElicitation := b } hreq hname with
          hrefused | ⟨path, body, hd, hr⟩
        · exact ⟨hidle, .inl hrefused⟩
        · exact ⟨hidle, .inr ⟨path, u, body, hname ▸ hoffers u rfl, hd, hr⟩⟩

lemma routeToolToServer_obeys (hreq : mcpReq.headers = req₀.headers)
    (hname : mcpReq.serverName = route.name) (htok : IsToken signer req₀.getSessionID)
    (hf : flight tr = .idle) :
    (r.routeToolToServer mcpReq (routeToMCPServer route) headers).Obeys
      (RequestProtocol signer req₀)
      (fun res tr' => flight tr' = .idle ∧ (Refused res.1 ∨ (∃ token path u body, (∀ t, token = some t →
            Answered tr' (.getUserToken req₀.getSessionID route.name) (.ok (some t))) ∧
          Hands tr' req₀.getSessionID route.name u ∧
          res.1 = upstreamDecision route path (upstreamHeaders headers token u body) body ∧
          Rewritten req₀ route.name u res.2 ∧ body = mcpReq.toBytes) ∨
        ∃ requestID elicitationID,
          res.1 = elicitDecision headers requestID elicitationID ∧ res.2 = mcpReq)) tr := by
  unfold routeToolToServer
  split_ifs with helicit
  · refine obeys_seq (resolveUpstreamToken_obeys hreq htok hf) ?_
    rintro res tr₁ _ ⟨hf₁, htoken⟩
    cases res with
    | internalError => exact ⟨hf₁, .inl (refused_reject _ _)⟩
    | toolError text => exact ⟨hf₁, .inl (refused_toolError _ _)⟩
    | elicit requestID elicitationID =>
      exact ⟨hf₁, .inr (.inr ⟨requestID, elicitationID, rfl, rfl⟩)⟩
    | injected token =>
      refine Prog.obeys_mono_trace (routeToUpstream_obeys hsigner hreq hname htok hf₁)
        (fun _ _ _ h => h) ?_
      rintro res tr₂ hp ⟨hf₂, hrefused | ⟨path, u, body, hoffers, hd, hr⟩⟩
      · exact ⟨hf₂, .inl hrefused⟩
      · refine ⟨hf₂, .inr (.inl ⟨some token, path, u, body, fun t ht => ?_, hoffers, hd, hr⟩)⟩
        cases ht
        exact (htoken token rfl).mono hp
  · refine obeys_mono (routeToUpstream_obeys hsigner hreq hname htok hf) (fun _ _ h => h) ?_
    rintro res tr₂ ⟨hf₂, hrefused | ⟨path, u, body, hoffers, hd, hr⟩⟩
    · exact ⟨hf₂, .inl hrefused⟩
    · exact ⟨hf₂, .inr (.inl ⟨none, path, u, body, fun t ht => by simp at ht, hoffers, hd, hr⟩)⟩

lemma routeToolCall_obeys (hreply : req₀.isElicitationResponse = false)
    (hmethod : req₀.method = methodToolCall) (hf : flight tr = .idle) :
    (r.routeToolCall table req₀).Obeys (RequestProtocol signer req₀) (RoutePost r table req₀) tr := by
  unfold routeToolCall
  dsimp only
  by_cases hname : req₀.toolName = ""
  · rw [if_pos hname]
    exact ⟨hf, .inl (refused_reject _ _)⟩
  · rw [if_neg hname]
    refine obeys_seq (validateSession_obeys hsigner _ tr) ?_
    rintro res tr₁ _ ⟨hf₁, htok⟩
    rw [hf] at hf₁
    cases res with
    | some e => exact ⟨hf₁, .inl (refused_reject _ _)⟩
    | none =>
      dsimp only
      cases hroute : table.routeOf req₀.toolName with
      | none =>
        split_ifs with hbroker
        · refine obeys_mono (routeBrokerPassthrough_obeys hf₁) (fun _ _ h => h) ?_
          rintro ⟨d, req'⟩ tr₂ ⟨hf₂, hrefused | ⟨hreq', ⟨-, hd⟩ | ⟨_, _, hhair, _⟩⟩⟩
          · exact ⟨hf₂, .inl hrefused⟩
          · dsimp only at hd hreq'
            rw [hd, hreq']
            exact ⟨hf₂, .inr (.broker (by simp [branchOf, hreply, hmethod, hroute]))⟩
          · -- a tool call is no initialization
            simp [isHairpin, MCPRequest.isInitializeRequest, hmethod, methodToolCall,
              methodInitialize] at hhair
        · exact ⟨hf₁, .inl (refused_toolError _ _)⟩
      | some route =>
        have hbranch : branchOf table req₀ = .tool := by
          simp [branchOf, hreply, hmethod, hroute]
        refine obeys_mono (routeToolToServer_obeys hsigner
          (show _ = req₀.headers from rfl) rfl (htok rfl) hf₁) (fun _ _ h => h) ?_
        rintro ⟨d, req'⟩ tr₂ ⟨hf₂, hpost⟩
        rcases hpost with hrefused | ⟨token, path, u, body, htoken, hu, hd, hr, hbody⟩ |
          ⟨rid, eid, hd, hr⟩
        · exact ⟨hf₂, .inl hrefused⟩
        · dsimp only at hd hr ⊢
          rw [hd]
          exact ⟨hf₂, .inr (.tool hbranch hroute hu htoken hr hbody hname)⟩
        · dsimp only at hd hr ⊢
          rw [hd, hr]
          exact ⟨hf₂, .inr (.elicit hbranch hroute ⟨rfl, rfl⟩)⟩

lemma routePromptGet_obeys (hreply : req₀.isElicitationResponse = false)
    (hmethod : req₀.method = methodPromptGet) (hf : flight tr = .idle) :
    (r.routePromptGet table req₀).Obeys (RequestProtocol signer req₀) (RoutePost r table req₀) tr := by
  unfold routePromptGet
  dsimp only
  split_ifs with hname
  · exact ⟨hf, .inl (refused_reject _ _)⟩
  · refine obeys_seq (validateSession_obeys hsigner _ tr) ?_
    rintro res tr₁ _ ⟨hf₁, htok⟩
    rw [hf] at hf₁
    cases res with
    | some e => exact ⟨hf₁, .inl (refused_reject _ _)⟩
    | none =>
      dsimp only
      cases hroute : table.lookupPrompt req₀.promptName with
      | none => exact ⟨hf₁, .inl ⟨by simp, rfl⟩⟩
      | some route =>
        have hbranch : branchOf table req₀ = .prompt := by
          simp [branchOf, hreply, hmethod, methodToolCall, methodPromptGet]
        refine obeys_mono (routeToUpstream_obeys hsigner
          (show _ = req₀.headers from rfl) rfl (htok rfl) hf₁) (fun _ _ h => h) ?_
        rintro ⟨d, req'⟩ tr₂ ⟨hf₂, hrefused | ⟨path, u, body, hu, hd, hr, hbody⟩⟩
        · exact ⟨hf₂, .inl hrefused⟩
        · dsimp only at hd hr ⊢
          rw [hd]
          exact ⟨hf₂, .inr (.prompt hbranch hroute hu hr hbody hname)⟩

lemma routeElicitationResponse_obeys (hreply : req₀.isElicitationResponse = true)
    (hf : flight tr = .idle) : (r.routeElicitationResponse req₀).Obeys (RequestProtocol signer req₀)
    (RoutePost r table req₀) tr := by
  have hbranch : branchOf table req₀ = .reply := by simp [branchOf, hreply]
  refine obeys_seq (validateSession_obeys hsigner _ tr) ?_
  rintro res tr₁ _ ⟨hf₁, -⟩
  rw [hf] at hf₁
  cases res with
  | some e => exact ⟨hf₁, .inl (refused_reject _ _)⟩
  | none =>
    refine obeys_op.2 ⟨trivial, fun found => ?_⟩
    have hf₂ := (flight_append tr₁ ⟨.idLookup req₀.id.sprint, found⟩).trans hf₁
    rcases found with e | _ | entry
    · exact ⟨hf₂, .inl (refused_reject _ _)⟩
    · exact ⟨hf₂, .inl (refused_reject _ _)⟩
    · dsimp only
      split_ifs with hsession
      · exact ⟨hf₂, .inl (refused_reject _ _)⟩
      · refine obeys_op.2 ⟨trivial, fun cfg => ?_⟩
        have hf₃ := (flight_append _ ⟨.loadConfig, cfg⟩).trans hf₂
        have hentry := (answered_append tr₁ (.idLookup req₀.id.sprint) (.ok (some entry))).mono
          (prefix_append _ [⟨.loadConfig, cfg⟩])
        cases hconf : cfg.getServerConfigByName entry.serverName with
        | none => exact ⟨hf₃, .inl (refused_reject _ _)⟩
        | some conf =>
          dsimp only
          cases hpath : conf.path with
          | none => exact ⟨hf₃, .inl (refused_reject _ _)⟩
          | some path =>
            have hown : entry.gatewaySessionID = req₀.getSessionID := not_not.1 hsession
            refine obeys_op.2 ⟨⟨entry, hentry, hown⟩, fun _ =>
              ⟨(flight_append _ _).trans hf₃, .inr ?_⟩⟩
            exact .reply hbranch (hentry.mono (prefix_append _ _)) hown
              (fun S => by simp only [handed_append, namedSession])
              ((answered_append _ .loadConfig cfg).mono (prefix_append _ _)) hconf
              ⟨rfl, rfl, rfl⟩ rfl

lemma routeByMethod_obeys (hf : flight tr = .idle) :
    (r.routeByMethod table req₀).Obeys (RequestProtocol signer req₀)
      (RoutePost r table req₀) tr := by
  unfold routeByMethod
  split_ifs with hreply hmethod hmethod'
  · exact routeElicitationResponse_obeys hsigner hreply hf
  · exact routeToolCall_obeys hsigner (by simpa using hreply) hmethod hf
  · exact routePromptGet_obeys hsigner (by simpa using hreply) hmethod' hf
  · refine obeys_mono (routeBrokerPassthrough_obeys hf) (fun _ _ h => h) ?_
    rintro ⟨d, req'⟩ tr' ⟨hf', hrefused | ⟨hreq', ⟨hhair, hd⟩ | ⟨m, now, hhair, hm, hnow, hv, hd⟩⟩⟩
    · exact ⟨hf', .inl hrefused⟩
    · dsimp only at hd hreq'
      rw [hd, hreq']
      exact ⟨hf', .inr (.broker (by simp [branchOf, hreply, hmethod, hmethod', hhair]))⟩
    · dsimp only at hd hreq'
      rw [hd, hreq']
      exact ⟨hf', .inr (.hairpin (by simp [branchOf, hreply, hmethod, hmethod', hhair]) hm hnow hv)⟩

lemma routeRequest_obeys (hf : flight tr = .idle) :
    (r.routeRequest (some req₀)).Obeys (RequestProtocol signer req₀)
      (fun res tr' => flight tr' = .idle ∧ ∃ req', res.2 = some req' ∧
        (Refused res.1 ∨ ∃ table, Answered tr' .loadTable table ∧
          Accepted r table req₀ tr' res.1 req')) tr := by
  refine obeys_op.2 ⟨trivial, fun table => ?_⟩
  have hf₁ : flight (tr ++ [⟨.loadTable, table⟩]) = .idle := (flight_append _ _).trans hf
  refine obeys_seq (routeByMethod_obeys hsigner hf₁) ?_
  rintro ⟨d, req'⟩ tr' hp ⟨hf', hrefused | hacc⟩
  · exact ⟨hf', req', rfl, .inl hrefused⟩
  · exact ⟨hf', req', rfl, .inr ⟨table, (answered_append tr .loadTable table).mono hp, hacc⟩⟩

omit hsigner in
lemma accepted_of_outcome {d : Decision} {req' : Option MCPRequest}
    (hout : (r.routeRequest (some req₀)).Outcome tr (d, req')) : ∃ table tr' req'', tr = ⟨.loadTable,
    table⟩ :: tr' ∧ req' = some req'' ∧ (d.error = none → Accepted r table req₀ tr d req'') := by
  obtain ⟨signer, hsigner⟩ := exists_signer r.jwtManager
  obtain ⟨table, tr', rfl, hrest⟩ := outcome_op_iff.1 hout
  obtain ⟨⟨d', req''⟩, tr₁, tr₂, rfl, hroute, hret⟩ := outcome_bind_iff.1 hrest
  obtain ⟨rfl, hd⟩ := outcome_ret_iff.1 hret
  cases hd
  have hf : flight [⟨.loadTable, table⟩] = .idle := rfl
  have hpost := (routeByMethod_obeys hsigner hf).outcome hroute
  refine ⟨table, tr₁ ++ [], req'', rfl, rfl, fun herr => ?_⟩
  rcases hpost.2 with hrefused | hacc
  · exact absurd herr hrefused.1
  · simpa using hacc

end Router

end Requests

end McpGateway.Routing
