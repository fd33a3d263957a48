import McpGateway.ExtProc.Process
import McpGateway.Routing.Protocol

/-!
# A request through Envoy

Envoy sends the headers of a request to the processor and applies the answer, then buffers the body,
sends it and applies the second answer.  `requestPhases` is this exchange for a client's request; it
ends with the request answered by the gateway, or forwarded with the headers it then has.

`forwardedBy_of_outcome` lists the ways a request can be forwarded:

- an A2A discovery or an A2A invocation, which the router never sees;
- an MCP request that only went through the headers phase, because one of the early returns of the
  body phase applies;
- an MCP request the router accepted.
-/

namespace McpGateway.ExtProc

open Go Effect Config Routing Session Http Server MCPRequest

/-- A request as Envoy receives it, with lower-case header names and the pseudo-headers first. -/
structure ClientRequest where
  headers : Headers
  endOfStream : Bool
  /-- the body message, when Envoy sends one -/
  body : Option Bytes

namespace ClientRequest

def path (req : ClientRequest) : String := getSingleValueHeader (some req.headers) ":path"
def method (req : ClientRequest) : String := getSingleValueHeader (some req.headers) ":method"

def sessionID (req : ClientRequest) : String := (headerMapToMap (some req.headers)).get sessionHeader

end ClientRequest

inductive Disposition where
  | answered (r : ImmediateResponse)
  | forwarded (headers : Headers) (body : Option Bytes)

def applyMutation (m : Option Mutation) (headers : Headers) : Headers :=
  match m with
  | some m => m.apply headers
  | none => headers

def spuriousAnswer : Disposition := .answered ⟨500, [], []⟩

namespace Server

variable (s : Server)

/-- The body phase, after the headers phase left `headers`. -/
def bodyPhase (st : Stream) (headers : Headers) (body : Bytes) : Gw Disposition := do
  let (resp, _) ← s.step st (.requestBody body)
  match resp with
  | .immediate r => pure (.answered r)
  | .requestBody m body' =>
    pure (.forwarded (applyMutation m headers) (some (body'.getD body)))
  | _ => pure spuriousAnswer

/-- Both request phases.  A request without a body, or whose stream the processor closed, is
forwarded after the first. -/
def requestPhases (req : ClientRequest) : Gw Disposition := do
  let (resp, st) ← s.step {} (.requestHeaders (some ⟨some req.headers, req.endOfStream⟩))
  match resp with
  | .immediate r => pure (.answered r)
  | .requestHeaders m =>
    match req.body, st with
    | some body, some st => s.bodyPhase st (applyMutation m req.headers) body
    | body, _ => pure (.forwarded (applyMutation m req.headers) body)
  | _ => pure spuriousAnswer

/-! ## What the request says -/

def isA2A (req : ClientRequest) : Bool :=
  s.a2aBroker.isSome && isA2APath req.path

def agentOf (req : ClientRequest) : Option A2AAgent :=
  s.a2aBroker.bind fun resolve => (resolveA2APath req.path).bind fun p => resolve p.1 p.2

def isInspected (req : ClientRequest) (body : Bytes) : Bool :=
  !req.endOfStream && !s.tooLarge body && isJSONContent (some req.headers) && body ≠ []

def readMessage (headers : Headers) (body : Bytes) : Option MCPRequest :=
  match MCPRequest.unmarshal body with
  | some parsed =>
    match MCPRequest.validate parsed with
    | .ok _ => parsed.map fun r => { r with headers := headerMapToMap (some headers) }
    | .error _ => none
  | none => none

def message (req : ClientRequest) : Option MCPRequest :=
  req.body.bind fun body =>
    if s.isInspected req body then readMessage req.headers body else none

variable {s : Server} {req : ClientRequest} {mcpReq : MCPRequest} (h : s.message req = some mcpReq)

include h

lemma message_cases : ∃ body r, unmarshal body = some (some r) ∧
      mcpReq = { r with headers := headerMapToMap (some req.headers) } ∧
      req.body = some body ∧ validate (some r) = .ok () := by
  unfold message readMessage at h
  cases hbody : req.body with
  | none => simp [hbody] at h
  | some body =>
    simp only [hbody, Option.bind_some] at h
    split_ifs at h
    split at h
    next parsed hparsed =>
      split at h
      next hvalid =>
        obtain ⟨r, rfl, rfl⟩ := map_eq_some_iff.1 h
        exact ⟨body, r, hparsed, rfl, rfl, hvalid⟩
      next => simp at h
    next => simp at h

lemma message_headers
    : mcpReq.headers = headerMapToMap (some req.headers) := by
  obtain ⟨body, r, -, rfl, -⟩ := message_cases h
  rfl

lemma message_backendSessionID : mcpReq.backendSessionID = "" := by
  obtain ⟨body, r, hr, rfl, -⟩ := message_cases h
  have hunbound := unmarshal_unbound hr
  exact hunbound.2

lemma message_serverName : mcpReq.serverName = "" := by
  obtain ⟨body, r, hr, rfl, -⟩ := message_cases h
  have hunbound := unmarshal_unbound hr
  exact hunbound.1

end Server

def verifiedSub (headers : Headers) : Except String String :=
  extractSubClaim (getSingleValueHeader (some headers) authorizationHeader)

def headersMutation (cfg : MCPServersConfig) (headers : Headers) : Mutation where
  remove := internalOnlyHeaders
  set := (authorityHeader, cfg.mcpGatewayExternalHostname) ::
    match verifiedSub headers with
    | .ok "" => []
    | .ok sub => [(mcpVerifiedSubHeader, sub)]
    | .error _ => []

def agentMutation (agent : A2AAgent) : Mutation where
  remove := internalOnlyHeaders
  set := [(authorityHeader, agent.hostname), (":path", a2aBackendPath)]

def decisionMutation (d : Decision) : Mutation := ⟨d.unsetHeaders, decisionHeaders d⟩

/-! ## The phases of an A2A request -/

namespace Server

variable {s : Server} {req : ClientRequest}

def streamOf (req : ClientRequest) (a2a : Option A2AState) : Stream where
  localRequestHeaders := some ⟨some req.headers, req.endOfStream⟩
  endOfStream := req.endOfStream
  requestPath := req.path
  a2a := a2a

variable (ha : s.isA2A req = true)

include ha

lemma headersPhase_a2a : ∃ resolve, s.a2aBroker = some resolve ∧
    s.step {} (.requestHeaders (some ⟨some req.headers, req.endOfStream⟩)) =
      pure ((a2aRequestHeaders resolve req.method req.path).1,
        some (streamOf req (some (a2aRequestHeaders resolve req.method req.path).2))) := by
  rw [isA2A, and_eq_true] at ha
  obtain ⟨resolve, hresolve⟩ := isSome_iff_exists.1 ha.1
  have hpath : isA2APath (getSingleValueHeader (some req.headers) ":path") = true := ha.2
  refine ⟨resolve, hresolve, ?_⟩
  simp only [step, onRequestHeaders, hresolve, hpath, if_true]
  rfl

lemma headersPhase_discovery (hm : req.method ≠ "POST") :
    s.step {} (.requestHeaders (some ⟨some req.headers, req.endOfStream⟩)) =
      pure (.requestHeaders none, some (streamOf req (some { discovery := true }))) := by
  obtain ⟨resolve, -, hstep⟩ := headersPhase_a2a ha
  rw [hstep, a2aRequestHeaders, if_pos hm]

lemma headersPhase_invocation {agent : A2AAgent}
    (hm : req.method = "POST") (hagent : s.agentOf req = some agent) :
    s.step {} (.requestHeaders (some ⟨some req.headers, req.endOfStream⟩)) =
      pure (.requestHeaders (some (agentMutation agent)),
        some (streamOf req (some { agent := agent.name }))) := by
  obtain ⟨resolve, hresolve, hstep⟩ := headersPhase_a2a ha
  rw [agentOf, hresolve, Option.bind_some] at hagent
  rw [hstep, a2aRequestHeaders, if_neg (not_not.2 hm), hagent]
  rfl

lemma headersPhase_unresolved (hm : req.method = "POST")
    (hagent : s.agentOf req = none) :
    ∃ r st, s.step {} (.requestHeaders (some ⟨some req.headers, req.endOfStream⟩)) =
      pure (.immediate r, st) := by
  obtain ⟨resolve, hresolve, hstep⟩ := headersPhase_a2a ha
  rw [agentOf, hresolve, Option.bind_some] at hagent
  rw [hstep, a2aRequestHeaders, if_neg (not_not.2 hm), hagent]
  exact ⟨_, _, rfl⟩

omit ha in
lemma a2aRequestBody_gate (a : A2AState) (body : Bytes) : (∃ a', a2aRequestBody a body = (doNothingBody,
    a') ∧ (a.discovery ∨ passesGate body)) ∨ ∃ r a', a2aRequestBody a body = (.immediate r, a') ∧
    a.discovery = false ∧ passesGate body = false := by
  unfold a2aRequestBody passesGate
  by_cases hd : a.discovery = true
  · exact .inl ⟨a, by simp [hd], .inl hd⟩
  · have hd' : a.discovery = false := by simpa using hd
    rw [if_neg hd]
    cases parseA2ARequest body with
    | none => exact .inr ⟨_, a, rfl, hd', rfl⟩
    | some r =>
      dsimp only
      split_ifs with hmethod hpush
      · exact .inr ⟨_, a, rfl, hd', by simp [hmethod]⟩
      · exact .inr ⟨_, a, rfl, hd', by simp [hpush]⟩
      · have hmethod' : isSupportedA2AMethod r.method = true := by simpa using hmethod
        exact .inl ⟨_, rfl, .inr (by simp [hmethod', hpush])⟩

omit ha in
lemma bodyPhase_a2a (s : Server) (req : ClientRequest) (a : A2AState) (hs : Headers) (body : Bytes) :
    (s.bodyPhase (streamOf req (some a)) hs body = pure (.forwarded hs (some body)) ∧ (req.endOfStream ∨
    (s.tooLarge body = false ∧ (isJSONContent (some req.headers) = false ∨ body = [] ∨ a.discovery ∨
    passesGate body)))) ∨ (∃ r, s.bodyPhase (streamOf req (some a)) hs body = pure (.answered r) ∧
    req.endOfStream = false ∧ (s.tooLarge body ∨ (isJSONContent (some req.headers) = true ∧ body ≠ [] ∧
    a.discovery = false ∧ passesGate body = false))) := by
  unfold bodyPhase step onRequestBody streamOf
  dsimp only [Option.bind_some]
  cases heos : req.endOfStream with
  | true => exact .inl ⟨rfl, .inl rfl⟩
  | false =>
    cases hlarge : s.tooLarge body with
    | true => exact .inr ⟨_, rfl, rfl, .inl rfl⟩
    | false =>
      cases hjson : isJSONContent (some req.headers) with
      | false => exact .inl ⟨rfl, .inr ⟨rfl, .inl rfl⟩⟩
      | true =>
        by_cases hbody : body = []
        · subst hbody
          exact .inl ⟨rfl, .inr ⟨rfl, .inr (.inl rfl)⟩⟩
        · rcases a2aRequestBody_gate a body with ⟨a', hgate, hpass⟩ | ⟨r, a', hgate, hd, hpass⟩
          · refine .inl ⟨by simp [hgate, hbody, doNothingBody, applyMutation], .inr ⟨rfl, ?_⟩⟩
            exact .inr (.inr hpass)
          · exact .inr ⟨r, by simp [hgate, hbody], rfl, .inr ⟨rfl, hbody, hd, hpass⟩⟩

lemma requestPhases_invocation {agent : A2AAgent}
    (hm : req.method = "POST") (hagent : s.agentOf req = some agent) :
    (s.requestPhases req = pure (.forwarded ((agentMutation agent).apply req.headers) req.body) ∧
      ∀ body, req.body = some body → req.endOfStream = true ∨ (s.tooLarge body = false ∧
        (isJSONContent (some req.headers) = false ∨ body = [] ∨ passesGate body = true))) ∨
    ∃ r body, s.requestPhases req = pure (.answered r) ∧ req.body = some body ∧
      req.endOfStream = false ∧ (s.tooLarge body = true ∨
        (isJSONContent (some req.headers) = true ∧ body ≠ [] ∧ passesGate body = false)) := by
  rw [requestPhases, headersPhase_invocation ha hm hagent, pure_eq, ret_bind]
  cases hbody : req.body with
  | none => exact .inl ⟨rfl, fun body h => by simp at h⟩
  | some body =>
    dsimp only [applyMutation]
    rcases bodyPhase_a2a s req { agent := agent.name }
      ((agentMutation agent).apply req.headers) body with ⟨hphase, hpass⟩ | ⟨r, hphase, heos, hstop⟩
    · refine .inl ⟨hphase, fun body' h => ?_⟩
      cases h
      simpa using hpass
    · exact .inr ⟨r, body, hphase, rfl, heos, by simpa using hstop⟩

omit ha

/-- The request goes on to the agent only if its body is a JSON-RPC envelope of a supported method
without a push-notification config. -/
def GateHolds (s : Server) (req : ClientRequest) : Prop :=
  ∀ tr hs body, (s.requestPhases req).Outcome tr (.forwarded hs body) →
    ∃ b, req.body = some b ∧ passesGate b = true

/-- The gate is only in force for a body that comes after the headers message and is either too
large or a non-empty body of a JSON content type.  Any other body is forwarded unread. -/
theorem invocation_gateHolds_iff {agent : A2AAgent} (ha : s.isA2A req = true)
    (hm : req.method = "POST") (hagent : s.agentOf req = some agent) :
    s.GateHolds req ↔ ∃ b, req.body = some b ∧ (passesGate b = true ∨
      (req.endOfStream = false ∧ (s.tooLarge b = true ∨
        (isJSONContent (some req.headers) = true ∧ b ≠ [])))) := by
  constructor
  · intro hgate
    rcases requestPhases_invocation ha hm hagent with ⟨hphase, -⟩ | ⟨r, b, -, hbody, heos, hstop⟩
    · have hout : (s.requestPhases req).Outcome []
          (.forwarded ((agentMutation agent).apply req.headers) req.body) := by
        rw [hphase]
        exact .ret _
      obtain ⟨b, hbody, hpass⟩ := hgate _ _ _ hout
      exact ⟨b, hbody, .inl hpass⟩
    · refine ⟨b, hbody, .inr ⟨heos, ?_⟩⟩
      rcases hstop with hlarge | ⟨hjson, hne, -⟩
      · exact .inl hlarge
      · exact .inr ⟨hjson, hne⟩
  · rintro ⟨b, hbody, hcond⟩ tr hs body hout
    refine ⟨b, hbody, ?_⟩
    rcases requestPhases_invocation ha hm hagent with ⟨-, hpass⟩ | ⟨r, _, hphase, -⟩
    · rcases hcond with hgate | ⟨heos, hread⟩
      · exact hgate
      · -- the body was read, so it can only have been forwarded by the gate
        rcases hpass b hbody with heos' | ⟨hlarge, hjson | hempty | hgate⟩
        · rw [heos] at heos'
          cases heos'
        · simp [hlarge, hjson] at hread
        · rcases hread with hlarge' | ⟨-, hne⟩
          · rw [hlarge] at hlarge'
            cases hlarge'
          · exact absurd hempty hne
        · exact hgate
    · rw [hphase] at hout
      obtain ⟨-, hd⟩ := outcome_ret_iff.1 hout
      cases hd

/-- A gateway with one agent, registered under `/a2a/team/echo`. -/
def echoServer : Server where
  router := ⟨none, false⟩
  responseHandler := ⟨none, false⟩
  maxRequestBodySize := 1024
  a2aBroker := some fun ns agent =>
    if ns = "team" ∧ agent = "echo" then some ⟨"echo", "echo.team.svc"⟩ else none

def echoPost (contentType body : String) : ClientRequest where
  headers := [(":method", "POST"), (":path", "/a2a/team/echo"), ("content-type", contentType)]
  endOfStream := false
  body := some (bytes body)

theorem jsonPost_gateHolds :
    echoServer.GateHolds (echoPost "application/json" "\x7b\"method\":\"Nope\"\x7d") :=
  (invocation_gateHolds_iff (by decide) (by decide)
    (show echoServer.agentOf _ = some ⟨"echo", "echo.team.svc"⟩ by decide)).2
    ⟨_, rfl, .inr ⟨rfl, .inr ⟨by decide, by decide⟩⟩⟩

/-- A body that is no JSON reaches the agent when its content type does not say JSON. -/
theorem textPlain_reaches_agent : echoServer.isA2A (echoPost "text/plain" "hello") = true ∧
      (echoPost "text/plain" "hello").method = "POST" ∧
      echoServer.agentOf (echoPost "text/plain" "hello") = some ⟨"echo", "echo.team.svc"⟩ ∧
      ¬ echoServer.GateHolds (echoPost "text/plain" "hello") := by
  refine ⟨by decide, by decide, by decide, fun hgate => ?_⟩
  obtain ⟨b, hb, hpass⟩ := hgate [] _ _ (.ret _)
  cases hb
  revert hpass
  decide

/-! ## The phases of an MCP request -/

lemma headersPhase_mcp (ha : s.isA2A req = false) :
    s.step {} (.requestHeaders (some ⟨some req.headers, req.endOfStream⟩)) =
      op .loadConfig >>= fun cfg =>
        pure (.requestHeaders (some (headersMutation cfg req.headers)), some (streamOf req none)) := by
  unfold step onRequestHeaders handleRequestHeaders
  dsimp only
  cases hresolve : s.a2aBroker with
  | none => rfl
  | some resolve =>
    have hpath : isA2APath (getSingleValueHeader (some req.headers) ":path") = false := by
      rw [isA2A, hresolve] at ha
      exact ha
    dsimp only
    rw [hpath]
    rfl

def disposeDecision (d : Decision) (headers : Headers) (body : Bytes) : Disposition :=
  match decisionToResponse d with
  | .immediate r => .answered r
  | .requestBody m body' => .forwarded (applyMutation m headers) (some (body'.getD body))
  | _ => spuriousAnswer

lemma disposeDecision_forwarded {d : Decision} {headers hs : Headers} {body : Bytes}
    {body' : Option Bytes} (h : disposeDecision d headers body = .forwarded hs body') :
    d.error = none ∧ hs = (decisionMutation d).apply headers := by
  unfold disposeDecision decisionToResponse at h
  cases herr : d.error with
  | none =>
    simp only [herr, applyMutation, Disposition.forwarded.injEq] at h
    exact ⟨rfl, h.1.symm⟩
  | some e =>
    simp only [herr] at h
    split_ifs at h
    simp [immediateText] at h

lemma mcpRequestBody_cases (st : Stream) (headers : Headers) (body : Bytes) :
    (readMessage headers body = none ∧
      ∃ r st', s.mcpRequestBody st (some headers) body = pure (.immediate r, some st')) ∨
    ∃ mcpReq, readMessage headers body = some mcpReq ∧
      s.mcpRequestBody st (some headers) body = s.router.routeRequest (some mcpReq) >>= fun res =>
        pure (decisionToResponse res.1, some { st with mcpRequest := res.2 }) := by
  unfold readMessage mcpRequestBody
  cases unmarshal body with
  | none => exact .inl ⟨rfl, _, _, rfl⟩
  | some parsed =>
    dsimp only
    cases hvalid : validate parsed with
    | error e => exact .inl ⟨rfl, _, _, rfl⟩
    | ok _ =>
      cases parsed with
      | none => simp [validate] at hvalid
      | some r => exact .inr ⟨_, rfl, rfl⟩

lemma bodyPhase_mcp (hs : Headers) {body : Bytes} (hbody : req.body = some body) :
    (s.message req = none ∧
      ((s.bodyPhase (streamOf req none) hs body = pure (.forwarded hs (some body)) ∧
          (req.endOfStream = true ∨ isJSONContent (some req.headers) = false ∨ body = [])) ∨
        ∃ r, s.bodyPhase (streamOf req none) hs body = pure (.answered r))) ∨
    ∃ mcpReq, s.message req = some mcpReq ∧ s.bodyPhase (streamOf req none) hs body =
      s.router.routeRequest (some mcpReq) >>= fun res => pure (disposeDecision res.1 hs body) := by
  have hmessage : s.message req =
      if s.isInspected req body then readMessage req.headers body else none := by
    rw [message, hbody, Option.bind_some]
  unfold bodyPhase step onRequestBody streamOf
  dsimp only [Option.bind_some]
  cases heos : req.endOfStream with
  | true => exact .inl ⟨by simp [hmessage, isInspected, heos], .inl ⟨rfl, .inl rfl⟩⟩
  | false =>
    cases hlarge : s.tooLarge body with
    | true => exact .inl ⟨by simp [hmessage, isInspected, hlarge], .inr ⟨_, rfl⟩⟩
    | false =>
      cases hjson : isJSONContent (some req.headers) with
      | false =>
        exact .inl ⟨by simp [hmessage, isInspected, hjson], .inl ⟨rfl, .inr (.inl rfl)⟩⟩
      | true =>
        by_cases hempty : body = []
        · subst hempty
          exact .inl ⟨by simp [hmessage, isInspected], .inl ⟨rfl, .inr (.inr rfl)⟩⟩
        · have hinspected : s.isInspected req body = true := by
            simp [isInspected, heos, hlarge, hjson, hempty]
          rw [if_pos hinspected] at hmessage
          simp only [hempty, false_eq_true, Bool.true_eq_false, if_false]
          rcases mcpRequestBody_cases (s := s) (streamOf req none) req.headers body with
            ⟨hread, r, st', hphase⟩ | ⟨mcpReq, hread, hphase⟩
          · refine .inl ⟨hmessage.trans hread, .inr ⟨r, ?_⟩⟩
            simp only [streamOf, heos] at hphase
            simp [hphase]
          · refine .inr ⟨mcpReq, hmessage.trans hread, ?_⟩
            simp only [streamOf, heos] at hphase
            rw [hphase, Prog.bind_assoc]
            refine congrArg _ (funext fun res => ?_)
            simp only [pure_eq, ret_bind, disposeDecision]
            cases decisionToResponse res.1 <;> rfl

end Server

/-! ## Ways to be forwarded -/

/-- `ForwardedBy s req tr hs`: with the answers in `tr` the request is forwarded with headers `hs`. -/
inductive ForwardedBy (s : Server) (req : ClientRequest) : List GwEv → Headers → Prop where
  | discovery (ha : s.isA2A req = true) (hm : req.method ≠ "POST") :
      ForwardedBy s req [] req.headers
  | invocation {agent : A2AAgent} (ha : s.isA2A req = true) (hm : req.method = "POST")
      (hagent : s.agentOf req = some agent) :
      ForwardedBy s req [] ((agentMutation agent).apply req.headers)
  | headersOnly {cfg : MCPServersConfig} (ha : s.isA2A req = false)
      (hmsg : s.message req = none) :
      ForwardedBy s req [⟨.loadConfig, cfg⟩] ((headersMutation cfg req.headers).apply req.headers)
  | routed {cfg : MCPServersConfig} {tr : List GwEv} {mcpReq : MCPRequest} {d : Decision}
      {req' : Option MCPRequest} (ha : s.isA2A req = false) (hmsg : s.message req = some mcpReq)
      (hout : (s.router.routeRequest (some mcpReq)).Outcome tr (d, req'))
      (herr : d.error = none) :
      ForwardedBy s req (⟨.loadConfig, cfg⟩ :: tr)
        ((decisionMutation d).apply ((headersMutation cfg req.headers).apply req.headers))

section Inversion

variable {s : Server} {req : ClientRequest} {tr : List GwEv} {hs : Headers} {body : Option Bytes}

lemma forwardedBy_discovery (ha : s.isA2A req = true) (hm : req.method ≠ "POST")
    (hout : (s.requestPhases req).Outcome tr (.forwarded hs body)) : ForwardedBy s req tr hs := by
  rw [requestPhases, headersPhase_discovery ha hm, pure_eq, ret_bind] at hout
  cases hbody : req.body with
  | none =>
    simp only [hbody, applyMutation] at hout
    obtain ⟨rfl, hd⟩ := outcome_ret_iff.1 hout
    cases hd
    exact .discovery ha hm
  | some b =>
    simp only [hbody, applyMutation] at hout
    rcases bodyPhase_a2a s req { discovery := true } req.headers b with
      ⟨hphase, -⟩ | ⟨r, hphase, -⟩
    · rw [hphase] at hout
      obtain ⟨rfl, hd⟩ := outcome_ret_iff.1 hout
      cases hd
      exact .discovery ha hm
    · rw [hphase] at hout
      obtain ⟨-, hd⟩ := outcome_ret_iff.1 hout
      cases hd

lemma forwardedBy_invocation (ha : s.isA2A req = true) (hm : req.method = "POST")
    (hout : (s.requestPhases req).Outcome tr (.forwarded hs body)) : ForwardedBy s req tr hs := by
  cases hagent : s.agentOf req with
  | none =>
    obtain ⟨r, st, hstep⟩ := headersPhase_unresolved ha hm hagent
    rw [requestPhases, hstep, pure_eq, ret_bind] at hout
    obtain ⟨-, hd⟩ := outcome_ret_iff.1 hout
    cases hd
  | some agent =>
    rcases requestPhases_invocation ha hm hagent with ⟨hphase, -⟩ | ⟨r, b, hphase, -⟩
    · rw [hphase] at hout
      obtain ⟨rfl, hd⟩ := outcome_ret_iff.1 hout
      cases hd
      exact .invocation ha hm hagent
    · rw [hphase] at hout
      obtain ⟨-, hd⟩ := outcome_ret_iff.1 hout
      cases hd

lemma forwardedBy_mcp (ha : s.isA2A req = false)
    (hout : (s.requestPhases req).Outcome tr (.forwarded hs body)) : ForwardedBy s req tr hs := by
  rw [requestPhases, headersPhase_mcp ha, Prog.bind_assoc] at hout
  obtain ⟨cfg, tr', rfl, hrest⟩ := outcome_op_iff.1 hout
  cases hbody : req.body with
  | none =>
    simp only [hbody, pure_eq, ret_bind, applyMutation] at hrest
    obtain ⟨rfl, hd⟩ := outcome_ret_iff.1 hrest
    cases hd
    exact .headersOnly ha (by simp [message, hbody])
  | some b =>
    simp only [hbody, pure_eq, ret_bind, applyMutation] at hrest
    rcases bodyPhase_mcp (s := s) ((headersMutation cfg req.headers).apply req.headers) hbody
      with ⟨hmsg, ⟨hphase, -⟩ | ⟨r, hphase⟩⟩ | ⟨mcpReq, hmsg, hphase⟩
    · rw [hphase] at hrest
      obtain ⟨rfl, hd⟩ := outcome_ret_iff.1 hrest
      cases hd
      exact .headersOnly ha hmsg
    · rw [hphase] at hrest
      obtain ⟨-, hd⟩ := outcome_ret_iff.1 hrest
      cases hd
    · rw [hphase] at hrest
      obtain ⟨⟨d, req'⟩, tr₁, tr₂, rfl, hroute, hret⟩ := outcome_bind_iff.1 hrest
      obtain ⟨rfl, hd⟩ := outcome_ret_iff.1 hret
      obtain ⟨herr, rfl⟩ := disposeDecision_forwarded hd.symm
      rw [append_nil]
      exact .routed ha hmsg hroute herr

lemma forwardedBy_of_outcome (hout : (s.requestPhases req).Outcome tr (.forwarded hs body)) :
    ForwardedBy s req tr hs := by
  cases ha : s.isA2A req with
  | false => exact forwardedBy_mcp ha hout
  | true =>
    by_cases hm : req.method = "POST"
    · exact forwardedBy_invocation ha hm hout
    · exact forwardedBy_discovery ha hm hout

end Inversion

structure RoutedExchange (s : Server) where
  req : ClientRequest
  mcpReq : MCPRequest
  cfg : MCPServersConfig
  table : Table
  answers : List GwEv
  decision : Decision
  rewritten : Option MCPRequest
  headers : Headers
  body : Option Bytes
  mcp : s.isA2A req = false
  asked : s.message req = some mcpReq
  decided : (s.router.routeRequest (some mcpReq)).Outcome (⟨.loadTable, table⟩ :: answers)
    (decision, rewritten)
  forwarded : (s.requestPhases req).Outcome
    (⟨.loadConfig, cfg⟩ :: ⟨.loadTable, table⟩ :: answers) (.forwarded headers body)

variable {s : Server} {req : ClientRequest} {mcpReq : MCPRequest}

lemma exists_routedExchange {tr : List GwEv} {hs : Headers} {body : Option Bytes} (ha : s.isA2A req = false)
    (hmsg : s.message req = some mcpReq)
    (hout : (s.requestPhases req).Outcome tr (.forwarded hs body)) :
    ∃ e : RoutedExchange s, e.req = req ∧ e.mcpReq = mcpReq ∧ e.headers = hs ∧
      tr = ⟨.loadConfig, e.cfg⟩ :: ⟨.loadTable, e.table⟩ :: e.answers := by
  cases forwardedBy_of_outcome hout with
  | discovery ha' => simp [ha] at ha'
  | invocation ha' => simp [ha] at ha'
  | headersOnly _ hmsg' => simp [hmsg] at hmsg'
  | @routed cfg tr _ d req' _ hmsg' hroute herr =>
    cases hmsg.symm.trans hmsg'
    obtain ⟨table, tr', req'', rfl, rfl, -⟩ := Router.accepted_of_outcome hroute
    exact ⟨⟨req, mcpReq, cfg, table, tr', d, some req'', _, body, ha, hmsg, hroute, hout⟩,
      rfl, rfl, rfl, rfl⟩

lemma outcome_of_decided {body : Bytes}
    {tr : List GwEv} {res : Decision × Option MCPRequest} (cfg : MCPServersConfig)
    (ha : s.isA2A req = false) (hbody : req.body = some body) (hmsg : s.message req = some mcpReq)
    (hout : (s.router.routeRequest (some mcpReq)).Outcome tr res) :
    (s.requestPhases req).Outcome (⟨.loadConfig, cfg⟩ :: tr)
      (disposeDecision res.1 ((headersMutation cfg req.headers).apply req.headers) body) := by
  rcases bodyPhase_mcp (s := s) ((headersMutation cfg req.headers).apply req.headers) hbody with
    ⟨hnone, -⟩ | ⟨mcpReq', hmsg', hphase⟩
  · simp [hmsg] at hnone
  · cases hmsg.symm.trans hmsg'
    rw [requestPhases, headersPhase_mcp ha, Prog.bind_assoc]
    refine outcome_op_iff.2 ⟨cfg, _, rfl, ?_⟩
    simp only [hbody, pure_eq, ret_bind, applyMutation]
    rw [hphase]
    exact outcome_bind_iff.2 ⟨_, _, [], (append_nil _).symm, hout, .ret _⟩

/-- The exchange of a run of the router that is computed with the given answers. -/
lemma exists_exchange_exec {σ : Type} (s : Server) (req : ClientRequest)
    (answer : σ → (o : Op) → Option (o.Resp × σ)) (st : σ)
    (good : List GwEv → MCPRequest → Decision → Headers → Bool) (ha : s.isA2A req = false)
    (hrun : ((s.message req).any fun m => ((s.router.routeRequest (some m)).exec answer st).any fun out =>
      out.2.1.error.isNone && good out.1 m out.2.1 ((decisionMutation out.2.1).apply
        ((headersMutation {} req.headers).apply req.headers))) = true) :
    ∃ e : RoutedExchange s, e.req = req ∧ e.body = req.body.map (e.decision.bodyMutation.getD ·) ∧
      good (⟨.loadTable, e.table⟩ :: e.answers) e.mcpReq e.decision e.headers = true := by
  obtain ⟨m, hmsg, hrun⟩ := (any_eq_true _ _).1 hrun
  obtain ⟨⟨tr, d, req'⟩, hexec, hgood⟩ := (any_eq_true _ _).1 hrun
  obtain ⟨herr, hgood⟩ := Bool.and_eq_true_iff.1 hgood
  have hout := Prog.outcome_exec hexec
  obtain ⟨table, tr', rfl, -⟩ := outcome_op_iff.1 hout
  obtain ⟨body, hbody⟩ : ∃ body, req.body = some body := by
    cases hbody : req.body with
    | none => simp [message, hbody] at hmsg
    | some body => exact ⟨body, rfl⟩
  have hforward := outcome_of_decided {} ha hbody hmsg hout
  rw [disposeDecision, decisionToResponse, Option.isNone_iff_eq_none.1 herr] at hforward
  exact ⟨⟨req, m, {}, table, tr', d, req', _, _, ha, hmsg, hout, hforward⟩, rfl,
    by rw [hbody, Option.map_some], hgood⟩

namespace RoutedExchange

variable {s : Server} (e : RoutedExchange s)

lemma headers_eq : e.decision.error = none ∧ e.headers = (decisionMutation e.decision).apply
      ((headersMutation e.cfg e.req.headers).apply e.req.headers) := by
  have hby := forwardedBy_of_outcome e.forwarded
  have hmcp := e.mcp
  have hmsg := e.asked
  have hdecided := e.decided
  generalize e.headers = hs at hby ⊢
  generalize htr : (⟨.loadConfig, e.cfg⟩ :: ⟨.loadTable, e.table⟩ :: e.answers : List GwEv) = tr at hby
  cases hby with
  | discovery ha => simp [hmcp] at ha
  | invocation ha => simp [hmcp] at ha
  | headersOnly _ hmsg' => simp [hmsg] at hmsg'
  | routed _ hmsg' hroute herr =>
    cases hmsg.symm.trans hmsg'
    cases htr
    cases hdecided.unique hroute
    exact ⟨herr, rfl⟩

lemma body_eq {body : Bytes} (hbody : e.req.body = some body) :
    e.body = some (e.decision.bodyMutation.getD body) := by
  have hout := outcome_of_decided e.cfg e.mcp hbody e.asked e.decided
  have hsame := e.forwarded.unique hout
  rw [disposeDecision, decisionToResponse, e.headers_eq.1] at hsame
  exact (Disposition.forwarded.inj hsame).2

lemma accepted : ∃ req', e.rewritten = some req' ∧
    Accepted s.router e.table e.mcpReq (⟨.loadTable, e.table⟩ :: e.answers) e.decision req' := by
  obtain ⟨table, tr', req', htr, hreq', hacc⟩ := Router.accepted_of_outcome e.decided
  cases htr
  exact ⟨req', hreq', hacc e.headers_eq.1⟩

end RoutedExchange

end McpGateway.ExtProc
