import McpGateway.Gateway.Authority

/-!
# Requests of the hairpin client

The router opens an upstream session with a client of its own, whose requests come back through the
gateway: `initialize`, `notifications/initialized` and, when the client is closed, a `DELETE`.  All of them
name the upstream host in `mcp-init-host`.  The headers phase does not look at that header and the body
phase does, so a request is sent to the host only if it has a message for the router.
-/

namespace McpGateway.Gateway

open Go Effect Config Routing Session ExtProc Http Server Router MCPRequest

inductive HairpinRequest where
  | first
  | confirm
  | close
  deriving DecidableEq

def HairpinRequest.rpcMethod : HairpinRequest → String
  | first => methodInitialize
  | confirm => "notifications/initialized"
  | close => ""

/-- What the client sends for the upstream host `host`: two messages, and a `DELETE` without a body. -/
structure SentBy (s : Server) (host : String) (kind : HairpinRequest) (req : ClientRequest) : Prop where
  named : host ≠ ""
  initHost : (headerMapToMap (some req.headers)).get initHostHeader = host
  post : kind ≠ .close → req.method = "POST" ∧ req.endOfStream = false ∧
    ∃ body mcpReq, req.body = some body ∧ s.message req = some mcpReq ∧ mcpReq.method = kind.rpcMethod ∧
      ∀ a, parseA2ARequest body = some a → a.method = kind.rpcMethod
  delete : kind = .close → req.method = "DELETE" ∧ req.body = none

/-- The request goes on, to `host`. -/
def Directed (host : String) (d : Disposition) : Prop :=
  ∃ hs body, d = .forwarded hs body ∧ hs.values authorityHeader = [host]

lemma directed_forwarded {host : String} {hs : Headers} {body : Option Bytes} :
    Directed host (.forwarded hs body) ↔ hs.values authorityHeader = [host] := by
  constructor
  · rintro ⟨_, _, h, hhost⟩
    cases h
    exact hhost
  · intro h
    exact ⟨hs, body, rfl, h⟩

section Directed

variable {s : Server} {m : JWTManager} {host gw : String} {kind : HairpinRequest} {req : ClientRequest}
  {tr : List GwEv} {d : Disposition} {cfg : MCPServersConfig} {hs : Headers}

lemma headersMutation_authority :
    ((headersMutation cfg hs).apply hs).values authorityHeader = [cfg.mcpGatewayExternalHostname] := by
  refine Mutation.values_apply_of_set mem_cons_self fun p hp hkey => ?_
  rcases mem_cons.1 hp with rfl | hp
  · rfl
  · split at hp
    · cases hp
    · cases mem_singleton.1 hp
      exact absurd hkey (show mcpVerifiedSubHeader ≠ authorityHeader by decide)
    · cases hp

variable {mcpReq : MCPRequest}

lemma hairpinDecision_authority (h : mcpReq.getSingleHeaderValue initHostHeader = host)
    (hhost : host ≠ "") :
    ((decisionMutation (hairpinDecision mcpReq)).apply hs).values authorityHeader = [host] := by
  have hset : (authorityHeader, host) ∈ (decisionMutation (hairpinDecision mcpReq)).set := by
    simp only [decisionMutation, decisionHeaders, hairpinDecision, h, if_neg hhost]
    exact mem_cons_self
  refine Mutation.values_apply_of_set hset fun p hp hkey => ?_
  simp only [decisionMutation, decisionHeaders, hairpinDecision, h, if_neg hhost] at hp
  rcases mem_append.1 hp with hp | hp
  · rcases mem_append.1 hp with hp | hp
    · cases mem_singleton.1 hp
      rfl
    · cases hp
  · have hne := (of_decide_eq_true (mem_filter.1 hp).2).1
    exact absurd hkey hne

/-- A message with a valid token is routed by its host. -/
lemma routeRequest_hairpin {res : Decision × Option MCPRequest}
    (hm : s.router.jwtManager = some m) (hinit : mcpReq.isInitializeRequest = true)
    (hinitHost : mcpReq.getSingleHeaderValue initHostHeader = host) (hhost : host ≠ "")
    (hvalid : ∀ now, Answered tr .now now →
      m.validateBackendInitToken now (mcpReq.getSingleHeaderValue routingKey) host = .ok ())
    (hout : (s.router.routeRequest (some mcpReq)).Outcome tr res) :
    res.1 = hairpinDecision mcpReq := by
  have hmethod : mcpReq.isElicitationResponse = false ∧ mcpReq.method ≠ methodToolCall ∧
      mcpReq.method ≠ methodPromptGet := by
    simp only [isInitializeRequest, or_eq_true, decide_eq_true_eq] at hinit
    rcases hinit with h | h <;> simp +decide [isElicitationResponse, h]
  have hhairpin : isHairpin mcpReq = true := by
    simp [isHairpin, hinit, hinitHost, hhost]
  obtain ⟨table, tr₁, rfl, htable⟩ := outcome_op_iff.1 hout
  obtain ⟨routed, tr₂, tr₃, rfl, hrouted, hret⟩ := outcome_bind_iff.1 htable
  obtain ⟨rfl, rfl⟩ := outcome_ret_iff.1 hret
  -- neither an answer nor a call of a tool or prompt, so the passthrough looks at the token
  rw [routeByMethod, hmethod.1, if_neg Bool.false_ne_true, if_neg hmethod.2.1, if_neg hmethod.2.2,
    routeBrokerPassthrough, if_pos hhairpin, hm] at hrouted
  obtain ⟨now, tr₄, rfl, hchecked⟩ := outcome_op_iff.1 hrouted
  rw [hinitHost, hvalid now (by simp [Answered])] at hchecked
  obtain ⟨-, rfl⟩ := outcome_ret_iff.1 hchecked
  rfl

lemma post_directed (hm : s.router.jwtManager = some m) (ha : s.isA2A req = false)
    (hreq : SentBy s host kind req) (hkind : kind ≠ .close)
    (hvalid : ∀ now, Answered tr .now now → m.validateBackendInitToken now
      ((headerMapToMap (some req.headers)).get routingKey) host = .ok ())
    (hout : (s.requestPhases req).Outcome tr d) : Directed host d := by
  obtain ⟨-, -, body, mcpReq, hbody, hmsg, hmethod, -⟩ := hreq.post hkind
  have hheaders := message_headers hmsg
  have hinit : mcpReq.isInitializeRequest = true := by
    rw [isInitializeRequest, hmethod]
    cases kind with
    | first | confirm => decide
    | close => exact absurd rfl hkind
  rw [requestPhases, headersPhase_mcp ha, Prog.bind_assoc] at hout
  obtain ⟨cfg, tr', rfl, hrest⟩ := outcome_op_iff.1 hout
  simp only [hbody, pure_eq, ret_bind, applyMutation] at hrest
  -- what the headers phase has set is overwritten by the decision of the body phase
  rcases bodyPhase_mcp (s := s) ((headersMutation cfg req.headers).apply req.headers) hbody with
    ⟨hnone, -⟩ | ⟨mcpReq', hmsg', hphase⟩
  · rw [hmsg] at hnone
    cases hnone
  cases hmsg.symm.trans hmsg'
  rw [hphase] at hrest
  obtain ⟨res, tr₁, tr₂, rfl, hroute, hret⟩ := outcome_bind_iff.1 hrest
  obtain ⟨rfl, rfl⟩ := outcome_ret_iff.1 hret
  have hinitHost : mcpReq.getSingleHeaderValue initHostHeader = host := by
    rw [getSingleHeaderValue, hheaders]
    exact hreq.initHost
  have hdecision := routeRequest_hairpin hm hinit hinitHost hreq.named (fun now hnow => by
    rw [getSingleHeaderValue, hheaders]
    refine hvalid now (mem_cons_of_mem _ ?_)
    exact mem_append_left _ hnow) hroute
  rw [hdecision]
  exact directed_forwarded.2 (hairpinDecision_authority hinitHost hreq.named)

/-- An A2A path is served by another code path, which knows neither message. -/
lemma post_a2a (ha : s.isA2A req = true) (hreq : SentBy s host kind req) (hkind : kind ≠ .close)
    (hout : (s.requestPhases req).Outcome tr d) : ¬ Directed host d := by
  obtain ⟨hpost, heos, body, mcpReq, hbody, hmsg, -, hmethod⟩ := hreq.post hkind
  rintro ⟨hs, body', rfl, -⟩
  have hgate : passesGate body = false := by
    unfold passesGate
    cases ha2a : parseA2ARequest body with
    | none => rfl
    | some a =>
      dsimp only
      rw [hmethod a ha2a]
      cases kind with
      | first | confirm => rfl
      | close => exact absurd rfl hkind
  have hinspected : s.isInspected req body = true := by
    by_contra hnot
    rw [message, hbody, Option.bind_some, if_neg hnot] at hmsg
    cases hmsg
  simp only [isInspected, and_eq_true, decide_eq_true_eq] at hinspected
  cases forwardedBy_of_outcome hout with
  | discovery _ hm => exact hm hpost
  | headersOnly ha' | routed ha' =>
    rw [ha] at ha'
    cases ha'
  | @invocation agent _ _ hagent =>
    rcases requestPhases_invocation ha hpost hagent with ⟨-, hread⟩ | ⟨r, b, hphase, -⟩
    · -- forwarded unread for one of four reasons, none of which applies to the messages of the client
      rcases hread body hbody with heos' | ⟨-, hjson | hempty | hpass⟩
      · rw [heos] at heos'
        cases heos'
      · rw [hinspected.1.2] at hjson
        cases hjson
      · exact hinspected.2 hempty
      · rw [hgate] at hpass
        cases hpass
    · rw [hphase] at hout
      cases (outcome_ret_iff.1 hout).2

lemma close_directed_iff (hreq : SentBy s host .close req)
    (hcfg : ∀ cfg, Answered tr .loadConfig cfg → cfg.mcpGatewayExternalHostname = gw)
    (hout : (s.requestPhases req).Outcome tr d) :
    Directed host d ↔
      if s.isA2A req then req.headers.values authorityHeader = [host] else gw = host := by
  obtain ⟨hdelete, hbody⟩ := hreq.delete rfl
  cases ha : s.isA2A req with
  | true =>
    have hm : req.method ≠ "POST" := by
      rw [hdelete]
      decide
    rw [requestPhases, headersPhase_discovery ha hm, pure_eq, ret_bind] at hout
    simp only [hbody, applyMutation] at hout
    obtain ⟨-, rfl⟩ := outcome_ret_iff.1 hout
    exact directed_forwarded
  | false =>
    -- without a body there is no body phase to undo the authority of the gateway
    rw [requestPhases, headersPhase_mcp ha, Prog.bind_assoc] at hout
    obtain ⟨cfg, tr', rfl, hrest⟩ := outcome_op_iff.1 hout
    simp only [hbody, pure_eq, ret_bind, applyMutation] at hrest
    obtain ⟨-, rfl⟩ := outcome_ret_iff.1 hrest
    rw [directed_forwarded, headersMutation_authority, hcfg cfg mem_cons_self]
    exact List.singleton_inj

/-- A request of the client reaches the upstream host exactly if it is one of the messages, on a path that
no agent is looked up by; a `DELETE` reaches it only if the host is the gateway's own, or if the request
was sent to that host and is not changed at all. -/
theorem hairpin_directed_iff (hm : s.router.jwtManager = some m) (hreq : SentBy s host kind req)
    (hcfg : ∀ cfg, Answered tr .loadConfig cfg → cfg.mcpGatewayExternalHostname = gw)
    (hvalid : ∀ now, Answered tr .now now → m.validateBackendInitToken now
      ((headerMapToMap (some req.headers)).get routingKey) host = .ok ())
    (hout : (s.requestPhases req).Outcome tr d) :
    Directed host d ↔ if kind = .close then
        if s.isA2A req then req.headers.values authorityHeader = [host] else gw = host
      else s.isA2A req = false := by
  by_cases hkind : kind = .close
  · subst hkind
    rw [if_pos rfl]
    exact close_directed_iff hreq hcfg hout
  · rw [if_neg hkind]
    cases ha : s.isA2A req with
    | false => exact iff_of_true (post_directed hm ha hreq hkind hvalid hout) rfl
    | true => exact iff_of_false (post_a2a ha hreq hkind hout) Bool.noConfusion

end Directed

/-! ## The two ends of a session -/

/-- The close of the session that `hairpinInitialize` has opened. -/
def hairpinClose : ClientRequest where
  headers := [(":method", "DELETE"), (":path", "/mcp"), ("mcp-session-id", "u1"), ("router-key", "b1"),
    ("mcp-init-host", "weather.svc")]
  endOfStream := true
  body := none

def phasesRun (req : ClientRequest) : Option (List GwEv × Disposition) :=
  (demoGateway.server.requestPhases req).exec (Script.answers {})
    { weatherWorld with config := { weatherConfig with mcpGatewayExternalHostname := "gw.example" } }

def authorityOf : Disposition → List String
  | .answered _ => []
  | .forwarded hs _ => hs.values authorityHeader

/-- The gateway's host name and the time that a run was told. -/
def told (ev : GwEv) : Bool :=
  match ev with
  | ⟨.loadConfig, cfg⟩ => cfg.mcpGatewayExternalHostname = "gw.example"
  | ⟨.now, now⟩ =>
    (demoGateway.jwtManager.validateBackendInitToken now "b1" "weather.svc").toOption == some ()
  | _ => true

lemma sentBy_first : SentBy demoGateway.server "weather.svc" .first hairpinInitialize where
  named := by decide
  initHost := by decide +kernel
  post _ := by
    obtain ⟨mcpReq, hmsg, hmethod⟩ := map_eq_some_iff.1
      (show (demoGateway.server.message hairpinInitialize).map method = some "initialize" by
        decide +kernel)
    have hread : (parseA2ARequest (bytes "\x7b\"jsonrpc\":\"2.0\",\"id\":1,\"method\":\"initialize\"\x7d")).all
        (fun a => decide (a.method = "initialize")) = true := by decide +kernel
    refine ⟨by decide, rfl, _, mcpReq, rfl, hmsg, hmethod, fun a ha => ?_⟩
    rw [ha] at hread
    exact of_decide_eq_true hread
  delete h := by cases h

theorem hairpin_directed_first : ∃ tr d, (demoGateway.server.requestPhases hairpinInitialize).Outcome tr d ∧
    SentBy demoGateway.server "weather.svc" .first hairpinInitialize ∧ Directed "weather.svc" d := by
  obtain ⟨⟨tr, d⟩, hrun, htold⟩ := (Option.any_eq_true (fun r : List GwEv × Disposition => r.1.all told)
    (phasesRun hairpinInitialize)).1 (by decide +kernel)
  have hout := Prog.outcome_exec hrun
  have hconfig : ∀ cfg, Answered tr .loadConfig cfg → cfg.mcpGatewayExternalHostname = "gw.example" :=
    fun cfg hcfg => of_decide_eq_true (List.all_eq_true.1 htold _ hcfg)
  refine ⟨tr, d, hout, sentBy_first, (hairpin_directed_iff rfl sentBy_first hconfig (fun now hnow => ?_)
    hout).2 rfl⟩
  have hok := List.all_eq_true.1 htold _ hnow
  exact Script.eq_ok_of_toOption (beq_iff_eq.1 hok)

/-- The session is closed with a `DELETE` that the broker gets. -/
theorem hairpinClose_not_directed : ∃ tr d, (demoGateway.server.requestPhases hairpinClose).Outcome tr d ∧
    SentBy demoGateway.server "weather.svc" .close hairpinClose ∧ authorityOf d = ["gw.example"] ∧
    ¬ Directed "weather.svc" d := by
  obtain ⟨⟨tr, d⟩, hrun, hgw⟩ := (Option.any_eq_true (fun r : List GwEv × Disposition =>
    decide (authorityOf r.2 = ["gw.example"])) (phasesRun hairpinClose)).1 (by decide +kernel)
  have hauthority : authorityOf d = ["gw.example"] := of_decide_eq_true hgw
  refine ⟨tr, d, Prog.outcome_exec hrun, ⟨by decide, by decide +kernel, (fun h => absurd rfl h),
    fun _ => ⟨by decide, rfl⟩⟩, hauthority, ?_⟩
  rintro ⟨hs, body, rfl, hhost⟩
  exact absurd (hauthority.symm.trans hhost) (by decide)

end McpGateway.Gateway
