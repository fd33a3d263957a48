import McpGateway.Gateway.Calls
import McpGateway.Gateway.Play

/-!
# Where requests are sent

An initialization of the router's own comes back through the gateway and names the upstream it is
meant for, authenticated by a token that the router has signed for that host.  Everything else is sent
to a host of the routing table or of the configuration.
-/

namespace McpGateway

open Go Effect Config Routing Session ExtProc Router

namespace Gateway

/-- The host is one that the thread read from a routing table or a configuration. -/
def Consulted (tr : List GwEv) (host : String) : Prop :=
  (∃ table route, Answered tr .loadTable table ∧ route ∈ table.routes ∧ route.host = host) ∨
    ∃ cfg s, Answered tr .loadConfig cfg ∧ s ∈ cfg.servers ∧ s.hostname = host

/-- The router signed these claims for the host, which was then the hostname of a server in the
configuration it had loaded. -/
def MintedFor (c : GwConfig) (host : String) (claims : Claims) : Prop :=
  ∃ t ∈ c.threads, (∃ client, t.task = .request client) ∧
    (∃ token, Answered t.trace (.sign claims) (.ok token)) ∧
    (∃ now id, claims = JWTManager.backendInitClaims host now id) ∧
    ∃ cfg s, Answered t.trace .loadConfig cfg ∧ s ∈ cfg.servers ∧ s.hostname = host

/-- The request carries an unexpired backend-init token that the router minted for the host it
names. -/
def Granted (g : Gateway) (c : GwConfig) (tr : List GwEv) (req : MCPRequest) : Prop :=
  ∃ claims now, g.signer.verify (req.getSingleHeaderValue routingKey) = some claims ∧
    Answered tr .now now ∧ claims.validFor backendInitAudience now = true ∧
    MintedFor c (req.getSingleHeaderValue initHostHeader) claims

variable {g : Gateway} {G : GwConfig → Label gatewaySig Task → Prop} {c : GwConfig}
  {client : ClientRequest} {t : GwThread}

lemma presented_signed (h : g.system.Reachable G c) (ht : t ∈ c.threads)
    (htask : t.task = .request client) {key : String} {claims : Claims}
    (hv : g.signer.verify ((headerMapToMap (some client.headers)).get key) = some claims) :
    ∃ token, System.Happened c (fun _ => True) ⟨.sign claims, .ok token⟩ := by
  have hstarted := System.Reachable.started (P := fun (c : GwConfig) task => ∀ client,
    task = .request client → ∀ hd ∈ client.headers, ∀ claims, g.signer.verify hd.2 = some claims →
      ∃ token, System.Happened c (fun _ => True) ⟨.sign claims, .ok token⟩)
    (fun c task _ hstart client htask => by subst htask; exact hstart)
    (fun c l c' task hs hP client htask hd hmem claims hv =>
      (hP client htask hd hmem claims hv).imp fun _ hsigned => hsigned.step hs) h t ht client htask
  -- the empty string that stands for a missing header does not verify
  have hne : (headerMapToMap (some client.headers)).get key ≠ "" := by
    intro hempty
    rw [hempty, g.signer.verify_empty] at hv
    cases hv
  exact hstarted (key, _) (mem_of_lookup_ofPairs (GoMap.lookup_of_get_ne hne)) claims hv

lemma granted_of_validate (h : g.system.Reachable G c) (ht : t ∈ c.threads)
    (htask : t.task = .request client) {req : MCPRequest}
    (hmsg : g.server.message client = some req) {now : Time} (hnow : Answered t.trace .now now)
    (hv : g.jwtManager.validateBackendInitToken now (req.getSingleHeaderValue routingKey)
      (req.getSingleHeaderValue initHostHeader) = .ok ()) : Granted g c t.trace req := by
  unfold JWTManager.validateBackendInitToken JWTManager.parseWithClaims at hv
  cases hclaims : g.jwtManager.signer.verify (req.getSingleHeaderValue routingKey) with
  | none => simp [hclaims] at hv
  | some claims =>
    cases hvalid : claims.validFor backendInitAudience now with
    | false => simp [hclaims, hvalid] at hv
    | true =>
      simp only [hclaims, hvalid, if_true] at hv
      split_ifs at hv with hpurpose hhost
      refine ⟨claims, now, hclaims, hnow, hvalid, ?_⟩
      have hpresented := hclaims
      rw [MCPRequest.getSingleHeaderValue, Server.message_headers hmsg] at hpresented
      obtain ⟨token, t', ht', -, hmem⟩ := presented_signed h ht htask hpresented
      obtain ⟨tr, hpre, hready⟩ := ready_of_mem (justified h ht') hmem
      rcases sign_cases hready with
        ⟨client', htask', cfg, s, now', id, hcfg, hs, -, rfl⟩ | ⟨now', uuid, rfl⟩
      · have hname : s.hostname = req.getSingleHeaderValue initHostHeader :=
          not_not.1 (not_or.1 hhost).2
        exact ⟨t', ht', ⟨client', htask'⟩, ⟨token, hmem⟩, ⟨now', id, by rw [hname]⟩, cfg, s,
          hcfg.mono hpre, hs, hname⟩
      · -- a session token has no purpose
        simp [JWTManager.sessionClaims, backendInitPurpose] at hpurpose

lemma authority_of_accepted (h : g.system.Reachable G c) (ht : t ∈ c.threads)
    (htask : t.task = .request client) {mcpReq req : MCPRequest}
    (hmsg : g.server.message client = some mcpReq) {tr : List GwEv} (hpre : tr <+: t.trace)
    {table : Table} (htable : Answered tr .loadTable table) {d : Decision}
    (hacc : Accepted g.server.router table mcpReq tr d req) :
    (d.authority ≠ "" → Consulted t.trace d.authority ∨ (isHairpin mcpReq = true ∧
      d.authority = mcpReq.getSingleHeaderValue initHostHeader)) ∧
    (isHairpin mcpReq = true → Granted g c t.trace mcpReq) := by
  have hbranch : isHairpin mcpReq = true → branchOf table mcpReq = .hairpin := by
    intro hhairpin
    have hmethod : mcpReq.isInitializeRequest = true := by
      simp only [isHairpin, and_eq_true] at hhairpin
      exact hhairpin.1
    simp only [MCPRequest.isInitializeRequest, or_eq_true, decide_eq_true_eq] at hmethod
    rcases hmethod with hmethod | hmethod <;>
      simp +decide [branchOf, MCPRequest.isElicitationResponse, hmethod, hhairpin]
  -- no other branch is taken for a hairpin
  have hother : branchOf table mcpReq ≠ .hairpin → isHairpin mcpReq = true →
      Granted g c t.trace mcpReq := fun hne hhairpin => absurd (hbranch hhairpin) hne
  cases hacc with
  | @tool route _ _ _ _ _ hb hroute =>
    exact ⟨fun _ => .inl (.inl ⟨table, route, htable.mono hpre, Table.routeOf_mem hroute, rfl⟩),
      hother (by simp [hb])⟩
  | @prompt route _ _ _ _ hb hroute =>
    exact ⟨fun _ => .inl (.inl ⟨table, route, htable.mono hpre, Table.lookupPrompt_mem hroute, rfl⟩),
      hother (by simp [hb])⟩
  | @reply cfg conf _ _ _ _ hb _ _ _ hcfg hconf =>
    exact ⟨fun _ => .inl (.inr ⟨cfg, conf, hcfg.mono hpre,
      MCPServersConfig.getServerConfigByName_mem hconf, rfl⟩), hother (by simp [hb])⟩
  | hairpin hb hm hnow htoken =>
    cases hm
    have hhairpin : isHairpin mcpReq = true := by
      unfold branchOf at hb
      split_ifs at hb with _ _ _ _ hhairpin
      exact hhairpin
    exact ⟨fun _ => .inr ⟨hhairpin, rfl⟩, fun _ =>
      granted_of_validate h ht htask hmsg (hnow.mono hpre) htoken⟩
  | elicit hb | broker hb => exact ⟨fun hne => absurd rfl hne, hother (by simp [hb])⟩

/-- No open proxy: the authority of a decision is a hostname that the request consulted, or the host
named by an initialization with a token that the router minted for it.  An initialization that names a
host without such a token is refused. -/
theorem authority_configured (h : g.system.Reachable System.Free c) {t : GwThread}
    (ht : t ∈ c.threads) {req : MCPRequest} {d : Decision}
    (hsent : Answered t.trace (.send req d) ()) :
    ∃ client mcpReq, t.task = .request client ∧ g.server.message client = some mcpReq ∧
      (d.authority ≠ "" → Consulted t.trace d.authority ∨ (Router.isHairpin mcpReq = true ∧
        d.authority = mcpReq.getSingleHeaderValue initHostHeader ∧ Granted g c t.trace mcpReq)) ∧
      (Router.isHairpin mcpReq = true → ¬ Granted g c t.trace mcpReq → d.error ≠ none) := by
  obtain ⟨client, mcpReq, tr, htask, hmsg, hpre, hd⟩ := sent_cases (justified h ht) hsent
  refine ⟨client, mcpReq, htask, hmsg, ?_⟩
  rcases hd with hrefused | ⟨table, htable, hacc⟩
  · exact ⟨fun hne => absurd hrefused.2 hne, fun _ _ => hrefused.1⟩
  · obtain ⟨hauthority, hgranted⟩ := authority_of_accepted h ht htask hmsg hpre htable hacc
    refine ⟨fun hne => ?_, fun hhairpin hnot => absurd (hgranted hhairpin) hnot⟩
    rcases hauthority hne with hconsulted | ⟨hhairpin, heq⟩
    · exact .inl hconsulted
    · exact .inr ⟨hhairpin, heq, hgranted hhairpin⟩

/-! ## A tool call that opens an upstream session -/

def weatherServer : MCPServer where
  name := "weather"
  hostname := "weather.svc"
  url := "http://w/mcp"

def weatherConfig : MCPServersConfig where
  servers := [weatherServer]

def weatherWorld : World where
  now := 0
  table := forecastTable
  config := weatherConfig

/-- The first tool call of the session opens an upstream session, which it has just stored. -/
def firstCall : List (System.Move Task) :=
  .start .mint :: System.calls 0 3 ++ .start (.request (forecastCall [])) :: System.calls 1 15

/-! ## The initialization that comes back -/

/-- The initialization that the router sends to itself, with the token it signed for the host. -/
def hairpinInitialize : ClientRequest where
  headers := [(":method", "POST"), (":path", "/mcp"), ("content-type", "application/json"),
    ("router-key", "b1"), ("mcp-init-host", "weather.svc")]
  endOfStream := false
  body := some (bytes "\x7b\"jsonrpc\":\"2.0\",\"id\":1,\"method\":\"initialize\"\x7d")

/-- The initialization for the tool call is sent to the host that its token was signed for. -/
theorem hairpin_configured : ∃ (c : GwConfig) (t : GwThread) (req : MCPRequest) (d : Decision),
    demoGateway.system.Reachable System.Free c ∧ t ∈ c.threads ∧ Answered t.trace (.send req d) () ∧
      Router.isHairpin req = true ∧ d.authority = "weather.svc" ∧ Granted demoGateway c t.trace req := by
  let c := (freePlayer {}).play ⟨weatherWorld, []⟩
    (firstCall ++ .start (.request hairpinInitialize) :: System.calls 2 5)
  have hreach : demoGateway.system.Reachable System.Free c := played _ weatherWorld rfl _
  let same (req mcpReq : MCPRequest) := Router.isHairpin mcpReq &&
    mcpReq.getSingleHeaderValue routingKey == req.getSingleHeaderValue routingKey &&
    mcpReq.getSingleHeaderValue initHostHeader == req.getSingleHeaderValue initHostHeader
  obtain ⟨t, req, d, hi, hsent, hp⟩ := sent_of_any (c := c) (i := 2)
    (p := fun t req d => Router.isHairpin req && d.authority == "weather.svc" && d.error.isNone &&
      (client t.task).any fun client => (demoGateway.server.message client).any (same req))
    (by decide +kernel)
  have hmem := List.mem_of_getElem? hi
  obtain ⟨client, mcpReq, htask, hmsg, -, hrefused⟩ := authority_configured hreach hmem hsent
  simp only [htask, Gateway.client, hmsg, same, Option.any_some, Bool.and_eq_true, beq_iff_eq,
    Option.isNone_iff_eq_none] at hp
  obtain ⟨⟨⟨hhairpin, hhost⟩, herr⟩, ⟨hsame, hkey⟩, hinit⟩ := hp
  have hgranted : Granted demoGateway c t.trace mcpReq := by
    by_contra hnot
    exact hrefused hsame hnot herr
  rw [Granted, hkey, hinit] at hgranted
  exact ⟨c, t, req, d, hreach, hmem, hsent, hhairpin, hhost, hgranted⟩

end Gateway

end McpGateway
