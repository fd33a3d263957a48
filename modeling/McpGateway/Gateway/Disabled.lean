import McpGateway.Broker.Capabilities
import McpGateway.Gateway.Deployment

/-!
# What a disabled server contributes

That a server is disabled is looked at in one place, the pass of its manager.  The servers that are
asked per user and the prefixes of the routing table are derived from the configuration without it.
-/

namespace McpGateway.Gateway

open Go Effect Config Routing Session Upstream Broker Deployment TraceM MCPBroker MCPManager MCPServer

/-! ## Where an answer comes from -/

variable {b : MCPBroker} {headers : HttpHeader} {tools : List Tool} {x : Tool}

lemma authorizedTools_subset
    (h : x ∈ (applyAuthorizedCapabilitiesFilter headers tools).result b) : x ∈ tools := by
  unfold applyAuthorizedCapabilitiesFilter at h
  simp only [result_bind, result_gets, final_gets, id_eq] at h
  have hpure : ∀ {c : Bool}, x ∈ (pure (if c then [] else tools) : BrokerM (List Tool)).result b →
      x ∈ tools := by
    intro c hx
    rw [result_pure] at hx
    split_ifs at hx
    · cases hx
    · exact hx
  cases hheader : headers.lookup authorizedCapabilitiesHeader with
  | none =>
    rw [hheader] at h
    exact hpure h
  | some values =>
    rw [hheader] at h
    dsimp only at h
    cases hverified : b.parseAuthorizedCapabilitiesJWT values with
    | none =>
      rw [hverified] at h
      cases h
    | some capabilities =>
      rw [hverified] at h
      dsimp only at h
      cases htools : capabilities.lookup "tools" with
      | none =>
        rw [htools] at h
        exact hpure h
      | some allowed =>
        rw [htools] at h
        exact (mem_filterToolsByServerMap.1 h).1

lemma scopedTools_subset {now : Time} {sid : String}
    (h : x ∈ b.applyScopeFilter now sid tools) : x ∈ tools := by
  have hthreshold : x ∈ b.applyThresholdFilter tools → x ∈ tools := by
    unfold applyThresholdFilter
    split_ifs
    · exact fun hx => hx
    · exact fun hx => hx
    · exact fun hx => (mem_filter.1 hx).1
  unfold applyScopeFilter at h
  split_ifs at h
  · exact hthreshold h
  · cases hscope : b.scopeStore.getScope now sid with
    | none =>
      rw [hscope] at h
      exact hthreshold h
    | some scope =>
      rw [hscope] at h
      exact (mem_filter.1 h).1

lemma filterTools_from {now : Time} {sid : String} (h : x ∈ (filterTools headers now sid tools).result b) :
    ∃ y ∈ tools, x = removeGatewayMeta y := by
  unfold filterTools at h
  split_ifs at h with hempty
  · cases h
  · simp only [result_bind, result_gets, final_gets, id_eq, result_pure] at h
    rcases mem_map.1 h with ⟨y, hy, rfl⟩
    refine ⟨y, ?_, rfl⟩
    have hscoped := (mem_filter.1 hy).1
    -- back through the three filters
    have hvirtual : y ∈ b.applyVirtualServerFilter headers
        ((applyAuthorizedCapabilitiesFilter headers tools).result b) := by
      cases hdiscovery : b.discoveryEnabled with
      | true =>
        simp only [hdiscovery, if_true] at hscoped
        exact scopedTools_subset hscoped
      | false =>
        simp only [hdiscovery, false_eq_true, if_false] at hscoped
        exact hscoped
    unfold applyVirtualServerFilter at hvirtual
    cases hvs : b.virtualServerOf headers with
    | none =>
      rw [hvs] at hvirtual
      exact authorizedTools_subset hvirtual
    | some vs =>
      rw [hvs] at hvirtual
      exact authorizedTools_subset (mem_filter.1 hvirtual).1

def ManagedPrompt (b : MCPBroker) (y : Prompt) : Prop :=
  ∃ id up, b.mcpServers.lookup id = some up ∧ ∃ p ∈ up.getManagedPrompts,
    y = { p with name := up.config.namePrefix ++ p.name }

lemma promptsByServerMap_from {entries : List (String × List String)} {y : Prompt}
    (h : y ∈ (filterPromptsByServerMap entries).result b) : ManagedPrompt b y := by
  induction entries with
  | nil => cases h
  | cons entry rest ih =>
    rcases entry with ⟨serverName, promptNames⟩
    have hfinal : (findServerByName serverName).final b = b := rfl
    have hrest : (filterPromptsByServerMap rest).final b = b := by
      clear ih h
      induction rest with
      | nil => rfl
      | cons entry rest ih =>
        rcases entry with ⟨serverName', promptNames'⟩
        have hfinal' : (findServerByName serverName').final b = b := rfl
        simp only [filterPromptsByServerMap, final_bind, hfinal', ih]
        cases (findServerByName serverName').result b <;> rfl
    simp only [filterPromptsByServerMap, result_bind, hfinal, hrest,
      result_findServerByName] at h
    cases hfind : b.mcpServers.values.find? fun up => up.mcpName = serverName with
    | none =>
      rw [hfind] at h
      exact ih h
    | some up =>
      rw [hfind, result_pure] at h
      rcases mem_append.1 h with hhere | hlater
      · rcases mem_map.1 hhere with ⟨p, hp, rfl⟩
        rcases mem_values_iff.1 (mem_of_find?_eq_some hfind) with ⟨id, hid⟩
        exact ⟨id, up, hid, p, (mem_filter.1 hp).1, rfl⟩
      · exact ih hlater

lemma filterPrompts_from {prompts : List Prompt} {x : Prompt}
    (h : x ∈ (filterPrompts headers prompts).result b) :
    ∃ y, x = removeGatewayMetaFromPrompt y ∧ (y ∈ prompts ∨ ManagedPrompt b y) := by
  unfold filterPrompts at h
  split_ifs at h with hempty
  · cases h
  · simp only [result_bind, result_gets, final_gets, id_eq, result_pure] at h
    rcases mem_map.1 h with ⟨y, hy, rfl⟩
    refine ⟨y, rfl, ?_⟩
    -- a virtual server only takes prompts away
    have hauthorized : y ∈ (applyAuthorizedCapabilitiesFilterForPrompts headers prompts).result b := by
      unfold applyVirtualServerFilterForPrompts at hy
      cases hvs : b.virtualServerOf headers with
      | none =>
        rw [hvs] at hy
        exact hy
      | some vs =>
        rw [hvs] at hy
        dsimp only at hy
        split_ifs at hy
        · exact hy
        · exact (mem_filter.1 hy).1
    unfold applyAuthorizedCapabilitiesFilterForPrompts at hauthorized
    simp only [result_bind, result_gets, final_gets, id_eq] at hauthorized
    have hpure : ∀ {c : Bool},
        y ∈ (pure (if c then [] else prompts) : BrokerM (List Prompt)).result b → y ∈ prompts := by
      intro c hy
      rw [result_pure] at hy
      split_ifs at hy
      · cases hy
      · exact hy
    cases hheader : headers.lookup authorizedCapabilitiesHeader with
    | none =>
      rw [hheader] at hauthorized
      exact .inl (hpure hauthorized)
    | some values =>
      rw [hheader] at hauthorized
      dsimp only at hauthorized
      cases hverified : b.parseAuthorizedCapabilitiesJWT values with
      | none =>
        rw [hverified] at hauthorized
        cases hauthorized
      | some capabilities =>
        rw [hverified] at hauthorized
        dsimp only at hauthorized
        cases hprompts : capabilities.lookup "prompts" with
        | none =>
          rw [hprompts] at hauthorized
          exact .inl (hpure hauthorized)
        | some allowed =>
          rw [hprompts] at hauthorized
          exact .inr (promptsByServerMap_from hauthorized)

/-! ## Silence -/

namespace Deployment

variable (d : Deployment)

/-- The tools of a `tools/list` answer before the filters: what is registered, then what the
user-specific servers that answered listed for the caller. -/
def listedTools (answered : List UserSpecificServer) (fetched : UserSpecificServer → List Tool) :
    List Tool :=
  d.registry.listTools ++ answered.flatMap fun srv => (fetched srv).map (serveUserTool srv)

def toolsListAnswer (answered : List UserSpecificServer) (fetched : UserSpecificServer → List Tool)
    (headers : HttpHeader) (now : Time) (sessionID : String) : List Tool :=
  (filterTools headers now sessionID (d.listedTools answered fetched)).result d.broker

def promptsListAnswer (headers : HttpHeader) : List Prompt :=
  (filterPrompts headers d.registry.listPrompts).result d.broker

/-- A table that requests may see: the cached one, or one built in any order of iteration. -/
def Publishes (t : Table) : Prop :=
  d.broker.cachedTable = some t ∨ ∃ order, order.Perm d.broker.mcpServers.pairs ∧ t = tableOf order

/-- No answer and no route shows anything of the server. -/
structure Silent (id : String) : Prop where
  /-- every tool of every answer comes from a tool that does not carry the id -/
  tools : ∀ answered fetched headers now sid, (∀ srv ∈ answered, srv ∈ d.broker.userSpecificServers) →
    (∀ y ∈ d.listedTools answered fetched, ownerID y.metadata ≠ some id) ∧
      ∀ x ∈ d.toolsListAnswer answered fetched headers now sid,
        ∃ y ∈ d.listedTools answered fetched, x = removeGatewayMeta y
  /-- every prompt of every answer is one that does not carry the id, or one of another manager -/
  prompts : ∀ headers, ∀ x ∈ d.promptsListAnswer headers, ∃ y, x = removeGatewayMetaFromPrompt y ∧
    ((y ∈ d.registry.listPrompts ∧ ownerID y.metadata ≠ some id) ∨
      ∃ id' up, d.broker.mcpServers.lookup id' = some up ∧ id' ≠ id ∧ ∃ p ∈ up.getManagedPrompts,
        y = { p with name := up.config.namePrefix ++ p.name })
  /-- it is not among the servers asked per user, and no pass has asked it for anything -/
  unasked : (∀ srv ∈ d.broker.userSpecificServers, srv.id ≠ id) ∧ ∀ q ∈ d.asked, q.1 ≠ id
  /-- no tool or prompt name leads to it -/
  unrouted : ∀ t, d.Publishes t → ∀ name, (∀ r, t.routeOf name = some r → serverIDOf r ≠ id) ∧
      ∀ r, t.lookupPrompt name = some r → serverIDOf r ≠ id

/-- What passes keep, and what makes a server silent: its manager is that of a disabled server whose
list is shared, no per-user fetch asks it, and the cached table has no route to it. -/
structure Withdrawn (id : String) : Prop where
  manager : ∀ up, d.broker.mcpServers.lookup id = some up →
    up.manager.isEnabled = false ∧ up.config.userSpecificList = false
  users : ∀ srv ∈ d.broker.userSpecificServers, srv.id ≠ id
  asked : ∀ q ∈ d.asked, q.1 ≠ id
  table : ∀ t, d.broker.cachedTable = some t → ∀ r ∈ t.routes, serverIDOf r ≠ id

end Deployment

section Withdrawn

variable {d : Deployment} {id : String}

lemma unserved_of_blank {up : ActiveMCPServer} (hblank : Blank up.manager)
    (hshared : up.config.userSpecificList = false) :
    servedNames up = [] ∧ servedPrompts up = [] ∧ registersPrefix up = false := by
  refine ⟨?_, ?_, ?_⟩
  · rw [servedNames_eq, (hblank .tool).1]
    rfl
  · rw [servedPrompts_eq, (hblank .prompt).1]
    rfl
  · rw [registersPrefix, hshared]
    rfl

variable (hsound : d.Sound)

include hsound

lemma unrouted_of_withdrawn (hmanager : ∀ up, d.broker.mcpServers.lookup id = some up →
    up.manager.isEnabled = false ∧ up.config.userSpecificList = false)
    {order : List (String × ActiveMCPServer)} (horder : order.Perm d.broker.mcpServers.pairs)
    {r : ServerRoute} (hr : r ∈ (tableOf order).routes) : serverIDOf r ≠ id := by
  rcases routes_tableOf hr with ⟨e, he, rfl, hserves⟩
  intro hid
  have hlookup : d.broker.mcpServers.lookup e.1 = some e.2 :=
    mem_pairs_iff.1 (horder.mem_iff.1 he)
  have hkey : e.1 = id := (hsound.known e.1 e.2 hlookup).1.symm.trans hid
  rw [hkey] at hlookup
  rcases hmanager e.2 hlookup with ⟨hdisabled, hshared⟩
  rcases unserved_of_blank (hsound.blank id e.2 hlookup hdisabled) hshared with ⟨htools, hprompts, hpre⟩
  rcases hserves with hne | hne | hne
  · exact hne htools
  · exact hne hprompts
  · rw [hpre] at hne
    cases hne

variable (h : d.Withdrawn id)

include h

lemma unregistered_of_withdrawn (hid : id ≠ brokerServerID)
    (K : Upstream.Kind) (n : String) (x : K.Entry) : ¬ K.view id d.registry n x := by
  cases hup : d.broker.mcpServers.lookup id with
  | none => exact hsound.orphans id hid hup K n x
  | some up =>
    have hblank := hsound.blank id up hup (h.manager up hup).1
    have hcovered := (hsound.covered id up hup).blank hblank K n x
    rwa [(hsound.known id up hup).1] at hcovered

lemma Deployment.Withdrawn.silent
    (hid : id ≠ brokerServerID) : d.Silent id where
  tools := by
    intro answered fetched headers now sid hanswered
    refine ⟨?_, fun x hx => filterTools_from hx⟩
    intro y hy hown
    rcases mem_append.1 hy with hregistered | hfetched
    · rcases mem_values_iff.1 hregistered with ⟨n, hn⟩
      exact unregistered_of_withdrawn hsound h hid .tool n y ⟨hn, hown⟩
    · rcases mem_flatMap.1 hfetched with ⟨srv, hsrv, hserved⟩
      rcases mem_map.1 hserved with ⟨tool, -, rfl⟩
      -- a fetched tool carries the id of the server that listed it
      exact h.users srv (hanswered srv hsrv) (Option.some.inj hown)
  prompts := by
    intro headers x hx
    rcases filterPrompts_from hx with ⟨y, rfl, hregistered | ⟨id', up, hup, p, hp, hy⟩⟩
    · refine ⟨y, rfl, .inl ⟨hregistered, ?_⟩⟩
      intro hown
      rcases mem_values_iff.1 hregistered with ⟨n, hn⟩
      exact unregistered_of_withdrawn hsound h hid .prompt n y ⟨hn, hown⟩
    · refine ⟨y, rfl, .inr ⟨id', up, hup, ?_, p, hp, hy⟩⟩
      rintro rfl
      have hblank := hsound.blank id' up hup (h.manager up hup).1
      have hnone : up.getManagedPrompts = [] := (hblank .prompt).1
      rw [hnone] at hp
      cases hp
  unasked := ⟨h.users, h.asked⟩
  unrouted := by
    intro t ht name
    have hroutes : ∀ r ∈ t.routes, serverIDOf r ≠ id := by
      rcases ht with hcached | ⟨order, horder, rfl⟩
      · exact h.table t hcached
      · exact fun r hr => unrouted_of_withdrawn hsound h.manager horder hr
    exact ⟨fun r hr => hroutes r (Table.routeOf_mem hr),
      fun r hr => hroutes r (Table.lookupPrompt_mem hr)⟩

lemma Deployment.Withdrawn.pass (p : Pass) :
    (d.pass p).Withdrawn id := by
  cases hup : d.broker.mcpServers.lookup p.id with
  | none =>
    rw [pass_unknown hup]
    exact h
  | some up =>
    rcases pass_eq hup with ⟨inp, hints, -, hasked, hbroker, htable⟩
    have hsetup := (manage_moves up.manager inp).setup
    have hmanager : ∀ up', (d.pass p).broker.mcpServers.lookup id = some up' →
        up'.manager.isEnabled = false ∧ up'.config.userSpecificList = false := by
      intro up' hup'
      rw [hbroker] at hup'
      dsimp only at hup'
      rw [lookup_insert] at hup'
      split_ifs at hup' with hcase
      · cases hup'
        subst hcase
        unfold isEnabled ActiveMCPServer.config
        dsimp only
        rw [hsetup.config]
        exact h.manager up hup
      · exact h.manager up' hup'
    refine ⟨hmanager, ?_, ?_, ?_⟩
    · intro srv hsrv
      rw [hbroker] at hsrv
      exact h.users srv hsrv
    · intro q hq
      rw [hasked] at hq
      rcases mem_append.1 hq with hold | hnew
      · exact h.asked q hold
      · -- a request of this pass: the manager of a withdrawn server makes none
        rcases mem_map.1 hnew with ⟨r, hr, rfl⟩
        rintro rfl
        have hnone : up.manager.requests inp = [] := by
          simp [requests, (h.manager up hup).1]
        rw [hnone] at hr
        cases hr
    · intro t ht r hr
      rcases htable with hsame | hbuilt
      · rw [hsame] at ht
        exact h.table t ht r hr
      · rw [hbuilt] at ht
        cases ht
        exact unrouted_of_withdrawn (hsound.pass p) hmanager (.refl _) hr

lemma Deployment.Withdrawn.passes (ps : List Pass) :
    (d.passes ps).Sound ∧ (d.passes ps).Withdrawn id := by
  induction ps generalizing d with
  | nil => exact ⟨hsound, h⟩
  | cons p rest ih => exact ih (hsound.pass p) (h.pass hsound p)

end Withdrawn

lemma isEnabled_normalizeState {man : MCPManager} {s : MCPServer}
    (h : normalizeState man.config.state = normalizeState s.state) :
    man.isEnabled = decide (s.state = "" ∨ s.state = "Enabled") := by
  unfold isEnabled
  unfold normalizeState at h
  split_ifs at h with hman hs hs
  · simp [hman, hs]
  · simp [hman, ← h]
  · simp [h, hs]
  · simp [hs, h]

def disabledIn (s : MCPServer) : Bool := s.state ≠ "" && s.state ≠ "Enabled"

lemma withdrawn_reload {d : Deployment} (hsound : d.Sound) {conf : MCPServersConfig} {s : MCPServer}
    (hs : s ∈ conf.servers) (hone : ∀ s' ∈ conf.servers, s'.id = s.id → s' = s)
    (hdisabled : disabledIn s = true) (hshared : s.userSpecificList = false) :
    (d.reload conf).Withdrawn s.id := by
  rcases final_onConfigChange conf d.broker with ⟨t, hservers, husers, htable⟩
  have hmanager : ∀ up, (d.reload conf).broker.mcpServers.lookup s.id = some up →
      up.manager.isEnabled = false ∧ up.config.userSpecificList = false := by
    intro up hup
    have hup' : ((onConfigChange conf).final d.broker).mcpServers.lookup s.id = some up := hup
    rw [hservers] at hup'
    have hsame : s.Same up.config := by
      rcases lookup_addMissing hup' with hkept | ⟨-, s', hs', hid, hconfig, -⟩
      · -- a manager that was kept has the configuration of the server
        have hbuild : ((deregisterStaleManagers conf.servers conf.gatewayCACertPEM).final
            d.broker).build s.id = some up.build := by
          rw [build]
          exact congrArg (Option.map ActiveMCPServer.build) hkept
        exact (stale_eq_false.1 ((build_deregister.1 hbuild).2.2 s hs rfl)).2
      · rw [hconfig, hone s' hs' hid]
        exact MCPServer.Same.refl s
    constructor
    · rw [isEnabled_normalizeState hsame.state]
      simpa [disabledIn] using hdisabled
    · rw [hsame.fields]
      exact hshared
  refine ⟨hmanager, ?_, ?_, ?_⟩
  · intro srv hsrv hid
    have hsrv' : srv ∈ ((onConfigChange conf).final d.broker).userSpecificServers := hsrv
    rw [husers] at hsrv'
    rcases mem_map.1 hsrv' with ⟨s', hs', rfl⟩
    rcases mem_filter.1 hs' with ⟨hmem, huser⟩
    rw [hone s' hmem hid, hshared] at huser
    cases huser
  · -- the record of requests starts anew with the reload
    intro q hq
    cases hq
  · intro t ht r hr
    have ht' : ((onConfigChange conf).final d.broker).cachedTable = some t := ht
    rw [htable] at ht'
    cases ht'
    exact unrouted_of_withdrawn (hsound.reload conf) hmanager (.refl _) hr

/-- For every history, every configuration that has the server once, and any answers: after the reload
and any passes a disabled server contributes nothing, just when its list is not a user-specific one. -/
theorem silent_iff_shared (b : MCPBroker) (history : List Action) (conf : MCPServersConfig)
    (s : MCPServer) (hs : s ∈ conf.servers) (hone : ∀ s' ∈ conf.servers, s'.id = s.id → s' = s)
    (hdisabled : disabledIn s = true) :
    (∀ ps : List Pass, ((((Deployment.new b).run history).reload conf).passes ps).Silent s.id) ↔
      s.userSpecificList = false := by
  have hsound := sound_run b history
  constructor
  · intro hsilent
    -- a user-specific server is asked by the first request
    by_contra hshared
    have huser : s.userSpecificList = true := by simpa using hshared
    rcases final_onConfigChange conf ((Deployment.new b).run history).broker with ⟨-, -, husers, -⟩
    have hmem : userEntry s ∈
        ((onConfigChange conf).final ((Deployment.new b).run history).broker).userSpecificServers := by
      rw [husers]
      exact List.mem_map_of_mem (List.mem_filter.2 ⟨hs, huser⟩)
    exact (hsilent []).unasked.1 (userEntry s) hmem rfl
  · intro hshared ps
    have hwithdrawn := withdrawn_reload hsound hs hone hdisabled hshared
    rcases hwithdrawn.passes (hsound.reload conf) ps with ⟨hsound', hwithdrawn'⟩
    exact hwithdrawn'.silent hsound' (id_ne_brokerServerID s)

/-! ## Two servers that were disabled -/

def weatherConf : MCPServer where
  name := "mcp-test/weather"
  url := "http://weather/mcp"
  hostname := "weather.local"
  namePrefix := "w_"

def weatherDisabled : MCPServer := { weatherConf with state := "Disabled" }

def healthyPassOf (s : MCPServer) : Pass where
  id := s.id
  input := MCPManager.healthyPass [some { name := "secret", inputSchema := MCPManager.objectSchema }]

def weatherHistory : List Action :=
  [.reload { servers := [weatherConf] }, .pass (healthyPassOf weatherConf)]

theorem silent_iff_shared_weather :
    ((Deployment.new (brokerWith [])).run weatherHistory).registry.listTools.map Tool.name =
        ["w_secret"] ∧
      (((((Deployment.new (brokerWith [])).run weatherHistory).reload
        { servers := [weatherDisabled] }).passes [healthyPassOf weatherDisabled]).Silent
          weatherDisabled.id) := by
  refine ⟨by decide, ?_⟩
  refine (silent_iff_shared (brokerWith []) weatherHistory { servers := [weatherDisabled] }
    weatherDisabled List.mem_cons_self ?_ (by decide)).2 rfl _
  intro s' hs' _
  exact List.mem_singleton.1 hs'

def betaDisabled : MCPServer where
  name := "mcp-test/beta"
  url := "http://beta/mcp"
  hostname := "beta.local"
  namePrefix := "b_"
  state := "Disabled"
  userSpecificList := true

def betaDeployment : Deployment :=
  ((Deployment.new (brokerWith [])).reload { servers := [betaDisabled] }).passes
    [healthyPassOf betaDisabled]

def callerHeaders : HttpHeader := GoMap.ofPairs [("Mcp-Session-Id", ["s"])]

/-- What a `tools/list` request asks of it. -/
def betaFetch : List GwEv :=
  [⟨.poolLoad (userSessionKey "s" "mcp-test/beta") (filterUserHeaders callerHeaders), none⟩,
    ⟨.connectUser "http://beta/mcp" (filterUserHeaders callerHeaders), .ok ⟨1, "u1"⟩⟩,
    ⟨.poolLoadOrStore (userSessionKey "s" "mcp-test/beta") ⟨1, "u1"⟩ (filterUserHeaders callerHeaders),
      (⟨1, "u1"⟩, false)⟩,
    ⟨.listTools ⟨1, "u1"⟩, .ok [some { name := "secret", inputSchema := MCPManager.objectSchema }]⟩,
    ⟨.now, 0⟩]

def betaTool : Tool :=
  serveUserTool (userEntry betaDisabled) { name := "secret", inputSchema := MCPManager.objectSchema }

/-- The manager reports that the server is disabled and has asked nothing of it.  Still it is connected
to and asked for its tools by a `tools/list` request, whose answer has its tool, and the tool's name is
routed to it. -/
theorem disabledUser_contributes :
    (betaDeployment.broker.mcpServers.lookup betaDisabled.id).map (fun up =>
        up.manager.status.message) = some "server is disabled" ∧
      betaDeployment.asked = [] ∧
      betaDeployment.broker.userSpecificServers = [userEntry betaDisabled] ∧
      (fetchUserSpecificTools (userEntry betaDisabled) .filterOut callerHeaders).Outcome betaFetch
        [betaTool] ∧
      ownerID betaTool.metadata = some betaDisabled.id ∧
      (betaDeployment.toolsListAnswer [userEntry betaDisabled]
        (fun _ => [{ name := "secret", inputSchema := MCPManager.objectSchema }]) callerHeaders 0
        "s").map Tool.name = ["b_secret"] ∧
      betaDeployment.broker.cachedTable.map (fun t => destination t "b_secret") =
        some (.server (routeFor betaDisabled) "secret") := by
  refine ⟨by decide, by decide, by decide, ?_, by decide, by decide, by decide⟩
  exact .vis _ (.vis _ (.vis _ (.vis _ (.vis _ (.ret _)))))

end McpGateway.Gateway
