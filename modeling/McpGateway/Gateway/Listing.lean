import McpGateway.Gateway.Resolution
import McpGateway.Upstream.Registry

/-!
# Listed tools lead back to where they came from

A `tools/list` answer merges what is registered, which is what the managers serve with the broker's
own tools over it, with what the user-specific servers listed for the caller.  A `tools/call` resolves
a name without looking at that answer.
-/

namespace McpGateway.Gateway

open Go Effect Keyed Config Routing Upstream Broker World Tool SameTable Table

/-! ## Where a call goes -/

inductive Destination where
  | server (route : ServerRoute) (upstreamName : String)
  | broker
  | notFound
  deriving DecidableEq, Repr

def destination (t : Table) (name : String) : Destination :=
  match t.routeOf name with
  | some route => .server route (trimPrefix name route.namePrefix)
  | none => if t.isBrokerTool name then .broker else .notFound

lemma trimPrefix_append (p u : String) : trimPrefix (p ++ u) p = u := by
  unfold trimPrefix cutPrefix
  rw [if_pos (hasPrefix_append p u)]
  simp

variable {t : Table}

lemma destination_eq_server {name u : String} {route : ServerRoute}
    (h : destination t name = .server route u) : t.routeOf name = some route := by
  unfold destination at h
  cases hroute : t.routeOf name with
  | some r =>
    rw [hroute] at h
    cases h
    rfl
  | none =>
    rw [hroute] at h
    dsimp only at h
    split_ifs at h

lemma destination_eq_broker {name : String} :
    destination t name = .broker ↔ t.routeOf name = none ∧ t.isBrokerTool name = true := by
  unfold destination
  cases t.routeOf name with
  | some r => simp
  | none => cases t.isBrokerTool name <;> simp

/-- What the router does with a tool call of a valid session that goes there. -/
def Destination.route (r : Router) (t : Table) (mcpReq : MCPRequest) : Destination → Gw Routed
  | .server route upstreamName =>
    let serverInfo := routeToMCPServer route
    r.routeToolToServer (({ mcpReq with serverName := serverInfo.name }).reWriteToolName upstreamName)
      serverInfo (Router.toolHeaders t mcpReq.toolName serverInfo mcpReq)
  | .broker => r.routeBrokerPassthrough mcpReq
  | .notFound => pure (Router.toolError mcpReq "MCP error -32602: Tool not found", mcpReq)

lemma routeToolCall_destination (r : Router) {mcpReq : MCPRequest} (hname : mcpReq.toolName ≠ "") :
    r.routeToolCall t mcpReq = (do
      let failed ← r.validateSession mcpReq.getSessionID
      failed.elim ((destination t mcpReq.toolName).route r t mcpReq) fun e =>
        pure (.reject e.statusCode e.text, mcpReq)) := by
  unfold Router.routeToolCall destination
  rw [if_neg hname]
  congr 1
  funext failed
  cases failed with
  | some e => rfl
  | none =>
    cases t.routeOf mcpReq.toolName with
    | some route => rfl
    | none => cases t.isBrokerTool mcpReq.toolName <;> rfl

/-! ## What is listed -/

/-- What is registered while the managers serve what they serve: the broker's own tools are registered
without looking at what is there. -/
def registeredTools (b : MCPBroker) : GoMap Tool :=
  register Tool.name b.brokerTools
    (register Tool.name (b.mcpServers.values.flatMap fun up => up.manager.serverTools) ∅)

lemma registeredTools_values (b : MCPBroker) : (registeredTools b).values =
    ((({} : GatewayServer).addTools (b.mcpServers.values.flatMap fun up => up.manager.serverTools)).addTools
      b.brokerTools).listTools :=
  rfl

section Fetched

variable {srv : UserSpecificServer} {policy : InvalidToolPolicy} {tr : List GwEv} {tools : List Tool}

lemma doFetchTools_served {userHeaders : GoMap String} {sid session : String}
    (h : (doFetchTools srv userHeaders sid policy).Outcome tr (.ok (tools, session))) :
    ∃ listed : List Tool, tools = listed.map (serveUserTool srv) := by
  unfold doFetchTools at h
  obtain ⟨got, _, _, _, _, hgot⟩ := outcome_bind_iff.mp h
  cases got with
  | error e => exact absurd (outcome_ret_iff.mp hgot).2 (by simp)
  | ok got =>
    dsimp only at hgot
    split_ifs at hgot with hinvalid
    · exact absurd (outcome_ret_iff.mp hgot).2 (by simp)
    · have heq := Except.ok.inj (outcome_ret_iff.mp hgot).2
      exact ⟨_, congrArg Prod.fst heq⟩

lemma fetchToolsFromServer_served {userHeaders : GoMap String} {sid : String}
    (h : (fetchToolsFromServer srv userHeaders sid policy).Outcome tr (.ok tools)) :
    ∃ listed : List Tool, tools = listed.map (serveUserTool srv) := by
  unfold fetchToolsFromServer at h
  obtain ⟨fetched, _, _, _, hfetched, hrest⟩ := outcome_bind_iff.mp h
  cases fetched with
  | error e => exact absurd (outcome_ret_iff.mp hrest).2 (by simp)
  | ok fetched =>
    obtain ⟨_, _, _, _, _, hret⟩ := outcome_bind_iff.mp hrest
    obtain rfl := Except.ok.inj (outcome_ret_iff.mp hret).2
    exact doFetchTools_served hfetched

/-- A user-specific server contributes tools it listed, each under its prefixed name, or nothing. -/
lemma fetchUserSpecificTools_served {headers : HttpHeader}
    (h : (fetchUserSpecificTools srv policy headers).Outcome tr tools) :
    ∃ listed : List Tool, tools = listed.map (serveUserTool srv) := by
  unfold fetchUserSpecificTools at h
  dsimp only at h
  split_ifs at h with hsid
  · exact ⟨[], (outcome_ret_iff.mp h).2⟩
  obtain ⟨fetched, _, _, _, hfetched, hret⟩ := outcome_bind_iff.mp h
  cases fetched with
  | error e => exact ⟨[], (outcome_ret_iff.mp hret).2⟩
  | ok fetched =>
    obtain rfl := (outcome_ret_iff.mp hret).2
    exact fetchToolsFromServer_served hfetched

end Fetched

/-- A `tools/list` answer before the filters: what is registered, then what the user-specific servers
listed, in the order in which they answered. -/
def listAnswer (b : MCPBroker) (answered : List UserSpecificServer)
    (fetched : UserSpecificServer → List Tool) : List Tool :=
  (registeredTools b).values ++ answered.flatMap fun srv => (fetched srv).map (serveUserTool srv)

/-- The prefixes the configuration accepts: `^[a-z0-9][a-z0-9_]*$`. -/
def validPrefix (p : String) : Bool :=
  match p.toList with
  | [] => false
  | c :: rest => (c.isLower || c.isDigit) && rest.all fun d => d.isLower || d.isDigit || d = '_'

def userEntry (cfg : MCPServer) : UserSpecificServer where
  id := cfg.id
  name := cfg.name
  url := cfg.url
  namePrefix := cfg.namePrefix

/-- A broker whose managers have run over enabled servers with distinct, valid prefixes, and whose
cached tools have no conflicting names. -/
structure Deployed (b : MCPBroker) : Prop where
  ids : ∀ e ∈ b.mcpServers.pairs, e.1 = e.2.config.id
  ran : ∀ e ∈ b.mcpServers.pairs, ∃ config policy g₀ g inputs,
    (∀ (K : Upstream.Kind) n x, ¬ K.view config.id g₀ n x) ∧
      History (newManager config policy true) g₀ inputs e.2.manager g
  enabled : ∀ e ∈ b.mcpServers.pairs, e.2.manager.isEnabled = true
  valid : ∀ e ∈ b.mcpServers.pairs, validPrefix e.2.config.namePrefix = true
  distinct : ∀ e ∈ b.mcpServers.pairs, ∀ e' ∈ b.mcpServers.pairs,
    e.2.config.namePrefix = e'.2.config.namePrefix → e.1 = e'.1
  disjoint : ∀ e ∈ b.mcpServers.pairs, ∀ e' ∈ b.mcpServers.pairs, ∀ n ∈ servedNames e.2,
    n ∈ servedNames e'.2 → e.1 = e'.1
  users : b.userSpecificServers.Perm
    ((b.mcpServers.pairs.filter fun e => e.2.config.userSpecificList).map fun e =>
      userEntry e.2.config)

/-- A listed tool leads to the server whose id it carries, under the name that server gave it; a tool
of the broker leads to the broker. -/
def RoutedHome (b : MCPBroker) (t : Table) (x : Tool) : Prop :=
  (ownerID x.metadata = some brokerServerID ∧ destination t x.name = .broker) ∨
    ∃ e ∈ b.mcpServers.pairs, ∃ u, ownerID x.metadata = some e.1 ∧
      x.name = e.2.config.namePrefix ++ u ∧ destination t x.name = .server (routeFor e.2.config) u

/-- In every order of iteration, the listed names are unique, and every listed tool and every
registered tool of the broker leads home. -/
def Callable (b : MCPBroker) (fetched : UserSpecificServer → List Tool) : Prop :=
  ∀ (b₁ : MCPBroker) (t : Table) (answered : List UserSpecificServer),
    b.mcpServers.Same b₁.mcpServers → SameTable b₁.buildRoutingTable t →
    answered.Perm b.userSpecificServers →
    ((listAnswer b answered fetched).map Tool.name).Nodup ∧
      (∀ x ∈ listAnswer b answered fetched, RoutedHome b t x) ∧
      ∀ m ∈ b.brokerTools, destination t m.name = .broker

/-- No name of a user-specific server or of a broker tool is taken by another server, and no
user-specific server lists a name twice. -/
structure Unshadowed (b : MCPBroker) (fetched : UserSpecificServer → List Tool) : Prop where
  unrepeated : ∀ srv ∈ b.userSpecificServers, ((fetched srv).map Tool.name).Nodup
  users : ∀ srv ∈ b.userSpecificServers, ∀ tool ∈ fetched srv, ∀ e ∈ b.mcpServers.pairs,
    (claims (srv.namePrefix ++ tool.name) e.2 = true → e.1 = srv.id) ∧
      srv.namePrefix ++ tool.name ∉ servedNames e.2
  brokers : ∀ m ∈ b.brokerTools, ∀ e ∈ b.mcpServers.pairs,
    claims m.name e.2 = false ∧ m.name ∉ servedNames e.2

/-! ## What a deployed broker serves -/

variable {b : MCPBroker} {e e' : String × ActiveMCPServer}

lemma eq_of_fst_eq (he : e ∈ b.mcpServers.pairs)
    (he' : e' ∈ b.mcpServers.pairs) (h : e.1 = e'.1) : e = e' :=
  List.inj_on_of_nodup_map b.mcpServers.nodup_keys he he' h

section Deployed

variable {b : MCPBroker} (hdep : Deployed b) {e : String × ActiveMCPServer}
  (he : e ∈ b.mcpServers.pairs)

include hdep he

lemma Deployed.served : (e.2.manager.serverTools.map name).Nodup ∧
    (∀ n, n ∈ e.2.manager.serverTools.map name ↔ n ∈ servedNames e.2) ∧
    ∀ x ∈ e.2.manager.serverTools, ownerID x.metadata = some e.1 := by
  rcases hdep.ran e he with ⟨config, policy, g₀, g, inputs, hnew, hrun⟩
  have hcons := hrun.consistent (consistent_newManager hnew) .tool
  refine ⟨hcons.nodup, ?_, ?_⟩
  · intro n
    have hname : (prefixedName e.2.manager.config.namePrefix ∘ name) =
        fun tool : Tool => e.2.config.namePrefix ++ tool.name := by
      funext tool
      exact prefixedName_eq _ _
    exact (hcons.served_iff n).trans (by rw [servedNames, ← hname]; rfl)
  · intro x hx
    rw [hdep.ids e he]
    exact hrun.owned (owned_newManager config policy true) .tool x hx

lemma Deployed.unlisted (huser : e.2.config.userSpecificList = true) : servedNames e.2 = [] := by
  rcases hdep.ran e he with ⟨config, policy, g₀, g, inputs, -, hrun⟩
  rcases hrun.setup with ⟨⟨s, hconfig⟩, -⟩
  have hlist : config.userSpecificList = true := by
    have hsame := congrArg MCPServer.userSpecificList hconfig
    exact hsame.symm.trans huser
  have htools : e.2.manager.tools = [] := hrun.unlisted hlist rfl
  simp [servedNames, ActiveMCPServer.getManagedTools, htools]

lemma Deployed.registersPrefix_iff : registersPrefix e.2 = true ↔ e.2.config.userSpecificList = true := by
  have hne : e.2.config.namePrefix ≠ "" := by
    intro hempty
    have hvalid := hdep.valid e he
    rw [hempty] at hvalid
    exact absurd hvalid (by decide)
  simp [registersPrefix, hne]

lemma Deployed.eq_of_namePrefix (he' : e' ∈ b.mcpServers.pairs)
    (h : e.2.config.namePrefix = e'.2.config.namePrefix) : e = e' :=
  eq_of_fst_eq he he' (hdep.distinct e he e' he' h)

variable {n : String}

lemma Deployed.eq_of_served (he' : e' ∈ b.mcpServers.pairs) (hn : n ∈ servedNames e.2) (hn' : n ∈ servedNames e'.2) : e = e' :=
  eq_of_fst_eq he he' (hdep.disjoint e he e' he' n hn hn')

end Deployed

variable {srv : UserSpecificServer}

lemma Deployed.mem_users (hdep : Deployed b) : srv ∈ b.userSpecificServers ↔
    ∃ e ∈ b.mcpServers.pairs, e.2.config.userSpecificList = true ∧ srv = userEntry e.2.config := by
  rw [hdep.users.mem_iff]
  simp only [mem_map, mem_filter]
  constructor
  · rintro ⟨e, ⟨he, huser⟩, rfl⟩
    exact ⟨e, he, huser, rfl⟩
  · rintro ⟨e, he, huser, rfl⟩
    exact ⟨e, ⟨he, huser⟩, rfl⟩

lemma Deployed.nodup_users (hdep : Deployed b) : b.userSpecificServers.Nodup := by
  have hpairs : b.mcpServers.pairs.Nodup := b.mcpServers.nodup_keys.of_map
  refine hdep.users.nodup_iff.2 (List.Nodup.map_on ?_ (hpairs.filter _))
  intro e he e' he' heq
  exact hdep.eq_of_namePrefix (mem_filter.1 he).1 (mem_filter.1 he').1
    (congrArg UserSpecificServer.namePrefix heq)

lemma Deployed.id_ne_broker (hdep : Deployed b) (he : e ∈ b.mcpServers.pairs) : e.1 ≠ brokerServerID := by
  rw [hdep.ids e he]
  intro h
  have hcolon : ':' ∈ (MCPServer.id e.2.config).toList := by simp [MCPServer.id]
  rw [h] at hcolon
  exact absurd hcolon (by decide)

lemma brokerTools_tableOf (order : List (String × ActiveMCPServer)) : (tableOf order).brokerTools =
    [discoverToolsName, selectToolsName, listTagsName, filterToolsByTagsName] := by
  induction order using List.reverseRecOn with
  | nil => rfl
  | append_singleton order e ih =>
    rw [tableOf_append]
    exact ih

lemma Deployed.distinctPrefixes (hdep : Deployed b) : DistinctPrefixes b.mcpServers.pairs :=
  fun _ he _ he' _ _ hpre => hdep.eq_of_namePrefix he he' hpre

/-! ## Where names lead in a deployed broker -/

lemma routeOf_unserved {b₁ : MCPBroker} (hsame : b.mcpServers.Same b₁.mcpServers)
    (ht : SameTable b₁.buildRoutingTable t)
    (hn : ∀ e ∈ b.mcpServers.pairs, n ∉ servedNames e.2) : t.routeOf n = t.lookupPrefix n := by
  have hnone : t.lookupTool n = none := by
    rw [lookupTool, ht.1]
    exact lookupTool_tableOf_eq_none.2 fun e he => hn e (hsame.mem_pairs.1 he)
  rw [routeOf, hnone, Option.none_or]

section Lookups

variable {b b₁ : MCPBroker} {t : Table} (hdep : Deployed b)
  (hsame : b.mcpServers.Same b₁.mcpServers) (ht : SameTable b₁.buildRoutingTable t)

include hdep hsame ht

lemma routeOf_served (he : e ∈ b.mcpServers.pairs)
    (hn : n ∈ servedNames e.2) : t.routeOf n = some (routeFor e.2.config) := by
  have htool : t.lookupTool n = (tableOf b₁.mcpServers.pairs).lookupTool n := by
    rw [lookupTool, ht.1]
    rfl
  cases hlookup : (tableOf b₁.mcpServers.pairs).lookupTool n with
  | none =>
    exact absurd hn (lookupTool_tableOf_eq_none.1 hlookup e (hsame.mem_pairs.2 he))
  | some route =>
    rcases of_lookupTool_tableOf hlookup with ⟨e', he', hn', rfl⟩
    -- no other manager serves the name
    rw [hdep.eq_of_served he (hsame.mem_pairs.1 he') hn hn', routeOf, htool, hlookup]
    rfl

lemma routeOf_claimed (he : e ∈ b.mcpServers.pairs) (hn : ∀ e' ∈ b.mcpServers.pairs, n ∉ servedNames e'.2)
    (hclaim : claims n e.2 = true) (hone : ∀ e' ∈ b.mcpServers.pairs, claims n e'.2 = true → e' = e) :
    t.routeOf n = some (routeFor e.2.config) := by
  rw [routeOf_unserved hsame ht hn]
  rcases lookupPrefix_cases (hdep.distinctPrefixes.same hsame) ht n with
    ⟨-, hall⟩ | ⟨e', he', hclaim', hfound⟩
  · exact absurd ((hall e (hsame.mem_pairs.2 he)).symm.trans hclaim) (by decide)
  · rwa [← hone e' (hsame.mem_pairs.1 he') hclaim']

lemma routeOf_unclaimed (hn : ∀ e ∈ b.mcpServers.pairs, claims n e.2 = false ∧ n ∉ servedNames e.2) :
    t.routeOf n = none := by
  rw [routeOf_unserved hsame ht fun e he => (hn e he).2]
  rcases lookupPrefix_cases (hdep.distinctPrefixes.same hsame) ht n with
    ⟨hnone, -⟩ | ⟨e', he', hclaim', -⟩
  · exact hnone
  · exact absurd ((hn e' (hsame.mem_pairs.1 he')).1.symm.trans hclaim') (by decide)

end Lookups

/-! ## What is registered -/

lemma registeredTools_eq (b : MCPBroker) : registeredTools b =
    byName name ((b.mcpServers.values.flatMap fun up => up.manager.serverTools) ++ b.brokerTools) := by
  rw [registeredTools, register_register, byName_eq_register]

lemma brokerTools_spec (b : MCPBroker) : (b.brokerTools.map name).Nodup ∧ ∀ m ∈ b.brokerTools,
    ownerID m.metadata = some brokerServerID ∧ m.name ∈ [discoverToolsName, selectToolsName, listTagsName,
    filterToolsByTagsName] := by
  unfold MCPBroker.brokerTools
  cases b.discoveryEnabled <;> cases b.tagsToolsRegistered <;>
    refine ⟨by decide, ?_⟩ <;> intro m hm <;>
    simp only [discoveryTools, tagsTools, false_eq_true, if_true, if_false, nil_append,
      append_nil, cons_append, mem_cons, not_mem_nil, or_false] at hm <;>
    rcases hm with rfl | rfl | rfl | rfl <;> exact ⟨rfl, by decide⟩

variable {x : Tool}

lemma of_mem_registered (h : x ∈ (registeredTools b).values) :
    x ∈ b.brokerTools ∨ ∃ e ∈ b.mcpServers.pairs, x ∈ e.2.manager.serverTools := by
  rcases mem_values_iff.1 h with ⟨n, hn⟩
  rw [registeredTools_eq] at hn
  rcases mem_append.1 (of_lookup_byName hn).1 with hserved | hbroker
  · rcases mem_flatMap.1 hserved with ⟨up, hup, hx⟩
    rcases mem_map.1 hup with ⟨e, he, rfl⟩
    exact .inr ⟨e, he, hx⟩
  · exact .inl hbroker

lemma nodup_registered (b : MCPBroker) : ((registeredTools b).values.map name).Nodup := by
  rw [registeredTools_eq]
  exact nodup_values_byName _

variable {answered : List UserSpecificServer}

lemma mem_listAnswer {fetched : UserSpecificServer → List Tool} :
    x ∈ listAnswer b answered fetched ↔ x ∈ (registeredTools b).values ∨ ∃ srv ∈ answered,
    ∃ tool ∈ fetched srv, serveUserTool srv tool = x := by
  simp [listAnswer]

/-! ## Names that are listed -/

section Users

variable {b : MCPBroker} (hdep : Deployed b) {fetched : UserSpecificServer → List Tool}

include hdep

lemma Deployed.user (hsrv : srv ∈ b.userSpecificServers) :
    ∃ e ∈ b.mcpServers.pairs, e.2.config.userSpecificList = true ∧ srv = userEntry e.2.config ∧
      e.1 = srv.id ∧ ∀ u, claims (srv.namePrefix ++ u) e.2 = true := by
  rcases hdep.mem_users.1 hsrv with ⟨e, he, huser, rfl⟩
  refine ⟨e, he, huser, rfl, hdep.ids e he, ?_⟩
  intro u
  simp only [claims, (hdep.registersPrefix_iff he).2 huser, Bool.true_and]
  exact hasPrefix_append _ _

lemma Deployed.registered_name (hx : x ∈ (registeredTools b).values) : x ∈ b.brokerTools ∨
    ∃ e ∈ b.mcpServers.pairs, x.name ∈ servedNames e.2 ∧ ownerID x.metadata = some e.1 := by
  rcases of_mem_registered hx with hbroker | ⟨e, he, hserved⟩
  · exact .inl hbroker
  · rcases hdep.served he with ⟨-, hnames, howner⟩
    exact .inr ⟨e, he, (hnames _).1 (mem_map_of_mem hserved), howner x hserved⟩

lemma Unshadowed.nodup (h : Unshadowed b fetched) (hperm : answered.Perm b.userSpecificServers) :
    ((listAnswer b answered fetched).map name).Nodup := by
  have hmem : ∀ srv ∈ answered, srv ∈ b.userSpecificServers := fun srv => hperm.mem_iff.1
  rw [listAnswer, map_append, List.map_flatMap]
  refine List.Nodup.append (nodup_registered b) (List.nodup_flatMap.2 ⟨?_, ?_⟩) ?_
  · -- one server
    intro srv hsrv
    have hnames : ((fetched srv).map (serveUserTool srv)).map name =
        ((fetched srv).map name).map (srv.namePrefix ++ ·) := by
      simp [serveUserTool]
    rw [hnames]
    exact (h.unrepeated srv (hmem srv hsrv)).map fun _ _ => append_left_cancel
  · -- two servers
    refine (hperm.nodup_iff.2 hdep.nodup_users).pairwise_of_forall_ne ?_
    intro srv hsrv srv' hsrv' hne n hn hn'
    apply hne
    simp only [mem_map, exists_exists_and_eq_and] at hn hn'
    rcases hn with ⟨tool, htool, rfl⟩
    rcases hn' with ⟨tool', htool', hname⟩
    rcases hdep.user (hmem srv hsrv) with ⟨e, he, -, heq, hid, -⟩
    rcases hdep.user (hmem srv' hsrv') with ⟨e', he', -, heq', -, hclaim⟩
    have hother : claims (srv.namePrefix ++ tool.name) e'.2 = true := by
      have hsame : srv'.namePrefix ++ tool'.name = srv.namePrefix ++ tool.name := hname
      rw [← hsame]
      exact hclaim _
    have hfst := (h.users srv (hmem srv hsrv) tool htool e' he').1 hother
    rw [heq, heq', eq_of_fst_eq he he' (hid.trans hfst.symm)]
  · -- a registered name and a user's name
    intro n hn hn'
    rcases mem_map.1 hn with ⟨x, hx, rfl⟩
    rcases mem_flatMap.1 hn' with ⟨srv, hsrv, hlist⟩
    simp only [mem_map, exists_exists_and_eq_and] at hlist
    rcases hlist with ⟨tool, htool, hname⟩
    have hname' : srv.namePrefix ++ tool.name = x.name := hname
    rcases hdep.registered_name hx with hbroker | ⟨e, he, hserved, -⟩
    · rcases hdep.user (hmem srv hsrv) with ⟨e, he, -, -, -, hclaim⟩
      have hfalse := (h.brokers x hbroker e he).1
      rw [← hname', hclaim] at hfalse
      cases hfalse
    · rw [← hname'] at hserved
      exact (h.users srv (hmem srv hsrv) tool htool e he).2 hserved

lemma Unshadowed.routedHome (h : Unshadowed b fetched) {b₁ : MCPBroker}
    (hsame : b.mcpServers.Same b₁.mcpServers) (ht : SameTable b₁.buildRoutingTable t)
    (hperm : answered.Perm b.userSpecificServers) : (∀ m ∈ b.brokerTools, destination t m.name = .broker) ∧
    ∀ x ∈ listAnswer b answered fetched, RoutedHome b t x := by
  have hbroker : ∀ m ∈ b.brokerTools, destination t m.name = .broker := by
    intro m hm
    refine destination_eq_broker.2 ⟨routeOf_unclaimed hdep hsame ht (h.brokers m hm), ?_⟩
    have hnames : t.brokerTools =
        [discoverToolsName, selectToolsName, listTagsName, filterToolsByTagsName] := by
      rw [ht.2.2.2.1, buildRoutingTable_eq, brokerTools_tableOf]
    simpa [Table.isBrokerTool, hnames] using ((brokerTools_spec b).2 m hm).2
  refine ⟨hbroker, ?_⟩
  intro x hx
  rcases mem_listAnswer.1 hx with hreg | ⟨srv, hsrv, tool, htool, rfl⟩
  · rcases hdep.registered_name hreg with hm | ⟨e, he, hserved, howner⟩
    · exact .inl ⟨((brokerTools_spec b).2 x hm).1, hbroker x hm⟩
    · -- a cached tool is found by its name
      rcases mem_map.1 hserved with ⟨tool, -, hname⟩
      refine .inr ⟨e, he, tool.name, howner, hname.symm, ?_⟩
      rw [destination, routeOf_served hdep hsame ht he hserved, ← hname]
      exact congrArg _ (trimPrefix_append _ _)
  · -- a tool of a user-specific server is found by its prefix, which nobody else's begins
    have hsrv' := hperm.mem_iff.1 hsrv
    rcases hdep.user hsrv' with ⟨e, he, -, heq, hid, hclaim⟩
    have hroute : t.routeOf (srv.namePrefix ++ tool.name) = some (routeFor e.2.config) := by
      refine routeOf_claimed hdep hsame ht he (fun e' he' => (h.users srv hsrv' tool htool e' he').2)
        (hclaim _) ?_
      intro e' he' hclaim'
      have hfst := (h.users srv hsrv' tool htool e' he').1 hclaim'
      exact eq_of_fst_eq he' he (hfst.trans hid.symm)
    have hpre : srv.namePrefix = e.2.config.namePrefix := by rw [heq]; rfl
    refine .inr ⟨e, he, tool.name, ?_, ?_, ?_⟩
    · rw [hid]
      simp [serveUserTool, ownerID, Any.asString]
    · rw [← hpre]
      rfl
    · show destination t (srv.namePrefix ++ tool.name) = _
      rw [destination, hroute, hpre]
      exact congrArg _ (trimPrefix_append _ _)

lemma Callable.unshadowed (h : Callable b fetched) : Unshadowed b fetched := by
  have hown := h b b.buildRoutingTable b.userSpecificServers (.refl _) (refl _) (.refl _)
  -- where a user's tool leads in any table
  have huser : ∀ srv ∈ b.userSpecificServers, ∀ tool ∈ fetched srv, ∀ t,
      SameTable b.buildRoutingTable t → ∃ e ∈ b.mcpServers.pairs, e.1 = srv.id ∧
        e.2.config.userSpecificList = true ∧
        t.routeOf (srv.namePrefix ++ tool.name) = some (routeFor e.2.config) := by
    intro srv hsrv tool htool t ht
    have hhome := (h b t b.userSpecificServers (.refl _) ht (.refl _)).2.1 (serveUserTool srv tool)
      (mem_listAnswer.2 (.inr ⟨srv, hsrv, tool, htool, rfl⟩))
    rcases hdep.user hsrv with ⟨e, he, hlist, -, hid, -⟩
    have howner : ownerID (serveUserTool srv tool).metadata = some srv.id := by
      simp [serveUserTool, ownerID, Any.asString]
    rcases hhome with ⟨hbroker, -⟩ | ⟨e', he', u, howner', -, hdest⟩
    · -- the id of a server is not the broker's
      rw [howner, Option.some.injEq] at hbroker
      exact absurd (hid.trans hbroker) (hdep.id_ne_broker he)
    · rw [howner, Option.some.injEq] at howner'
      rw [eq_of_fst_eq he' he (howner'.symm.trans hid.symm)] at hdest
      exact ⟨e, he, hid, hlist, destination_eq_server hdest⟩
  have hserved : ∀ srv ∈ b.userSpecificServers, ∀ tool ∈ fetched srv, ∀ e ∈ b.mcpServers.pairs,
      srv.namePrefix ++ tool.name ∉ servedNames e.2 := by
    intro srv hsrv tool htool e he hn
    rcases huser srv hsrv tool htool _ (refl _) with ⟨e', he', -, hlist, hroute⟩
    rw [routeOf_served hdep (.refl _) (refl _) he hn, Option.some.injEq] at hroute
    rw [hdep.eq_of_namePrefix he he' (congrArg ServerRoute.namePrefix hroute),
      hdep.unlisted he' hlist] at hn
    cases hn
  refine ⟨?_, ?_, ?_⟩
  · intro srv hsrv
    have hnodup := hown.1
    rw [listAnswer, map_append, List.map_flatMap] at hnodup
    have hone := (List.nodup_flatMap.1 hnodup.of_append_right).1 srv hsrv
    have hnames : ((fetched srv).map (serveUserTool srv)).map name =
        ((fetched srv).map name).map (srv.namePrefix ++ ·) := by
      simp [serveUserTool]
    rw [hnames] at hone
    exact hone.of_map
  · intro srv hsrv tool htool e he
    refine ⟨?_, hserved srv hsrv tool htool e he⟩
    intro hclaim
    -- let the router meet this prefix first
    rcases exists_lookupPrefix hdep.distinctPrefixes he hclaim with ⟨t, ht, hfound⟩
    rcases huser srv hsrv tool htool t ht with ⟨e', he', hid, -, hroute⟩
    rw [routeOf_unserved (.refl _) ht (hserved srv hsrv tool htool), hfound, Option.some.injEq] at hroute
    rw [hdep.eq_of_namePrefix he he' (congrArg ServerRoute.namePrefix hroute), hid]
  · intro m hm e he
    have hnone : ∀ t, SameTable b.buildRoutingTable t → t.routeOf m.name = none := by
      intro t ht
      exact (destination_eq_broker.1 ((h b t b.userSpecificServers (.refl _) ht (.refl _)).2.2 m hm)).1
    have hunserved : ∀ e ∈ b.mcpServers.pairs, m.name ∉ servedNames e.2 := by
      intro e he hn
      have hroute := routeOf_served hdep (.refl _) (refl _) he hn
      rw [hnone _ (refl _)] at hroute
      cases hroute
    refine ⟨?_, hunserved e he⟩
    by_contra hclaim
    rcases exists_lookupPrefix hdep.distinctPrefixes he (by simpa using hclaim) with ⟨t, ht, hfound⟩
    have hroute := hnone t ht
    rw [routeOf_unserved (.refl _) ht hunserved, hfound] at hroute
    cases hroute

end Users

/-- In a deployed broker, every listed name is unique and leads to the server that supplied it, in
every order of iteration, just when no such name is shadowed. -/
theorem callable_iff_unshadowed {b : MCPBroker} (hdep : Deployed b)
    (fetched : UserSpecificServer → List Tool) : Callable b fetched ↔ Unshadowed b fetched := by
  constructor
  · exact fun h => h.unshadowed hdep
  · intro h b₁ t answered hsame ht hperm
    rcases h.routedHome hdep hsame ht hperm with ⟨hbroker, hhome⟩
    exact ⟨h.nodup hdep hperm, hhome, hbroker⟩

def weatherManager : ActiveMCPServer where
  manager := (afterPasses (newManager { name := "weather", namePrefix := "w_" } .filterOut true) {}
    [MCPManager.healthyPass MCPManager.mixedAnswer]).1

def listingBroker : MCPBroker :=
  { brokerWith [weatherManager, userServer "mail" "m_"] with
    userSpecificServers := [userEntry (userServer "mail" "m_").config]
    discoveryEnabled := true }

lemma ran_userServer (name namePrefix : String) : ∃ config policy g₀ g inputs,
    (∀ (K : Upstream.Kind) n x, ¬ K.view config.id g₀ n x) ∧
      History (newManager config policy true) g₀ inputs (userServer name namePrefix).manager g := by
  refine ⟨_, .filterOut, {}, {}, [], ?_, .start⟩
  rintro (_ | _) n x ⟨hx, -⟩ <;> cases hx

lemma deployed_listingBroker : Deployed listingBroker := by
  refine ⟨by decide, ?_, by decide, by decide, by decide, by decide, by decide⟩
  intro e he
  rcases mem_cons.1 he with rfl | hrest
  · exact ran_userServer "mail" "m_"
  · rw [mem_singleton.1 hrest]
    refine ⟨_, .filterOut, {}, _, _, ?_, history_afterPasses _ _ _⟩
    rintro (_ | _) n x ⟨hx, -⟩ <;> cases hx

/-- Every tool of a caller leads home when the prefixes do not overlap. -/
theorem callable_iff_unshadowed_mail : Callable listingBroker fun _ => [{ name := "send" }] := by
  refine (callable_iff_unshadowed deployed_listingBroker _).2 ⟨?_, ?_, ?_⟩
  · exact fun _ _ => by decide
  · intro srv hsrv tool htool
    rw [List.mem_singleton.1 hsrv, List.mem_singleton.1 htool]
    decide
  · decide

def overlappingUsers : MCPBroker :=
  { overlapping with
    userSpecificServers := [userEntry (userServer "alpha" "a_").config,
      userEntry (userServer "beta" "a_b_").config] }

/-- The tool `b_c` of the server with the prefix `a_` may lead to the server with the prefix
`a_b_`. -/
theorem overlappingUser_not_callable : Deployed overlappingUsers ∧
    ¬ Callable overlappingUsers fun srv => if srv.name = "alpha" then [{ name := "b_c" }] else [] := by
  have hdep : Deployed overlappingUsers := by
    refine ⟨by decide, ?_, by decide, by decide, by decide, by decide, by decide⟩
    intro e he
    rcases mem_overlapping he with rfl | rfl
    · exact ran_userServer "beta" "a_b_"
    · exact ran_userServer "alpha" "a_"
  refine ⟨hdep, ?_⟩
  intro hcall
  have hshadow := (hcall.unshadowed hdep).users (userEntry (userServer "alpha" "a_").config)
    List.mem_cons_self { name := "b_c" } List.mem_cons_self
    ("beta:a_b_:", userServer "beta" "a_b_") List.mem_cons_self
  exact absurd (hshadow.1 (by decide)) (by decide)

end McpGateway.Gateway
