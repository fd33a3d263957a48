import McpGateway.Controller.Attachments

/-!
# The fan-out of a registration

In an undisturbed cluster: for which namespaces the entry of a registration is written
(`writes_attached_iff`).
-/

namespace McpGateway.Controller

open Go Effect Kubernetes Cluster Agent Server Attached

variable {w : Cluster} {lib : Libraries} {route : HTTPRoute} {gs : List Gateway} {att : Attached}
  {mcpsr : MCPServerRegistration} {a2areg : A2AAgentRegistration} {nss : List String}

/-! ## Runs that write -/

lemma quiet_notReady {m : String} {r : Reconciled} :
    (notReady mcpsr m r).Ensures QuietOp fun _ => True :=
  quiet_recording quiet_serverStatus fun _ => trivial

lemma quiet_ending {b : Bool} {reason m : String} {r : Reconciled} :
    (ending a2areg b reason m r).Ensures QuietOp fun _ => True :=
  quiet_recording (quiet_writeReady (k := .a2aAgentRegistration)) fun _ => trivial

/-- The entries `writeConfig` writes: for the namespaces, if the entry can be built. -/
lemma written_serverConfig (lib : Libraries) (route : HTTPRoute) (mcpsr : MCPServerRegistration)
    (att : Attached) : (w.run (Server.writeConfig lib route mcpsr att)).2.written =
    match (w.run (Server.buildMCPServerConfig lib route mcpsr att.hasGatewayCACertBundle)).1 with
    | .ok cfg => (w.addServer cfg att.validNamespaces).written
    | .error _ => w.written := by
  unfold Server.writeConfig
  by_cases hns : att.validNamespaces = []
  · rw [if_pos hns, written_of_quiet quiet_notReady, hns]
    split <;> rfl
  · rw [if_neg hns, Cluster.run_bind, (run_of_read reads_buildServer).1]
    cases (w.run (Server.buildMCPServerConfig lib route mcpsr att.hasGatewayCACertBundle)).1 with
    | error e => exact written_of_quiet quiet_notReady
    | ok cfg =>
      dsimp only
      rw [Cluster.run_bind, run_upsertServer]
      exact written_of_quiet quiet_finish

lemma written_agentConfig (lib : Libraries) (route : HTTPRoute) (a2areg : A2AAgentRegistration)
    (att : Attached) : (w.run (Agent.writeConfig lib route a2areg att)).2.written =
    match (w.run (Agent.buildA2AAgentConfig lib route a2areg att.hasGatewayCACertBundle)).1 with
    | .ok cfg => (w.addAgent cfg att.validNamespaces).written
    | .error _ => w.written := by
  unfold Agent.writeConfig
  by_cases hns : att.validNamespaces = []
  · rw [if_pos hns, Agent.failStatus, written_of_quiet quiet_ending, hns]
    split <;> rfl
  · rw [if_neg hns, Agent.orFailStatus, Cluster.run_bind, (run_of_read reads_buildAgent).1]
    cases (w.run (Agent.buildA2AAgentConfig lib route a2areg att.hasGatewayCACertBundle)).1 with
    | error e => exact written_of_quiet quiet_ending
    | ok cfg =>
      dsimp only
      rw [Agent.orFailStatus, Cluster.run_bind, run_upsertAgent]
      dsimp only [Agent.finish]
      split <;> exact written_of_quiet quiet_ending

/-- A gateway without valid extensions ends the servers' loop. -/
lemma written_serverLoop {next : MCPServerRegistration → Attached → Ctl Reconciled} (h : ∃ g ∈ gs,
    w.validExts g = []) : (w.run (Server.gatewayLoop route next mcpsr att gs)).2.written = w.written := by
  induction gs generalizing att with
  | nil => simp at h
  | cons g rest ih =>
    rw [Server.gatewayLoop, Cluster.run_bind, run_findValid]
    by_cases hg : w.validExts g = []
    · simp only [hg, List.isEmpty_nil, if_true]
      exact written_of_quiet (quiet_recording quiet_serverStatus fun _ => trivial)
    · have hempty : (w.validExts g).isEmpty = false := by simpa using hg
      simp only [hempty, false_eq_true, if_false]
      obtain ⟨g', hmem, hg'⟩ := h
      rcases mem_cons.1 hmem with rfl | hmem
      · exact absurd hg' hg
      · exact ih ⟨g', hmem, hg'⟩

/-! ## Which namespaces -/

variable {exts : List MCPGatewayExtension} {ns : String} {cfg : Config.MCPServer} {s : NamespacedName}

lemma servers_addServer : (w.addServer cfg nss).servers =
    w.servers ++ nss.map fun ns => (namespaceName ns, cfg) := by
  induction nss generalizing w with
  | nil => simp [addServer]
  | cons ns rest ih => exact ih.trans (by simp [answer])

lemma agents_addAgent {cfg : Config.A2AAgent} : (w.addAgent cfg nss).agents =
    w.agents ++ nss.map fun ns => (namespaceName ns, cfg) := by
  induction nss generalizing w with
  | nil => simp [addAgent]
  | cons ns rest ih => exact ih.trans (by simp [answer])

/-- The secrets written on the way from one cluster to another. -/
def Cluster.newServers (w w' : Cluster) : List NamespacedName :=
  (w'.servers.drop w.servers.length).map Prod.fst

def Cluster.newAgents (w w' : Cluster) : List NamespacedName :=
  (w'.agents.drop w.agents.length).map Prod.fst

/-- A valid extension of one of the gateways has the namespace and a listener that the route attaches
to. -/
def Cluster.AttachedNs (w : Cluster) (route : HTTPRoute) (gs : List Gateway) (ns : String) : Prop :=
  ∃ g ∈ gs, ∃ e ∈ w.validExts g, httpRouteAttachesToListener route g e = true ∧ e.ns = ns

lemma mem_addAll {g : Gateway} :
    ns ∈ (att.addAll route g exts).validNamespaces ↔ ns ∈ att.validNamespaces ∨ ∃ e ∈ exts,
    httpRouteAttachesToListener route g e = true ∧ e.ns = ns := by
  induction exts generalizing att with
  | nil => simp [addAll]
  | cons e rest ih =>
    refine (ih : _ ∈ ((att.add route g e).addAll route g rest).validNamespaces ↔ _).trans ?_
    by_cases h : httpRouteAttachesToListener route g e = true <;>
      simp [add, h, or_assoc, eq_comm (a := ns)]

lemma mem_attached : ns ∈ (w.attached route att gs).validNamespaces ↔
    ns ∈ att.validNamespaces ∨ w.AttachedNs route gs ns := by
  induction gs generalizing att with
  | nil => simp [attached, Cluster.AttachedNs]
  | cons g rest ih =>
    refine (ih : _ ∈ (w.attached route (att.addAll route g (w.validExts g)) rest).validNamespaces ↔
      _).trans ?_
    simp [mem_addAll, Cluster.AttachedNs, or_assoc]

lemma mem_new {T : Type} {log : List (NamespacedName × T)} {cfg : T} :
    namespaceName ns ∈ ((log ++ nss.map fun ns => (namespaceName ns, cfg)).drop log.length).map Prod.fst ↔
    ns ∈ nss := by
  simp [namespaceName_inj]

/-! ## Runs of a small cluster -/

def plainLibraries : Libraries where
  httpsURL raw := "https:" ++ String.ofList (raw.toList.drop 5)
  httpsURL_eq _ := ⟨_, rfl⟩
  parseError _ := ""
  pemDecode _ := none
  pemDecode_shorter h := by cases h
  parseCertificate _ := none

def smallGateway (ns : String) : Gateway :=
  { name := "gw", ns := ns, listeners := [{ name := "mcp", port := 8080 }] }

/-- A route that the gateways of the namespaces accepted. -/
def smallRoute (nss : List String) : HTTPRoute :=
  let parentRef (ns : String) : ParentReference :=
    { name := "gw", ns := some ns, sectionName := some "mcp" }
  { name := "route", ns := "team", hostnames := ["mcp.example"], parentRefs := nss.map parentRef,
    rules := [[{ name := "svc", port := some 80 }]],
    parents := nss.map fun ns =>
      { parentRef := parentRef ns, conditions := [{ type := "Accepted", status := .conditionTrue }] } }

def smallExtension (ns : String) (bundle : Option SecretReference) : MCPGatewayExtension :=
  { name := "ext", ns := ns,
    spec := { targetRef := { name := "gw", ns := ns, sectionName := "mcp" }, caCertBundleRef := bundle } }

/-- Three gateways; the one of `bare` has no extension, and the extension of `two` a CA bundle. -/
def smallCluster (nss : List String) : Cluster where
  objects
    | .httpRoute => [smallRoute nss]
    | .gateway => ["one", "two", "bare"].map smallGateway
    | .mcpGatewayExtension => [smallExtension "one" none, smallExtension "two" (some { name := "ca" })]
    | .service => [{ name := "svc", ns := "team" }]
    | _ => []
  configs _ := none

def smallServer : MCPServerRegistration :=
  { name := "weather", ns := "team", spec := { targetRef := { kind := "HTTPRoute", name := "route" } } }

def smallAgent : A2AAgentRegistration :=
  { name := "trip", ns := "team",
    spec := { targetRef := { kind := "HTTPRoute", name := "route" }, agentPrefix := "trip" } }

def plainServer : Config.MCPServer :=
  { name := "team/weather", url := "http://svc.team.svc.cluster.local:80", hostname := "mcp.example" }

def plainAgent : Config.A2AAgent :=
  { name := "team/trip", url := "http://svc.team.svc.cluster.local:80", hostname := "mcp.example",
    agentPrefix := "trip" }

/-! ## Where the entry is written -/

/-- The agents' loop writes for exactly the attached namespaces; the servers' loop does so exactly if
every gateway has valid extensions or there is nothing to write. -/
theorem writes_attached_iff (lib : Libraries) (w : Cluster) (route : HTTPRoute) (gs : List Gateway)
    (mcpsr : MCPServerRegistration) (a2areg : A2AAgentRegistration) (server : Config.MCPServer)
    (agent : Config.A2AAgent)
    (hserver : (w.run (Server.buildMCPServerConfig lib route mcpsr
      (w.attached route {} gs).hasGatewayCACertBundle)).1 = .ok server)
    (hagent : (w.run (Agent.buildA2AAgentConfig lib route a2areg
      (w.attached route {} gs).hasGatewayCACertBundle)).1 = .ok agent) :
    (∀ ns, namespaceName ns ∈ w.newAgents
        (w.run (Agent.gatewayLoop route a2areg (Agent.writeConfig lib route a2areg) {} gs)).2 ↔
      w.AttachedNs route gs ns) ∧
    ((∀ ns, namespaceName ns ∈ w.newServers
        (w.run (Server.gatewayLoop route (Server.writeConfig lib route) mcpsr {} gs)).2 ↔
      w.AttachedNs route gs ns) ↔
      (∀ g ∈ gs, w.validExts g ≠ []) ∨ ∀ ns, ¬ w.AttachedNs route gs ns) := by
  have hmem : ∀ ns, ns ∈ (w.attached route {} gs).validNamespaces ↔ w.AttachedNs route gs ns :=
    fun ns => mem_attached.trans (by simp)
  constructor
  · intro ns
    have hlog := written_agentConfig (w := w) lib route a2areg (w.attached route {} gs)
    rw [hagent] at hlog
    rw [run_agentLoop, ← hmem, Cluster.newAgents,
      show Cluster.agents _ = (w.addAgent agent _).agents from congrArg (fun x => x.2.2) hlog,
      agents_addAgent]
    exact mem_new
  · by_cases hgs : ∀ g ∈ gs, w.validExts g ≠ []
    · have hlog := written_serverConfig (w := w) lib route mcpsr (w.attached route {} gs)
      rw [hserver] at hlog
      refine iff_of_true (fun ns => ?_) (.inl hgs)
      rw [run_serverLoop hgs, ← hmem, Cluster.newServers,
        show Cluster.servers _ = (w.addServer server _).servers from congrArg (fun x => x.2.1) hlog,
        servers_addServer]
      exact mem_new
    · -- the loop ends early, and nothing is written
      have hexit : ∃ g ∈ gs, w.validExts g = [] := by simpa using hgs
      have hlog : (w.run (Server.gatewayLoop route (Server.writeConfig lib route) mcpsr {} gs)).2.servers =
          w.servers := congrArg (fun x => x.2.1) (written_serverLoop hexit)
      simp [Cluster.newServers, hlog, hgs]

/-- The gateway without extensions comes first: the agent is written, the server is not. -/
theorem bareGateway_stops :
    (smallCluster ["bare", "one"]).newServers ((smallCluster ["bare", "one"]).run
        (Server.reconcileActive plainLibraries smallServer)).2 = [] ∧
      (smallCluster ["bare", "one"]).newAgents ((smallCluster ["bare", "one"]).run
        (Agent.reconcileRoute plainLibraries smallAgent)).2 = [namespaceName "one"] := by
  decide +kernel

/-- Two gateways that have extensions both. -/
def pair : List String := ["one", "two"]

theorem writes_attached_iff_pair :
    (∀ g ∈ pair.map smallGateway, (smallCluster pair).validExts g ≠ []) ∧
      ∀ ns, namespaceName ns ∈ (smallCluster pair).newServers ((smallCluster pair).run
          (Server.gatewayLoop (smallRoute pair) (Server.writeConfig plainLibraries (smallRoute pair))
            smallServer {} (pair.map smallGateway))).2 ↔
        (smallCluster pair).AttachedNs (smallRoute pair) (pair.map smallGateway) ns := by
  have hexts : ∀ g ∈ pair.map smallGateway, (smallCluster pair).validExts g ≠ [] := by
    intro g hg
    rcases List.mem_pair.1 (show g ∈ [smallGateway "one", smallGateway "two"] from hg) with rfl | rfl
    · exact fun h => by cases h
    · exact fun h => by cases h
  exact ⟨hexts, (writes_attached_iff plainLibraries (smallCluster pair) (smallRoute pair)
    (pair.map smallGateway) smallServer smallAgent
    { plainServer with url := "https://svc.team.svc.cluster.local:80" }
    { plainAgent with url := "https://svc.team.svc.cluster.local:80" } (by decide +kernel)
    (by decide +kernel)).2.2 (.inl hexts)⟩

end McpGateway.Controller
