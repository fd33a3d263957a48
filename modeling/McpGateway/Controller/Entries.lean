import McpGateway.Controller.Fanout

/-!
# The entries of a registration over time

- `server_reconciled`, `agent_reconciled`: a reconcile writes nothing, or its entry for exactly the
  attached namespaces.
- `holds_runEvents`: the secrets with the entry after any run of cluster changes and reconciles.
- `entries_exact_iff`: when they are those of the last reconcile.
- `entry_own_iff`: when an entry does not depend on the extensions of other namespaces.
-/

namespace McpGateway.Controller

open Go Effect Kubernetes Cluster Agent Server Attached

variable {w : Cluster} {lib : Libraries} {route : HTTPRoute} {gs : List Gateway} {att : Attached}
  {mcpsr : MCPServerRegistration} {a2areg : A2AAgentRegistration} {nss : List String}
  {exts : List MCPGatewayExtension} {ns : String} {cfg : Config.MCPServer} {s : NamespacedName}

/-! ## One reconcile -/

/-- The secret's config has an entry of the name. -/
def Cluster.HoldsServer (w : Cluster) (name : String) (s : NamespacedName) : Prop :=
  ∃ c, w.configs s = some c ∧ ∃ e ∈ c.servers, e.name = name

/-- The configuration secret has an entry of that name. -/
def Cluster.HoldsAgent (w : Cluster) (name : String) (s : NamespacedName) : Prop :=
  ∃ c, w.configs s = some c ∧ ∃ e ∈ c.a2aAgents, e.name = name

lemma exists_mem_upsertNamedEntry {T : Type} {getName : T → String} {changed : T → T → Bool} {entry : T}
    {l : List T} : ∃ e ∈ upsertNamedEntry getName changed entry l, getName e = getName entry := by
  induction l with
  | nil => exact ⟨entry, mem_singleton.2 rfl, rfl⟩
  | cons e rest ih =>
    unfold upsertNamedEntry
    split
    next h =>
      refine ⟨_, mem_cons_self, ?_⟩
      split
      · rfl
      · exact h
    next h =>
      obtain ⟨x, hx, hname⟩ := ih
      exact ⟨x, mem_cons_of_mem _ hx, hname⟩

lemma holdsServer_addServer :
    (w.addServer cfg nss).HoldsServer cfg.name s ↔ w.HoldsServer cfg.name s ∨
    s ∈ nss.map namespaceName := by
  induction nss generalizing w with
  | nil => simp [addServer]
  | cons ns rest ih =>
    refine (ih : (addServer cfg rest _).HoldsServer _ _ ↔ _).trans ?_
    by_cases hs : s = namespaceName ns
    · subst hs
      refine iff_of_true (.inl ⟨_, if_pos rfl, exists_mem_upsertNamedEntry⟩) ?_
      simp
    · simp [Cluster.HoldsServer, answer, setConfig, hs]

lemma holdsAgent_addAgent {cfg : Config.A2AAgent} :
    (w.addAgent cfg nss).HoldsAgent cfg.name s ↔ w.HoldsAgent cfg.name s ∨ s ∈ nss.map namespaceName := by
  induction nss generalizing w with
  | nil => simp [addAgent]
  | cons ns rest ih =>
    refine (ih : (addAgent cfg rest _).HoldsAgent _ _ ↔ _).trans ?_
    by_cases hs : s = namespaceName ns
    · subst hs
      refine iff_of_true (.inl ⟨_, if_pos rfl, exists_mem_upsertNamedEntry⟩) ?_
      simp
    · simp [Cluster.HoldsAgent, answer, setConfig, hs]

lemma reads_serverRoute : (getTargetHTTPRoute mcpsr).Ensures ReadOp fun _ => True :=
  ⟨trivial, fun r => by cases r <;> trivial⟩

lemma reads_agentRoute : (getTargetHTTPRoute a2areg).Ensures ReadOp fun _ => True :=
  ⟨trivial, fun r => by cases r <;> trivial⟩

lemma reads_findGateways {acc : List Gateway} {parents : List RouteParentStatus} :
    (findGatewaysFrom ns acc parents).Ensures ReadOp fun _ => True := by
  induction parents generalizing acc with
  | nil => trivial
  | cons parent rest ih =>
    unfold findGatewaysFrom
    split
    · refine Prog.Ensures.bind (Q := fun _ => True) ⟨trivial, fun r => by cases r <;> trivial⟩
        fun r _ => ?_
      cases r with
      | error e =>
        dsimp only
        split
        · exact ih
        · trivial
      | ok pg => exact ih
    · exact ih

lemma reads_gateways : (findValidGatewaysForHTTPRoute route).Ensures ReadOp fun _ => True :=
  reads_findGateways

/-- The route of the registration and the gateways that accepted it, as a reconcile reads them. -/
structure Cluster.Targets (w : Cluster) (target : Ctl (Except Err HTTPRoute)) (route : HTTPRoute)
    (gs : List Gateway) : Prop where
  found : (w.run target).1 = .ok route
  accepted : (w.run (findValidGatewaysForHTTPRoute route)).1 = .ok gs

/-- A valid extension of the namespace has a listener that the route of the registration attaches to. -/
def Cluster.Attaches (w : Cluster) (target : Ctl (Except Err HTTPRoute)) (ns : String) : Prop :=
  ∃ route gs, w.Targets target route gs ∧ w.AttachedNs route gs ns

lemma Cluster.Targets.attaches_iff {target : Ctl (Except Err HTTPRoute)} (h : w.Targets target route gs) :
    w.Attaches target ns ↔ w.AttachedNs route gs ns := by
  constructor
  · rintro ⟨route', gs', ⟨hroute, hgs⟩, hns⟩
    cases h.found.symm.trans hroute
    cases h.accepted.symm.trans hgs
    exact hns
  · exact fun hns => ⟨route, gs, h, hns⟩

lemma run_serverActive (h : w.Targets (Server.getTargetHTTPRoute mcpsr) route gs) (hne : gs ≠ []) :
    w.run (Server.reconcileActive lib mcpsr) =
      w.run (Server.gatewayLoop route (Server.writeConfig lib route) mcpsr {} gs) := by
  obtain ⟨g, rest, rfl⟩ := List.exists_cons_of_ne_nil hne
  unfold Server.reconcileActive
  rw [Cluster.run_bind, (run_of_read reads_serverRoute).1, h.found]
  dsimp only
  rw [Cluster.run_bind, (run_of_read reads_gateways).1, h.accepted]

lemma run_agentActive (h : w.Targets (Agent.getTargetHTTPRoute a2areg) route gs) (hne : gs ≠ []) :
    w.run (Agent.reconcileRoute lib a2areg) =
      w.run (Agent.gatewayLoop route a2areg (Agent.writeConfig lib route a2areg) {} gs) := by
  unfold Agent.reconcileRoute
  rw [Agent.orFailStatus, Cluster.run_bind, (run_of_read reads_agentRoute).1, h.found]
  dsimp only
  rw [Agent.orFailStatus, Cluster.run_bind, (run_of_read reads_gateways).1, h.accepted]
  dsimp only
  rw [if_neg (by simpa using hne)]

/-- A reconcile of a server writes nothing, or its entry for exactly the attached namespaces. -/
lemma server_reconciled (lib : Libraries) (w : Cluster) (mcpsr : MCPServerRegistration) :
    (w.run (Server.reconcileActive lib mcpsr)).2.written = w.written ∨
      ∃ cfg nss, cfg.name = Server.mcpServerName mcpsr ∧
        (∀ ns, ns ∈ nss ↔ w.Attaches (Server.getTargetHTTPRoute mcpsr) ns) ∧
        (w.run (Server.reconcileActive lib mcpsr)).2.written = (w.addServer cfg nss).written := by
  unfold Server.reconcileActive
  rw [Cluster.run_bind, (run_of_read reads_serverRoute).1]
  split
  · exact .inl (written_of_quiet quiet_notReady)
  next route hroute =>
    rw [Cluster.run_bind, (run_of_read reads_gateways).1]
    split
    · exact .inl (written_of_quiet quiet_notReady)
    · exact .inl (written_of_quiet quiet_notReady)
    next gs _ hgs =>
      by_cases hall : ∀ g ∈ gs, w.validExts g ≠ []
      · rw [run_serverLoop hall, written_serverConfig]
        split
        next cfg hcfg =>
          refine .inr ⟨cfg, _, (run_of_read reads_buildServer).2 cfg hcfg, fun ns => ?_, rfl⟩
          rw [Targets.attaches_iff ⟨hroute, hgs⟩]
          exact mem_attached.trans (by simp)
        · exact .inl rfl
      · exact .inl (written_serverLoop (by simpa using hall))

/-- So does the reconcile of an agent, once it has passed the checks of the grant and the prefix. -/
lemma agent_reconciled (lib : Libraries) (w : Cluster) (a2areg : A2AAgentRegistration) :
    (w.run (reconcileRoute lib a2areg)).2.written = w.written ∨
      ∃ cfg nss, cfg.name = a2aAgentName a2areg ∧
        (∀ ns, ns ∈ nss ↔ w.Attaches (Agent.getTargetHTTPRoute a2areg) ns) ∧
        (w.run (reconcileRoute lib a2areg)).2.written = (w.addAgent cfg nss).written := by
  unfold reconcileRoute
  rw [orFailStatus, run_bind, (run_of_read reads_agentRoute).1]
  split
  · exact .inl (written_of_quiet quiet_ending)
  next route hroute =>
    rw [orFailStatus, run_bind, (run_of_read reads_gateways).1]
    split
    · exact .inl (written_of_quiet quiet_ending)
    next gs hgs =>
      split
      · exact .inl (written_of_quiet quiet_ending)
      · rw [run_agentLoop, written_agentConfig]
        split
        next cfg hcfg =>
          refine .inr ⟨cfg, _, (run_of_read reads_buildAgent).2 cfg hcfg, fun ns => ?_, rfl⟩
          rw [Targets.attaches_iff ⟨hroute, hgs⟩]
          exact mem_attached.trans (by simp)
        · exact .inl rfl

/-! ## Runs -/

/-- What happens in the cluster of a registration: objects change in any way, or it is reconciled. -/
inductive Event where
  | change (objects : (k : Kind) → List (Obj k))
  | reconcile

/-- The state after some events; `reconcile` is what a reconcile does to the cluster. -/
def runEvents (reconcile : Cluster → Cluster) (w : Cluster) (events : List Event) : Cluster :=
  events.foldl (fun w event => match event with
    | .change objects => { w with objects := objects }
    | .reconcile => reconcile w) w

/-- The states in which the registration was reconciled. -/
def reconciledAt (reconcile : Cluster → Cluster) : Cluster → List Event → List Cluster
  | _, [] => []
  | w, .change objects :: rest => reconciledAt reconcile { w with objects := objects } rest
  | w, .reconcile :: rest => w :: reconciledAt reconcile (reconcile w) rest

section Runs

variable {reconcile : Cluster → Cluster} {holds : Cluster → NamespacedName → Prop}
  {wrote : Cluster → Prop} {target : Ctl (Except Err HTTPRoute)}

/-- The entry is in the secrets where it was, and in those that a reconcile of the run has written. -/
lemma holds_runEvents (hchange : ∀ w objects s, holds { w with objects := objects } s ↔ holds w s)
    (hstep : ∀ w s, holds (reconcile w) s ↔
      holds w s ∨ wrote w ∧ ∃ ns, s = namespaceName ns ∧ w.Attaches target ns) (events : List Event) :
    holds (runEvents reconcile w events) s ↔ holds w s ∨ ∃ w' ∈ reconciledAt reconcile w events,
      wrote w' ∧ ∃ ns, s = namespaceName ns ∧ w'.Attaches target ns := by
  induction events generalizing w with
  | nil => simp [runEvents, reconciledAt]
  | cons event rest ih =>
    cases event with
    | change objects => exact ih.trans (or_congr_left (hchange w objects s))
    | reconcile =>
      refine ih.trans ?_
      rw [hstep]
      simp [reconciledAt, or_assoc]

/-- After a reconcile that has written, at the end of a run that began without the entry, the secrets
with the entry are those of the attached namespaces exactly if every namespace that an earlier reconcile
has written for is still attached. -/
lemma exact_iff (holds : Cluster → NamespacedName → Prop)
    (hchange : ∀ w objects s, holds { w with objects := objects } s ↔ holds w s)
    (hstep : ∀ w s, holds (reconcile w) s ↔
      holds w s ∨ wrote w ∧ ∃ ns, s = namespaceName ns ∧ w.Attaches target ns) {events : List Event}
    (hfresh : ∀ s, ¬ holds w s) (hwrote : wrote (runEvents reconcile w events)) :
    (∀ s, holds (reconcile (runEvents reconcile w events)) s ↔
      ∃ ns, s = namespaceName ns ∧ (runEvents reconcile w events).Attaches target ns) ↔
    ∀ w' ∈ reconciledAt reconcile w events, wrote w' → ∀ ns, w'.Attaches target ns →
      (runEvents reconcile w events).Attaches target ns := by
  simp only [hstep, holds_runEvents hchange hstep, hfresh, hwrote, false_or, true_and]
  constructor
  · intro h w' hw' hwrote' ns hns
    obtain ⟨ns', heq, hns'⟩ := (h (namespaceName ns)).1 (.inl ⟨w', hw', hwrote', ns, rfl, hns⟩)
    rwa [namespaceName_inj.1 heq]
  · intro h s
    constructor
    · rintro (⟨w', hw', hwrote', ns, rfl, hns⟩ | hs)
      · exact ⟨ns, rfl, h w' hw' hwrote' ns hns⟩
      · exact hs
    · exact .inr

end Runs

lemma mem_written {T : Type} {log : List (NamespacedName × T)} {cfg : T} {p : String → Prop}
    (hnss : ∀ ns, ns ∈ nss ↔ p ns) : s ∈ nss.map namespaceName ↔
      ((log ++ nss.map fun ns => (namespaceName ns, cfg)).drop log.length).map Prod.fst ≠ [] ∧
        ∃ ns, s = namespaceName ns ∧ p ns := by
  constructor
  · intro h
    obtain ⟨ns, hns, rfl⟩ := mem_map.1 h
    exact ⟨by simp [List.ne_nil_of_mem hns], ns, rfl, (hnss ns).1 hns⟩
  · rintro ⟨-, ns, rfl, hns⟩
    exact mem_map_of_mem ((hnss ns).2 hns)

/-- A reconcile of the server in this state ends with its config written. -/
def Cluster.WritesServer (lib : Libraries) (mcpsr : MCPServerRegistration) (w : Cluster) : Prop :=
  w.newServers (w.run (Server.reconcileActive lib mcpsr)).2 ≠ []

/-- The reconcile asks the writer for an entry. -/
def Cluster.WritesAgent (lib : Libraries) (a2areg : A2AAgentRegistration) (w : Cluster) : Prop :=
  w.newAgents (w.run (Agent.reconcileRoute lib a2areg)).2 ≠ []

def Cluster.reconcileServer (lib : Libraries) (mcpsr : MCPServerRegistration) (w : Cluster) : Cluster :=
  (w.run (Server.reconcileActive lib mcpsr)).2

def Cluster.reconcileAgent (lib : Libraries) (a2areg : A2AAgentRegistration) (w : Cluster) : Cluster :=
  (w.run (Agent.reconcileRoute lib a2areg)).2

lemma holds_reconcileServer (lib : Libraries) (mcpsr : MCPServerRegistration) (w : Cluster)
    (s : NamespacedName) : (w.reconcileServer lib mcpsr).HoldsServer (mcpServerName mcpsr) s ↔
      w.HoldsServer (mcpServerName mcpsr) s ∨ w.WritesServer lib mcpsr ∧
        ∃ ns, s = namespaceName ns ∧ w.Attaches (Server.getTargetHTTPRoute mcpsr) ns := by
  unfold Cluster.WritesServer Cluster.newServers Cluster.reconcileServer
  rcases server_reconciled lib w mcpsr with h | ⟨cfg, nss, hname, hnss, h⟩
  · have hlog : (w.run (Server.reconcileActive lib mcpsr)).2.servers = w.servers :=
      congrArg (fun x => x.2.1) h
    have hconfigs : (w.run (Server.reconcileActive lib mcpsr)).2.configs = w.configs :=
      congrArg (fun x => x.1) h
    simp [Cluster.HoldsServer, hlog, hconfigs]
  · have hlog : (w.run (Server.reconcileActive lib mcpsr)).2.servers = (w.addServer cfg nss).servers :=
      congrArg (fun x => x.2.1) h
    have hconfigs : (w.run (Server.reconcileActive lib mcpsr)).2.configs = (w.addServer cfg nss).configs :=
      congrArg (fun x => x.1) h
    have hholds : (w.addServer cfg nss).HoldsServer cfg.name s ↔ _ := holdsServer_addServer
    unfold Cluster.HoldsServer at hholds ⊢
    rw [hconfigs, ← hname, hholds, hlog, servers_addServer]
    exact or_congr_right (mem_written hnss)

lemma holds_reconcileAgent (lib : Libraries) (a2areg : A2AAgentRegistration) (w : Cluster)
    (s : NamespacedName) : (w.reconcileAgent lib a2areg).HoldsAgent (a2aAgentName a2areg) s ↔
      w.HoldsAgent (a2aAgentName a2areg) s ∨ w.WritesAgent lib a2areg ∧
        ∃ ns, s = namespaceName ns ∧ w.Attaches (Agent.getTargetHTTPRoute a2areg) ns := by
  unfold Cluster.WritesAgent Cluster.newAgents Cluster.reconcileAgent
  rcases agent_reconciled lib w a2areg with h | ⟨cfg, nss, hname, hnss, h⟩
  · have hlog : (w.run (Agent.reconcileRoute lib a2areg)).2.agents = w.agents :=
      congrArg (fun x => x.2.2) h
    have hconfigs : (w.run (Agent.reconcileRoute lib a2areg)).2.configs = w.configs :=
      congrArg (fun x => x.1) h
    simp [Cluster.HoldsAgent, hlog, hconfigs]
  · have hlog : (w.run (Agent.reconcileRoute lib a2areg)).2.agents = (w.addAgent cfg nss).agents :=
      congrArg (fun x => x.2.2) h
    have hconfigs : (w.run (Agent.reconcileRoute lib a2areg)).2.configs = (w.addAgent cfg nss).configs :=
      congrArg (fun x => x.1) h
    have hholds : (w.addAgent cfg nss).HoldsAgent cfg.name s ↔ _ := holdsAgent_addAgent
    unfold Cluster.HoldsAgent at hholds ⊢
    rw [hconfigs, ← hname, hholds, hlog, agents_addAgent]
    exact or_congr_right (mem_written hnss)

/-- Over every run of cluster changes and reconciles of a registration that starts without its entry:
after a reconcile that has written the config, the secrets with the entry are exactly those of the
attached namespaces if and only if every namespace written for before is still attached. -/
theorem entries_exact_iff (lib : Libraries) (w : Cluster) (mcpsr : MCPServerRegistration)
    (a2areg : A2AAgentRegistration) (events : List Event) :
    ((∀ s, ¬ w.HoldsServer (mcpServerName mcpsr) s) →
      ∀ w₁, w₁ = runEvents (reconcileServer lib mcpsr) w events → w₁.WritesServer lib mcpsr →
      ((∀ s, (w₁.reconcileServer lib mcpsr).HoldsServer (mcpServerName mcpsr) s ↔
        ∃ ns, s = namespaceName ns ∧ w₁.Attaches (Server.getTargetHTTPRoute mcpsr) ns) ↔
      ∀ w' ∈ reconciledAt (reconcileServer lib mcpsr) w events, w'.WritesServer lib mcpsr →
        ∀ ns, w'.Attaches (Server.getTargetHTTPRoute mcpsr) ns →
          w₁.Attaches (Server.getTargetHTTPRoute mcpsr) ns)) ∧
    ((∀ s, ¬ w.HoldsAgent (a2aAgentName a2areg) s) →
      ∀ w₁, w₁ = runEvents (reconcileAgent lib a2areg) w events → w₁.WritesAgent lib a2areg →
      ((∀ s, (w₁.reconcileAgent lib a2areg).HoldsAgent (a2aAgentName a2areg) s ↔
        ∃ ns, s = namespaceName ns ∧ w₁.Attaches (Agent.getTargetHTTPRoute a2areg) ns) ↔
      ∀ w' ∈ reconciledAt (reconcileAgent lib a2areg) w events, w'.WritesAgent lib a2areg →
        ∀ ns, w'.Attaches (Agent.getTargetHTTPRoute a2areg) ns →
          w₁.Attaches (Agent.getTargetHTTPRoute a2areg) ns)) := by
  constructor
  · rintro hfresh w₁ rfl hwrote
    exact exact_iff (fun w => w.HoldsServer (mcpServerName mcpsr)) (fun _ _ _ => Iff.rfl)
      (holds_reconcileServer lib mcpsr) hfresh hwrote
  · rintro hfresh w₁ rfl hwrote
    exact exact_iff (fun w => w.HoldsAgent (a2aAgentName a2areg)) (fun _ _ _ => Iff.rfl)
      (holds_reconcileAgent lib a2areg) hfresh hwrote

/-- The route moves from one gateway to another; the entry stays where it was written first. -/
def movedCluster : Cluster :=
  runEvents (reconcileServer plainLibraries smallServer) (smallCluster ["one"])
    [.reconcile, .change (smallCluster ["two"]).objects]

theorem moved_leavesEntry :
    movedCluster.newServers (movedCluster.reconcileServer plainLibraries smallServer) =
        [namespaceName "two"] ∧
      ((movedCluster.reconcileServer plainLibraries smallServer).configs (namespaceName "one")).map
        (fun c => c.servers.map (·.name)) = some ["team/weather"] := by
  decide +kernel

/-- A run in which the route moves twice, in the end to both gateways. -/
def spreadEvents : List Event :=
  [.reconcile, .change (smallCluster ["two"]).objects, .reconcile, .change (smallCluster ["one", "two"]).objects]

theorem entries_exact_iff_spread : ∃ w₁, w₁ =
    runEvents (reconcileServer plainLibraries smallServer) (smallCluster ["one"]) spreadEvents ∧
    ((∀ s, (w₁.reconcileServer plainLibraries smallServer).HoldsServer (mcpServerName smallServer) s ↔
      ∃ ns, s = namespaceName ns ∧ w₁.Attaches (Server.getTargetHTTPRoute smallServer) ns) ↔
    ∀ w' ∈ reconciledAt (reconcileServer plainLibraries smallServer) (smallCluster ["one"]) spreadEvents,
      w'.WritesServer plainLibraries smallServer →
        ∀ ns, w'.Attaches (Server.getTargetHTTPRoute smallServer) ns →
          w₁.Attaches (Server.getTargetHTTPRoute smallServer) ns) := by
  refine ⟨_, rfl, (entries_exact_iff plainLibraries (smallCluster ["one"]) smallServer smallAgent
    spreadEvents).1 ?_ _ rfl ?_⟩
  · rintro s ⟨c, hc, -⟩
    cases hc
  · unfold Cluster.WritesServer
    decide +kernel

end McpGateway.Controller
