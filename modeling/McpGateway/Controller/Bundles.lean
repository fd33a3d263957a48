import McpGateway.Controller.Entries

/-!
# An entry and the CA bundles of other namespaces

The flag that a gateway has a CA bundle is one for all attached extensions, so the bundle of one namespace
can upgrade the URL of the entry that is written for another (`entry_own_iff`).
-/

namespace McpGateway.Controller

open Go Effect Kubernetes Cluster Agent Server Attached

variable {w : Cluster} {lib : Libraries} {route : HTTPRoute} {gs : List Gateway} {att : Attached}
  {mcpsr : MCPServerRegistration} {a2areg : A2AAgentRegistration} {exts : List MCPGatewayExtension}

/-! ## The flag -/

/-- A valid extension of one of the gateways, on a listener that the route attaches to. -/
def Cluster.AttachedExt (w : Cluster) (route : HTTPRoute) (gs : List Gateway)
    (e : MCPGatewayExtension) : Prop :=
  ∃ g ∈ gs, e ∈ w.validExts g ∧ httpRouteAttachesToListener route g e = true

/-- The attached extensions have a CA bundle all or none. -/
def Cluster.BundlesAgree (w : Cluster) (route : HTTPRoute) (gs : List Gateway) : Prop :=
  ∀ e e', w.AttachedExt route gs e → w.AttachedExt route gs e' →
    e.spec.caCertBundleRef.isSome = e'.spec.caCertBundleRef.isSome

lemma bundle_addAll {g : Gateway} :
    (att.addAll route g exts).hasGatewayCACertBundle = true ↔ att.hasGatewayCACertBundle = true ∨
    ∃ e ∈ exts, httpRouteAttachesToListener route g e = true ∧ e.spec.caCertBundleRef.isSome = true := by
  induction exts generalizing att with
  | nil => simp [addAll]
  | cons e rest ih =>
    refine (ih : ((att.add route g e).addAll route g rest).hasGatewayCACertBundle = true ↔ _).trans ?_
    by_cases h : httpRouteAttachesToListener route g e = true <;> simp [add, h, or_assoc]

lemma bundle_attached : (w.attached route att gs).hasGatewayCACertBundle = true ↔
    att.hasGatewayCACertBundle = true ∨
      ∃ e, w.AttachedExt route gs e ∧ e.spec.caCertBundleRef.isSome = true := by
  induction gs generalizing att with
  | nil => simp [attached, Cluster.AttachedExt]
  | cons g rest ih =>
    refine (ih : (w.attached route (att.addAll route g (w.validExts g)) rest).hasGatewayCACertBundle =
      true ↔ _).trans ?_
    rw [bundle_addAll, or_assoc]
    refine or_congr_right ⟨?_, ?_⟩
    · rintro (⟨e, he, hat, hb⟩ | ⟨e, ⟨g', hg', he⟩, hb⟩)
      · exact ⟨e, ⟨g, mem_cons_self, he, hat⟩, hb⟩
      · exact ⟨e, ⟨g', mem_cons_of_mem _ hg', he⟩, hb⟩
    · rintro ⟨e, ⟨g', hg', he⟩, hb⟩
      rcases mem_cons.1 hg' with rfl | hg'
      · exact .inl ⟨e, he.1, he.2, hb⟩
      · exact .inr ⟨e, ⟨g', hg', he⟩, hb⟩

/-- What is computed from the one flag for all is each extension's own exactly if the flag does not
matter or the extensions agree. -/
lemma flag_own_iff {α : Type} {f : Bool → α} :
    (∀ e, w.AttachedExt route gs e →
      f (w.attached route {} gs).hasGatewayCACertBundle = f e.spec.caCertBundleRef.isSome) ↔
      f true = f false ∨ w.BundlesAgree route gs := by
  have hflag : (w.attached route {} gs).hasGatewayCACertBundle = true ↔
      ∃ e, w.AttachedExt route gs e ∧ e.spec.caCertBundleRef.isSome = true :=
    bundle_attached.trans (by simp)
  constructor
  · intro h
    by_contra hno
    rw [not_or] at hno
    obtain ⟨hf, hagree⟩ := hno
    simp only [Cluster.BundlesAgree, not_forall] at hagree
    obtain ⟨e, e', he, he', hne⟩ := hagree
    -- one of the two has a bundle, which sets the flag for the other
    rcases hb : e.spec.caCertBundleRef.isSome with _ | _ <;>
      rcases hb' : e'.spec.caCertBundleRef.isSome with _ | _
    · exact hne (hb.trans hb'.symm)
    · have := h e he
      rw [hflag.2 ⟨e', he', hb'⟩, hb] at this
      exact hf this
    · have := h e' he'
      rw [hflag.2 ⟨e, he, hb⟩, hb'] at this
      exact hf this
    · exact hne (hb.trans hb'.symm)
  · rintro (hf | hagree) e he
    · cases (w.attached route {} gs).hasGatewayCACertBundle <;> cases e.spec.caCertBundleRef.isSome <;>
        simp [hf]
    · congr 1
      refine Bool.eq_iff_iff.2 (hflag.trans ⟨?_, fun hb => ⟨e, he, hb⟩⟩)
      rintro ⟨e', he', hb'⟩
      rw [hagree e e' he he', hb']

lemma run_orFail {α β : Type} {Q : Except Err α → Prop} {p : Ctl (Except Err α)}
    {next : α → Ctl (Except Err β)} (hp : p.Ensures ReadOp Q) :
    (w.run (orFail p next)).1 = (w.run p).1.bind fun a => (w.run (next a)).1 := by
  rw [orFail, run_bind, (run_of_read hp).1]
  cases (w.run p).1 <;> rfl

/-- Without a CA of its own, the flag upgrades the endpoint and changes nothing else. -/
lemma upstream_flag {ns path : String} {cred : Option SecretReference} {u : Upstream}
    (h : (w.run (buildUpstream lib route ns path cred none false)).1 = .ok u) :
    (w.run (buildUpstream lib route ns path cred none true)).1 =
      (secureEndpoint lib u.endpoint true).map fun ep => { u with endpoint := ep } := by
  have hrun : ∀ b, (w.run (buildUpstream lib route ns path cred none b)).1 =
      (w.run (buildServerInfoFromHTTPRoute route path)).1.bind fun info =>
        (secureEndpoint lib info.endpoint b).bind fun ep =>
          (w.run (readReferenced readLabeledCredential ns cred)).1.bind fun credential =>
            .ok ⟨ep, info.hostname, credential, ""⟩ := by
    intro b
    unfold buildUpstream
    rw [run_orFail reads_buildServerInfo]
    congr 1
    funext info
    rw [run_orFail (show Prog.Ensures (S := kube) ReadOp (fun _ => True)
      (pure (secureEndpoint lib info.endpoint (Option.isSome none || b))) from trivial)]
    congr 1
    funext ep
    have hread : (readReferenced readLabeledCredential ns cred).Ensures ReadOp
        fun r => ∀ a, r = .ok a → True := reads_readReferenced fun _ _ _ => reads_readLabelled
    rw [run_orFail hread]
    rfl
  rw [hrun] at h ⊢
  cases hinfo : (w.run (buildServerInfoFromHTTPRoute route path)).1 with
  | error e => simp [hinfo, Except.bind] at h
  | ok info =>
    cases hcred : (w.run (readReferenced readLabeledCredential ns cred)).1 with
    | error e => simp [hinfo, hcred, Except.bind, secureEndpoint] at h
    | ok credential =>
      simp only [hinfo, hcred, Except.bind, secureEndpoint, false_eq_true, if_false,
        Except.ok.injEq] at h
      subst h
      simp only [Except.bind]
      cases secureEndpoint lib info.endpoint true <;> rfl

/-- The flag does not change the entry that is written: it has its own CA, or its URL needs no upgrade or
cannot have one, and then nothing is written. -/
lemma entry_flag_iff {γ : Type} {mk : Upstream → γ} {url : γ → String} {f : Bool → Except Err γ}
    {ns path : String} {cred ca : Option SecretReference} {c : γ}
    (hf : ∀ b, f b = (w.run (buildUpstream lib route ns path cred ca b)).1.map mk)
    (hurl : ∀ u, url (mk u) = u.endpoint)
    (hupd : ∀ u ep, mk { u with endpoint := ep } = mk u ↔ ep = u.endpoint)
    (h : f false = .ok c) : (∀ c', f true = .ok c' → c' = c) ↔
      ca.isSome = true ∨ ∀ ep, secureEndpoint lib (url c) true = .ok ep → ep = url c := by
  rw [hf] at h
  rw [hf]
  cases ca with
  | some ca =>
    have hsame : buildUpstream lib route ns path cred (some ca) true =
        buildUpstream lib route ns path cred (some ca) false := by simp [buildUpstream]
    simp [hsame, h]
  | none =>
    cases hu : (w.run (buildUpstream lib route ns path cred none false)).1 with
    | error e => simp [hu, Except.map] at h
    | ok u =>
      have hc : mk u = c := by simpa [hu, Except.map] using h
      rw [upstream_flag hu, ← hc, hurl]
      cases hs : secureEndpoint lib u.endpoint true with
      | error e => simp [Except.map]
      | ok ep => simp [Except.map, hupd]

lemma run_buildServer (hdel : mcpsr.deletionTimestamp = none) (b : Bool) :
    (w.run (buildMCPServerConfig lib route mcpsr b)).1 =
      (w.run (buildUpstream lib route mcpsr.ns mcpsr.spec.path mcpsr.spec.credentialRef
        mcpsr.spec.caCertSecretRef b)).1.map fun u =>
          { name := mcpServerName mcpsr, url := u.endpoint, hostname := u.hostname,
            namePrefix := mcpsr.spec.namePrefix, state := mcpsr.spec.state,
            category := mcpsr.spec.category, hint := mcpsr.spec.hint,
            userSpecificList := mcpsr.spec.userSpecificList = userSpecificListEnabled,
            tags := mcpsr.spec.tags, tokenURLElicitation := mcpsr.spec.tokenURLElicitation,
            credential := u.credential, caCert := u.caCert } := by
  simp only [buildMCPServerConfig, hdel, Option.isSome_none, false_eq_true, if_false]
  rw [run_orFail reads_buildUpstream]
  cases (w.run (buildUpstream _ _ _ _ _ _ b)).1 <;> rfl

lemma run_buildAgent (hdel : a2areg.deletionTimestamp = none) (b : Bool) :
    (w.run (buildA2AAgentConfig lib route a2areg b)).1 =
      (w.run (buildUpstream lib route a2areg.ns "" a2areg.spec.credentialRef
        a2areg.spec.caCertSecretRef b)).1.map fun u =>
          { name := a2aAgentName a2areg, url := u.endpoint, hostname := u.hostname,
            agentPrefix := a2areg.spec.agentPrefix, agentCardURL := a2areg.spec.agentCardURL,
            state := a2areg.spec.state, credential := u.credential, caCert := u.caCert } := by
  simp only [buildA2AAgentConfig, hdel, Option.isSome_none, false_eq_true, if_false]
  rw [run_orFail reads_buildUpstream]
  cases (w.run (buildUpstream _ _ _ _ _ _ b)).1 <;> rfl

/-! ## The entries that are written -/

/-- The entries that were written on the way from one cluster to another, with the secrets. -/
def Cluster.serverEntries (w w' : Cluster) : List (NamespacedName × Config.MCPServer) :=
  w'.servers.drop w.servers.length

def Cluster.agentEntries (w w' : Cluster) : List (NamespacedName × Config.A2AAgent) :=
  w'.agents.drop w.agents.length

/-- The entries that a reconcile has written for an attached extension are those that are written with
this extension as the only one that the loop has collected. -/
def OwnEntries {T : Type} (w : Cluster) (route : HTTPRoute) (gs : List Gateway)
    (entries : Cluster → List (NamespacedName × T)) (reconcile : Ctl Reconciled)
    (write : Attached → Ctl Reconciled) : Prop :=
  ∀ g ∈ gs, ∀ e ∈ w.validExts g, httpRouteAttachesToListener route g e = true →
    ∀ entry, (namespaceName e.ns, entry) ∈ entries (w.run reconcile).2 →
      (namespaceName e.ns, entry) ∈ entries (w.run (write (({} : Attached).addAll route g [e]))).2

variable {γ : Type} {f : Bool → Except Err γ} {entries : Cluster → List (NamespacedName × γ)}
  {reconcile : Ctl Reconciled} {write : Attached → Ctl Reconciled}

/-- What `writeConfig` writes for the collected extensions: the entry that the flag gives, for each of
the namespaces. -/
def WritesBy (w : Cluster) (entries : Cluster → List (NamespacedName × γ)) (f : Bool → Except Err γ)
    (write : Attached → Ctl Reconciled) : Prop :=
  ∀ att : Attached, entries (w.run (write att)).2 = match f att.hasGatewayCACertBundle with
    | .ok cfg => att.validNamespaces.map fun ns => (namespaceName ns, cfg)
    | .error _ => []

lemma mem_writesBy (h : WritesBy w entries f write) {ns : String} {entry : γ} :
    (namespaceName ns, entry) ∈ entries (w.run (write att)).2 ↔
      f att.hasGatewayCACertBundle = .ok entry ∧ ns ∈ att.validNamespaces := by
  rw [h att]
  cases f att.hasGatewayCACertBundle with
  | error e => simp
  | ok cfg => simp [namespaceName_inj, and_comm, eq_comm]

lemma ownEntries_iff (hwrite : WritesBy w entries f write)
    (hrun : w.run reconcile = w.run (write (w.attached route {} gs))) {c : γ} (hc : f false = .ok c) :
    OwnEntries w route gs entries reconcile write ↔
      (∀ c', f true = .ok c' → c' = c) ∨ w.BundlesAgree route gs := by
  have halone : ∀ {g e}, httpRouteAttachesToListener route g e = true → ∀ entry : γ,
      (namespaceName e.ns, entry) ∈ entries (w.run (write (({} : Attached).addAll route g [e]))).2 ↔
        f e.spec.caCertBundleRef.isSome = .ok entry := by
    intro g e hat entry
    rw [mem_writesBy hwrite]
    simp [addAll, add, hat]
  have hown : OwnEntries w route gs entries reconcile write ↔ ∀ entry,
      f (w.attached route {} gs).hasGatewayCACertBundle = .ok entry → ∀ e, w.AttachedExt route gs e →
        f e.spec.caCertBundleRef.isSome = .ok entry := by
    unfold OwnEntries
    rw [hrun]
    simp only [mem_writesBy hwrite]
    constructor
    · rintro h entry hentry e ⟨g, hg, he, hat⟩
      refine (halone hat entry).1 ((mem_writesBy hwrite).2 (h g hg e he hat entry ⟨hentry, ?_⟩))
      exact mem_attached.2 (.inr ⟨g, hg, e, he, hat, rfl⟩)
    · rintro h g hg e he hat entry ⟨hentry, -⟩
      exact (mem_writesBy hwrite).1 ((halone hat entry).2 (h entry hentry e ⟨g, hg, he, hat⟩))
  rw [hown]
  cases htrue : f true with
  | error err =>
    -- with the flag nothing can be written, and without it no extension has a bundle
    refine iff_of_true (fun entry hentry e he => ?_) (.inl fun c' hc' => by cases hc')
    cases hb : e.spec.caCertBundleRef.isSome with
    | true =>
      rw [bundle_attached.2 (.inr ⟨e, he, hb⟩), htrue] at hentry
      cases hentry
    | false =>
      cases hflag : (w.attached route {} gs).hasGatewayCACertBundle with
      | true =>
        rw [hflag, htrue] at hentry
        cases hentry
      | false => rwa [hflag] at hentry
  | ok c' =>
    have hok : ∀ b, ∃ c, f b = .ok c := fun b => by cases b <;> simp [htrue, hc]
    have hsame : (∀ d, (Except.ok c' : Except Err γ) = .ok d → d = c) ↔ f true = f false := by
      simp [htrue, hc]
    rw [hsame, ← flag_own_iff]
    constructor
    · intro h e he
      obtain ⟨d, hd⟩ := hok (w.attached route {} gs).hasGatewayCACertBundle
      rw [hd, h d hd e he]
    · intro h entry hentry e he
      rw [← h e he, hentry]

lemma server_writesBy (lib : Libraries) (w : Cluster) (route : HTTPRoute) (mcpsr : MCPServerRegistration) :
    WritesBy w w.serverEntries (fun b => (w.run (Server.buildMCPServerConfig lib route mcpsr b)).1)
      (Server.writeConfig lib route mcpsr) := by
  intro att
  have hlog := congrArg (fun x => x.2.1) (written_serverConfig (w := w) lib route mcpsr att)
  unfold Cluster.serverEntries
  rw [show (w.run (Server.writeConfig lib route mcpsr att)).2.servers = _ from hlog]
  dsimp only
  cases (w.run (Server.buildMCPServerConfig lib route mcpsr att.hasGatewayCACertBundle)).1 with
  | error e => simp [Cluster.written]
  | ok cfg =>
    rw [show (Cluster.written _).2.1 = _ from servers_addServer]
    simp

lemma agent_writesBy (lib : Libraries) (w : Cluster) (route : HTTPRoute) (a2areg : A2AAgentRegistration) :
    WritesBy w w.agentEntries (fun b => (w.run (Agent.buildA2AAgentConfig lib route a2areg b)).1)
      (Agent.writeConfig lib route a2areg) := by
  intro att
  have hlog := congrArg (fun x => x.2.2) (written_agentConfig (w := w) lib route a2areg att)
  unfold Cluster.agentEntries
  rw [show (w.run (Agent.writeConfig lib route a2areg att)).2.agents = _ from hlog]
  dsimp only
  cases (w.run (Agent.buildA2AAgentConfig lib route a2areg att.hasGatewayCACertBundle)).1 with
  | error e => simp [Cluster.written]
  | ok cfg =>
    rw [show (Cluster.written _).2.2 = _ from agents_addAgent]
    simp

/-- The entries that a reconcile writes for the attached extensions are each extension's own exactly if
the loop ends early (servers only), the registration has its own CA, the URL without any bundle is not
upgraded, or the extensions agree on having a bundle.  `server` and `agent` are the entries without any
bundle. -/
theorem entry_own_iff (lib : Libraries) (w : Cluster) (route : HTTPRoute) (gs : List Gateway)
    (mcpsr : MCPServerRegistration) (a2areg : A2AAgentRegistration) (server : Config.MCPServer)
    (agent : Config.A2AAgent) (hne : gs ≠ [])
    (hs : mcpsr.deletionTimestamp = none) (ha : a2areg.deletionTimestamp = none)
    (hserverTargets : w.Targets (Server.getTargetHTTPRoute mcpsr) route gs)
    (hagentTargets : w.Targets (Agent.getTargetHTTPRoute a2areg) route gs)
    (hserver : (w.run (Server.buildMCPServerConfig lib route mcpsr false)).1 = .ok server)
    (hagent : (w.run (Agent.buildA2AAgentConfig lib route a2areg false)).1 = .ok agent) :
    (OwnEntries w route gs w.serverEntries (Server.reconcileActive lib mcpsr)
        (Server.writeConfig lib route mcpsr) ↔
      (∃ g ∈ gs, w.validExts g = []) ∨ (mcpsr.spec.caCertSecretRef.isSome = true ∨
        ∀ ep, secureEndpoint lib server.url true = .ok ep → ep = server.url) ∨
          w.BundlesAgree route gs) ∧
    (OwnEntries w route gs w.agentEntries (Agent.reconcileRoute lib a2areg)
        (Agent.writeConfig lib route a2areg) ↔
      (a2areg.spec.caCertSecretRef.isSome = true ∨
        ∀ ep, secureEndpoint lib agent.url true = .ok ep → ep = agent.url) ∨
          w.BundlesAgree route gs) := by
  constructor
  · by_cases hall : ∀ g ∈ gs, w.validExts g ≠ []
    · have hexit : ¬ ∃ g ∈ gs, w.validExts g = [] := by simpa using hall
      rw [or_iff_right hexit, ← entry_flag_iff (run_buildServer hs) (fun _ => rfl) (by simp) hserver]
      refine ownEntries_iff (server_writesBy lib w route mcpsr) ?_ hserver
      rw [run_serverActive hserverTargets hne, run_serverLoop hall]
    · -- the loop ends early, and nothing is written
      have hexit : ∃ g ∈ gs, w.validExts g = [] := by simpa using hall
      refine iff_of_true (fun g _ e _ _ entry hentry => ?_) (.inl hexit)
      have hlog : (w.run (Server.reconcileActive lib mcpsr)).2.servers = w.servers := by
        rw [run_serverActive hserverTargets hne]
        exact congrArg (fun x => x.2.1) (written_serverLoop hexit)
      simp [Cluster.serverEntries, hlog] at hentry
  · rw [← entry_flag_iff (run_buildAgent ha) (fun _ => rfl) (by simp) hagent]
    refine ownEntries_iff (agent_writesBy lib w route a2areg) ?_ hagent
    rw [run_agentActive hagentTargets hne, run_agentLoop]

/-- The bundle of `two` upgrades the entry that is written for `one`; attached alone, `one` gets the plain
entry. -/
theorem otherBundle_upgrades :
    (((smallCluster ["one", "two"]).reconcileServer plainLibraries smallServer).configs
        (namespaceName "one")).map (fun c => c.servers.map (·.url)) =
        some ["https://svc.team.svc.cluster.local:80"] ∧
      (((smallCluster ["one"]).reconcileServer plainLibraries smallServer).configs
        (namespaceName "one")).map (·.servers) = some [plainServer] := by
  decide +kernel

/-- With a gateway that has no extension no server is written, so the bundle of `two` changes nothing. -/
theorem entry_own_iff_bare : OwnEntries (smallCluster ["bare", "one", "two"])
      (smallRoute ["bare", "one", "two"]) (["bare", "one", "two"].map smallGateway)
      (smallCluster ["bare", "one", "two"]).serverEntries (Server.reconcileActive plainLibraries smallServer)
      (Server.writeConfig plainLibraries (smallRoute ["bare", "one", "two"]) smallServer) := by
  refine (entry_own_iff plainLibraries (smallCluster ["bare", "one", "two"])
    (smallRoute ["bare", "one", "two"]) (["bare", "one", "two"].map smallGateway) smallServer smallAgent
    plainServer plainAgent (by simp) rfl rfl ⟨rfl, rfl⟩ ⟨rfl, rfl⟩ (by decide +kernel) (by decide +kernel)).1.2 (.inl ?_)
  exact ⟨smallGateway "bare", by simp, rfl⟩

end McpGateway.Controller
