import McpGateway.Broker.Reload
import McpGateway.Upstream.Acts

/-!
# What a reload does to the managers

A reload takes out the managers whose servers were removed or changed, stops them, and starts managers
for the servers without one.
-/

namespace McpGateway.Broker

open Go Config Upstream TraceM MCPBroker

/-! ## What a manager was built from -/

structure Build where
  config : MCPServer
  gatewayCACertPEM : String
  instanceNo : Nat
  deriving DecidableEq, Repr

def ActiveMCPServer.build (a : ActiveMCPServer) : Build :=
  ⟨a.config, a.gatewayCACertPEM, a.instanceNo⟩

def MCPBroker.build (b : MCPBroker) (id : String) : Option Build :=
  (b.mcpServers.lookup id).map ActiveMCPServer.build

def stale (caChanged : Bool) (s : MCPServer) (x : Build) : Bool :=
  (caChanged && hasPrefix s.url "https://") || s.configChanged x.config

section Phases

variable {b : MCPBroker} {servers : List MCPServer} {id : String} {x : Build}
  {man : ActiveMCPServer}

lemma lookup_dropRemoved {pairs : List (String × ActiveMCPServer)} {acc : Partition} : (pairs.foldl (dropRemoved servers) acc).1.lookup id = some man ↔
    acc.1.lookup id = some man ∧ ∀ e ∈ pairs, e.1 = id → ∃ s ∈ servers, s.id = id := by
  induction pairs generalizing acc with
  | nil => simp
  | cons e pairs ih =>
    rw [foldl_cons, ih, dropRemoved]
    split_ifs with hany
    · have hhead : e.1 = id → ∃ s ∈ servers, s.id = id := by
        rintro rfl
        simpa using hany
      simp only [forall_mem_cons]
      tauto
    · simp only [forall_mem_cons, lookup_erase]
      have hhead : ¬ ∃ s ∈ servers, s.id = e.1 := by simpa using hany
      by_cases hid : id = e.1
      · subst hid
        simp [hhead]
      · simp [hid, Ne.symm hid]

lemma lookup_dropChanged {caChanged : Bool} {acc : Partition} :
    (servers.foldl (dropChanged caChanged) acc).1.lookup id = some man ↔ acc.1.lookup id = some man ∧
    ∀ s ∈ servers, s.id = id → stale caChanged s man.build = false := by
  induction servers generalizing acc with
  | nil => simp
  | cons s servers ih =>
    rw [foldl_cons, ih, forall_mem_cons]
    unfold dropChanged
    cases hman : acc.1.lookup s.id with
    | none =>
      by_cases hid : s.id = id
      · subst hid
        simp [hman]
      · simp [hid]
    | some man' =>
      by_cases hid : s.id = id
      · subst hid
        dsimp only
        split_ifs with hstale
        · have hstale' : stale caChanged s man'.build = true := hstale
          simp only [lookup_erase, if_true, hman, Option.some.injEq]
          constructor
          · rintro ⟨hnone, -⟩
            cases hnone
          · rintro ⟨rfl, hfalse, -⟩
            rw [hfalse trivial] at hstale'
            cases hstale'
        · have hstale' : stale caChanged s man'.build = false :=
            Bool.eq_false_of_not_eq_true hstale
          simp only [hman, Option.some.injEq]
          constructor
          · rintro ⟨rfl, hrest⟩
            exact ⟨rfl, fun _ => hstale', hrest⟩
          · rintro ⟨rfl, -, hrest⟩
            exact ⟨rfl, hrest⟩
      · dsimp only
        split_ifs
        · simp [hid, Ne.symm hid]
        · simp [hid]

lemma build_deregister {ca : String} : ((deregisterStaleManagers servers ca).final b).build id = some x ↔
    b.build id = some x ∧ (∃ s ∈ servers, s.id = id) ∧ ∀ s ∈ servers, s.id = id →
    stale (b.gatewayCACertPEM ≠ ca) s x = false := by
  have hservers : ((deregisterStaleManagers servers ca).final b).mcpServers =
      (servers.foldl (dropChanged (b.gatewayCACertPEM ≠ ca))
        (b.mcpServers.pairs.foldl (dropRemoved servers) (b.mcpServers, []))).1 := rfl
  unfold build
  rw [hservers]
  simp only [map_eq_some_iff, lookup_dropChanged, lookup_dropRemoved]
  constructor
  · rintro ⟨man, ⟨⟨hman, hremoved⟩, hchanged⟩, rfl⟩
    exact ⟨⟨man, hman, rfl⟩, hremoved (id, man) (mem_pairs_iff.2 hman) rfl, hchanged⟩
  · rintro ⟨⟨man, hman, rfl⟩, hconfigured, hchanged⟩
    exact ⟨man, ⟨⟨hman, fun _ _ _ => hconfigured⟩, hchanged⟩, rfl⟩

lemma ca_deregister (b : MCPBroker) (servers : List MCPServer) (ca : String) :
    ((deregisterStaleManagers servers ca).final b).gatewayCACertPEM = ca := rfl

lemma config_stopped (a : ActiveMCPServer) : a.stopped.config = a.config := by
  have hprompts := (Act.move a.manager .dropPrompts).setup.config
  have htools := (Act.move a.manager.removeAllPrompts.1 .dropTools).setup.config
  exact htools.trans hprompts

/-- Stopping a manager changes neither what any was built from nor what the broker derives from the
configuration. -/
lemma final_stopManager (e : String × ActiveMCPServer) (b : MCPBroker) :
    ∃ managers t, (stopManager e).final b = { b with mcpServers := managers, cachedTable := t } ∧
      ∀ id, ((stopManager e).final b).build id = b.build id := by
  cases hman : b.mcpServers.lookup e.1 with
  | none =>
    have hfinal : ∃ t, (stopManager e).final b = { b with cachedTable := t } := by
      unfold stopManager
      simp only [final_bind, final_emit, final_modify, hman]
      split_ifs
      · exact ⟨b.cachedTable, rfl⟩
      · exact ⟨_, rfl⟩
    rcases hfinal with ⟨t, hfinal⟩
    rw [hfinal]
    exact ⟨b.mcpServers, t, rfl, fun _ => rfl⟩
  | some man =>
    -- the goroutine of a manager that is still in the map empties its lists
    have hfinal : ∃ t, (stopManager e).final b =
        { b with mcpServers := AList.insert e.1 man.stopped b.mcpServers, cachedTable := t } := by
      unfold stopManager
      simp only [final_bind, final_emit, final_modify, hman]
      split_ifs
      · exact ⟨b.cachedTable, rfl⟩
      · exact ⟨_, rfl⟩
    rcases hfinal with ⟨t, hfinal⟩
    rw [hfinal]
    refine ⟨_, t, rfl, ?_⟩
    intro id
    unfold build
    dsimp only
    rw [lookup_insert]
    split_ifs with hid
    · rw [hid, hman, Option.map_some, Option.map_some, ActiveMCPServer.build, config_stopped]
      rfl
    · rfl

lemma build_addMissing (servers : List MCPServer) (b : MCPBroker) :
    (∀ id x, b.build id = some x → (servers.foldl addMissing b).build id = some x) ∧
      (∀ id x, (servers.foldl addMissing b).build id = some x → b.build id = some x ∨
        ∃ s ∈ servers, s.id = id ∧ x.config = s ∧ x.gatewayCACertPEM = b.gatewayCACertPEM) ∧
      ∀ s ∈ servers, ((servers.foldl addMissing b).build s.id).isSome := by
  induction servers generalizing b with
  | nil => exact ⟨fun _ _ h => h, fun _ _ h => .inl h, fun s hs => absurd hs not_mem_nil⟩
  | cons s servers ih =>
    rcases ih (addMissing b s) with ⟨hkept, hfrom, hall⟩
    -- the same for one server
    have hone : (∀ id x, b.build id = some x → (addMissing b s).build id = some x) ∧
        (∀ id x, (addMissing b s).build id = some x → b.build id = some x ∨
          (s.id = id ∧ x.config = s ∧ x.gatewayCACertPEM = b.gatewayCACertPEM)) ∧
        ((addMissing b s).build s.id).isSome ∧
        (addMissing b s).gatewayCACertPEM = b.gatewayCACertPEM := by
      unfold addMissing
      cases hman : b.mcpServers.lookup s.id with
      | some man =>
        refine ⟨fun _ _ h => h, fun _ _ h => .inl h, ?_, rfl⟩
        simp [build, hman]
      | none =>
        refine ⟨?_, ?_, ?_, rfl⟩
        · intro id x hx
          have hne : id ≠ s.id := by
            rintro rfl
            simp [build, hman] at hx
          simpa [build, hne] using hx
        · intro id x hx
          by_cases hid : id = s.id
          · subst hid
            simp only [build, AList.lookup_insert, Option.map_some, Option.some.injEq] at hx
            subst hx
            exact .inr ⟨rfl, rfl, rfl⟩
          · refine .inl ?_
            simpa [build, hid] using hx
        · simp [build]
    rcases hone with ⟨hkept₁, hfrom₁, hsome₁, hca₁⟩
    refine ⟨fun id x hx => hkept id x (hkept₁ id x hx), ?_, ?_⟩
    · intro id x hx
      rcases hfrom id x hx with hbefore | ⟨s', hs', hnew⟩
      · rcases hfrom₁ id x hbefore with hold | hnew
        · exact .inl hold
        · exact .inr ⟨s, mem_cons_self, hnew⟩
      · rw [hca₁] at hnew
        exact .inr ⟨s', mem_cons_of_mem s hs', hnew⟩
    · intro s' hs'
      rcases mem_cons.1 hs' with rfl | hrest
      · rcases isSome_iff_exists.1 hsome₁ with ⟨x, hx⟩
        have hlast := hkept s'.id x hx
        rw [foldl_cons, hlast]
        rfl
      · exact hall s' hrest

lemma final_startManagers {virtualServers : List VirtualServer} (htags : hasTags servers = false)
    (hregistered : b.tagsToolsRegistered = false) :
    ∃ t, (startManagers servers virtualServers).final b = { servers.foldl addMissing b with
        userSpecificServers := (servers.filter fun s => s.userSpecificList).map fun s =>
          { id := s.id, name := s.name, url := s.url, namePrefix := s.namePrefix }
        virtualServers := GoMap.ofPairs (virtualServers.map fun vs => (vs.name, vs))
        cachedTable := t } := by
  have hflag : (servers.foldl addMissing b).tagsToolsRegistered = false := by
    rcases foldl_addMissing_eq servers b with ⟨managers, n, heq⟩
    rw [heq]
    exact hregistered
  simp only [startManagers, withLock, final_bracket, final_bind, final_modify,
    syncTagsTools, result_gets, final_gets, hflag, htags, Bool.false_and,
    Bool.and_false, false_eq_true, if_false, Bool.not_false, final_pure,
    refreshRoutingTable]
  exact ⟨_, rfl⟩

end Phases

/-! ## What a configuration asks for -/

/-- What a call of `OnConfigChange` reads of the configuration. -/
structure Snapshot where
  servers : List MCPServer
  virtualServers : List VirtualServer
  gatewayCACertPEM : String

def snapshotOf (conf : MCPServersConfig) : Snapshot :=
  ⟨conf.servers, conf.virtualServers, conf.gatewayCACertPEM⟩

def admissible (servers : List MCPServer) : Bool :=
  (servers.map MCPServer.id).Nodup && !hasTags servers

/-- Whatever is reached over TLS was built with the broker's CA bundle, and the tag tools are not
registered. -/
structure MCPBroker.Sane (b : MCPBroker) : Prop where
  trusted : ∀ id x, b.build id = some x → hasPrefix x.config.url "https://" = true →
    x.gatewayCACertPEM = b.gatewayCACertPEM
  untagged : b.tagsToolsRegistered = false

/-- The managers that are left fit the snapshot. -/
structure Deregistered (b : MCPBroker) (snap : Snapshot) : Prop where
  configured : ∀ id x, b.build id = some x → ∃ s ∈ snap.servers, s.id = id
  same : ∀ s ∈ snap.servers, ∀ x, b.build s.id = some x → s.Same x.config
  ca : b.gatewayCACertPEM = snap.gatewayCACertPEM

/-- The broker runs what the snapshot of the configuration says. -/
structure Reflects (b : MCPBroker) (snap : Snapshot) : Prop where
  registered : ∀ id, (b.build id).isSome ↔ ∃ s ∈ snap.servers, s.id = id
  same : ∀ s ∈ snap.servers, ∀ x, b.build s.id = some x → s.Same x.config
  trusted : ∀ id x, b.build id = some x → hasPrefix x.config.url "https://" = true →
    x.gatewayCACertPEM = snap.gatewayCACertPEM
  virtualServers : ∀ name, b.virtualServers.lookup name =
    (snap.virtualServers.filter fun vs => vs.name = name).getLast?
  userSpecificServers : b.userSpecificServers =
    (snap.servers.filter fun s => s.userSpecificList).map fun s =>
      { id := s.id, name := s.name, url := s.url, namePrefix := s.namePrefix }

section Asked

variable {b b' : MCPBroker} {snap : Snapshot}

lemma stale_eq_false {caChanged : Bool} {s : MCPServer} {x : Build} : stale caChanged s x = false ↔
      (caChanged = true → hasPrefix s.url "https://" = false) ∧ s.Same x.config := by
  rw [stale, Bool.or_eq_false_iff, MCPServer.configChanged_eq_false]
  cases caChanged <;> simp

lemma MCPBroker.Sane.deregister (h : b.Sane) (servers : List MCPServer) (ca : String) :
    ((deregisterStaleManagers servers ca).final b).Sane where
  trusted id x hx htls := by
    rcases build_deregister.1 hx with ⟨hold, ⟨s, hs, hid⟩, hfresh⟩
    rcases stale_eq_false.1 (hfresh s hs hid) with ⟨hca, hsame⟩
    rw [hsame.url_eq] at htls
    -- had the bundle changed, the manager would have been taken out
    have hsame_ca : b.gatewayCACertPEM = ca := by
      by_contra hne
      rw [hca (by simpa using hne)] at htls
      cases htls
    rw [ca_deregister, ← hsame_ca]
    exact h.trusted id x hold (by rw [hsame.url_eq]; exact htls)
  untagged := h.untagged

lemma deregistered_deregister (b : MCPBroker) (snap : Snapshot) :
    Deregistered ((deregisterStaleManagers snap.servers snap.gatewayCACertPEM).final b) snap where
  configured _ _ hx := (build_deregister.1 hx).2.1
  same s hs _ hx := (stale_eq_false.1 ((build_deregister.1 hx).2.2 s hs rfl)).2
  ca := ca_deregister _ _ _

lemma MCPBroker.Sane.frame (h : b.Sane) (hbuild : ∀ id, b'.build id = b.build id)
    (hca : b'.gatewayCACertPEM = b.gatewayCACertPEM)
    (htags : b'.tagsToolsRegistered = b.tagsToolsRegistered) : b'.Sane where
  trusted id x hx htls := by
    rw [hbuild] at hx
    rw [hca]
    exact h.trusted id x hx htls
  untagged := htags.trans h.untagged

lemma Deregistered.frame (h : Deregistered b snap) (hbuild : ∀ id, b'.build id = b.build id)
    (hca : b'.gatewayCACertPEM = b.gatewayCACertPEM) : Deregistered b' snap where
  configured id x hx := h.configured id x (by rwa [hbuild] at hx)
  same s hs x hx := h.same s hs x (by rwa [hbuild] at hx)
  ca := hca.trans h.ca

lemma Reflects.frame (h : Reflects b snap) (hbuild : ∀ id, b'.build id = b.build id)
    (hvirtual : b'.virtualServers = b.virtualServers)
    (huser : b'.userSpecificServers = b.userSpecificServers) : Reflects b' snap where
  registered id := by
    rw [hbuild]
    exact h.registered id
  same s hs x hx := h.same s hs x (by rwa [hbuild] at hx)
  trusted id x hx := h.trusted id x (by rwa [hbuild] at hx)
  virtualServers name := by
    rw [hvirtual]
    exact h.virtualServers name
  userSpecificServers := huser.trans h.userSpecificServers

lemma Deregistered.start (hsane : b.Sane) (h : Deregistered b snap)
    (hadmissible : admissible snap.servers = true) :
    ((startManagers snap.servers snap.virtualServers).final b).Sane ∧
      Reflects ((startManagers snap.servers snap.virtualServers).final b) snap := by
  rw [admissible, and_eq_true, decide_eq_true_eq, not_eq_true'] at hadmissible
  rcases final_startManagers hadmissible.2 hsane.untagged with ⟨t, hfinal⟩
  rcases build_addMissing snap.servers b with ⟨hkept, hfrom, hall⟩
  rcases foldl_addMissing_eq snap.servers b with ⟨managers, n, heq⟩
  have hca : (snap.servers.foldl addMissing b).gatewayCACertPEM = b.gatewayCACertPEM := by rw [heq]
  have hflag : (snap.servers.foldl addMissing b).tagsToolsRegistered = false := by
    rw [heq]
    exact hsane.untagged
  -- the entry of an id is unique
  have hunique : ∀ s ∈ snap.servers, ∀ s' ∈ snap.servers, s'.id = s.id → s' = s := by
    intro s hs s' hs' hid
    exact List.inj_on_of_nodup_map hadmissible.1 hs' hs hid
  have htrusted : ∀ id x, (snap.servers.foldl addMissing b).build id = some x →
      hasPrefix x.config.url "https://" = true → x.gatewayCACertPEM = b.gatewayCACertPEM := by
    intro id x hx htls
    rcases hfrom id x hx with hold | ⟨-, -, -, -, hnew⟩
    · exact hsane.trusted id x hold htls
    · exact hnew
  have hsane' : (snap.servers.foldl addMissing b).Sane :=
    ⟨fun id x hx htls => (htrusted id x hx htls).trans hca.symm, hflag⟩
  rw [hfinal]
  refine ⟨hsane'.frame (fun _ => rfl) rfl rfl, ⟨?_, ?_, ?_, ?_, rfl⟩⟩
  · intro id
    constructor
    · intro hsome
      rcases isSome_iff_exists.1 hsome with ⟨x, hx⟩
      rcases hfrom id x hx with hold | ⟨s, hs, hid, -⟩
      · exact h.configured id x hold
      · exact ⟨s, hs, hid⟩
    · rintro ⟨s, hs, rfl⟩
      exact hall s hs
  · intro s hs x hx
    rcases hfrom s.id x hx with hold | ⟨s', hs', hid, hconfig, -⟩
    · exact h.same s hs x hold
    · rw [hconfig, hunique s hs s' hs' hid]
      exact MCPServer.Same.refl s
  · intro id x hx htls
    rw [htrusted id x hx htls]
    exact h.ca
  · intro name
    dsimp only
    rw [GoMap.lookup_ofPairs, List.filter_map, List.map_map]
    simp [Function.comp_def]

end Asked

end McpGateway.Broker
