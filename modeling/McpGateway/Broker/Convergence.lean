import McpGateway.Broker.Builds
import McpGateway.Foundation.Transition

/-!
# What reloads lead to

The loader replaces the configuration piece by piece and then starts a goroutine that calls
`OnConfigChange`.  The calls run one after the other in any order; each reads the configuration piece
by piece when its turn comes, while the loader may be at work again.
-/

namespace McpGateway.Broker

open Go Config Upstream Transition

/-! ## The loader and the calls -/

/-- Where the loader is.  It replaces the servers and the virtual servers at once, then the CA bundle,
and then starts a goroutine for the call. -/
inductive Load where
  | idle
  | settingCA (gatewayCACertPEM : String)
  | notifying
  deriving DecidableEq, Repr

/-- Where the call that holds `reloadMu` is. -/
inductive Call where
  | locked
  | readServers (servers : List MCPServer)
  | readVirtualServers (servers : List MCPServer) (virtualServers : List VirtualServer)
  | read (snap : Snapshot)
  | stopping (snap : Snapshot) (toStop : List (String × ActiveMCPServer))

structure ReloadState where
  config : MCPServersConfig := {}
  load : Load := .idle
  /-- the calls that wait for `reloadMu` -/
  pending : Nat := 0
  call : Option Call := none
  broker : MCPBroker

namespace ReloadState

/-- Before the first configuration is loaded; the broker's options are those of `b`. -/
def new (b : MCPBroker) : ReloadState where
  broker :=
    { b with
      mcpServers := ∅, started := 0, virtualServers := ∅, gatewayCACertPEM := ""
      userSpecificServers := [], cachedTable := none, tagsToolsRegistered := false }

variable (s : ReloadState)

def returned : Bool := s.load = .idle && s.pending = 0 && s.call.isNone

def onManager (id : String) (f : ActiveMCPServer → ActiveMCPServer) : Option ReloadState :=
  (s.broker.mcpServers.lookup id).map fun a =>
    { s with broker := { s.broker with mcpServers := AList.insert id (f a) s.broker.mcpServers } }

end ReloadState

inductive ReloadLabel where
  | setServers (servers : List MCPServer) (virtualServers : List VirtualServer)
      (gatewayCACertPEM : String)
  | setCA
  | notify
  | lock
  | readServers
  | readVirtualServers
  | readCA
  | deregister
  | stop
  | start
  /-- a manager changes its own lists in a pass -/
  | act (id : String) (a : Act)
  /-- it takes over the hints of the upstream's answer -/
  | harvest (id : String) (hints : GoMap Routing.ToolAnnotation)

/-- One step of the loader, of the call that holds `reloadMu`, or of a manager.  The loader is given
configurations without tags and with distinct ids. -/
def ReloadState.step (l : ReloadLabel) (s : ReloadState) : Option ReloadState :=
  match l, s.load, s.call with
  | .setServers servers virtualServers ca, .idle, _ =>
    if admissible servers then
      some { s with
        config := { s.config with servers := servers, virtualServers := virtualServers }
        load := .settingCA ca }
    else none
  | .setCA, .settingCA ca, _ =>
    some { s with config := { s.config with gatewayCACertPEM := ca }, load := .notifying }
  | .notify, .notifying, _ => some { s with load := .idle, pending := s.pending + 1 }
  | .lock, _, none =>
    if s.pending = 0 then none else some { s with pending := s.pending - 1, call := some .locked }
  | .readServers, _, some .locked => some { s with call := some (.readServers s.config.servers) }
  | .readVirtualServers, _, some (.readServers servers) =>
    some { s with call := some (.readVirtualServers servers s.config.virtualServers) }
  | .readCA, _, some (.readVirtualServers servers virtualServers) =>
    some { s with call := some (.read ⟨servers, virtualServers, s.config.gatewayCACertPEM⟩) }
  | .deregister, _, some (.read snap) =>
    let p := deregisterStaleManagers snap.servers snap.gatewayCACertPEM
    some { s with broker := p.final s.broker, call := some (.stopping snap (p.result s.broker)) }
  | .stop, _, some (.stopping snap (e :: rest)) =>
    some { s with broker := (stopManager e).final s.broker, call := some (.stopping snap rest) }
  | .start, _, some (.stopping snap []) =>
    some { s with
      broker := (startManagers snap.servers snap.virtualServers).final s.broker
      call := none }
  | .act id a, _, _ => s.onManager id fun up => { up with manager := (a.apply up.manager).1 }
  | .harvest id hints, _, _ => s.onManager id fun up => { up with toolHints := hints }
  | _, _, _ => none

def Lively (f : ActiveMCPServer → ActiveMCPServer) : Prop := ∀ a, (f a).build = a.build

inductive ReloadState.StepsTo (s : ReloadState) : ReloadLabel → ReloadState → Prop where
  | setServers {servers : List MCPServer} {virtualServers : List VirtualServer} {ca : String}
      (hload : s.load = .idle) (hadmissible : admissible servers = true) :
      StepsTo s (.setServers servers virtualServers ca)
        { s with
          config := { s.config with servers := servers, virtualServers := virtualServers }
          load := .settingCA ca }
  | setCA {ca : String} (hload : s.load = .settingCA ca) :
      StepsTo s .setCA
        { s with config := { s.config with gatewayCACertPEM := ca }, load := .notifying }
  | notify (hload : s.load = .notifying) :
      StepsTo s .notify { s with load := .idle, pending := s.pending + 1 }
  | lock (hcall : s.call = none) (hpending : s.pending ≠ 0) :
      StepsTo s .lock { s with pending := s.pending - 1, call := some .locked }
  | readServers (hcall : s.call = some .locked) :
      StepsTo s .readServers { s with call := some (.readServers s.config.servers) }
  | readVirtualServers {servers : List MCPServer} (hcall : s.call = some (.readServers servers)) :
      StepsTo s .readVirtualServers
        { s with call := some (.readVirtualServers servers s.config.virtualServers) }
  | readCA {servers : List MCPServer} {virtualServers : List VirtualServer}
      (hcall : s.call = some (.readVirtualServers servers virtualServers)) :
      StepsTo s .readCA
        { s with call := some (.read ⟨servers, virtualServers, s.config.gatewayCACertPEM⟩) }
  | deregister {snap : Snapshot} {toStop : List (String × ActiveMCPServer)}
      (hcall : s.call = some (.read snap)) :
      StepsTo s .deregister
        { s with
          broker := (deregisterStaleManagers snap.servers snap.gatewayCACertPEM).final s.broker
          call := some (.stopping snap toStop) }
  | stop {snap : Snapshot} {e : String × ActiveMCPServer} {rest : List (String × ActiveMCPServer)}
      (hcall : s.call = some (.stopping snap (e :: rest))) :
      StepsTo s .stop
        { s with broker := (stopManager e).final s.broker, call := some (.stopping snap rest) }
  | start {snap : Snapshot} (hcall : s.call = some (.stopping snap [])) :
      StepsTo s .start
        { s with
          broker := (startManagers snap.servers snap.virtualServers).final s.broker
          call := none }
  | manager {l : ReloadLabel} {id : String} {a : ActiveMCPServer}
      {f : ActiveMCPServer → ActiveMCPServer} (ha : s.broker.mcpServers.lookup id = some a)
      (hlively : Lively f) :
      StepsTo s l
        { s with broker := { s.broker with mcpServers := AList.insert id (f a) s.broker.mcpServers } }

namespace ReloadState

variable {s s' : ReloadState} {l : ReloadLabel}

lemma lively_act (a : Act) :
    Lively fun up : ActiveMCPServer => { up with manager := (a.apply up.manager).1 } := by
  intro up
  have hconfig := (a.move up.manager).setup.config
  unfold ActiveMCPServer.build ActiveMCPServer.config
  rw [hconfig]

lemma lively_harvest (hints : GoMap Routing.ToolAnnotation) :
    Lively fun up : ActiveMCPServer => { up with toolHints := hints } := by
  intro up
  rfl

lemma stepsTo (h : s.step l = some s') : s.StepsTo l s' := by
  unfold ReloadState.step at h
  split at h
  next servers virtualServers ca hload =>
    split_ifs at h with hadmissible
    cases h
    exact .setServers hload hadmissible
  next ca hload =>
    cases h
    exact .setCA hload
  next hload =>
    cases h
    exact .notify hload
  next hcall =>
    split_ifs at h with hpending
    cases h
    exact .lock hcall hpending
  next hcall =>
    cases h
    exact .readServers hcall
  next servers hcall =>
    cases h
    exact .readVirtualServers hcall
  next servers virtualServers hcall =>
    cases h
    exact .readCA hcall
  next snap hcall =>
    cases h
    exact .deregister hcall
  next snap e rest hcall =>
    cases h
    exact .stop hcall
  next snap hcall =>
    cases h
    exact .start hcall
  next id a =>
    rcases map_eq_some_iff.1 h with ⟨up, hup, rfl⟩
    exact .manager hup (lively_act a)
  next id hints =>
    rcases map_eq_some_iff.1 h with ⟨up, hup, rfl⟩
    exact .manager hup (lively_harvest hints)
  next => cases h

lemma build_manager {id : String} {a : ActiveMCPServer} {f : ActiveMCPServer → ActiveMCPServer}
    (ha : s.broker.mcpServers.lookup id = some a) (hlively : Lively f) (id' : String) :
    MCPBroker.build { s.broker with
      mcpServers := AList.insert id (f a) s.broker.mcpServers } id' = s.broker.build id' := by
  unfold MCPBroker.build
  dsimp only
  rw [lookup_insert]
  split_ifs with hid
  · rw [hid, ha, Option.map_some, Option.map_some, hlively]
  · rfl

def callSteps (toStop : Nat) : List ReloadLabel :=
  [.lock, .readServers, .readVirtualServers, .readCA, .deregister] ++
    (List.replicate toStop .stop ++ [.start])

/-! ## Convergence -/

/-- No load is under way and no call waits: whatever the call at work has read is current. -/
def Settled (s : ReloadState) : Prop := s.load = .idle ∧ s.pending = 0

/-- What the callback has read is current unless another load is under way or pending. -/
def OnTrack (s : ReloadState) : Prop :=
  match s.call with
  | none => s.Settled → Reflects s.broker (snapshotOf s.config)
  | some .locked => True
  | some (.readServers servers) =>
    admissible servers = true ∧ (s.Settled → servers = s.config.servers)
  | some (.readVirtualServers servers virtualServers) =>
    admissible servers = true ∧
      (s.Settled → servers = s.config.servers ∧ virtualServers = s.config.virtualServers)
  | some (.read snap) => admissible snap.servers = true ∧ (s.Settled → snap = snapshotOf s.config)
  | some (.stopping snap _) =>
    (admissible snap.servers = true ∧ (s.Settled → snap = snapshotOf s.config)) ∧
      Deregistered s.broker snap

structure Tracking (s : ReloadState) : Prop where
  admissible : admissible s.config.servers = true
  sane : s.broker.Sane
  onTrack : s.OnTrack

lemma tracking_new (b : MCPBroker) : (new b).Tracking where
  admissible := rfl
  sane := by
    refine ⟨?_, rfl⟩
    intro id x hx
    cases hx
  onTrack := by
    intro _
    refine ⟨?_, ?_, ?_, fun _ => rfl, rfl⟩
    · intro id
      simp [new, MCPBroker.build, snapshotOf]
    · intro s hs
      cases hs
    · intro id x hx
      cases hx

lemma OnTrack.loading (h : s.OnTrack) (hcall : s'.call = s.call) (hbroker : s'.broker = s.broker)
    (hbusy : ¬ s'.Settled) : s'.OnTrack := by
  unfold OnTrack at h ⊢
  rw [hcall, hbroker]
  cases hs : s.call with
  | none => exact fun hsettled => absurd hsettled hbusy
  | some c =>
    rw [hs] at h
    cases c with
    | locked => trivial
    | readServers | readVirtualServers | read =>
      exact ⟨h.1, fun hsettled => absurd hsettled hbusy⟩
    | stopping => exact ⟨⟨h.1.1, fun hsettled => absurd hsettled hbusy⟩, h.2⟩

variable {b : MCPBroker}

lemma OnTrack.manager (h : s.OnTrack) (hbuild : ∀ id, b.build id = s.broker.build id)
    (hrest : ∃ managers, b = { s.broker with mcpServers := managers }) :
    OnTrack { s with broker := b } := by
  rcases hrest with ⟨managers, hb⟩
  unfold OnTrack at h ⊢
  dsimp only
  cases hs : s.call with
  | none =>
    rw [hs] at h
    intro hsettled
    exact (h hsettled).frame hbuild (by rw [hb]) (by rw [hb])
  | some c =>
    rw [hs] at h
    cases c with
    | locked => trivial
    | readServers | readVirtualServers | read => exact h
    | stopping snap toStop => exact ⟨h.1, h.2.frame hbuild (by rw [hb])⟩

lemma Tracking.step (h : s.Tracking) (hstep : s.step l = some s') : s'.Tracking := by
  have htrack := h.onTrack
  cases stepsTo hstep with
  | setServers hload hadmissible =>
    refine ⟨hadmissible, h.sane, htrack.loading rfl rfl ?_⟩
    rintro ⟨hidle, -⟩
    cases hidle
  | setCA hload =>
    refine ⟨h.admissible, h.sane, htrack.loading rfl rfl ?_⟩
    rintro ⟨hidle, -⟩
    cases hidle
  | notify hload =>
    refine ⟨h.admissible, h.sane, htrack.loading rfl rfl ?_⟩
    rintro ⟨-, hnone⟩
    cases hnone
  | lock hcall hpending => exact ⟨h.admissible, h.sane, trivial⟩
  | readServers hcall => exact ⟨h.admissible, h.sane, h.admissible, fun _ => rfl⟩
  | readVirtualServers hcall =>
    rw [OnTrack, hcall] at htrack
    exact ⟨h.admissible, h.sane, htrack.1, fun hsettled => ⟨htrack.2 hsettled, rfl⟩⟩
  | readCA hcall =>
    rw [OnTrack, hcall] at htrack
    refine ⟨h.admissible, h.sane, htrack.1, ?_⟩
    intro hsettled
    rcases htrack.2 hsettled with ⟨rfl, rfl⟩
    rfl
  | deregister hcall =>
    rw [OnTrack, hcall] at htrack
    exact ⟨h.admissible, h.sane.deregister _ _, htrack, deregistered_deregister _ _⟩
  | @stop snap e rest hcall =>
    rw [OnTrack, hcall] at htrack
    rcases final_stopManager e s.broker with ⟨managers, t, hfinal, hbuild⟩
    refine ⟨h.admissible, ?_, htrack.1, ?_⟩
    · exact h.sane.frame hbuild (by rw [hfinal]) (by rw [hfinal])
    · exact htrack.2.frame hbuild (by rw [hfinal])
  | start hcall =>
    -- the broker now reflects the snapshot; if nothing is pending, that is the configuration
    rw [OnTrack, hcall] at htrack
    rcases htrack with ⟨⟨hadmissible, hcurrent⟩, hderegistered⟩
    rcases hderegistered.start h.sane hadmissible with ⟨hsane, hreflects⟩
    refine ⟨h.admissible, hsane, ?_⟩
    intro hsettled
    have hsnap := hcurrent hsettled
    rw [hsnap] at hreflects
    exact hsnap ▸ hreflects
  | manager ha hlively =>
    have hbuild := build_manager ha hlively
    exact ⟨h.admissible, h.sane.frame hbuild rfl rfl, htrack.manager hbuild ⟨_, rfl⟩⟩

lemma tracking_of_reachable (hreach : Reachable step (new b) s) : s.Tracking :=
  hreach.invariant (tracking_new b) fun _ _ _ hstep h => h.step hstep

lemma of_returned (h : s.returned = true) : s.load = .idle ∧ s.pending = 0 ∧ s.call = none := by
  simp only [returned, and_eq_true, decide_eq_true_eq, Option.isNone_iff_eq_none] at h
  exact ⟨h.1.1, h.1.2, h.2⟩

lemma Tracking.reflects (h : s.Tracking) (hreturned : s.returned = true) :
    Reflects s.broker (snapshotOf s.config) := by
  rcases of_returned hreturned with ⟨hload, hpending, hcall⟩
  have htrack := h.onTrack
  rw [OnTrack, hcall] at htrack
  exact htrack ⟨hload, hpending⟩

/-! ## Managers that stay -/

/-- The list has the entry, up to what `configChanged` ignores. -/
def HasEntry (e : MCPServer) (servers : List MCPServer) : Prop := ∃ s ∈ servers, s.Same e

/-- A new gateway CA matters only to servers reached over TLS. -/
def SameCA (e : MCPServer) (ca ca' : String) : Prop :=
  hasPrefix e.url "https://" = true → ca' = ca

def keeps (e : MCPServer) (ca : String) : ReloadLabel → Bool
  | .setServers servers _ ca' =>
    (servers.any fun s => !s.configChanged e) && (!hasPrefix e.url "https://" || ca' = ca)
  | _ => true

/-- The steps of runs in which every configuration keeps the entry. -/
def keepingStep (e : MCPServer) (ca : String) : ReloadLabel → ReloadState → Option ReloadState :=
  guarded (fun l _ => keeps e ca l) step

variable {e : MCPServer} {ca : String} {servers : List MCPServer}

lemma of_keeps {virtualServers : List VirtualServer} {ca' : String}
    (h : keeps e ca (.setServers servers virtualServers ca') = true) :
    HasEntry e servers ∧ SameCA e ca ca' := by
  simp only [keeps, and_eq_true, List.any_eq_true, not_eq_true', or_eq_true,
    decide_eq_true_eq, MCPServer.configChanged_eq_false] at h
  refine ⟨h.1, ?_⟩
  intro htls
  rcases h.2 with hplain | heq
  · rw [htls] at hplain
    cases hplain
  · exact heq

lemma HasEntry.same {t : MCPServer} (h : HasEntry e servers)
    (hadmissible : admissible servers = true) (ht : t ∈ servers) (hid : t.id = e.id) : t.Same e := by
  rw [admissible, and_eq_true, decide_eq_true_eq] at hadmissible
  rcases h with ⟨t', ht', hsame⟩
  have heq : t = t' := List.inj_on_of_nodup_map hadmissible.1 ht ht' (hid.trans hsame.id_eq)
  exact heq ▸ hsame

def ReadUnchanged (e : MCPServer) (ca : String) : Option Call → Prop
  | none | some .locked => True
  | some (.readServers servers) | some (.readVirtualServers servers _) => HasEntry e servers
  | some (.read snap) | some (.stopping snap _) =>
    HasEntry e snap.servers ∧ SameCA e ca snap.gatewayCACertPEM

def LoadsUnchanged (e : MCPServer) (ca : String) (conf : MCPServersConfig) : Load → Prop
  | .idle => True
  | .settingCA ca' => HasEntry e conf.servers ∧ SameCA e ca ca'
  | .notifying => HasEntry e conf.servers ∧ SameCA e ca conf.gatewayCACertPEM

/-- The entry is unchanged wherever a call can still find it, and so is what the manager of its id was
built from.  Before the first load no call is there to find the configuration. -/
structure Unchanged (e : MCPServer) (ca : String) (s : ReloadState) : Prop where
  load : LoadsUnchanged e ca s.config s.load
  config : (HasEntry e s.config.servers ∧ SameCA e ca s.config.gatewayCACertPEM) ∨
    (s.pending = 0 ∧ s.call = none)
  call : ReadUnchanged e ca s.call
  registered : ∀ x, s.broker.build e.id = some x →
    e.Same x.config ∧ SameCA e ca s.broker.gatewayCACertPEM

lemma Unchanged.busy (h : s.Unchanged e ca) (hcall : s.call ≠ none) :
    HasEntry e s.config.servers ∧ SameCA e ca s.config.gatewayCACertPEM := by
  rcases h.config with hkept | ⟨-, hnone⟩
  · exact hkept
  · exact absurd hnone hcall

variable {snap : Snapshot} (hadmissible : admissible snap.servers = true)

include hadmissible

lemma kept_deregister
    (hentry : HasEntry e snap.servers) (hca : SameCA e ca snap.gatewayCACertPEM) {x : Build}
    (hx : b.build e.id = some x) (hsame : e.Same x.config) (hbroker : SameCA e ca b.gatewayCACertPEM) :
    ((deregisterStaleManagers snap.servers snap.gatewayCACertPEM).final b).build e.id = some x := by
  refine build_deregister.2 ⟨hx, ?_, ?_⟩
  · rcases hentry with ⟨t, ht, hte⟩
    exact ⟨t, ht, hte.id_eq.symm⟩
  · intro t ht hid
    have hte := hentry.same hadmissible ht hid
    refine stale_eq_false.2 ⟨?_, hte.trans hsame⟩
    intro hchanged
    rw [← hte.url_eq]
    by_contra htls
    rw [Bool.not_eq_false] at htls
    rw [decide_eq_true_eq] at hchanged
    exact hchanged ((hbroker htls).trans (hca htls).symm)

lemma kept_start
    (hsane : b.Sane) {id : String} {x : Build} (hx : b.build id = some x) :
    ((startManagers snap.servers snap.virtualServers).final b).build id = some x := by
  rw [admissible, and_eq_true, not_eq_true'] at hadmissible
  rcases final_startManagers hadmissible.2 hsane.untagged with ⟨t, hfinal⟩
  rw [hfinal]
  exact (build_addMissing snap.servers b).1 id x hx

lemma ca_startManagers (hsane : b.Sane) :
    ((startManagers snap.servers snap.virtualServers).final b).gatewayCACertPEM = b.gatewayCACertPEM := by
  rw [admissible, and_eq_true, not_eq_true'] at hadmissible
  rcases final_startManagers hadmissible.2 hsane.untagged with ⟨t, hfinal⟩
  rcases foldl_addMissing_eq snap.servers b with ⟨managers, n, heq⟩
  rw [hfinal, heq]

omit hadmissible

lemma registered_frame {b' : MCPBroker} (hbuild : ∀ id, b'.build id = b.build id)
    (hca : b'.gatewayCACertPEM = b.gatewayCACertPEM)
    (h : ∀ x, b.build e.id = some x → e.Same x.config ∧ SameCA e ca b.gatewayCACertPEM) :
    ∀ x, b'.build e.id = some x → e.Same x.config ∧ SameCA e ca b'.gatewayCACertPEM := by
  intro x hx
  rw [hbuild] at hx
  rw [hca]
  exact h x hx

lemma Unchanged.step (htracking : s.Tracking) (h : s.Unchanged e ca) (hstep : s.step l = some s')
    (hkeeps : keeps e ca l = true) :
    s'.Unchanged e ca ∧ ∀ x, s.broker.build e.id = some x → s'.broker.build e.id = some x := by
  have htrack := htracking.onTrack
  have hread := h.call
  have hload := h.load
  cases stepsTo hstep with
  | setServers hidle hadmissible =>
    have hnew := of_keeps hkeeps
    refine ⟨⟨hnew, ?_, hread, h.registered⟩, fun _ hx => hx⟩
    exact h.config.imp_left fun hold => ⟨hnew.1, hold.2⟩
  | setCA hsetting =>
    rw [hsetting] at hload
    exact ⟨⟨hload, .inl hload, hread, h.registered⟩, fun _ hx => hx⟩
  | notify hnotifying =>
    rw [hnotifying] at hload
    exact ⟨⟨trivial, .inl hload, hread, h.registered⟩, fun _ hx => hx⟩
  | lock hcall hpending =>
    have hconfig : HasEntry e s.config.servers ∧ SameCA e ca s.config.gatewayCACertPEM := by
      rcases h.config with hkept | ⟨hnone, -⟩
      · exact hkept
      · exact absurd hnone hpending
    exact ⟨⟨hload, .inl hconfig, trivial, h.registered⟩, fun _ hx => hx⟩
  | readServers hcall =>
    have hconfig := h.busy (by simp [hcall])
    exact ⟨⟨hload, .inl hconfig, hconfig.1, h.registered⟩, fun _ hx => hx⟩
  | readVirtualServers hcall =>
    have hconfig := h.busy (by simp [hcall])
    rw [hcall] at hread
    exact ⟨⟨hload, .inl hconfig, hread, h.registered⟩, fun _ hx => hx⟩
  | readCA hcall =>
    have hconfig := h.busy (by simp [hcall])
    rw [hcall] at hread
    exact ⟨⟨hload, .inl hconfig, ⟨hread, hconfig.2⟩, h.registered⟩, fun _ hx => hx⟩
  | deregister hcall =>
    -- the entry of the new configuration is the one the manager was built from, so it is not stale
    have hconfig := h.busy (by simp [hcall])
    rw [hcall] at hread
    rw [OnTrack, hcall] at htrack
    refine ⟨⟨hload, .inl hconfig, hread, ?_⟩, ?_⟩
    · intro x hx
      exact ⟨(h.registered x (build_deregister.1 hx).1).1, hread.2⟩
    · intro x hx
      have hreg := h.registered x hx
      exact kept_deregister htrack.1 hread.1 hread.2 hx hreg.1 hreg.2
  | @stop snap entry rest hcall =>
    have hconfig := h.busy (by simp [hcall])
    rw [hcall] at hread
    rcases final_stopManager entry s.broker with ⟨managers, t, hfinal, hbuild⟩
    refine ⟨⟨hload, .inl hconfig, hread, ?_⟩, ?_⟩
    · exact registered_frame hbuild (by rw [hfinal]) h.registered
    · intro x hx
      exact (hbuild e.id).trans hx
  | @start snap hcall =>
    have hconfig := h.busy (by simp [hcall])
    rw [hcall] at hread
    rw [OnTrack, hcall] at htrack
    rcases htrack with ⟨⟨hadmissible, -⟩, hderegistered⟩
    rcases hderegistered.start htracking.sane hadmissible with ⟨-, hreflects⟩
    refine ⟨⟨hload, .inl hconfig, trivial, ?_⟩, fun x hx => kept_start hadmissible htracking.sane hx⟩
    intro x hx
    rcases hread.1 with ⟨t, ht, hte⟩
    have hsame : t.Same x.config := hreflects.same t ht x (by rw [← hte.id_eq]; exact hx)
    refine ⟨hte.symm.trans hsame, ?_⟩
    dsimp only
    rw [ca_startManagers hadmissible htracking.sane, hderegistered.ca]
    exact hread.2
  | manager ha hlively =>
    have hbuild := build_manager ha hlively
    refine ⟨⟨hload, h.config, hread, registered_frame hbuild rfl h.registered⟩, ?_⟩
    intro x hx
    exact (hbuild e.id).trans hx

lemma Unchanged.run (htracking : s.Tracking) (h : s.Unchanged e ca)
    (hreach : Reachable (keepingStep e ca) s s') : (s'.Tracking ∧ s'.Unchanged e ca) ∧ ∀ x,
    s.broker.build e.id = some x → s'.broker.build e.id = some x := by
  refine hreach.invariant (P := fun s' => (s'.Tracking ∧ s'.Unchanged e ca) ∧
    ∀ x, s.broker.build e.id = some x → s'.broker.build e.id = some x) ⟨⟨htracking, h⟩, fun _ hx => hx⟩ ?_
  rintro l s₁ s₂ hstep ⟨⟨htracking₁, h₁⟩, hkept⟩
  rcases guarded_eq_some.1 hstep with ⟨hkeeps, hstep⟩
  rcases h₁.step htracking₁ hstep hkeeps with ⟨h₂, hkept₂⟩
  exact ⟨⟨htracking₁.step hstep, h₂⟩, fun x hx => hkept₂ x (hkept x hx)⟩

lemma unchanged_of_returned (htracking : s.Tracking) (hreturned : s.returned = true)
    (hentry : (HasEntry e s.config.servers ∧ SameCA e ca s.config.gatewayCACertPEM) ∨
    ∀ t ∈ s.config.servers, t.id ≠ e.id) : s.Unchanged e ca := by
  have hreflects := htracking.reflects hreturned
  rcases of_returned hreturned with ⟨hload, hpending, hcall⟩
  refine ⟨by rw [hload]; trivial, .inr ⟨hpending, hcall⟩, by rw [hcall]; trivial, ?_⟩
  intro x hx
  rcases hentry with ⟨⟨t, ht, hte⟩, hca⟩ | hnone
  · have hsame : t.Same x.config := hreflects.same t ht x (by rw [← hte.id_eq]; exact hx)
    have hex := hte.symm.trans hsame
    refine ⟨hex, ?_⟩
    intro htls
    have htls' : hasPrefix x.config.url "https://" = true := by
      rw [hex.url_eq]
      exact htls
    rw [← htracking.sane.trusted e.id x hx htls', hreflects.trusted e.id x hx htls']
    exact hca htls
  · rcases (hreflects.registered e.id).1 (by rw [hx]; rfl) with ⟨t, ht, hid⟩
    exact absurd hid (hnone t ht)

/-- Whenever all calls have returned the broker has what the last configuration asks for.  From any such
moment on, whatever manager is registered for an entry stays, as long as every configuration that is
loaded has the entry unchanged, with the same CA bundle if the server is reached over TLS. -/
theorem reload_converges (b : MCPBroker) :
    (∀ s, Reachable step (new b) s → s.returned = true → Reflects s.broker (snapshotOf s.config)) ∧
      ∀ e ca s₀ s₁ s₂, Reachable step (new b) s₀ → s₀.returned = true →
        ((HasEntry e s₀.config.servers ∧ SameCA e ca s₀.config.gatewayCACertPEM) ∨
          ∀ t ∈ s₀.config.servers, t.id ≠ e.id) →
        Reachable (keepingStep e ca) s₀ s₁ → Reachable (keepingStep e ca) s₁ s₂ →
        ∀ x, s₁.broker.build e.id = some x → s₂.broker.build e.id = some x := by
  refine ⟨?_, ?_⟩
  · intro s hreach hreturned
    exact (tracking_of_reachable hreach).reflects hreturned
  · intro e ca s₀ s₁ s₂ hreach hreturned hentry hreach₁ hreach₂
    have htracking := tracking_of_reachable hreach
    have hunchanged := unchanged_of_returned htracking hreturned hentry
    rcases hunchanged.run htracking hreach₁ with ⟨⟨htracking₁, hunchanged₁⟩, -⟩
    exact (hunchanged₁.run htracking₁ hreach₂).2

def secureServer : MCPServer := { name := "secure", url := "https://secure.example/mcp" }

def movedServer (url : String) : MCPServer := { name := "moved", url := url }

def loadSteps (servers : List MCPServer) (ca : String) : List ReloadLabel :=
  [.setServers servers [] ca, .setCA, .notify]

/-- The first configuration is loaded, then one that changes the other server. -/
theorem reload_converges_secure : ∃ s₁ s₂ x,
    run (keepingStep secureServer "pem") (new (brokerWith []))
        (loadSteps [secureServer, movedServer "http://a"] "pem" ++ callSteps 0) = some s₁ ∧
      run (keepingStep secureServer "pem") s₁
        (loadSteps [secureServer, movedServer "http://b"] "pem" ++ callSteps 1) = some s₂ ∧
      Reflects s₂.broker (snapshotOf s₂.config) ∧
      s₁.broker.build secureServer.id = some x ∧ s₂.broker.build secureServer.id = some x := by
  have hrun₁ : (run (keepingStep secureServer "pem") (new (brokerWith []))
      (loadSteps [secureServer, movedServer "http://a"] "pem" ++ callSteps 0)).any (fun s₁ =>
        (s₁.broker.build secureServer.id).isSome &&
        (run (keepingStep secureServer "pem") s₁
          (loadSteps [secureServer, movedServer "http://b"] "pem" ++ callSteps 1)).any fun s₂ =>
            s₂.returned) = true := by decide +kernel
  rcases (Option.any_eq_true _ _).1 hrun₁ with ⟨s₁, hs₁, hboth⟩
  rw [Bool.and_eq_true] at hboth
  rcases Option.isSome_iff_exists.1 hboth.1 with ⟨x, hx⟩
  rcases (Option.any_eq_true _ _).1 hboth.2 with ⟨s₂, hs₂, hreturned⟩
  have hreach₁ : Reachable (keepingStep secureServer "pem") (new (brokerWith [])) s₁ := ⟨_, hs₁⟩
  have hreach₂ : Reachable (keepingStep secureServer "pem") s₁ s₂ := ⟨_, hs₂⟩
  have hreach : Reachable step (new (brokerWith [])) s₂ := (hreach₁.trans hreach₂).of_guarded
  refine ⟨s₁, s₂, x, hs₁, hs₂, (reload_converges (brokerWith [])).1 s₂ hreach hreturned, hx, ?_⟩
  exact (reload_converges (brokerWith [])).2 secureServer "pem" _ s₁ s₂ ⟨[], rfl⟩ (by decide)
    (.inr fun t ht => absurd ht List.not_mem_nil) hreach₁ hreach₂ x hx

end ReloadState

end McpGateway.Broker
