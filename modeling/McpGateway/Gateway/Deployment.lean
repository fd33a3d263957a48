import McpGateway.Broker.Builds
import McpGateway.Gateway.Listing
import McpGateway.Gateway.Ownership
import McpGateway.Gateway.TableEntries
import McpGateway.Upstream.Disabled

/-!
# Reloads and passes one after the other

The broker together with the registry of its gateway server.  `Deployment.reload` is a call of
`OnConfigChange`, `Deployment.pass` one pass of the manager of a server; both go through as a whole.
-/

namespace McpGateway.Gateway

open Go Config Routing Upstream Broker TraceM ManagerCall

/-! ## The system -/

/-- A broker and what is registered with its gateway server. -/
structure Deployment where
  broker : MCPBroker
  registry : GatewayServer := {}
  /-- the requests of passes since the last reload, with the id of the server they went to -/
  asked : List (String × Request) := []

/-- A pass of the manager of a server: the answers of the upstream, and the hints in its list. -/
structure Pass where
  id : String
  input : PassInput
  hints : GoMap ToolAnnotation := ∅

def stopCalls (man : MCPManager) : List ManagerCall :=
  man.removeAllPrompts.2 ++ man.removeAllPrompts.1.removeAllTools.2

def stopAll (toStop : List (String × ActiveMCPServer)) (g : GatewayServer) : GatewayServer :=
  toStop.foldl (fun g e => (stopCalls e.2.manager).foldl ManagerCall.apply g) g

/-- What `syncTagsTools` makes of the registry. -/
def syncedTags (registered : Bool) (servers : List MCPServer) (g : GatewayServer) : GatewayServer :=
  if hasTags servers && !registered then g.addTools tagsTools
  else if !hasTags servers && registered then g.deleteTools [listTagsName, filterToolsByTagsName]
  else g

namespace Deployment

/-- A broker that was just created, with the options of `b`. -/
def new (b : MCPBroker) : Deployment where
  broker :=
    { b with
      mcpServers := ∅, started := 0, virtualServers := ∅, gatewayCACertPEM := ""
      userSpecificServers := [], cachedTable := none, tagsToolsRegistered := false }
  registry := GatewayServer.addTools {} (if b.discoveryEnabled then discoveryTools else [])

/-- `OnConfigChange`. -/
def reload (conf : MCPServersConfig) (d : Deployment) : Deployment :=
  let toStop := (deregisterStaleManagers conf.servers conf.gatewayCACertPEM).result d.broker
  { broker := (onConfigChange conf).final d.broker
    registry := syncedTags d.broker.tagsToolsRegistered conf.servers (stopAll toStop d.registry)
    asked := [] }

/-- One pass.  The callback of the gateway server runs when a call has changed something. -/
def pass (d : Deployment) (p : Pass) : Deployment :=
  match d.broker.mcpServers.lookup p.id with
  | none => d
  | some up =>
    let inp := { p.input with
      registeredTools := d.registry.listTools
      registeredPrompts := d.registry.listPrompts }
    let asked := up.manager.requests inp
    let (man, calls) := up.manager.manage inp
    let up' := { up with
      manager := man
      toolHints := if asked.contains .toolsList then p.hints else up.toolHints }
    let b := { d.broker with mcpServers := AList.insert p.id up' d.broker.mcpServers }
    { broker := if calls.any changesTable then { b with cachedTable := some b.buildRoutingTable } else b
      registry := calls.foldl ManagerCall.apply d.registry
      asked := d.asked ++ asked.map fun r => (p.id, r) }

inductive Action where
  | reload (conf : MCPServersConfig)
  | pass (p : Pass)

def act (d : Deployment) : Action → Deployment
  | .reload conf => d.reload conf
  | .pass p => d.pass p

def run (d : Deployment) (actions : List Action) : Deployment :=
  actions.foldl act d

def passes (d : Deployment) (ps : List Pass) : Deployment :=
  ps.foldl pass d

/-! ## What holds of it -/

/-- The registry has what the managers serve and nothing of a server without one. -/
structure Sound (d : Deployment) : Prop where
  known : ∀ id up, d.broker.mcpServers.lookup id = some up →
    up.manager.id = id ∧ up.manager.promptsServer = true
  covered : ∀ id up, d.broker.mcpServers.lookup id = some up → Covered up.manager d.registry
  orphans : ∀ id, id ≠ brokerServerID → d.broker.mcpServers.lookup id = none →
    ∀ (K : Kind) n x, ¬ K.view id d.registry n x
  blank : ∀ id up, d.broker.mcpServers.lookup id = some up → up.manager.isEnabled = false →
    Blank up.manager

end Deployment

open Deployment

/-! ## The broker's own tools -/

variable {id : String}

lemma shrinks_brokerTools {tools : List Tool} (h : ∀ t ∈ tools, ownerID t.metadata = some brokerServerID) (hid : id ≠ brokerServerID) (g : GatewayServer) : Shrinks id g (g.addTools tools) := by
  refine shrinks_calls [.addTools tools] ?_ g
  intro c hc K x hx
  rcases mem_singleton.1 hc with rfl
  cases K with
  | tool =>
    rw [show ownerID (Kind.tool.metadata x) = some brokerServerID from h x hx]
    exact fun heq => hid (Option.some.inj heq).symm
  | prompt => cases hx

lemma shrinks_syncedTags (registered : Bool) (servers : List MCPServer)
    (hid : id ≠ brokerServerID) (g : GatewayServer) : Shrinks id g (syncedTags registered servers g) := by
  unfold syncedTags
  split_ifs
  · refine shrinks_brokerTools ?_ hid g
    intro t ht
    simp only [tagsTools, mem_cons, not_mem_nil, or_false] at ht
    rcases ht with rfl | rfl <;> rfl
  · refine shrinks_calls [.deleteTools _] ?_ g
    intro c hc K x hx
    rcases mem_singleton.1 hc with rfl
    cases K <;> cases hx
  · exact fun _ _ _ hx => hx

lemma sound_new (b : MCPBroker) : (Deployment.new b).Sound where
  known id up hup := by cases hup
  covered id up hup := by cases hup
  orphans id hid _ K n x hx := by
    have hown : ∀ t ∈ (if b.discoveryEnabled then discoveryTools else []),
        ownerID t.metadata = some brokerServerID := by
      split_ifs
      · intro t ht
        simp only [discoveryTools, mem_cons, not_mem_nil, or_false] at ht
        rcases ht with rfl | rfl <;> rfl
      · exact fun t ht => absurd ht not_mem_nil
    have hempty := shrinks_brokerTools hown hid {} K n x hx
    cases K <;> cases hempty.1
  blank id up hup := by cases hup

/-! ## Passes -/

variable {up : ActiveMCPServer}

section Pass

variable {d : Deployment} {p : Pass}

lemma pass_unknown (h : d.broker.mcpServers.lookup p.id = none) : d.pass p = d := by
  unfold Deployment.pass
  rw [h]

lemma pass_eq (h : d.broker.mcpServers.lookup p.id = some up) : ∃ inp hints,
      (d.pass p).registry = (up.manager.manage inp).2.foldl apply d.registry ∧
      (d.pass p).asked = d.asked ++ (up.manager.requests inp).map (fun r => (p.id, r)) ∧
      (d.pass p).broker = { d.broker with
          mcpServers := AList.insert p.id
            { up with manager := (up.manager.manage inp).1, toolHints := hints } d.broker.mcpServers
          cachedTable := (d.pass p).broker.cachedTable } ∧
      ((d.pass p).broker.cachedTable = d.broker.cachedTable ∨
        (d.pass p).broker.cachedTable = some (d.pass p).broker.buildRoutingTable) := by
  unfold Deployment.pass
  rw [h]
  dsimp only
  split_ifs
  · exact ⟨_, _, rfl, rfl, rfl, .inr rfl⟩
  · exact ⟨_, _, rfl, rfl, rfl, .inr rfl⟩
  · exact ⟨_, _, rfl, rfl, rfl, .inl rfl⟩
  · exact ⟨_, _, rfl, rfl, rfl, .inl rfl⟩

lemma Deployment.Sound.pass (h : d.Sound) (p : Pass) : (d.pass p).Sound := by
  cases hup : d.broker.mcpServers.lookup p.id with
  | none =>
    rw [pass_unknown hup]
    exact h
  | some up =>
    rcases pass_eq hup with ⟨inp, hints, hregistry, -, hbroker, -⟩
    have hmoves := manage_moves up.manager inp
    have hid := (h.known p.id up hup).1
    have hlookup : ∀ id, (d.pass p).broker.mcpServers.lookup id =
        if id = p.id then some { up with manager := (up.manager.manage inp).1, toolHints := hints }
        else d.broker.mcpServers.lookup id := by
      intro id
      rw [hbroker]
      exact lookup_insert _ _ _ _
    -- the others only lose entries
    have hshrinks : ∀ id, id ≠ p.id → Shrinks id d.registry (d.pass p).registry := by
      intro id hne
      rw [hregistry]
      exact hmoves.shrinks (by rwa [hid]) d.registry
    refine ⟨?_, ?_, ?_, ?_⟩
    · intro id up' hup'
      rw [hlookup] at hup'
      split_ifs at hup' with hcase
      · cases hup'
        rw [hcase]
        exact ⟨hmoves.setup.id.trans hid, hmoves.setup.promptsServer.trans (h.known p.id up hup).2⟩
      · exact h.known id up' hup'
    · intro id up' hup'
      rw [hlookup] at hup'
      split_ifs at hup' with hcase
      · cases hup'
        rw [hregistry]
        exact hmoves.covered (drives_foldl _ _ _) (h.covered p.id up hup)
      · have hid' := (h.known id up' hup').1
        exact (h.covered id up' hup').of_shrinks (hid' ▸ hshrinks id hcase)
    · intro id hne hnone K n x hx
      rw [hlookup] at hnone
      split_ifs at hnone with hcase
      exact h.orphans id hne hnone K n x (hshrinks id hcase K n x hx)
    · intro id up' hup' hdisabled
      rw [hlookup] at hup'
      split_ifs at hup' with hcase
      · cases hup'
        have hstate : up.manager.isEnabled = false := by
          unfold MCPManager.isEnabled at hdisabled ⊢
          dsimp only at hdisabled
          rwa [hmoves.setup.config] at hdisabled
        exact (manage_blank hstate (h.blank p.id up hup hstate) inp).2
      · exact h.blank id up' hup' hdisabled

end Pass

/-! ## Reloads -/

/-- The managers that are left were there before, those to stop are exactly the others. -/
structure Splits (before : GoMap ActiveMCPServer) (acc : Partition) : Prop where
  kept : ∀ id up, acc.1.lookup id = some up → before.lookup id = some up
  stopped : ∀ e ∈ acc.2, before.lookup e.1 = some e.2 ∧ acc.1.lookup e.1 = none
  all : ∀ id up, before.lookup id = some up → acc.1.lookup id = none → (id, up) ∈ acc.2

variable {servers : List MCPServer}

section Splits

variable {before : GoMap ActiveMCPServer} {acc : Partition}

lemma splits_start (before : GoMap ActiveMCPServer) : Splits before (before, []) where
  kept _ _ h := h
  stopped e he := absurd he not_mem_nil
  all _ _ h hnone := by
    rw [h] at hnone
    cases hnone

lemma Splits.take (h : Splits before acc)
    (hup : acc.1.lookup id = some up) :
    Splits before (AList.erase id acc.1, acc.2 ++ [(id, up)]) where
  kept id' up' hkept := by
    rw [lookup_erase] at hkept
    split_ifs at hkept
    exact h.kept id' up' hkept
  stopped e he := by
    rw [lookup_erase]
    rcases mem_append.1 he with hold | hnew
    · rcases h.stopped e hold with ⟨hbefore, hnone⟩
      refine ⟨hbefore, ?_⟩
      rw [hnone, ite_self]
    · rcases mem_singleton.1 hnew with rfl
      exact ⟨h.kept _ _ hup, if_pos rfl⟩
  all id' up' hbefore hnone := by
    rw [lookup_erase] at hnone
    by_cases hid : id' = id
    · subst hid
      have heq : up' = up := Option.some.inj (hbefore.symm.trans (h.kept _ _ hup))
      subst heq
      exact mem_append_right _ (List.mem_singleton_self _)
    · rw [if_neg hid] at hnone
      exact mem_append_left _ (h.all id' up' hbefore hnone)

lemma splits_dropRemoved {pairs : List (String × ActiveMCPServer)}
    (h : Splits before acc) (hnodup : (pairs.map Prod.fst).Nodup) (hpairs : ∀ e ∈ pairs,
    acc.1.lookup e.1 = some e.2) : Splits before (pairs.foldl (dropRemoved servers) acc) := by
  induction pairs generalizing acc with
  | nil => exact h
  | cons e rest ih =>
    rw [map_cons, List.nodup_cons] at hnodup
    rw [foldl_cons]
    have hhead := hpairs e mem_cons_self
    unfold dropRemoved
    split_ifs with hany
    · exact ih h hnodup.2 fun e' he' => hpairs e' (mem_cons_of_mem _ he')
    · refine ih (h.take hhead) hnodup.2 ?_
      intro e' he'
      have hne : e'.1 ≠ e.1 := by
        intro heq
        exact hnodup.1 (heq ▸ mem_map_of_mem he')
      rw [lookup_erase, if_neg hne]
      exact hpairs e' (mem_cons_of_mem _ he')

lemma splits_dropChanged {caChanged : Bool} (h : Splits before acc) :
    Splits before (servers.foldl (dropChanged caChanged) acc) := by
  induction servers generalizing acc with
  | nil => exact h
  | cons s rest ih =>
    rw [foldl_cons]
    refine ih ?_
    unfold dropChanged
    cases hman : acc.1.lookup s.id with
    | none => exact h
    | some man =>
      dsimp only
      split_ifs
      · exact h.take hman
      · exact h

lemma splits_deregister (b : MCPBroker) (servers : List MCPServer) (ca : String) :
    Splits b.mcpServers (((deregisterStaleManagers servers ca).final b).mcpServers,
    (deregisterStaleManagers servers ca).result b) := by
  have hfirst : Splits b.mcpServers
      (b.mcpServers.pairs.foldl (dropRemoved servers) (b.mcpServers, [])) :=
    splits_dropRemoved (splits_start _) b.mcpServers.nodup_keys
      fun e he => mem_pairs_iff.1 he
  exact splits_dropChanged hfirst

end Splits

lemma each_stopManager (toStop : List (String × ActiveMCPServer)) (b : MCPBroker)
    (hgone : ∀ e ∈ toStop, b.mcpServers.lookup e.1 = none) :
    ∃ t, (TraceM.each toStop stopManager).final b = { b with cachedTable := t } := by
  induction toStop generalizing b with
  | nil => exact ⟨b.cachedTable, rfl⟩
  | cons e rest ih =>
    have hone : ∃ t, (stopManager e).final b = { b with cachedTable := t } := by
      unfold stopManager
      simp only [final_bind, final_emit, final_modify, hgone e mem_cons_self]
      split_ifs
      · exact ⟨b.cachedTable, rfl⟩
      · exact ⟨_, rfl⟩
    rcases hone with ⟨t, ht⟩
    rcases ih { b with cachedTable := t } fun e' he' => hgone e' (mem_cons_of_mem _ he') with
      ⟨t', ht'⟩
    refine ⟨t', ?_⟩
    rw [TraceM.each, final_bind, ht]
    exact ht'

lemma final_startManagers_eq (b : MCPBroker) (servers : List MCPServer)
    (virtualServers : List VirtualServer) :
    ((startManagers servers virtualServers).final b).mcpServers = (servers.foldl addMissing b).mcpServers ∧
      ((startManagers servers virtualServers).final b).userSpecificServers =
        (servers.filter fun s => s.userSpecificList).map userEntry ∧
      ((startManagers servers virtualServers).final b).cachedTable =
        some ((startManagers servers virtualServers).final b).buildRoutingTable := by
  have hsync : ∀ b' : MCPBroker, ∃ t flag, (syncTagsTools servers).final b' =
      { b' with cachedTable := t, tagsToolsRegistered := flag } := by
    intro b'
    have hsame : ∃ t flag, b' = { b' with cachedTable := t, tagsToolsRegistered := flag } :=
      ⟨_, _, rfl⟩
    cases htags : hasTags servers <;> cases hflag : b'.tagsToolsRegistered <;>
      simp only [syncTagsTools, final_bind, result_gets, final_gets, htags, hflag,
        Bool.not_true, Bool.not_false, Bool.and_false, Bool.and_true, Bool.and_self,
        false_eq_true, if_true, if_false, final_pure, final_modify]
    · exact hsame
    · exact ⟨_, _, rfl⟩
    · exact ⟨_, _, rfl⟩
    · exact hsame
  rcases hsync (servers.foldl addMissing b) with ⟨t, flag, hfinal⟩
  simp only [startManagers, withLock, final_bracket, final_bind, final_modify,
    hfinal, refreshRoutingTable]
  exact ⟨trivial, rfl, rfl⟩

lemma final_onConfigChange (conf : MCPServersConfig) (b : MCPBroker) :
    ∃ t, ((onConfigChange conf).final b).mcpServers = (conf.servers.foldl addMissing
        { (deregisterStaleManagers conf.servers conf.gatewayCACertPEM).final b with
          cachedTable := t }).mcpServers ∧
      ((onConfigChange conf).final b).userSpecificServers =
        (conf.servers.filter fun s => s.userSpecificList).map userEntry ∧
      ((onConfigChange conf).final b).cachedTable =
        some ((onConfigChange conf).final b).buildRoutingTable := by
  have hgone := fun e he => ((splits_deregister b conf.servers conf.gatewayCACertPEM).stopped e he).2
  rcases each_stopManager _ _ hgone with ⟨t, ht⟩
  refine ⟨t, ?_⟩
  unfold onConfigChange
  rw [final_bind, final_bind, ht]
  exact final_startManagers_eq _ _ _

lemma blank_start (s : MCPServer) (policy : InvalidToolPolicy) (ca : String) (n : Nat) :
    Blank (ActiveMCPServer.start s policy ca n).manager := by
  intro K
  cases K <;> exact ⟨rfl, rfl⟩

lemma lookup_addMissing {b : MCPBroker}
    (h : (servers.foldl addMissing b).mcpServers.lookup id = some up) : b.mcpServers.lookup id = some up ∨
    (b.mcpServers.lookup id = none ∧ ∃ s ∈ servers, s.id = id ∧ up.config = s ∧
    up.manager.promptsServer = true ∧ Blank up.manager) := by
  induction servers generalizing b with
  | nil => exact .inl h
  | cons s rest ih =>
    rw [foldl_cons] at h
    have hstep : ∀ up', (addMissing b s).mcpServers.lookup id = some up' →
        b.mcpServers.lookup id = some up' ∨ (b.mcpServers.lookup id = none ∧
          s.id = id ∧ up'.config = s ∧ up'.manager.promptsServer = true ∧ Blank up'.manager) := by
      intro up' hup'
      unfold addMissing at hup'
      cases hman : b.mcpServers.lookup s.id with
      | some man =>
        rw [hman] at hup'
        exact .inl hup'
      | none =>
        rw [hman] at hup'
        dsimp only at hup'
        rw [lookup_insert] at hup'
        split_ifs at hup' with hid
        · cases hup'
          subst hid
          exact .inr ⟨hman, rfl, rfl, rfl, blank_start _ _ _ _⟩
        · exact .inl hup'
    rcases ih h with hbefore | ⟨hnone, s', hs', hnew⟩
    · rcases hstep up hbefore with hold | ⟨hnone, hnew⟩
      · exact .inl hold
      · exact .inr ⟨hnone, s, mem_cons_self, hnew⟩
    · refine .inr ⟨?_, s', mem_cons_of_mem _ hs', hnew⟩
      -- what is missing after the first server was missing before
      cases hb : b.mcpServers.lookup id with
      | none => rfl
      | some man =>
        have hkept : (addMissing b s).mcpServers.lookup id = some man := by
          unfold addMissing
          cases hman : b.mcpServers.lookup s.id with
          | some _ => exact hb
          | none =>
            have hne : id ≠ s.id := by
              rintro rfl
              rw [hman] at hb
              cases hb
            exact (lookup_insert _ _ _ _).trans ((if_neg hne).trans hb)
        rw [hkept] at hnone
        cases hnone

lemma lookup_addMissing_none {b : MCPBroker}
    (h : (servers.foldl addMissing b).mcpServers.lookup id = none) : b.mcpServers.lookup id = none := by
  cases hb : b.build id with
  | none => exact Option.map_eq_none_iff.1 hb
  | some x =>
    have hkept := (build_addMissing servers b).1 id x hb
    rw [MCPBroker.build, h] at hkept
    cases hkept

lemma moves_stop (man : MCPManager) : Moves man (stopCalls man) man.removeAllPrompts.1.removeAllTools.1 :=
  (move_removeAllPrompts man).moves.trans (move_removeAllTools _).moves

lemma stop_clears {man : MCPManager} {g : GatewayServer} (hcov : Covered man g)
    (hserver : man.promptsServer = true) (K : Kind) (n : String) (x : K.Entry) :
    ¬ K.view man.id ((stopCalls man).foldl apply g) n x := by
  intro hx
  have hafter := (moves_stop man).covered (drives_foldl _ g _) hcov
  have hblank : Blank man.removeAllPrompts.1.removeAllTools.1 := by
    intro K
    unfold MCPManager.removeAllPrompts
    rw [if_pos hserver]
    cases K <;> exact ⟨rfl, rfl⟩
  rw [← (moves_stop man).setup.id] at hx
  exact hafter.blank hblank K n x hx

lemma stopAll_spec {toStop : List (String × ActiveMCPServer)} {g : GatewayServer} (hknown : ∀ e ∈ toStop,
    e.2.manager.id = e.1 ∧ e.2.manager.promptsServer = true) (hcovered : ∀ e ∈ toStop,
    Covered e.2.manager g) : (∀ id, (∀ e ∈ toStop, e.1 ≠ id) → Shrinks id g (stopAll toStop g)) ∧
    ∀ e ∈ toStop, ∀ (K : Kind) n x, ¬ K.view e.1 (stopAll toStop g) n x := by
  induction toStop generalizing g with
  | nil => exact ⟨fun _ _ _ _ _ hx => hx, fun e he => absurd he not_mem_nil⟩
  | cons e rest ih =>
    have hhead := hknown e mem_cons_self
    have hothers : ∀ id, id ≠ e.1 → Shrinks id g ((stopCalls e.2.manager).foldl apply g) :=
      fun id hne => (moves_stop e.2.manager).shrinks (by rwa [hhead.1]) g
    have hcleared := stop_clears (hcovered e mem_cons_self) hhead.2
    rw [hhead.1] at hcleared
    -- after the first stop the others still cover what is left of theirs
    have hcovered' : ∀ e' ∈ rest,
        Covered e'.2.manager ((stopCalls e.2.manager).foldl apply g) := by
      intro e' he'
      have hid' := (hknown e' (mem_cons_of_mem _ he')).1
      by_cases hsame : e'.1 = e.1
      · intro K n x hx
        rw [hid', hsame] at hx
        exact absurd hx (hcleared K n x)
      · exact (hcovered e' (mem_cons_of_mem _ he')).of_shrinks (hid' ▸ hothers e'.1 hsame)
    rcases ih (fun e' he' => hknown e' (mem_cons_of_mem _ he')) hcovered' with ⟨hshrinks, hgone⟩
    refine ⟨?_, ?_⟩
    · intro id hid
      exact (hothers id (hid e mem_cons_self).symm).trans
        (hshrinks id fun e' he' => hid e' (mem_cons_of_mem _ he'))
    · intro e' he' K n x hx
      by_cases hrest : ∃ e'' ∈ rest, e''.1 = e'.1
      · rcases hrest with ⟨e'', he'', heq⟩
        exact hgone e'' he'' K n x (heq ▸ hx)
      · have hlast : e' = e := by
          rcases mem_cons.1 he' with heq | hin
          · exact heq
          · exact absurd ⟨e', hin, rfl⟩ hrest
        subst hlast
        exact hcleared K n x (hshrinks e'.1 (fun e'' he'' heq => hrest ⟨e'', he'', heq⟩) K n x hx)

lemma Deployment.Sound.reload {d : Deployment} (h : d.Sound) (conf : MCPServersConfig) :
    (d.reload conf).Sound := by
  have hsplits := splits_deregister d.broker conf.servers conf.gatewayCACertPEM
  rcases final_onConfigChange conf d.broker with ⟨t, hservers, -, -⟩
  have hstop := stopAll_spec (g := d.registry)
    (fun e he => h.known e.1 e.2 (hsplits.stopped e he).1)
    (fun e he => h.covered e.1 e.2 (hsplits.stopped e he).1)
  -- whoever is not kept has no entry left
  have hgone : ∀ id, id ≠ brokerServerID →
      ((deregisterStaleManagers conf.servers conf.gatewayCACertPEM).final d.broker).mcpServers.lookup
        id = none → ∀ (K : Kind) n x, ¬ K.view id (d.reload conf).registry n x := by
    intro id hne hnone K n x hx
    have hview := shrinks_syncedTags _ _ hne _ K n x hx
    cases hbefore : d.broker.mcpServers.lookup id with
    | some up => exact hstop.2 (id, up) (hsplits.all id up hbefore hnone) K n x hview
    | none =>
      refine h.orphans id hne hbefore K n x (hstop.1 id ?_ K n x hview)
      intro e he heq
      rw [← heq, (hsplits.stopped e he).1] at hbefore
      cases hbefore
  have hlookup : ∀ id up, (d.reload conf).broker.mcpServers.lookup id = some up →
      (d.broker.mcpServers.lookup id = some up ∧ ∀ e ∈ (deregisterStaleManagers conf.servers
        conf.gatewayCACertPEM).result d.broker, e.1 ≠ id) ∨
      (((deregisterStaleManagers conf.servers conf.gatewayCACertPEM).final d.broker).mcpServers.lookup
        id = none ∧ (up.manager.id = id ∧ up.manager.promptsServer = true) ∧ Blank up.manager) := by
    intro id up hup
    have hup' : ((onConfigChange conf).final d.broker).mcpServers.lookup id = some up := hup
    rw [hservers] at hup'
    rcases lookup_addMissing hup' with hkept | ⟨hnone, s, hs, hid, hconfig, hserver, hblank⟩
    · refine .inl ⟨hsplits.kept id up hkept, ?_⟩
      intro e he heq
      have hnone := (hsplits.stopped e he).2
      rw [heq] at hnone
      exact absurd (hkept.symm.trans hnone) (by simp)
    · refine .inr ⟨hnone, ⟨?_, hserver⟩, hblank⟩
      rw [← hid, ← hconfig]
      rfl
  refine ⟨?_, ?_, ?_, ?_⟩
  · intro id up hup
    rcases hlookup id up hup with ⟨hold, -⟩ | ⟨-, hnew, -⟩
    · exact h.known id up hold
    · exact hnew
  · intro id up hup
    rcases hlookup id up hup with ⟨hold, hother⟩ | ⟨hnone, ⟨hid, -⟩, -⟩
    · have hne : id ≠ brokerServerID := by
        rw [← (h.known id up hold).1]
        exact id_ne_brokerServerID _
      have hshrinks := (hstop.1 id hother).trans
        (shrinks_syncedTags d.broker.tagsToolsRegistered conf.servers hne _)
      refine (h.covered id up hold).of_shrinks ?_
      rw [(h.known id up hold).1]
      exact hshrinks
    · intro K n x hx
      refine absurd hx (hid ▸ hgone id ?_ hnone K n x)
      rw [← hid]
      exact id_ne_brokerServerID _
  · intro id hne hnone
    have hnone' : ((onConfigChange conf).final d.broker).mcpServers.lookup id = none := hnone
    rw [hservers] at hnone'
    have hbefore := lookup_addMissing_none hnone'
    exact hgone id hne hbefore
  · intro id up hup hdisabled
    rcases hlookup id up hup with ⟨hold, -⟩ | ⟨-, -, hblank⟩
    · exact h.blank id up hold hdisabled
    · exact hblank

lemma sound_run (b : MCPBroker) (actions : List Action) : ((Deployment.new b).run actions).Sound := by
  induction actions using List.reverseRecOn with
  | nil => exact sound_new b
  | append_singleton actions a ih =>
    have hlast : (Deployment.new b).run (actions ++ [a]) = ((Deployment.new b).run actions).act a := by
      simp [Deployment.run]
    rw [hlast]
    cases a with
    | reload conf => exact ih.reload conf
    | pass p => exact ih.pass p

/-! ## Whose routes a table has -/

def serverIDOf (r : ServerRoute) : String :=
  r.name ++ ":" ++ r.namePrefix ++ ":" ++ r.host

lemma routes_tableOf {order : List (String × ActiveMCPServer)} {r : ServerRoute}
    (h : r ∈ (tableOf order).routes) : ∃ e ∈ order, r = routeFor e.2.config ∧ (servedNames e.2 ≠ [] ∨
    servedPrompts e.2 ≠ [] ∨ registersPrefix e.2 = true) := by
  induction order using List.reverseRecOn with
  | nil => cases h
  | append_singleton order e ih =>
    have hlast : e ∈ order ++ [e] := mem_append_right _ mem_cons_self
    have hearlier : r ∈ (tableOf order).routes → ∃ e' ∈ order ++ [e], r = routeFor e'.2.config ∧
        (servedNames e'.2 ≠ [] ∨ servedPrompts e'.2 ≠ [] ∨ registersPrefix e'.2 = true) := by
      intro hr
      rcases ih hr with ⟨e', he', hroute⟩
      exact ⟨e', mem_append_left _ he', hroute⟩
    have hmem : ∀ t : Table, r ∈ t.routes ↔
        r ∈ t.tools.values ∨ r ∈ t.prompts.values ∨ r ∈ t.prefixes.map Prod.snd := by
      intro t
      rw [Table.routes, mem_append, mem_append, or_assoc]
    rw [tableOf_append, hmem] at h
    rcases h with htool | hprompt | hpre
    · rcases mem_values_iff.1 htool with ⟨n, hn⟩
      rw [lookupTool_addManager] at hn
      split_ifs at hn with hserved
      · exact ⟨e, hlast, (Option.some.inj hn).symm, .inl (List.ne_nil_of_mem hserved)⟩
      · exact hearlier ((hmem _).2 (.inl (mem_values_iff.2 ⟨n, hn⟩)))
    · rcases mem_values_iff.1 hprompt with ⟨n, hn⟩
      rw [lookupPrompt_addManager] at hn
      split_ifs at hn with hserved
      · exact ⟨e, hlast, (Option.some.inj hn).symm, .inr (.inl (List.ne_nil_of_mem hserved))⟩
      · exact hearlier ((hmem _).2 (.inr (.inl (mem_values_iff.2 ⟨n, hn⟩))))
    · rcases mem_map.1 hpre with ⟨p, hp, rfl⟩
      unfold addManager at hp
      dsimp only at hp
      split_ifs at hp with hreg
      · rcases mem_append.1 hp with hold | hnew
        · exact hearlier ((hmem _).2 (.inr (.inr (mem_map_of_mem (mem_filter.1 hold).1))))
        · rcases mem_singleton.1 hnew with rfl
          exact ⟨e, hlast, rfl, .inr (.inr (by simpa [registersPrefix] using hreg))⟩
      · exact hearlier ((hmem _).2 (.inr (.inr (mem_map_of_mem hp))))

end McpGateway.Gateway
