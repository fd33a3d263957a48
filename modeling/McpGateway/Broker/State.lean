import McpGateway.Foundation.Lock
import McpGateway.Routing.Table
import McpGateway.Session.Token
import McpGateway.Upstream.Manager

/-!
# The broker's state

What `mcpBrokerImpl` holds under `mcpLock` and beside it, the routing table it derives from its
managers, and the per-session tool scopes.  Code of the broker is a `BrokerM`: it leaves a trace of
what it does to `mcpLock`, of the managers it waits for and of the calls it makes on the scope store
and the gateway server.
-/

namespace McpGateway.Broker

open Go Config Routing Upstream Session

def discoverToolsName : String := "discover_tools"
def selectToolsName : String := "select_tools"
def listTagsName : String := "list_tags"
def filterToolsByTagsName : String := "filter_tools_by_tags"
def brokerToolMetaKey : String := "kuadrant/broker-tool"
def scopeChangeSentinelName : String := "__gateway_scope_change"

/-! ## Managers -/

/-- A running manager, with the annotation hints its client harvested by served tool name and the
CA bundle its client was built with.  The instance number tells two managers of one server apart. -/
structure ActiveMCPServer where
  manager : MCPManager
  toolHints : GoMap ToolAnnotation := ∅
  gatewayCACertPEM : String := ""
  instanceNo : Nat := 0

namespace ActiveMCPServer

variable (a : ActiveMCPServer)

def config : MCPServer := a.manager.config
def mcpName : String := a.manager.config.name
def getManagedTools : List Tool := a.manager.tools
def getManagedPrompts : List Prompt := a.manager.prompts

def getServedManagedTool (toolName : String) : Option Tool :=
  a.manager.servedToolsMap.lookup toolName

def getServedManagedPrompt (promptName : String) : Option Prompt :=
  a.manager.servedPromptsMap.lookup promptName

def stopped : ActiveMCPServer :=
  { a with manager := a.manager.removeAllPrompts.1.removeAllTools.1 }

def start (config : MCPServer) (policy : InvalidToolPolicy) (gatewayCACertPEM : String)
    (instanceNo : Nat) : ActiveMCPServer where
  manager := { config := config, invalidToolPolicy := policy }
  gatewayCACertPEM := gatewayCACertPEM
  instanceNo := instanceNo

end ActiveMCPServer

/-! ## Tool scopes -/

structure SessionScope where
  /-- the chosen tools; `none` after a reset -/
  tools : Option (List String)
  expireAt : Time
  deriving DecidableEq, Repr

structure ScopeStore where
  scopes : GoMap SessionScope := ∅
  ttl : Time
  maxSize : Nat

namespace ScopeStore

variable (s : ScopeStore)

def oldest : List (String × SessionScope) → Option (String × SessionScope)
  | [] => none
  | p :: rest =>
    match oldest rest with
    | none => some p
    | some q => if q.2.expireAt < p.2.expireAt then some q else some p

def evictOldest : ScopeStore :=
  match oldest s.scopes.pairs with
  | none => s
  | some p => { s with scopes := AList.erase p.1 s.scopes }

def setScope (now : Time) (sessionID : String) (tools : List String) : ScopeStore :=
  let s := if s.maxSize ≤ s.scopes.pairs.length then s.evictOldest else s
  { s with scopes := AList.insert sessionID ⟨some tools, now + s.ttl⟩ s.scopes }

def resetScope (now : Time) (sessionID : String) : ScopeStore :=
  let s := if (s.scopes.lookup sessionID).isNone ∧ s.maxSize ≤ s.scopes.pairs.length then
    s.evictOldest else s
  { s with scopes := AList.insert sessionID ⟨none, now + s.ttl⟩ s.scopes }

/-- The tools a session is scoped to; `none` when all are shown. -/
def getScope (now : Time) (sessionID : String) : Option (List String) :=
  match s.scopes.lookup sessionID with
  | some sc => if sc.expireAt < now then none else sc.tools
  | none => none

def deleteScope (sessionID : String) : ScopeStore :=
  { s with scopes := AList.erase sessionID s.scopes }

def evictExpired (now : Time) : ScopeStore :=
  let expired := s.scopes.pairs.filter fun p => p.2.expireAt < now
  { s with scopes := expired.foldl (fun m p => AList.erase p.1 m) s.scopes }

variable {s} {sid : String}

lemma evictOldest_none (h : s.scopes.lookup sid = none) : s.evictOldest.scopes.lookup sid = none := by
  unfold evictOldest
  split
  · exact h
  · rw [lookup_erase, h, ite_self]

variable {other : String} {now : Time}

lemma setScope_none {tools : List String} (hne : sid ≠ other)
    (h : s.scopes.lookup sid = none) : (s.setScope now other tools).scopes.lookup sid = none := by
  simp only [setScope, lookup_insert, hne, if_false]
  split_ifs
  · exact evictOldest_none h
  · exact h

lemma resetScope_none (hne : sid ≠ other)
    (h : s.scopes.lookup sid = none) : (s.resetScope now other).scopes.lookup sid = none := by
  simp only [resetScope, lookup_insert, hne, if_false]
  split_ifs
  · exact evictOldest_none h
  · exact h

lemma deleteScope_none (h : sid = other ∨ s.scopes.lookup sid = none) :
    (s.deleteScope other).scopes.lookup sid = none := by
  rw [deleteScope, lookup_erase]
  split_ifs with heq
  · rfl
  · exact h.resolve_left heq

lemma evictExpired_none (h : s.scopes.lookup sid = none) :
    (s.evictExpired now).scopes.lookup sid = none := by
  have hfold : ∀ (ps : List (String × SessionScope)) (m : GoMap SessionScope), m.lookup sid = none →
      (ps.foldl (fun m p => AList.erase p.1 m) m).lookup sid = none := by
    intro ps
    induction ps with
    | nil => exact fun _ hm => hm
    | cons p ps ih =>
      intro m hm
      refine ih _ ?_
      rw [lookup_erase, hm, ite_self]
  exact hfold _ _ h

end ScopeStore

/-! ## The broker -/

/-- A server whose tools are listed for each user. -/
structure UserSpecificServer where
  id : String
  name : String
  url : String
  namePrefix : String
  deriving DecidableEq, Repr

/-- `map[string][]string` of canonical header names. -/
abbrev HttpHeader := GoMap (List String)

structure MCPBroker where
  mcpServers : GoMap ActiveMCPServer := ∅
  /-- the number of managers started so far -/
  started : Nat := 0
  virtualServers : GoMap VirtualServer := ∅
  gatewayCACertPEM : String := ""
  userSpecificServers : List UserSpecificServer := []
  cachedTable : Option Table := none
  tagsToolsRegistered : Bool := false
  scopeStore : ScopeStore
  discoveryEnabled : Bool
  discoveryThreshold : Int
  enforceCapabilityFilter : Bool
  trustedHeadersPublicKey : String
  invalidToolPolicy : InvalidToolPolicy
  /-- ES256 verification by the JWT library: the claims of a token under a public key -/
  validateJWTHeader : String → String → Option (GoMap Any)

def brokerWith (servers : List ActiveMCPServer) : MCPBroker where
  mcpServers := GoMap.ofPairs (servers.map fun up => (up.config.id, up))
  scopeStore := { ttl := 0, maxSize := 0 }
  discoveryEnabled := false
  discoveryThreshold := 0
  enforceCapabilityFilter := false
  trustedHeadersPublicKey := ""
  invalidToolPolicy := .filterOut
  validateJWTHeader := fun _ _ => none

inductive BrokerEv where
  | lock
  | unlock
  | rlock
  | runlock
  /-- `Stop` on a manager, which returns when its goroutine has ended -/
  | stop (id : String)
  | stopScopeStore
  | drainUserSessionPool
  | toolsListChanged (sessionID : String)
  deriving DecidableEq, Repr

/-- What an event does to `mcpLock`. -/
def BrokerEv.act : BrokerEv → Option Lock.Act
  | .lock | .rlock => some .acquire
  | .unlock | .runlock => some .release
  | .stop _ => some .wait
  | _ => none

abbrev BrokerM := TraceM MCPBroker BrokerEv

/-- `m.mcpLock.Lock(); defer m.mcpLock.Unlock()`. -/
def withLock {α : Type} (p : BrokerM α) : BrokerM α := TraceM.bracket .lock .unlock p

/-- `m.mcpLock.RLock(); defer m.mcpLock.RUnlock()`. -/
def withRLock {α : Type} (p : BrokerM α) : BrokerM α := TraceM.bracket .rlock .runlock p

/-! ## The routing table -/

def routeFor (cfg : MCPServer) : ServerRoute where
  name := cfg.name
  host := cfg.hostname
  namePrefix := cfg.namePrefix
  url := cfg.url
  userSpecificList := cfg.userSpecificList
  tokenURLElicitation := cfg.tokenURLElicitation.map fun t => t.url

def addManager (t : Table) (entry : String × ActiveMCPServer) : Table :=
  let (id, up) := entry
  let cfg := up.config
  let route := routeFor cfg
  let served := up.getManagedTools.map fun tool => cfg.namePrefix ++ tool.name
  { t with
    prefixes :=
      if cfg.userSpecificList ∧ cfg.namePrefix ≠ "" then
        t.prefixes.filter (fun p => p.1 ≠ cfg.namePrefix) ++ [(cfg.namePrefix, route)]
      else t.prefixes
    tools := served.foldl (fun m name => AList.insert name route m) t.tools
    annotations := served.foldl (fun m name =>
      match up.toolHints.lookup name with
      | some hints => AList.insert (Table.annotationKey id name) hints m
      | none => m) t.annotations
    prompts := up.getManagedPrompts.foldl
      (fun m prompt => AList.insert (cfg.namePrefix ++ prompt.name) route m) t.prompts }

def MCPBroker.buildRoutingTable (b : MCPBroker) : Table :=
  b.mcpServers.pairs.foldl addManager
    { brokerTools := [discoverToolsName, selectToolsName, listTagsName, filterToolsByTagsName] }

/-- Must be called with `mcpLock` held. -/
def refreshRoutingTable : BrokerM Unit :=
  TraceM.modify fun b => { b with cachedTable := some b.buildRoutingTable }

def onTableChange : BrokerM Unit := withRLock refreshRoutingTable

/-- `RoutingTable()`; the table is built on the first call. -/
def routingTable : BrokerM Table := do
  match ← TraceM.gets MCPBroker.cachedTable with
  | some t => pure t
  | none => withRLock do
    refreshRoutingTable
    TraceM.gets MCPBroker.buildRoutingTable

end McpGateway.Broker
