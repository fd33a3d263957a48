import McpGateway.Broker.Discovery

/-!
# Reloads, shutdown and lookups

`OnConfigChange` in its three phases, `Shutdown`, and the operations that only read under
`mcpLock`.
-/

namespace McpGateway.Broker

open Go Config Routing Upstream

/-! ## The gateway server's callbacks -/

/-- `gatewayServer.AddTools` as far as the broker sees it: the callback runs unless there is nothing
to add.  `DeleteTools`, `AddPrompts` and `DeletePrompts` do the same with their names. -/
def notifyTableChange (names : List String) : BrokerM Unit :=
  if names = [] then pure () else onTableChange

def registerTagsTools : BrokerM Unit :=
  notifyTableChange [listTagsName, filterToolsByTagsName]

def hasTags (servers : List MCPServer) : Bool :=
  servers.any fun s => !s.tags.isEmpty

def syncTagsTools (servers : List MCPServer) : BrokerM Unit := do
  let registered ← TraceM.gets MCPBroker.tagsToolsRegistered
  if hasTags servers && !registered then do
    registerTagsTools
    TraceM.modify fun b => { b with tagsToolsRegistered := true }
  else if !hasTags servers && registered then do
    notifyTableChange [listTagsName, filterToolsByTagsName]
    TraceM.modify fun b => { b with tagsToolsRegistered := false }
  else pure ()

/-! ## OnConfigChange -/

abbrev Partition := GoMap ActiveMCPServer × List (String × ActiveMCPServer)

def dropRemoved (servers : List MCPServer) (acc : Partition) (entry : String × ActiveMCPServer) :
    Partition :=
  if servers.any fun s => s.id = entry.1 then acc
  else (AList.erase entry.1 acc.1, acc.2 ++ [entry])

/-- Take a manager out when its server's configuration changed, or the CA its TLS relies on. -/
def dropChanged (caChanged : Bool) (acc : Partition) (s : MCPServer) : Partition :=
  match acc.1.lookup s.id with
  | none => acc
  | some man =>
    if (caChanged && hasPrefix s.url "https://") || s.configChanged man.config then
      (AList.erase s.id acc.1, acc.2 ++ [(s.id, man)])
    else acc

def deregisterStaleManagers (servers : List MCPServer) (newGatewayCACert : String) :
    BrokerM (List (String × ActiveMCPServer)) :=
  withLock do
    let b ← TraceM.gets id
    let kept := b.mcpServers.pairs.foldl (dropRemoved servers) (b.mcpServers, [])
    let parts := servers.foldl (dropChanged (b.gatewayCACertPEM ≠ newGatewayCACert)) kept
    TraceM.modify fun b =>
      { b with mcpServers := parts.1, gatewayCACertPEM := newGatewayCACert }
    pure parts.2

/-- `Stop` on a manager.  Its goroutine removes what it serves and runs the callback of the gateway
server before the call returns. -/
def stopManager (entry : String × ActiveMCPServer) : BrokerM Unit := do
  TraceM.emit (.stop entry.1)
  TraceM.modify fun b =>
    match b.mcpServers.lookup entry.1 with
    | some man => { b with mcpServers := AList.insert entry.1 man.stopped b.mcpServers }
    | none => b
  let m := entry.2.manager
  if m.serverTools.isEmpty && m.serverPrompts.isEmpty then pure () else refreshRoutingTable

def addMissing (b : MCPBroker) (s : MCPServer) : MCPBroker :=
  match b.mcpServers.lookup s.id with
  | some _ => b
  | none =>
    { b with
      mcpServers := AList.insert s.id
        (ActiveMCPServer.start s b.invalidToolPolicy b.gatewayCACertPEM b.started) b.mcpServers
      started := b.started + 1 }

lemma foldl_addMissing_eq (servers : List MCPServer) (b : MCPBroker) :
    ∃ managers n, servers.foldl addMissing b = { b with mcpServers := managers, started := n } := by
  induction servers generalizing b with
  | nil => exact ⟨b.mcpServers, b.started, rfl⟩
  | cons s rest ih =>
    obtain ⟨managers, n, h⟩ := ih (addMissing b s)
    refine ⟨managers, n, h.trans ?_⟩
    unfold addMissing
    split <;> rfl

/-- Phase 3: start the missing managers and refresh what is derived from the configuration. -/
def startManagers (servers : List MCPServer) (virtualServers : List VirtualServer) : BrokerM Unit :=
  withLock do
    TraceM.modify fun b => servers.foldl addMissing b
    syncTagsTools servers
    TraceM.modify fun b =>
      { b with
        userSpecificServers := (servers.filter fun s => s.userSpecificList).map fun s =>
          { id := s.id, name := s.name, url := s.url, namePrefix := s.namePrefix }
        virtualServers := GoMap.ofPairs (virtualServers.map fun vs => (vs.name, vs)) }
    refreshRoutingTable

def onConfigChange (conf : MCPServersConfig) : BrokerM Unit := do
  let toStop ← deregisterStaleManagers conf.servers conf.gatewayCACertPEM
  TraceM.each toStop stopManager
  startManagers conf.servers conf.virtualServers

/-! ## Shutdown and readers -/

def shutdown : BrokerM Unit :=
  withRLock do
    let b ← TraceM.gets id
    TraceM.each b.mcpServers.pairs stopManager
    if b.discoveryEnabled then TraceM.emit .stopScopeStore else pure ()
    TraceM.emit .drainUserSessionPool

def registeredMCPServers : BrokerM (GoMap ActiveMCPServer) :=
  withRLock (TraceM.gets MCPBroker.mcpServers)

def upstreamsSnapshot : BrokerM (List ActiveMCPServer) :=
  withRLock (TraceM.gets fun b => b.mcpServers.values)

def toolAnnotations (serverID tool : String) : BrokerM (Option ToolAnnotation) :=
  withRLock (TraceM.gets fun b =>
    (b.mcpServers.lookup serverID).bind fun up =>
      (up.getServedManagedTool tool).map fun _ =>
        (up.toolHints.lookup tool).getD ⟨none, none, none, none⟩)

def longestPrefix (tool : String) (best : Option MCPServer) (up : ActiveMCPServer) : Option MCPServer :=
  let cfg := up.config
  if cfg.userSpecificList && cfg.namePrefix ≠ "" && hasPrefix tool cfg.namePrefix then
    match best with
    | none => some cfg
    | some b => if (bytes b.namePrefix).length < (bytes cfg.namePrefix).length then some cfg else some b
  else best

def getServerInfo (tool : String) : BrokerM (Except String MCPServer) :=
  withRLock (TraceM.gets fun b =>
    match b.mcpServers.values.find? fun up => (up.getServedManagedTool tool).isSome with
    | some up => .ok up.config
    | none =>
      match b.mcpServers.values.foldl (longestPrefix tool) none with
      | some cfg => .ok cfg
      | none => .error ("tool name " ++ quote tool ++ " doesn't match any configured server"))

def getServerInfoByPrompt (prompt : String) : BrokerM (Except String MCPServer) :=
  withRLock (TraceM.gets fun b =>
    match b.mcpServers.values.find? fun up => (up.getServedManagedPrompt prompt).isSome with
    | some up => .ok up.config
    | none => .error ("prompt name " ++ quote prompt ++ " doesn't match any configured server"))

structure StatusResponse where
  servers : List ServerValidationStatus
  overallValid : Bool
  totalServers : Nat
  healthyServers : Nat
  unHealthyServers : Nat
  toolConflicts : Nat
  scopedSessions : Nat

def validateAllServers : BrokerM StatusResponse :=
  withRLock (TraceM.gets fun b =>
    let statuses := b.mcpServers.values.map fun up => up.manager.status
    { servers := statuses
      overallValid := statuses.all fun s => s.ready
      totalServers := statuses.length
      healthyServers := (statuses.filter fun s => s.ready).length
      unHealthyServers := (statuses.filter fun s => !s.ready).length
      toolConflicts := 0
      scopedSessions := if b.discoveryEnabled then b.scopeStore.scopes.pairs.length else 0 })

def isReady : BrokerM Bool :=
  withRLock (TraceM.gets fun b =>
    b.mcpServers.values.isEmpty || b.mcpServers.values.any fun up => up.manager.status.ready)

/-- The servers a per-user tool fetch asks; the fetches themselves run without the lock. -/
def userSpecificSnapshot : BrokerM (List UserSpecificServer) :=
  withRLock (TraceM.gets MCPBroker.userSpecificServers)

end McpGateway.Broker
