import McpGateway.Broker.Reload

/-!
# Who takes `mcpLock` when

Every operation of the broker, with the trace of `mcpLock` it leaves from any state.  `RWMutex` is not
reentrant, and a reader that asks again while a writer waits never gets the lock, so an operation must
neither acquire the lock while it holds it nor wait for a manager meanwhile.

- `trace_getVisibleToolNames`: deciding what a caller may see takes the lock once for every server in
  the caller's signed capabilities.
- `lockSafe_iff`: exactly which operations keep the discipline in which states.
-/

namespace McpGateway.Broker

open Go Config Upstream Session TraceM BrokerEv Lock

inductive Operation where
  | onConfigChange (conf : MCPServersConfig)
  | shutdown
  | discoverTools (req : CallToolRequest)
  | selectTools (now : Time) (req : CallToolRequest)
  | listTags (req : CallToolRequest)
  | filterToolsByTags (req : CallToolRequest)
  | filterTools (headers : HttpHeader) (now : Time) (sessionID : String) (tools : List Tool)
  | filterPrompts (headers : HttpHeader) (prompts : List Prompt)
  | userSpecificSnapshot
  | registeredMCPServers
  | upstreamsSnapshot
  | toolAnnotations (serverID tool : String)
  | getServerInfo (tool : String)
  | getServerInfoByPrompt (prompt : String)
  | validateAllServers
  | isReady
  | routingTable
  /-- a manager's pass adds or deletes tools or prompts -/
  | tableChange (names : List String)

def Operation.trace (b : MCPBroker) : Operation → List BrokerEv
  | .onConfigChange conf => (Broker.onConfigChange conf).trace b
  | .shutdown => Broker.shutdown.trace b
  | .discoverTools req => (handleDiscoverTools req).trace b
  | .selectTools now req => (handleSelectTools now req).trace b
  | .listTags req => (handleListTags req).trace b
  | .filterToolsByTags req => (handleFilterToolsByTags req).trace b
  | .filterTools headers now sessionID tools =>
    (Broker.filterTools headers now sessionID tools).trace b
  | .filterPrompts headers prompts => (Broker.filterPrompts headers prompts).trace b
  | .userSpecificSnapshot => Broker.userSpecificSnapshot.trace b
  | .registeredMCPServers => Broker.registeredMCPServers.trace b
  | .upstreamsSnapshot => Broker.upstreamsSnapshot.trace b
  | .toolAnnotations serverID tool => (Broker.toolAnnotations serverID tool).trace b
  | .getServerInfo tool => (Broker.getServerInfo tool).trace b
  | .getServerInfoByPrompt prompt => (Broker.getServerInfoByPrompt prompt).trace b
  | .validateAllServers => Broker.validateAllServers.trace b
  | .isReady => Broker.isReady.trace b
  | .routingTable => Broker.routingTable.trace b
  | .tableChange names => (notifyTableChange names).trace b

/-- The operation never acquires `mcpLock` while it holds it, and never waits for a manager to stop
while it holds it. -/
def Operation.LockDisciplined (op : Operation) (b : MCPBroker) : Prop :=
  Lock.disciplined BrokerEv.act 0 (op.trace b) = true

/-! ## The lock inside the capability filter -/

def MCPBroker.capabilityServers (b : MCPBroker) (headers : HttpHeader) (kind : String) :
    List (String × List String) :=
  match (headers.lookup authorizedCapabilitiesHeader).bind b.parseAuthorizedCapabilitiesJWT with
  | some capabilities => ((capabilities.lookup kind).getD ∅).pairs
  | none => []

def lookups (xs : List (String × List String)) : List BrokerEv :=
  xs.flatMap fun _ => [.rlock, .runlock]

lemma disciplined_lookups (xs : List (String × List String)) :
    disciplined act 0 (lookups xs) = true := by
  induction xs with
  | nil => rfl
  | cons x xs ih => exact ih

lemma disciplined_lookups_held (xs : List (String × List String)) (es : List BrokerEv) :
    disciplined act 1 (lookups xs ++ es) =
      (xs.isEmpty && disciplined act 1 es) := by
  cases xs with
  | nil => rfl
  | cons x xs => exact not_disciplined_acquire rfl (by decide)

lemma trace_allowedNames (xs : List (String × List String)) (b : MCPBroker) :
    (allowedNames xs).trace b = lookups xs ∧ (allowedNames xs).final b = b := by
  induction xs with
  | nil => exact ⟨rfl, rfl⟩
  | cons x xs ih =>
    obtain ⟨serverName, toolNames⟩ := x
    simp only [allowedNames, findServerByName, withRLock, trace_bind, final_bind,
      trace_bracket, result_bracket, final_bracket, trace_gets,
      result_gets, final_gets, ih, nil_append]
    constructor
    · split <;> simp [lookups]
    · split <;> rfl

lemma trace_applyAuthorizedCapabilitiesFilter (headers : HttpHeader) (tools : List Tool)
    (b : MCPBroker) :
    (applyAuthorizedCapabilitiesFilter headers tools).trace b =
        lookups (b.capabilityServers headers "tools") ∧
      (applyAuthorizedCapabilitiesFilter headers tools).final b = b := by
  unfold applyAuthorizedCapabilitiesFilter MCPBroker.capabilityServers
  simp only [trace_bind, final_bind, trace_gets, result_gets,
    final_gets, nil_append, id_eq]
  cases headers.lookup authorizedCapabilitiesHeader with
  | none => exact ⟨rfl, rfl⟩
  | some values =>
    simp only [Option.bind_some]
    cases b.parseAuthorizedCapabilitiesJWT values with
    | none => exact ⟨rfl, rfl⟩
    | some capabilities =>
      dsimp only
      cases capabilities.lookup "tools" with
      | none => exact ⟨rfl, rfl⟩
      | some allowed =>
        obtain ⟨htrace, hfinal⟩ := trace_allowedNames allowed.pairs b
        simp [filterToolsByServerMap, htrace, hfinal]

lemma trace_getVisibleToolNames (headers : HttpHeader) (b : MCPBroker) :
    (getVisibleToolNames headers).trace b = lookups (b.capabilityServers headers "tools") ∧
      (getVisibleToolNames headers).final b = b := by
  obtain ⟨htrace, hfinal⟩ :=
    trace_applyAuthorizedCapabilitiesFilter headers b.collectAllPrefixedTools b
  simp [getVisibleToolNames, htrace, hfinal]

lemma trace_filterPromptsByServerMap (xs : List (String × List String)) (b : MCPBroker) :
    (filterPromptsByServerMap xs).trace b = lookups xs ∧ (filterPromptsByServerMap xs).final b = b := by
  induction xs with
  | nil => exact ⟨rfl, rfl⟩
  | cons x xs ih =>
    obtain ⟨serverName, promptNames⟩ := x
    simp only [filterPromptsByServerMap, findServerByName, withRLock, trace_bind,
      final_bind, trace_bracket, result_bracket, final_bracket,
      trace_gets, result_gets, final_gets, ih, nil_append]
    constructor
    · split <;> simp [lookups]
    · split <;> rfl

lemma trace_applyAuthorizedCapabilitiesFilterForPrompts (headers : HttpHeader)
    (prompts : List Prompt) (b : MCPBroker) :
    (applyAuthorizedCapabilitiesFilterForPrompts headers prompts).trace b =
      lookups (b.capabilityServers headers "prompts") := by
  unfold applyAuthorizedCapabilitiesFilterForPrompts MCPBroker.capabilityServers
  simp only [trace_bind, trace_gets, result_gets, final_gets,
    nil_append, id_eq]
  cases headers.lookup authorizedCapabilitiesHeader with
  | none => rfl
  | some values =>
    simp only [Option.bind_some]
    cases b.parseAuthorizedCapabilitiesJWT values with
    | none => rfl
    | some capabilities =>
      dsimp only
      cases capabilities.lookup "prompts" with
      | none => rfl
      | some allowed => exact (trace_filterPromptsByServerMap allowed.pairs b).1

/-! ## The broker's tools

Each handler that gets as far as the lock asks for the visible names while it holds it. -/

/-- The trace of a critical section that asks for the visible names, and of what follows it. -/
def visibleSection (b : MCPBroker) (headers : HttpHeader) (after : List BrokerEv) : List BrokerEv :=
  .rlock :: (lookups (b.capabilityServers headers "tools") ++ .runlock :: after)

variable {after : List BrokerEv}

lemma disciplined_visibleSection (b : MCPBroker) (headers : HttpHeader)
    (hafter : Lock.Quiet act after) :
    disciplined act 0 (visibleSection b headers after) =
      (b.capabilityServers headers "tools").isEmpty := by
  have hsection : disciplined act 0 (visibleSection b headers after) =
      disciplined act 1
        (lookups (b.capabilityServers headers "tools") ++ .runlock :: after) := rfl
  have htail : disciplined act 1 (.runlock :: after) = true := hafter.disciplined 0
  rw [hsection, disciplined_lookups_held, htail, Bool.and_true]

lemma trace_handleDiscoverTools (req : CallToolRequest) (b : MCPBroker) :
    (handleDiscoverTools req).trace b =
      bif (unmarshalArguments req).isSome then visibleSection b req.headers [] else [] := by
  unfold handleDiscoverTools
  cases unmarshalArguments req with
  | none => rfl
  | some args =>
    have hvisible := (trace_getVisibleToolNames req.headers b).1
    simp [withRLock, buildDiscoverResponse, hvisible, visibleSection]

/-- The names of a `select_tools` call that is neither refused for its form nor a reset. -/
def selectedNames (req : CallToolRequest) : Option (List String) :=
  (req.sessionID.bind fun _ => unmarshalArguments req).bind fun args =>
    (parseToolNames (args.lookup "tools")).filter fun names =>
      decide (names.length ≤ maxSelectTools) && decide (names ≠ [])

lemma trace_selectScope (now : Time) (sessionID : String) (names : List String)
    (headers : HttpHeader) (b : MCPBroker) :
    ∃ after, Lock.Quiet act after ∧
      (selectScope now sessionID names headers).trace b = visibleSection b headers after := by
  obtain ⟨htrace, -⟩ := trace_getVisibleToolNames headers b
  have hvalidate : (validateToolSelectionLocked names headers).trace b =
      lookups (b.capabilityServers headers "tools") := by
    simp [validateToolSelectionLocked, htrace]
  by_cases hvalid : (validateToolSelectionLocked names headers).result b = true
  · refine ⟨[.toolsListChanged sessionID], fun e he => ?_, ?_⟩
    · rw [mem_singleton.1 he]
      rfl
    · simp [selectScope, withRLock, hvalidate, hvalid, setScope, visibleSection]
  · refine ⟨[], fun e he => by simp at he, ?_⟩
    simp [selectScope, withRLock, hvalidate, hvalid, visibleSection]

lemma trace_handleSelectTools (now : Time) (req : CallToolRequest) (b : MCPBroker) : ∃ after,
    Lock.Quiet act after ∧ (handleSelectTools now req).trace b =
    bif (selectedNames req).isSome then visibleSection b req.headers after else after := by
  have hquiet : Lock.Quiet act [] := fun e he => by simp at he
  unfold handleSelectTools selectedNames
  cases req.sessionID with
  | none => exact ⟨[], hquiet, rfl⟩
  | some sessionID =>
    simp only [Option.bind_some]
    cases unmarshalArguments req with
    | none => exact ⟨[], hquiet, rfl⟩
    | some args =>
      simp only [Option.bind_some]
      cases parseToolNames (args.lookup "tools") with
      | none => exact ⟨[], hquiet, rfl⟩
      | some names =>
        dsimp only
        by_cases hmany : maxSelectTools < names.length
        · refine ⟨[], hquiet, ?_⟩
          simp [hmany, Option.filter, Nat.not_le.2 hmany]
        · by_cases hempty : names = []
          · refine ⟨[.toolsListChanged sessionID], fun e he => ?_, ?_⟩
            · rw [mem_singleton.1 he]
              rfl
            · simp [hempty, Option.filter, resetScope, maxSelectTools]
          · obtain ⟨after, hafter, htrace⟩ := trace_selectScope now sessionID names req.headers b
            refine ⟨after, hafter, ?_⟩
            simp [hmany, hempty, Option.filter, htrace, Nat.not_lt.1 hmany]

lemma trace_handleListTags (req : CallToolRequest) (b : MCPBroker) :
    (handleListTags req).trace b = visibleSection b req.headers [] := by
  have hvisible := (trace_getVisibleToolNames req.headers b).1
  simp [handleListTags, withRLock, hvisible, visibleSection]

/-- The tags of a `filter_tools_by_tags` call that is not refused for its form. -/
def requestedTags (req : CallToolRequest) : Option (List String) :=
  (unmarshalArguments req).bind fun args => (parseTags args).toOption

lemma trace_handleFilterToolsByTags (req : CallToolRequest) (b : MCPBroker) :
    (handleFilterToolsByTags req).trace b =
      bif (requestedTags req).isSome then visibleSection b req.headers [] else [] := by
  have hvisible := (trace_getVisibleToolNames req.headers b).1
  unfold handleFilterToolsByTags requestedTags
  cases unmarshalArguments req with
  | none => rfl
  | some args =>
    simp only [Option.bind_some]
    cases parseTags args with
    | error text => rfl
    | ok tags => simp [withRLock, hvisible, visibleSection, Except.toOption]

/-! ## Reloads and shutdown -/

lemma trace_stopManagers (entries : List (String × ActiveMCPServer)) (b : MCPBroker) :
    (TraceM.each entries stopManager).trace b = entries.map fun e => .stop e.1 := by
  induction entries generalizing b with
  | nil => rfl
  | cons e rest ih =>
    have hstop : (stopManager e).trace b = [.stop e.1] := by
      simp only [stopManager, trace_bind, trace_emit, trace_modify,
        nil_append]
      split <;> rfl
    simp [TraceM.each, hstop, ih]

lemma tags_stopManagers (entries : List (String × ActiveMCPServer)) (b : MCPBroker) :
    ((TraceM.each entries stopManager).final b).tagsToolsRegistered = b.tagsToolsRegistered := by
  induction entries generalizing b with
  | nil => rfl
  | cons e rest ih =>
    have hstop : ((stopManager e).final b).tagsToolsRegistered = b.tagsToolsRegistered := by
      simp only [stopManager, final_bind, final_emit, final_modify]
      split <;> split <;> rfl
    rw [TraceM.each, final_bind, ih, hstop]

lemma trace_syncTagsTools (servers : List MCPServer) (b : MCPBroker) : (syncTagsTools servers).trace b =
    if hasTags servers = b.tagsToolsRegistered then [] else [.rlock, .runlock] := by
  rcases htags : hasTags servers <;> rcases hreg : b.tagsToolsRegistered <;>
    simp [syncTagsTools, htags, hreg, registerTagsTools, notifyTableChange, onTableChange,
      withRLock, refreshRoutingTable]

lemma trace_startManagers (servers : List MCPServer) (virtualServers : List VirtualServer)
    (b : MCPBroker) :
    (startManagers servers virtualServers).trace b = .lock ::
      ((if hasTags servers = b.tagsToolsRegistered then [] else [.rlock, .runlock]) ++ [.unlock]) := by
  obtain ⟨managers, n, hstarted⟩ := foldl_addMissing_eq servers b
  simp [startManagers, withLock, trace_syncTagsTools, refreshRoutingTable, hstarted]

lemma trace_onConfigChange (conf : MCPServersConfig) (b : MCPBroker) :
    ∃ entries : List (String × ActiveMCPServer), (onConfigChange conf).trace b =
      [.lock, .unlock] ++ (entries.map fun e => stop e.1) ++ .lock ::
        ((if hasTags conf.servers = b.tagsToolsRegistered then [] else [.rlock, .runlock]) ++
          [.unlock]) := by
  have hphase : (deregisterStaleManagers conf.servers conf.gatewayCACertPEM).trace b =
      [.lock, .unlock] := rfl
  have htags : ((deregisterStaleManagers conf.servers conf.gatewayCACertPEM).final
      b).tagsToolsRegistered = b.tagsToolsRegistered := rfl
  refine ⟨(deregisterStaleManagers conf.servers conf.gatewayCACertPEM).result b, ?_⟩
  simp only [onConfigChange, trace_bind, hphase, trace_stopManagers, trace_startManagers,
    tags_stopManagers, htags, append_assoc]

/-! ## The discipline -/

/-- When an operation keeps the discipline: a reload must not change whether the tag tools are
registered, a shutdown must find no manager, and a call of a broker tool that gets as far as the lock
must come without signed capabilities for the tools of any server. -/
def Operation.lockSafe (b : MCPBroker) : Operation → Bool
  | .onConfigChange conf => hasTags conf.servers = b.tagsToolsRegistered
  | .shutdown => b.mcpServers.pairs.isEmpty
  | .discoverTools req =>
    !(unmarshalArguments req).isSome || (b.capabilityServers req.headers "tools").isEmpty
  | .selectTools _ req =>
    !(selectedNames req).isSome || (b.capabilityServers req.headers "tools").isEmpty
  | .listTags req => (b.capabilityServers req.headers "tools").isEmpty
  | .filterToolsByTags req =>
    !(requestedTags req).isSome || (b.capabilityServers req.headers "tools").isEmpty
  | _ => true

lemma disciplined_onConfigChange (conf : MCPServersConfig) (b : MCPBroker) :
    disciplined act 0 ((onConfigChange conf).trace b) =
    decide (hasTags conf.servers = b.tagsToolsRegistered) := by
  obtain ⟨entries, htrace⟩ := trace_onConfigChange conf b
  -- phases 1 and 2 end with the lock free, whatever there is to stop
  have hstops : ∀ es, disciplined act 0
      ((entries.map fun e => stop e.1) ++ es) = disciplined act 0 es := by
    intro es
    clear htrace
    induction entries with
    | nil => rfl
    | cons e rest ih => exact ih
  have hphases : disciplined act 0 ((onConfigChange conf).trace b) =
      disciplined act 0 (.lock ::
        ((if hasTags conf.servers = b.tagsToolsRegistered then [] else [.rlock, .runlock]) ++
          [.unlock])) := by
    rw [htrace, append_assoc]
    exact hstops _
  rw [hphases]
  by_cases htags : hasTags conf.servers = b.tagsToolsRegistered
  · simp [htags]
    rfl
  · simp [htags]
    rfl

lemma disciplined_shutdown (b : MCPBroker) :
    disciplined act 0 (shutdown.trace b) = b.mcpServers.pairs.isEmpty := by
  have htrace : shutdown.trace b = .rlock :: ((b.mcpServers.pairs.map fun e => stop e.1) ++
      ((if b.discoveryEnabled then [.stopScopeStore] else []) ++ [.drainUserSessionPool, .runlock])) := by
    by_cases hd : b.discoveryEnabled = true
    · simp [shutdown, withRLock, trace_stopManagers, hd]
    · simp [shutdown, withRLock, trace_stopManagers, hd]
  rw [htrace]
  cases b.mcpServers.pairs with
  | cons e rest => rfl
  | nil => cases b.discoveryEnabled <;> rfl

lemma disciplined_reader {α : Type} (f : MCPBroker → α) (b : MCPBroker) :
    disciplined act 0 ((withRLock (TraceM.gets f)).trace b) = true := rfl

lemma disciplined_filterTools (headers : HttpHeader) (now : Time) (sessionID : String)
    (tools : List Tool) (b : MCPBroker) :
    disciplined act 0 ((filterTools headers now sessionID tools).trace b) = true := by
  unfold filterTools
  by_cases hempty : tools.isEmpty = true
  · simp [hempty, disciplined]
  · simp [hempty, (trace_applyAuthorizedCapabilitiesFilter headers tools b).1, disciplined_lookups]

lemma disciplined_filterPrompts (headers : HttpHeader) (prompts : List Prompt) (b : MCPBroker) :
    disciplined act 0 ((filterPrompts headers prompts).trace b) = true := by
  unfold filterPrompts
  by_cases hempty : prompts.isEmpty = true
  · simp [hempty, disciplined]
  · simp [hempty, trace_applyAuthorizedCapabilitiesFilterForPrompts headers prompts b,
      disciplined_lookups]

lemma disciplined_handler {reaches : Bool} {b : MCPBroker} {headers : HttpHeader} (hafter : Lock.Quiet act after) :
    disciplined act 0 (bif reaches then visibleSection b headers after else after) =
      (!reaches || (b.capabilityServers headers "tools").isEmpty) := by
  cases reaches with
  | false => exact hafter.disciplined 0
  | true => exact disciplined_visibleSection b headers hafter

lemma disciplined_selectTools (now : Time) (req : CallToolRequest) (b : MCPBroker) :
    disciplined act 0 ((handleSelectTools now req).trace b) =
      (!(selectedNames req).isSome || (b.capabilityServers req.headers "tools").isEmpty) := by
  obtain ⟨after, hafter, htrace⟩ := trace_handleSelectTools now req b
  rw [htrace, disciplined_handler hafter]

lemma disciplined_routingTable (b : MCPBroker) :
    disciplined act 0 (routingTable.trace b) = true := by
  unfold routingTable
  simp only [trace_bind, trace_gets, result_gets, nil_append]
  cases b.cachedTable with
  | some t => rfl
  | none => rfl

lemma disciplined_tableChange (names : List String) (b : MCPBroker) :
    disciplined act 0 ((notifyTableChange names).trace b) = true := by
  unfold notifyTableChange
  split <;> rfl

theorem lockSafe_iff (op : Operation) (b : MCPBroker) :
    op.LockDisciplined b ↔ op.lockSafe b = true := by
  have hquiet : Lock.Quiet BrokerEv.act [] := fun e he => by simp at he
  have hdisciplined : Lock.disciplined BrokerEv.act 0 (op.trace b) = op.lockSafe b := by
    cases op with
    | onConfigChange conf => exact disciplined_onConfigChange conf b
    | shutdown => exact disciplined_shutdown b
    | discoverTools req =>
      exact (congrArg _ (trace_handleDiscoverTools req b)).trans (disciplined_handler hquiet)
    | selectTools now req => exact disciplined_selectTools now req b
    | listTags req =>
      exact (congrArg _ (trace_handleListTags req b)).trans
        (disciplined_visibleSection b req.headers hquiet)
    | filterToolsByTags req =>
      exact (congrArg _ (trace_handleFilterToolsByTags req b)).trans (disciplined_handler hquiet)
    | filterTools headers now sessionID tools =>
      exact disciplined_filterTools headers now sessionID tools b
    | filterPrompts headers prompts => exact disciplined_filterPrompts headers prompts b
    | routingTable => exact disciplined_routingTable b
    | tableChange names => exact disciplined_tableChange names b
    | _ => exact disciplined_reader _ b
  rw [Operation.LockDisciplined, hdisciplined]

def freshBroker : MCPBroker where
  scopeStore := { ttl := 3600, maxSize := 10000 }
  discoveryEnabled := true
  discoveryThreshold := 0
  enforceCapabilityFilter := false
  trustedHeadersPublicKey := ""
  invalidToolPolicy := .filterOut
  validateJWTHeader := fun _ _ => none

def taggedConfig : MCPServersConfig where
  servers := [{ name := "weather", url := "http://weather/mcp", tags := ["forecast"] }]

/-- The first reload that brings a tag registers the tag tools inside the write lock, and the
callback of the registration asks for the read lock. -/
theorem taggedReload_relocks :
    ¬ (Operation.onConfigChange taggedConfig).LockDisciplined freshBroker := by
  have htags : hasTags taggedConfig.servers = true := by decide
  have hregistered : freshBroker.tagsToolsRegistered = false := rfl
  rw [Operation.LockDisciplined, Operation.trace, disciplined_onConfigChange, htags, hregistered]
  decide

end McpGateway.Broker
