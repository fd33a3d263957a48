import McpGateway.Broker.State

/-!
# What a caller may see

The filters of tool lists: by the signed capabilities of the `x-mcp-authorized` header, by virtual
server, and by session scope.  `findServerByName` takes `mcpLock` for reading, so the first filter is
code with a trace.
-/

namespace McpGateway.Broker

open Go Config Routing Upstream Session

def authorizedCapabilitiesHeader : String := "X-Mcp-Authorized"
def virtualMCPHeader : String := "X-Mcp-Virtualserver"
def allowedCapabilitiesClaimKey : String := "allowed-capabilities"

/-! ## Capabilities -/

/-- `map[string]map[string][]string`: what is allowed, by kind and server. -/
abbrev Capabilities := GoMap (GoMap (List String))

/-- Decode a JSON value into a `[]string`. -/
def decodeNames : Json → Option (List String)
  | .null => some []
  | .arr elems => elems.mapM fun v => Struct.decodeString v ""
  | _ => none

/-- Decode an object into a map, the elements with `decode`; `null` is the nil map. -/
def decodeObject {α : Type} (decode : Json → Option α) : Json → Option (GoMap α)
  | .null => some ∅
  | .obj fields =>
    (fields.mapM fun f => (decode f.2).map fun v => (Json.unquote f.1, v)).map GoMap.ofPairs
  | _ => none

def decodeCapabilities (text : String) : Option Capabilities :=
  (Json.parse (bytes text)).bind (decodeObject (decodeObject decodeNames))

/-- The capabilities in the header, when there is exactly one value and its signature verifies. -/
def MCPBroker.parseAuthorizedCapabilitiesJWT (b : MCPBroker) (headerValues : List String) :
    Option Capabilities :=
  match headerValues with
  | [jwtValue] =>
    if jwtValue = "" ∨ b.trustedHeadersPublicKey = "" then none
    else
      (b.validateJWTHeader jwtValue b.trustedHeadersPublicKey).bind fun claims =>
        ((claims.lookup allowedCapabilitiesClaimKey).bind Any.asString).bind decodeCapabilities
  | _ => none

def findServerByName (name : String) : BrokerM (Option ActiveMCPServer) :=
  withRLock (TraceM.gets fun b => b.mcpServers.values.find? fun up => up.mcpName = name)

def allowedNames : List (String × List String) → BrokerM (List String)
  | [] => pure []
  | (serverName, toolNames) :: rest => do
    let up ← findServerByName serverName
    let more ← allowedNames rest
    match up with
    | none => pure more
    | some up => pure (toolNames.map (up.config.namePrefix ++ ·) ++ more)

def filterToolsByServerMap (allowedTools : GoMap (List String)) (tools : List Tool) :
    BrokerM (List Tool) := do
  let allowed ← allowedNames allowedTools.pairs
  pure (tools.filter fun t => allowed.contains t.name)

def applyAuthorizedCapabilitiesFilter (headers : HttpHeader) (tools : List Tool) :
    BrokerM (List Tool) := do
  let b ← TraceM.gets id
  match headers.lookup authorizedCapabilitiesHeader with
  | none => pure (if b.enforceCapabilityFilter then [] else tools)
  | some values =>
    match b.parseAuthorizedCapabilitiesJWT values with
    | none => pure []
    | some capabilities =>
      match capabilities.lookup "tools" with
      | none => pure (if b.enforceCapabilityFilter then [] else tools)
      | some allowedTools => filterToolsByServerMap allowedTools tools

def MCPBroker.virtualServerOf (b : MCPBroker) (headers : HttpHeader) : Option VirtualServer :=
  match headers.lookup virtualMCPHeader with
  | some [virtualServerID] => b.virtualServers.lookup virtualServerID
  | _ => none

def MCPBroker.applyVirtualServerFilter (b : MCPBroker) (headers : HttpHeader) (tools : List Tool) :
    List Tool :=
  match b.virtualServerOf headers with
  | none => tools
  | some vs => tools.filter fun t => vs.tools.contains t.name

/-! ## Session scopes -/

def isBrokerTool (tool : Tool) : Bool :=
  tool.name = discoverToolsName || tool.name = selectToolsName ||
    (match (tool.metadata.getD []).lookup brokerToolMetaKey with
      | some (.bool true) => true
      | _ => false)

def MCPBroker.applyThresholdFilter (b : MCPBroker) (tools : List Tool) : List Tool :=
  if b.discoveryThreshold ≤ 0 then tools
  else if ((tools.filter fun t => !isBrokerTool t).length : Int) ≤ b.discoveryThreshold then tools
  else tools.filter isBrokerTool

def MCPBroker.applyScopeFilter (b : MCPBroker) (now : Time) (sessionID : String)
    (tools : List Tool) : List Tool :=
  if sessionID = "" then b.applyThresholdFilter tools
  else
    match b.scopeStore.getScope now sessionID with
    | none => b.applyThresholdFilter tools
    | some scope => tools.filter fun t => isBrokerTool t || scope.contains t.name

def removeGatewayMeta (tool : Tool) : Tool :=
  match tool.metadata with
  | none | some [] => tool
  | some fields =>
    let cleaned := fields.filter fun f => f.1 ≠ gatewayServerID ∧ f.1 ≠ brokerToolMetaKey
    { tool with metadata := if cleaned = [] then none else some cleaned }

/-- The tools of a `tools/list` answer. -/
def filterTools (headers : HttpHeader) (now : Time) (sessionID : String) (tools : List Tool) :
    BrokerM (List Tool) := do
  if tools.isEmpty then pure []
  else do
    let b ← TraceM.gets id
    let tools ← applyAuthorizedCapabilitiesFilter headers tools
    let tools := b.applyVirtualServerFilter headers tools
    let tools := if b.discoveryEnabled then b.applyScopeFilter now sessionID tools else tools
    pure ((tools.filter fun t => t.name ≠ scopeChangeSentinelName).map removeGatewayMeta)

/-! ## Prompts -/

def filterPromptsByServerMap : List (String × List String) → BrokerM (List Prompt)
  | [] => pure []
  | (serverName, promptNames) :: rest => do
    let up ← findServerByName serverName
    let more ← filterPromptsByServerMap rest
    match up with
    | none => pure more
    | some up =>
      let kept := up.getManagedPrompts.filter fun p => promptNames.contains p.name
      pure (kept.map (fun p => { p with name := up.config.namePrefix ++ p.name }) ++ more)

def applyAuthorizedCapabilitiesFilterForPrompts (headers : HttpHeader) (prompts : List Prompt) :
    BrokerM (List Prompt) := do
  let b ← TraceM.gets id
  match headers.lookup authorizedCapabilitiesHeader with
  | none => pure (if b.enforceCapabilityFilter then [] else prompts)
  | some values =>
    match b.parseAuthorizedCapabilitiesJWT values with
    | none => pure []
    | some capabilities =>
      match capabilities.lookup "prompts" with
      | none => pure (if b.enforceCapabilityFilter then [] else prompts)
      | some allowedPrompts => filterPromptsByServerMap allowedPrompts.pairs

def MCPBroker.applyVirtualServerFilterForPrompts (b : MCPBroker) (headers : HttpHeader)
    (prompts : List Prompt) : List Prompt :=
  match b.virtualServerOf headers with
  | none => prompts
  | some vs => if vs.prompts.isEmpty then prompts else prompts.filter fun p => vs.prompts.contains p.name

def removeGatewayMetaFromPrompt (prompt : Prompt) : Prompt :=
  match prompt.metadata with
  | none | some [] => prompt
  | some fields =>
    let cleaned := fields.filter fun f => f.1 ≠ gatewayServerID
    { prompt with metadata := if cleaned = [] then none else some cleaned }

/-- The prompts of a `prompts/list` answer. -/
def filterPrompts (headers : HttpHeader) (prompts : List Prompt) : BrokerM (List Prompt) := do
  if prompts.isEmpty then pure []
  else do
    let b ← TraceM.gets id
    let prompts ← applyAuthorizedCapabilitiesFilterForPrompts headers prompts
    pure ((b.applyVirtualServerFilterForPrompts headers prompts).map removeGatewayMetaFromPrompt)

end McpGateway.Broker
