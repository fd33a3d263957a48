import McpGateway.Broker.Filter

/-!
# The broker's own tools

The handlers of `discover_tools`, `select_tools`, `list_tags` and `filter_tools_by_tags`.  Each takes
`mcpLock` for reading and asks which tools the caller may see while it holds it.
-/

namespace McpGateway.Broker

open Go Upstream Session

def maxSelectTools : Nat := 250

structure CallToolRequest where
  sessionID : Option String
  arguments : Bytes
  headers : HttpHeader

/-- One server in the answer of `discover_tools`. -/
structure ServerInfo where
  name : String
  categories : List String
  hint : String
  tools : List String
  deriving DecidableEq, Repr

inductive ToolResult where
  | error (text : String)
  | servers (infos : List ServerInfo)
  | selection (status : String) (tools : Option (List String))
  | tags (tags : List String)
  | tools (tools : List Tool)

def unmarshalArguments (req : CallToolRequest) : Option (GoMap Any) :=
  if req.arguments = [] then some ∅
  else ((Json.parse req.arguments).bind fun v => Struct.decodeMap v none).map fun m => m.getD ∅

/-! ## The tools themselves -/

def brokerServerID : String := "broker"

def brokerTool (name description : String) (inputSchema : List (String × Any)) : Tool where
  name := name
  description := description
  inputSchema := .map inputSchema
  metadata := some [(brokerToolMetaKey, .bool true), (gatewayServerID, .string brokerServerID)]

def discoverTool : Tool :=
  brokerTool discoverToolsName
    ("Browse available servers and tools. Returns server names, categories, hints, and tool names " ++
      "without full schemas. Use the optional category parameter to filter by category.")
    [("type", .string "object"), ("properties", .map [("category", .map [("type", .string "string"),
        ("description", .string ("Filter servers by category (case-insensitive match against any " ++
          "element in the server's category list)"))])])]

def selectTool : Tool :=
  brokerTool selectToolsName
    ("Scope your session to a specific set of tools. After calling this, subsequent tools/list calls " ++
      "will return only the selected tools with full schemas. Pass an empty list to reset to the " ++
      "full tool set.")
    [("type", .string "object"), ("properties", .map [("tools", .map [("type", .string "array"),
        ("description", .string ("List of tool names to include in your session scope. Pass an empty " ++
          "array to reset to the full tool set.")),
        ("items", .map [("type", .string "string")])])]),
      ("required", .slice [.string "tools"])]

def listTagsTool : Tool :=
  brokerTool listTagsName "List all tags across registered MCP servers" [("type", .string "object")]

def filterByTagsTool : Tool :=
  brokerTool filterToolsByTagsName
    "Return tools available through the gateway that match all of the given tags"
    [("type", .string "object"), ("properties", .map [("tags", .map [("type", .string "array"),
        ("description", .string "list of tags to filter by (must not be empty)"),
        ("items", .map [("type", .string "string")])])]),
      ("required", .slice [.string "tags"])]

/-- What `registerDiscoveryTools` adds. -/
def discoveryTools : List Tool := [discoverTool, selectTool]

/-- What `registerTagsTools` adds. -/
def tagsTools : List Tool := [listTagsTool, filterByTagsTool]

def MCPBroker.brokerTools (b : MCPBroker) : List Tool :=
  (if b.discoveryEnabled then discoveryTools else []) ++ (if b.tagsToolsRegistered then tagsTools else [])

/-! ## Visible tools -/

/-- The tools of all managers under their served names.  Must be called with `mcpLock` held. -/
def MCPBroker.collectAllPrefixedTools (b : MCPBroker) : List Tool :=
  b.mcpServers.values.flatMap fun up => up.getManagedTools.map fun tool =>
    { name := up.config.namePrefix ++ tool.name
      metadata := some [(gatewayServerID, .string up.config.id)] }

/-- The names the caller may see.  Must be called with `mcpLock` held. -/
def getVisibleToolNames (headers : HttpHeader) : BrokerM (List String) := do
  let b ← TraceM.gets id
  let filtered ← applyAuthorizedCapabilitiesFilter headers b.collectAllPrefixedTools
  pure ((b.applyVirtualServerFilter headers filtered).map Tool.name)

def visibleToolNames (up : ActiveMCPServer) (visible : List String) : List String :=
  (up.getManagedTools.map fun tool => up.config.namePrefix ++ tool.name).filter visible.contains

/-! ## Discovery -/

def matchesCategory (serverCategories : List String) (filter : String) : Bool :=
  serverCategories.any fun cat => toLower cat = toLower filter

/-- What `discover_tools` says about one manager, if anything. -/
def serverInfoFor (visible : List String) (categoryFilter : String) (up : ActiveMCPServer) :
    Option ServerInfo :=
  let cfg := up.config
  if categoryFilter ≠ "" ∧ matchesCategory cfg.category categoryFilter = false then none
  else
    match visibleToolNames up visible with
    | [] => none
    | toolNames =>
      some { name := cfg.name
             categories := if cfg.category = [] then ["uncategorised"] else cfg.category
             hint := cfg.hint
             tools := toolNames }

def buildDiscoverResponse (headers : HttpHeader) (categoryFilter : String) :
    BrokerM (List ServerInfo) := do
  let visible ← getVisibleToolNames headers
  let b ← TraceM.gets id
  pure (b.mcpServers.values.filterMap (serverInfoFor visible categoryFilter))

def handleDiscoverTools (req : CallToolRequest) : BrokerM ToolResult :=
  match unmarshalArguments req with
  | none => pure (.error "invalid arguments")
  | some args => do
    let categoryFilter := ((args.lookup "category").bind Any.asString).getD ""
    let infos ← withRLock (buildDiscoverResponse req.headers categoryFilter)
    pure (.servers (infos.mergeSort fun a b => a.name ≤ b.name))

/-! ## Selection -/

/-- The `tools` argument of `select_tools`. -/
def parseToolNames : Option Any → Option (List String)
  | some (.slice elems) => elems.mapM Any.asString
  | _ => none

/-- Every requested tool is visible and none is a broker tool.  Must be called with `mcpLock` held. -/
def validateToolSelectionLocked (toolNames : List String) (headers : HttpHeader) : BrokerM Bool := do
  let visible ← getVisibleToolNames headers
  pure (toolNames.all fun name =>
    name ≠ discoverToolsName && name ≠ selectToolsName && visible.contains name)

def setScope (now : Time) (sessionID : String) (toolNames : List String) : BrokerM Unit :=
  TraceM.modify fun b => { b with scopeStore := b.scopeStore.setScope now sessionID toolNames }

def resetScope (now : Time) (sessionID : String) : BrokerM Unit :=
  TraceM.modify fun b => { b with scopeStore := b.scopeStore.resetScope now sessionID }

def selectScope (now : Time) (sessionID : String) (toolNames : List String) (headers : HttpHeader) :
    BrokerM ToolResult := do
  let valid ← withRLock do
    let valid ← validateToolSelectionLocked toolNames headers
    if valid then setScope now sessionID toolNames else pure ()
    pure valid
  if valid then do
    TraceM.emit (.toolsListChanged sessionID)
    pure (.selection ("scope set to " ++ itoa toolNames.length ++ " tools") (some toolNames))
  else pure (.error "tool not available")

def handleSelectTools (now : Time) (req : CallToolRequest) : BrokerM ToolResult :=
  match req.sessionID with
  | none => pure (.error "no active session")
  | some sessionID =>
    match unmarshalArguments req with
    | none => pure (.error "invalid arguments")
    | some args =>
      match parseToolNames (args.lookup "tools") with
      | none => pure (.error "invalid tools parameter")
      | some toolNames =>
        if maxSelectTools < toolNames.length then
          pure (.error ("too many tools requested (max " ++ itoa maxSelectTools ++ ")"))
        else if toolNames = [] then do
          resetScope now sessionID
          TraceM.emit (.toolsListChanged sessionID)
          pure (.selection "scope reset to all tools" none)
        else selectScope now sessionID toolNames req.headers

/-! ## Tags -/

def handleListTags (req : CallToolRequest) : BrokerM ToolResult := do
  let tags ← withRLock do
    let visible ← getVisibleToolNames req.headers
    let b ← TraceM.gets id
    pure (b.mcpServers.values.flatMap fun up =>
      if visibleToolNames up visible = [] then [] else up.config.tags)
  pure (.tags (tags.dedup.mergeSort fun a b => a ≤ b))

def hasAllTags (serverTags required : List String) : Bool :=
  required.all serverTags.contains

/-- The `tags` argument of `filter_tools_by_tags`, or why it is refused. -/
def parseTags (args : GoMap Any) : Except String (List String) :=
  match args.lookup "tags" with
  | none => .error "missing required parameter: tags"
  | some (.slice []) => .error "tags must not be empty"
  | some (.slice elems) => elems.mapM fun v =>
    match v.asString with
    | none => .error "tags must be an array of strings"
    | some "" => .error "tags must not contain empty strings"
    | some tag => .ok tag
  | some _ => .error "tags must be an array"

def taggedTools (filterTags visible : List String) (up : ActiveMCPServer) : List Tool :=
  if hasAllTags up.config.tags filterTags then
    (up.getManagedTools.map fun tool =>
      { tool with name := up.config.namePrefix ++ tool.name }).filter fun t => visible.contains t.name
  else []

def handleFilterToolsByTags (req : CallToolRequest) : BrokerM ToolResult :=
  match unmarshalArguments req with
  | none => pure (.error "invalid arguments")
  | some args =>
    match parseTags args with
    | .error text => pure (.error text)
    | .ok filterTags => do
      let (visible, refs) ← withRLock do
        let visible ← getVisibleToolNames req.headers
        let b ← TraceM.gets id
        pure (visible, b.mcpServers.values)
      pure (.tools (refs.flatMap (taggedTools filterTags visible)))

end McpGateway.Broker
