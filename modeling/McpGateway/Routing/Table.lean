import McpGateway.Config.Types
import McpGateway.Routing.Request

/-!
# Routing table and decisions

The snapshot the broker publishes for the router, and the values a routing decision is made of.
-/

namespace McpGateway.Routing

open Go Config

structure ServerRoute where
  name : String
  host : String
  namePrefix : String := ""
  url : String := ""
  tokenURLElicitation : Option String := none
  userSpecificList : Bool := false
  deriving DecidableEq, Repr

/-- The hints of a tool; `none` means unspecified. -/
structure ToolAnnotation where
  readOnlyHint : Option Bool
  destructiveHint : Option Bool
  idempotentHint : Option Bool
  openWorldHint : Option Bool
  deriving DecidableEq, Repr

/-- A routing table.  `prefixes` lists its entries in the order in which this lookup happens to visit
the map. -/
structure Table where
  tools : GoMap ServerRoute := ∅
  prompts : GoMap ServerRoute := ∅
  prefixes : List (String × ServerRoute) := []
  brokerTools : List String := []
  annotations : GoMap ToolAnnotation := ∅

namespace Table

variable (t : Table)

def lookupTool (name : String) : Option ServerRoute :=
  t.tools.lookup name

def lookupPrompt (name : String) : Option ServerRoute :=
  t.prompts.lookup name

def lookupPrefix (name : String) : Option ServerRoute :=
  (t.prefixes.find? fun p => hasPrefix name p.1).map Prod.snd

def isBrokerTool (name : String) : Bool :=
  t.brokerTools.contains name

def annotationKey (serverID toolName : String) : String :=
  serverID ++ "/" ++ toolName

def toolAnnotations (serverID toolName : String) : Option ToolAnnotation :=
  t.annotations.lookup (annotationKey serverID toolName)

def routeOf (toolName : String) : Option ServerRoute :=
  (t.lookupTool toolName).or (t.lookupPrefix toolName)

def routes : List ServerRoute :=
  t.tools.values ++ t.prompts.values ++ t.prefixes.map Prod.snd

end Table

def routeToMCPServer (route : ServerRoute) : MCPServer where
  name := route.name
  hostname := route.host
  namePrefix := route.namePrefix
  url := route.url
  userSpecificList := route.userSpecificList
  tokenURLElicitation := route.tokenURLElicitation.map fun u => ⟨u⟩

/-! ## Decisions -/

structure RouteError where
  statusCode : Nat
  message : String := ""
  jsonRPCErr : String := ""
  deriving DecidableEq, Repr

/-- What Envoy is told to do with a request. -/
structure Decision where
  authority : String := ""
  path : String := ""
  setHeaders : GoMap String := ∅
  unsetHeaders : List String := []
  bodyMutation : Option Bytes := none
  error : Option RouteError := none
  brokerPass : Bool := false
  deriving DecidableEq

def Decision.reject (statusCode : Nat) (message : String) : Decision :=
  { error := some { statusCode, message } }

structure RouterError where
  statusCode : Nat
  text : String
  deriving DecidableEq, Repr

/-! ## Tool errors in event streams -/

def sseJSONRPC (requestID : Any) (body : String) : String :=
  "\nevent: message\ndata: \x7b\"jsonrpc\":\"2.0\",\"id\":" ++ text requestID.marshal ++ body ++ "\n\n"

def buildSSEToolError (requestID : Any) (message : String) : String :=
  sseJSONRPC requestID
    (",\"result\":\x7b\"content\":[\x7b\"type\":\"text\",\"text\":" ++ Go.quote message ++
      "\x7d],\"isError\":true\x7d\x7d")

def promptNotFound : String :=
  "\nevent: message\ndata: \x7b\"error\":\x7b\"code\":-32602,\"message\":\"Prompt not found\"\x7d," ++
    "\"jsonrpc\":\"2.0\"\x7d\n\n"

/-! ## Lookups stay in the table -/

variable {route : ServerRoute}

lemma Table.routeOf_mem {t : Table} {name : String}
    (h : t.routeOf name = some route) : route ∈ t.routes := by
  unfold Table.routeOf at h
  cases htool : t.lookupTool name with
  | some r =>
    have hr : r = route := by simpa [htool] using h
    subst hr
    simp [Table.routes, mem_values_iff.2 ⟨name, htool⟩]
  | none =>
    rw [htool, Option.none_or, Table.lookupPrefix, map_eq_some_iff] at h
    obtain ⟨p, hp, rfl⟩ := h
    have hmem := mem_of_find?_eq_some hp
    exact mem_append_right _ (mem_map.2 ⟨p, hmem, rfl⟩)

lemma Table.lookupPrompt_mem {t : Table} {name : String}
    (h : t.lookupPrompt name = some route) : route ∈ t.routes := by
  have hmem : route ∈ t.prompts.values := mem_values_iff.2 ⟨name, h⟩
  simp [Table.routes, hmem]

end McpGateway.Routing
