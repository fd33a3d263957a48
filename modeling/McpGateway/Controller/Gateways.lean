import McpGateway.Controller.Objects

/-!
# Extensions of a gateway

Which extensions count for a gateway, and to which of their listeners a route is attached: the
functions of `mcpgatewayextension.go`, with the checks of reference grants and listeners.
-/

namespace McpGateway.Controller

open Go Effect Kubernetes

/-- One call. -/
abbrev call (o : Op) : Ctl (Resp o) := Prog.call (S := kube) o

/-! ## Reference grants -/

/-- Whether the grant lets objects of the kind, in the namespace, refer to an object of the gateway
API. -/
def grantAllows (rg : ReferenceGrant) (kind ns toKind toName : String) : Bool :=
  (rg.sources.any fun f => f.group = mcpGroup && f.kind = kind && f.ns = ns) &&
    rg.targets.any fun t =>
      t.group = gatewayGroup && (t.kind = "" || t.kind = toKind) &&
        match t.name with
        | none => true
        | some name => name = "" || name = toName

def referenceGrantAllows (rg : ReferenceGrant) (mcpExt : MCPGatewayExtension) : Bool :=
  grantAllows rg "MCPGatewayExtension" mcpExt.ns "Gateway" mcpExt.spec.targetRef.name

def referenceGrantAllowsA2ARouteRef (rg : ReferenceGrant) (a2areg : A2AAgentRegistration) : Bool :=
  grantAllows rg "A2AAgentRegistration" a2areg.ns "HTTPRoute" a2areg.spec.targetRef.name

/-- Whether one of the grants listed in the namespace passes the check. -/
def hasGrant (ns : String) (allows : ReferenceGrant → Bool) : Ctl (Except Err Bool) := do
  match ← call (.list .referenceGrant (.inNamespace ns)) with
  | .error e => return .error (e.wrap "failed to list ReferenceGrants: ")
  | .ok grants => return .ok (grants.any allows)

def hasValidReferenceGrant (mcpExt : MCPGatewayExtension) : Ctl (Except Err Bool) :=
  hasGrant mcpExt.spec.targetRef.ns fun rg => referenceGrantAllows rg mcpExt

def hasValidReferenceGrantForRoute (a2areg : A2AAgentRegistration) (routeNamespace : String) :
    Ctl (Except Err Bool) :=
  hasGrant routeNamespace fun rg => referenceGrantAllowsA2ARouteRef rg a2areg

/-! ## Valid extensions -/

def mcpExtToRefGrantIndexValue (mext : MCPGatewayExtension) : String :=
  mcpGroup ++ "/MCPGatewayExtension/" ++ mext.ns

def mcpExtToGatewayIndexValue (mext : MCPGatewayExtension) : String :=
  mext.spec.targetRef.ns ++ "/" ++ mext.spec.targetRef.name

def gatewayToMCPExtIndexValue (g : Gateway) : String :=
  g.ns ++ "/" ++ g.name

/-- `ConditionTypeReady` -/
def conditionTypeReady : String := "Ready"

/-- The loop of `FindValidMCPGatewayExtsForGateway`: what was found, and the error that ended it. -/
def findValidFrom (g : Gateway) :
    List MCPGatewayExtension → List MCPGatewayExtension → Ctl (List MCPGatewayExtension × Option Err)
  | validExtensions, [] => return (validExtensions, none)
  | validExtensions, mg :: rest =>
    if mg.deletionTimestamp.isSome then findValidFrom g validExtensions rest
    else if mg.ns = g.ns then findValidFrom g (validExtensions ++ [mg]) rest
    else do
      match ← hasValidReferenceGrant mg with
      | .error e =>
        return (validExtensions, some (e.wrap "failed to check if mcpgatewayextension is valid "))
      | .ok has =>
        if has && isStatusConditionTrue mg.conditions conditionTypeReady then
          findValidFrom g (validExtensions ++ [mg]) rest
        else findValidFrom g validExtensions rest

def findValidMCPGatewayExtsForGateway (g : Gateway) :
    Ctl (List MCPGatewayExtension × Option Err) := do
  match ← call (.list .mcpGatewayExtension
      (.matchingFields .gateway (gatewayToMCPExtIndexValue g))) with
  | .error e => return ([], some e)
  | .ok items => findValidFrom g [] items

/-! ## Listeners -/

def listenerPort (gateway : Gateway) (sectionName : String) : Option Nat :=
  (gateway.listeners.find? fun l => l.name = sectionName).map (·.port)

def listenersHostnamesByPort (gateway : Gateway) (port : Nat) : List String :=
  gateway.listeners.filterMap fun l =>
    match l.hostname with
    | some h => if l.port = port ∧ h ≠ "" then some h else none
    | none => none

def listenerNamesByPort (gateway : Gateway) (port : Nat) : List String :=
  (gateway.listeners.filter fun l => l.port = port).map (·.name)

def parentRefMatchesGateway (ref : ParentReference) (gateway : Gateway) (routeNamespace : String) :
    Bool :=
  ref.group.all (· = gatewayGroup) && ref.kind.all (· = "Gateway") && ref.name = gateway.name &&
    ref.ns.getD routeNamespace = gateway.ns

/-- A wildcard stands for exactly one label. -/
def hostnameMatches (routeHostname listenerHostname : String) : Bool :=
  listenerHostname = routeHostname ||
    match cutPrefix listenerHostname "*" with
    | some suffix =>
      hasPrefix suffix "." &&
        match cutSuffix routeHostname suffix with
        | some label => label ≠ "" && !contains label "."
        | none => false
    | none => false

def httpRouteAttachesToListener (route : HTTPRoute) (gateway : Gateway)
    (ext : MCPGatewayExtension) : Bool :=
  match listenerPort gateway ext.spec.targetRef.sectionName with
  | none => false
  | some targetPort =>
    route.parentRefs.any fun parentRef =>
      parentRefMatchesGateway parentRef gateway route.ns &&
        match parentRef.sectionName with
        | some name => (listenerNamesByPort gateway targetPort).contains name
        | none =>
          route.hostnames.any fun routeHostname =>
            (listenersHostnamesByPort gateway targetPort).any fun listenerHostname =>
              hostnameMatches routeHostname listenerHostname

-- a wildcard listener takes one label in front of its suffix, not two
example : hostnameMatches "a.mcp.local" "*.mcp.local" = true ∧
    hostnameMatches "a.b.mcp.local" "*.mcp.local" = false := by decide

end McpGateway.Controller
