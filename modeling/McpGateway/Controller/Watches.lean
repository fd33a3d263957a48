import McpGateway.Controller.Gateways

/-!
# Indexes and watches

Which reconciles a change of an object asks for.  A watch lists the affected objects, mostly through
a field index, and enqueues their keys; a failing call is logged and enqueues nothing.
-/

namespace McpGateway.Controller

open Go Kubernetes

/-! ## Where a reference points -/

def httpRouteIndexValue (ns name : String) : String := ns ++ "/" ++ name

def targetRefNamespace (defaultNamespace : String) (targetRef : TargetReference) : String :=
  if targetRef.ns ≠ "" then targetRef.ns else defaultNamespace

/-- The gateway namespace of an extension, in the functions that default it. -/
def gatewayNamespace (mcpExt : MCPGatewayExtension) : String :=
  if mcpExt.spec.targetRef.ns = "" then mcpExt.ns else mcpExt.spec.targetRef.ns

/-- The index function of `setupIndexMCPRegistrationToHTTPRoute`. -/
def mcpRegistrationToHTTPRoute (mcpsr : MCPServerRegistration) : List String :=
  let targetRef := mcpsr.spec.targetRef
  if targetRef.kind = "HTTPRoute" then
    let ns := if targetRef.ns = "" then mcpsr.ns else targetRef.ns
    [httpRouteIndexValue ns targetRef.name]
  else []

/-- The index function of `setupIndexA2ARegistrationToHTTPRoute`. -/
def a2aRegistrationToHTTPRoute (a2areg : A2AAgentRegistration) : List String :=
  let targetRef := a2areg.spec.targetRef
  if targetRef.kind = "HTTPRoute" then
    [httpRouteIndexValue (targetRefNamespace a2areg.ns targetRef) targetRef.name]
  else []

/-- The index function of `setupIndexA2ARegistrationToTargetNamespace`. -/
def a2aRegistrationToTargetNamespace (a2areg : A2AAgentRegistration) : List String :=
  [targetRefNamespace a2areg.ns a2areg.spec.targetRef]

/-- The values under which an index has an object. -/
def indexValues : Index → (k : Kind) → Obj k → List String
  | .gateway, .mcpGatewayExtension, ext => [mcpExtToGatewayIndexValue ext]
  | .refGrant, .mcpGatewayExtension, ext => [mcpExtToRefGrantIndexValue ext]
  | .httpRoute, .mcpServerRegistration, mcpsr => mcpRegistrationToHTTPRoute mcpsr
  | .a2aHTTPRoute, .a2aAgentRegistration, a2areg => a2aRegistrationToHTTPRoute a2areg
  | .a2aTargetNamespace, .a2aAgentRegistration, a2areg => a2aRegistrationToTargetNamespace a2areg
  | _, _, _ => []

/-- Whether a `List` call with the option returns the object. -/
def ListOption.selects (opt : ListOption) (k : Kind) (o : Obj k) : Bool :=
  match opt with
  | .all => true
  | .inNamespace ns => ns = "" || (Obj.metadata k o).ns = ns
  | .matchingFields index value => (indexValues index k o).contains value

/-! ## Watches of the extension controller -/

/-- The keys of the objects a `List` call returns. -/
def enqueueListed (k : Kind) (opt : ListOption) : Ctl (List NamespacedName) := do
  match ← call (.list k opt) with
  | .error _ => return []
  | .ok items => return items.map fun o => (Obj.metadata k o).key

/-- `refGrantToMCPExtIndexValue`, which reads the first `from` entry. -/
def refGrantToMCPExtIndexValue (f : ReferenceGrantFrom) : String :=
  f.group ++ "/" ++ f.kind ++ "/" ++ f.ns

def enqueueMCPGatewayExtForReferenceGrant (ref : ReferenceGrant) : Ctl (List NamespacedName) :=
  match ref.sources with
  | [] => return []
  | f :: _ =>
    enqueueListed .mcpGatewayExtension (.matchingFields .refGrant (refGrantToMCPExtIndexValue f))

/-! ## Watches of the registration controllers -/

def findMCPServerRegistrationsForHTTPRoute (httpRoute : HTTPRoute) : Ctl (List NamespacedName) :=
  enqueueListed .mcpServerRegistration
    (.matchingFields .httpRoute (httpRouteIndexValue httpRoute.ns httpRoute.name))

/-- Whether one of the route's parents is the gateway. -/
def hasParent (httpRoute : HTTPRoute) (gateway : Gateway) : Bool :=
  httpRoute.parentRefs.any fun parentRef =>
    parentRef.name = gateway.name && parentRef.ns.getD httpRoute.ns = gateway.ns

/-- The registrations that an index has under one of the gateway's routes. -/
def enqueueForRoutes (k : Kind) (index : Index) (gateway : Gateway) :
    List HTTPRoute → Ctl (List NamespacedName)
  | [] => return []
  | httpRoute :: rest =>
    if hasParent httpRoute gateway then do
      let found ← enqueueListed k
        (.matchingFields index (httpRouteIndexValue httpRoute.ns httpRoute.name))
      let others ← enqueueForRoutes k index gateway rest
      return found ++ others
    else enqueueForRoutes k index gateway rest

/-- The registrations whose routes have the extension's gateway as a parent. -/
def enqueueForExtension (k : Kind) (index : Index) (mcpExt : MCPGatewayExtension) :
    Ctl (List NamespacedName) := do
  match ← call (.get .gateway ⟨gatewayNamespace mcpExt, mcpExt.spec.targetRef.name⟩) with
  | .error _ => return []
  | .ok gateway =>
    match ← call (.list .httpRoute .all) with
    | .error _ => return []
    | .ok httpRoutes => enqueueForRoutes k index gateway httpRoutes

def findMCPServerRegistrationsForMCPGatewayExtension (mcpExt : MCPGatewayExtension) :
    Ctl (List NamespacedName) :=
  enqueueForExtension .mcpServerRegistration .httpRoute mcpExt

def findA2AAgentRegistrationsForMCPGatewayExtension (mcpExt : MCPGatewayExtension) :
    Ctl (List NamespacedName) :=
  enqueueForExtension .a2aAgentRegistration .a2aHTTPRoute mcpExt

end McpGateway.Controller
