import McpGateway.Controller.Helpers
import McpGateway.Controller.Watches

/-!
# Reconciling registrations

The reconcile of an `MCPServerRegistration` and of an `A2AAgentRegistration`: find the gateways that
accepted the route, the valid extensions of each and those whose listener the route is attached to,
and write one entry into the config secret of each of their namespaces.

The gateway loops differ.  The one for servers exits at the first gateway without valid extensions
and goes on after an error of the finder; the one for agents does neither.
-/

namespace McpGateway.Controller

open Go Effect Kubernetes

variable {α β : Type}

/-- What a reconcile returns. -/
abbrev Reconciled := Except Err Result

/-- `mcpGatewayFinalizer` -/
def mcpGatewayFinalizer : String := "mcp.kuadrant.io/finalizer"

/-- `a2aGatewayFinalizer` -/
def a2aGatewayFinalizer : String := "mcp.kuadrant.io/a2a-finalizer"

/-- Go on with the result unless there was an error. -/
def orFail (p : Ctl (Except Err α)) (next : α → Ctl (Except Err β)) : Ctl (Except Err β) := do
  match ← p with
  | .error e => return .error e
  | .ok a => next a

/-- Write an object's metadata; a conflict asks for a retry. -/
def saving (k : Kind) (o : Obj k) (result : Result) : Ctl Reconciled := do
  match ← call (.update k o) with
  | .error e => if e.isConflict then return .ok .requeueAfter else return .error e
  | .ok () => return .ok result

/-- Set the `Ready` condition; the status is written only if the condition changed. -/
def writeReady (k : Kind) (conditions : List Condition) (withConditions : List Condition → Obj k)
    (ready : Bool) (reason message : String) : Ctl (Obj k × Except Err Unit) := do
  let now ← call .now
  let (conditions, changed) := applyReadyCondition now ready reason message conditions
  if changed then
    let written ← call (.updateStatus k (withConditions conditions))
    return (withConditions conditions, written)
  else return (withConditions conditions, .ok ())

/-- Write the status and go on: a conflict asks for a retry, another error ends the reconcile. -/
def recording (before : String) (written : Ctl (α × Except Err Unit)) (next : α → Ctl Reconciled) :
    Ctl Reconciled := do
  match ← written with
  | (_, .error e) => if e.isConflict then return .ok .requeueAfter else return .error (e.wrap before)
  | (o, .ok ()) => next o

def statusFailed : String := "reconcile failed: status update failed "

/-! ## Attached extensions -/

/-- What a gateway loop has collected. -/
structure Attached where
  validNamespaces : List String := []
  hasGatewayCACertBundle : Bool := false
  deriving DecidableEq, Repr

/-- Take up an extension if the route attaches to its listener. -/
def Attached.add (targetRoute : HTTPRoute) (vg : Gateway) (acc : Attached)
    (vext : MCPGatewayExtension) : Attached :=
  if httpRouteAttachesToListener targetRoute vg vext then
    ⟨acc.validNamespaces ++ [vext.ns], acc.hasGatewayCACertBundle || vext.spec.caCertBundleRef.isSome⟩
  else acc

def Attached.addAll (targetRoute : HTTPRoute) (vg : Gateway) (acc : Attached)
    (mcpGatewayExtensions : List MCPGatewayExtension) : Attached :=
  mcpGatewayExtensions.foldl (Attached.add targetRoute vg) acc

/-- Write one entry into the config secret of each namespace, up to the first error. -/
def upsertAll (upsert : NamespacedName → Ctl (Except Err Unit)) : List String → Ctl (Except Err Unit)
  | [] => return .ok ()
  | configNs :: rest => orFail (upsert (namespaceName configNs)) fun () => upsertAll upsert rest

/-- The value a reference to a secret leads to; without one, the empty text. -/
def readReferenced (read : String → String → String → Ctl (Except Err String)) (ns : String) :
    Option SecretReference → Ctl (Except Err String)
  | none => return .ok ""
  | some ref => read ns ref.name ref.key

/-- What both kinds of entries say about the upstream. -/
structure Upstream where
  endpoint : String
  hostname : String
  credential : String
  caCert : String
  deriving DecidableEq, Repr

/-- The common part of `buildMCPServerConfig` and `buildA2AAgentConfig`. -/
def buildUpstream (lib : Libraries) (targetRoute : HTTPRoute) (ns path : String)
    (credentialRef caCertSecretRef : Option SecretReference) (hasGatewayCACertBundle : Bool) :
    Ctl (Except Err Upstream) :=
  orFail (buildServerInfoFromHTTPRoute targetRoute path) fun serverInfo =>
  orFail (pure (secureEndpoint lib serverInfo.endpoint
    (caCertSecretRef.isSome || hasGatewayCACertBundle))) fun endpoint =>
  orFail (readReferenced readLabeledCredential ns credentialRef) fun credential =>
  orFail (readReferenced (readLabeledCACert lib) ns caCertSecretRef) fun caCert =>
  return .ok ⟨endpoint, serverInfo.hostname, credential, caCert⟩

/-! ## Servers -/

namespace Server

def mcpServerName (mcp : MCPServerRegistration) : String := mcp.ns ++ "/" ++ mcp.name

/-- The key `getTargetHTTPRoute` reads. -/
def targetHTTPRoute (mcpsr : MCPServerRegistration) : NamespacedName :=
  ⟨mcpsr.ns, mcpsr.spec.targetRef.name⟩

def getTargetHTTPRoute (mcpsr : MCPServerRegistration) : Ctl (Except Err HTTPRoute) := do
  match ← call (.get .httpRoute (targetHTTPRoute mcpsr)) with
  | .error e => return .error (e.wrap "failed to get targeted httproute ")
  | .ok targetRoute => return .ok targetRoute

def updateStatus (mcpsr : MCPServerRegistration) (ready : Bool) (reason message : String) :
    Ctl (MCPServerRegistration × Except Err Unit) :=
  writeReady .mcpServerRegistration mcpsr.conditions (fun cs => { mcpsr with conditions := cs }) ready
    reason message

/-- Record why the registration is not ready, and end with the result. -/
def notReady (mcpsr : MCPServerRegistration) (message : String) (result : Reconciled) :
    Ctl Reconciled :=
  recording statusFailed (updateStatus mcpsr false conditionReasonNotReady message) fun _ =>
    return result

/-- The loop over the parents of a route: each change is written at once. -/
def updateParents (change : List Condition → List Condition × Bool) (httpRoute : HTTPRoute) :
    List RouteParentStatus → List RouteParentStatus → Ctl (Except Err Unit)
  | _, [] => return .ok ()
  | seen, parent :: rest =>
    let changed := change parent.conditions
    let parent := { parent with conditions := changed.1 }
    if changed.2 then
      orFail (call (.updateStatus .httpRoute { httpRoute with parents := seen ++ parent :: rest }))
        fun () => updateParents change httpRoute (seen ++ [parent]) rest
    else updateParents change httpRoute (seen ++ [parent]) rest

/-- The route whose status `updateHTTPRouteStatus` updates. -/
def statusHTTPRoute (mcpsr : MCPServerRegistration) : Option NamespacedName :=
  let targetRef := mcpsr.spec.targetRef
  if targetRef.kind ≠ "HTTPRoute" then none
  else some ⟨if targetRef.ns ≠ "" then targetRef.ns else mcpsr.ns, targetRef.name⟩

def programmedCondition (httpRoute : HTTPRoute) (now : Nat) : Condition where
  type := "Programmed"
  status := .conditionTrue
  observedGeneration := httpRoute.generation
  lastTransitionTime := now
  reason := "InUseByMCPServerRegistration"
  message := "HTTPRoute is referenced by at least one MCPServerRegistration"

def updateHTTPRouteStatus (mcpsr : MCPServerRegistration) : Ctl (Except Err Unit) :=
  match statusHTTPRoute mcpsr with
  | none => return .ok ()
  | some key => do
    match ← call (.get .httpRoute key) with
    | .error e =>
      if e.isNotFound then return .ok () else return .error (e.wrap "failed to get HTTPRoute: ")
    | .ok httpRoute =>
      let now ← call .now
      let change := fun conditions =>
        if mcpsr.deletionTimestamp.isSome then removeStatusCondition conditions "Programmed"
        else setStatusCondition now conditions (programmedCondition httpRoute now)
      updateParents change httpRoute [] httpRoute.parents

def buildMCPServerConfig (lib : Libraries) (targetRoute : HTTPRoute) (mcpsr : MCPServerRegistration)
    (hasGatewayCACertBundle : Bool) : Ctl (Except Err Config.MCPServer) :=
  if mcpsr.deletionTimestamp.isSome then
    return .error ⟨"cant generate config for deleting server " ++ mcpServerName mcpsr, none⟩
  else
    let spec := mcpsr.spec
    orFail (buildUpstream lib targetRoute mcpsr.ns spec.path spec.credentialRef spec.caCertSecretRef
      hasGatewayCACertBundle) fun upstream =>
    return .ok
      { name := mcpServerName mcpsr
        url := upstream.endpoint
        hostname := upstream.hostname
        namePrefix := spec.namePrefix
        state := spec.state
        category := spec.category
        hint := spec.hint
        userSpecificList := spec.userSpecificList = userSpecificListEnabled
        tags := spec.tags
        tokenURLElicitation := spec.tokenURLElicitation
        credential := upstream.credential
        caCert := upstream.caCert }

/-- The gateway loop; `next` is what follows it. -/
def gatewayLoop (targetRoute : HTTPRoute) (next : MCPServerRegistration → Attached → Ctl Reconciled) :
    MCPServerRegistration → Attached → List Gateway → Ctl Reconciled
  | mcpsr, acc, [] => next mcpsr acc
  | mcpsr, acc, vg :: rest => do
    let found ← findValidMCPGatewayExtsForGateway vg
    let go := fun mcpsr =>
      if found.1.isEmpty then
        recording "" (updateStatus mcpsr false conditionReasonNotReady
          "no valid mcpgatewayextensions configured") fun _ => return .ok .done
      else gatewayLoop targetRoute next mcpsr (acc.addAll targetRoute vg found.1) rest
    match found.2 with
    -- the error is recorded, and the loop goes on with what was found
    | some e =>
      recording statusFailed (updateStatus mcpsr false conditionReasonNotReady e.text) go
    | none => go mcpsr

/-- After the config has been written. -/
def finish (mcpsr : MCPServerRegistration) : Ctl Reconciled :=
  let written :=
    if mcpsr.spec.state = serverStateDisabled then
      updateStatus mcpsr false conditionReasonDisabled "server is disabled"
    else updateStatus mcpsr true conditionReasonReady "config written successfully"
  recording statusFailed written fun mcpsr => do
    match ← updateHTTPRouteStatus mcpsr with
    | .error e =>
      if e.isConflict then return .ok .requeueAfter
      else return .error (e.wrap "reconcile failed: HTTPRoute status update failed ")
    | .ok () => return .ok .done

/-- After the gateway loop. -/
def writeConfig (lib : Libraries) (targetRoute : HTTPRoute) (mcpsr : MCPServerRegistration)
    (attached : Attached) : Ctl Reconciled :=
  if attached.validNamespaces = [] then
    notReady mcpsr "no matching mcpgatewayextensions for attached listener" (.ok .done)
  else do
    let failed (e : Err) : Ctl Reconciled :=
      notReady mcpsr e.text (.error (e.wrap ("failed to reconcile " ++ mcpsr.name ++ " ")))
    match ← buildMCPServerConfig lib targetRoute mcpsr attached.hasGatewayCACertBundle with
    | .error e => failed e
    | .ok mcpServerconfig =>
      match ← upsertAll (fun secret => call (.upsertMCPServer mcpServerconfig secret))
          attached.validNamespaces with
      | .error e => failed e
      | .ok () => finish mcpsr

/-- The reconcile of a registration that is not being deleted and has the finalizer. -/
def reconcileActive (lib : Libraries) (mcpsr : MCPServerRegistration) : Ctl Reconciled := do
  let failed (e : Err) : Ctl Reconciled :=
    notReady mcpsr e.text (.error (e.wrap "reconcile failed "))
  match ← getTargetHTTPRoute mcpsr with
  | .error e => failed e
  | .ok targetRoute =>
    match ← findValidGatewaysForHTTPRoute targetRoute with
    | .error e => failed e
    | .ok [] => failed ⟨"no valid gateways for httproute", none⟩
    | .ok validGateways => gatewayLoop targetRoute (writeConfig lib targetRoute) mcpsr {} validGateways

def reconcile (lib : Libraries) (req : NamespacedName) : Ctl Reconciled := do
  match ← call (.get .mcpServerRegistration req) with
  | .error e => if e.isNotFound then return .ok .done else return .error e
  | .ok mcpsr =>
    if mcpsr.deletionTimestamp.isSome then
      if mcpsr.finalizers.contains mcpGatewayFinalizer then
        orFail (call (.removeMCPServer (mcpServerName mcpsr))) fun () =>
        orFail (updateHTTPRouteStatus mcpsr) fun () =>
        saving .mcpServerRegistration
          { mcpsr with finalizers := mcpsr.finalizers.filter (· ≠ mcpGatewayFinalizer) } .done
      else return .ok .done
    else if mcpsr.finalizers.contains mcpGatewayFinalizer then reconcileActive lib mcpsr
    else
      saving .mcpServerRegistration
        { mcpsr with finalizers := mcpsr.finalizers ++ [mcpGatewayFinalizer] } .requeueAfter

end Server

/-! ## Agents -/

namespace Agent

def a2aAgentName (a2areg : A2AAgentRegistration) : String := a2areg.ns ++ "/" ++ a2areg.name

def updateStatus (a2areg : A2AAgentRegistration) (ready : Bool) (reason message : String) :
    Ctl (A2AAgentRegistration × Except Err Unit) :=
  writeReady .a2aAgentRegistration a2areg.conditions (fun cs => { a2areg with conditions := cs })
    ready reason message

/-- Set the condition, and end with the result. -/
def ending (a2areg : A2AAgentRegistration) (ready : Bool) (reason message : String)
    (result : Reconciled) : Ctl Reconciled :=
  recording statusFailed (updateStatus a2areg ready reason message) fun _ => return result

def failStatus (a2areg : A2AAgentRegistration) (message : String) (reconcileErr : Option Err) :
    Ctl Reconciled :=
  ending a2areg false conditionReasonNotReady message <|
    match reconcileErr with
    | none => .ok .done
    | some e => .error (e.wrap "reconcile failed ")

/-- Go on with the result; an error is recorded. -/
def orFailStatus (a2areg : A2AAgentRegistration) (p : Ctl (Except Err α))
    (next : α → Ctl Reconciled) : Ctl Reconciled := do
  match ← p with
  | .error e => failStatus a2areg e.text (some e)
  | .ok a => next a

def registrationOlder (a b : A2AAgentRegistration) : Bool :=
  if a.creationTimestamp ≠ b.creationTimestamp then a.creationTimestamp < b.creationTimestamp
  else a.name < b.name

/-- The name of an older registration of the namespace that claims the same prefix, or `""`. -/
def olderPrefixOwner (a2areg : A2AAgentRegistration) : Ctl (Except Err String) := do
  match ← call (.list .a2aAgentRegistration (.inNamespace a2areg.ns)) with
  | .error e => return .error e
  | .ok items =>
    let owner := items.find? fun other =>
      other.name ≠ a2areg.name && other.spec.agentPrefix = a2areg.spec.agentPrefix &&
        other.deletionTimestamp.isNone && registrationOlder other a2areg
    return .ok ((owner.map (·.name)).getD "")

def getTargetHTTPRoute (a2areg : A2AAgentRegistration) : Ctl (Except Err HTTPRoute) := do
  let targetRef := a2areg.spec.targetRef
  match ← call (.get .httpRoute ⟨targetRefNamespace a2areg.ns targetRef, targetRef.name⟩) with
  | .error e => return .error (e.wrap "failed to get targeted httproute ")
  | .ok targetRoute => return .ok targetRoute

def buildA2AAgentConfig (lib : Libraries) (targetRoute : HTTPRoute) (a2areg : A2AAgentRegistration)
    (hasGatewayCACertBundle : Bool) : Ctl (Except Err Config.A2AAgent) :=
  if a2areg.deletionTimestamp.isSome then
    return .error ⟨"cant generate config for deleting agent " ++ a2aAgentName a2areg, none⟩
  else
    let spec := a2areg.spec
    orFail (buildUpstream lib targetRoute a2areg.ns "" spec.credentialRef spec.caCertSecretRef
      hasGatewayCACertBundle) fun upstream =>
    return .ok
      { name := a2aAgentName a2areg
        url := upstream.endpoint
        hostname := upstream.hostname
        agentPrefix := spec.agentPrefix
        agentCardURL := spec.agentCardURL
        state := spec.state
        credential := upstream.credential
        caCert := upstream.caCert }

/-- The gateway loop; `next` is what follows it. -/
def gatewayLoop (targetRoute : HTTPRoute) (a2areg : A2AAgentRegistration)
    (next : Attached → Ctl Reconciled) : Attached → List Gateway → Ctl Reconciled
  | acc, [] => next acc
  | acc, vg :: rest => do
    let found ← findValidMCPGatewayExtsForGateway vg
    match found.2 with
    | some e => failStatus a2areg e.text (some e)
    | none => gatewayLoop targetRoute a2areg next (acc.addAll targetRoute vg found.1) rest

/-- After the config has been written. -/
def finish (a2areg : A2AAgentRegistration) : Ctl Reconciled :=
  if a2areg.spec.state = serverStateDisabled then
    ending a2areg false conditionReasonDisabled "agent is disabled" (.ok .done)
  else ending a2areg true conditionReasonReady "config written successfully" (.ok .done)

/-- After the gateway loop. -/
def writeConfig (lib : Libraries) (targetRoute : HTTPRoute) (a2areg : A2AAgentRegistration)
    (attached : Attached) : Ctl Reconciled :=
  if attached.validNamespaces = [] then
    failStatus a2areg "no matching mcpgatewayextensions for attached listener" none
  else
    orFailStatus a2areg
      (buildA2AAgentConfig lib targetRoute a2areg attached.hasGatewayCACertBundle) fun agentConfig =>
    orFailStatus a2areg
      (upsertAll (fun secret => call (.upsertA2AAgent agentConfig secret)) attached.validNamespaces)
      fun () => finish a2areg

/-- The part of the reconcile that follows the checks of the grant and of the prefix. -/
def reconcileRoute (lib : Libraries) (a2areg : A2AAgentRegistration) : Ctl Reconciled :=
  orFailStatus a2areg (getTargetHTTPRoute a2areg) fun targetRoute =>
  orFailStatus a2areg (findValidGatewaysForHTTPRoute targetRoute) fun validGateways =>
  if validGateways.isEmpty then
    let e := ⟨"no valid gateways for httproute", none⟩
    failStatus a2areg e.text (some e)
  else gatewayLoop targetRoute a2areg (writeConfig lib targetRoute a2areg) {} validGateways

/-- The check of the prefix: a later contender withdraws its config. -/
def reconcilePrefix (lib : Libraries) (a2areg : A2AAgentRegistration) : Ctl Reconciled :=
  orFailStatus a2areg (olderPrefixOwner a2areg) fun owner =>
  if owner ≠ "" then
    orFailStatus a2areg (call (.removeA2AAgent (a2aAgentName a2areg))) fun () =>
    ending a2areg false "PrefixCollision" ("agentPrefix " ++ quote a2areg.spec.agentPrefix ++
      " is already claimed by registration " ++ quote owner ++ " in namespace " ++ a2areg.ns)
      (.ok .done)
  else reconcileRoute lib a2areg

/-- The reconcile of a registration that is not being deleted and has the finalizer.  A route of
another namespace needs a grant; without one the config is withdrawn. -/
def reconcileActive (lib : Libraries) (a2areg : A2AAgentRegistration) : Ctl Reconciled :=
  let routeNamespace := targetRefNamespace a2areg.ns a2areg.spec.targetRef
  if routeNamespace ≠ a2areg.ns then
    orFailStatus a2areg (hasValidReferenceGrantForRoute a2areg routeNamespace) fun granted =>
    if granted then reconcilePrefix lib a2areg
    else
      orFailStatus a2areg (call (.removeA2AAgent (a2aAgentName a2areg))) fun () =>
      failStatus a2areg ("cross-namespace targetRef requires a ReferenceGrant in namespace " ++
        routeNamespace ++ " permitting A2AAgentRegistration to reference HTTPRoute") none
  else reconcilePrefix lib a2areg

def reconcile (lib : Libraries) (req : NamespacedName) : Ctl Reconciled := do
  match ← call (.get .a2aAgentRegistration req) with
  | .error e => if e.isNotFound then return .ok .done else return .error e
  | .ok a2areg =>
    if a2areg.deletionTimestamp.isSome then
      if a2areg.finalizers.contains a2aGatewayFinalizer then
        orFail (call (.removeA2AAgent (a2aAgentName a2areg))) fun () =>
        saving .a2aAgentRegistration
          { a2areg with finalizers := a2areg.finalizers.filter (· ≠ a2aGatewayFinalizer) } .done
      else return .ok .done
    else if a2areg.finalizers.contains a2aGatewayFinalizer then reconcileActive lib a2areg
    else
      saving .a2aAgentRegistration
        { a2areg with finalizers := a2areg.finalizers ++ [a2aGatewayFinalizer] } .requeueAfter

end Agent

end McpGateway.Controller
