import McpGateway.Controller.Registrations

/-!
# Reconciling an extension

The reconcile of an `MCPGatewayExtension`.  Of several extensions in a namespace, and of several on
one listener port of a gateway, the oldest is to win; an extension that lost is told so in its
status.  The names of what an extension owns, the config secret and the filter, are derived from its
namespace.
-/

namespace McpGateway.Controller.Extension

open Go Kubernetes

/-- `ConditionReasonInvalid` -/
def conditionReasonInvalid : String := "InvalidMCPGatewayExtension"

/-- A `validationError` with the usual reason. -/
def invalid (message : String) : ExtError := .validation conditionReasonInvalid message

/-! ## Conflicts -/

/-- `findOldestExtension` of a list with this head. -/
def findOldestExtension (first : MCPGatewayExtension) (rest : List MCPGatewayExtension) :
    MCPGatewayExtension :=
  rest.foldl (fun oldest e => if e.creationTimestamp < oldest.creationTimestamp then e else oldest)
    first

/-- `checkNamespaceConflict`, once the extensions of the namespace are listed. -/
def namespaceConflict (mcpExt : MCPGatewayExtension) (items : List MCPGatewayExtension) :
    Except ExtError Unit :=
  match items.filter fun ext => ext.deletionTimestamp.isNone with
  | [] | [_] => .ok ()
  | first :: rest =>
    let oldest := findOldestExtension first rest
    if oldest.uid = mcpExt.uid then .ok ()
    else .error (invalid ("conflict: namespace " ++ mcpExt.ns ++ " already has MCPGatewayExtension " ++
      oldest.name ++ " (only one per namespace allowed)"))

def checkNamespaceConflict (mcpExt : MCPGatewayExtension) : Ctl (Except ExtError Unit) := do
  match ← call (.list .mcpGatewayExtension (.inNamespace mcpExt.ns)) with
  | .error e => return .error (.other (e.wrap "failed to list extensions in namespace: "))
  | .ok items => return namespaceConflict mcpExt items

def findListenerConfigByName (gateway : Gateway) (sectionName : String) :
    Except ExtError ListenerConfig :=
  match gateway.listeners.find? fun l => l.name = sectionName with
  | some l => .ok ⟨l.port, l.hostname.getD "", sectionName, l.protocol⟩
  | none => .error (invalid ("listener " ++ quote sectionName ++ " not found on gateway " ++
      gateway.ns ++ "/" ++ gateway.name))

/-- Whether the other extension holds the port against this one. -/
def takesPort (mcpExt : MCPGatewayExtension) (gateway : Gateway) (port : Nat)
    (ext : MCPGatewayExtension) : Bool :=
  ext.uid ≠ mcpExt.uid &&
    match findListenerConfigByName gateway ext.spec.targetRef.sectionName with
    | .error _ => false
    | .ok config => config.port = port && (findOldestExtension mcpExt [ext]).uid ≠ mcpExt.uid

/-- `checkListenerConflict`, once the extensions of the gateway are listed. -/
def listenerConflict (mcpExt : MCPGatewayExtension) (gateway : Gateway)
    (listenerConfig : ListenerConfig) (items : List MCPGatewayExtension) : Except ExtError Unit :=
  if items.length ≤ 1 then .ok ()
  else
    match items.find? (takesPort mcpExt gateway listenerConfig.port) with
    | none => .ok ()
    | some ext =>
      .error (invalid ("conflict: listener port " ++ itoa listenerConfig.port ++ " on gateway " ++
        gateway.ns ++ "/" ++ gateway.name ++ " is already configured by MCPGatewayExtension " ++
        ext.ns ++ "/" ++ ext.name ++ " (listener " ++ ext.spec.targetRef.sectionName ++ ")"))

def checkListenerConflict (mcpExt : MCPGatewayExtension) (targetGateway : Gateway)
    (listenerConfig : ListenerConfig) : Ctl (Except ExtError Unit) := do
  match ← call (.list .mcpGatewayExtension
      (.matchingFields .gateway (gatewayToMCPExtIndexValue targetGateway))) with
  | .error e => return .error (.other (e.wrap "failed to list extensions for gateway: "))
  | .ok items => return listenerConflict mcpExt targetGateway listenerConfig items

/-! ## The target gateway -/

/-- The key `gatewayTarget` reads. -/
def targetKey (target : GatewayReference) : NamespacedName := ⟨target.ns, target.name⟩

/-- Whether the labels meet a requirement; an unknown operator is an error of
`LabelSelectorAsSelector`. -/
def requirementMatches (labels : GoMap String) (r : LabelSelectorRequirement) : Option Bool :=
  let value := labels.lookup r.key
  match r.operator with
  | "In" => if r.values = [] then none else some (value.any r.values.contains)
  | "NotIn" => if r.values = [] then none else some (!value.any r.values.contains)
  | "Exists" => if r.values = [] then some value.isSome else none
  | "DoesNotExist" => if r.values = [] then some value.isNone else none
  | _ => none

def listenerAllowsNamespace (listener : Listener) (ns gatewayNamespace : String)
    (nsLabels : GoMap String) : Bool :=
  match listener.allowedNamespaces.bind (·.source) with
  | none | some .same => ns = gatewayNamespace
  | some .all => true
  | some .selector =>
    match listener.allowedNamespaces.bind (·.selector) with
    | none => false
    | some selector =>
      (selector.matchLabels.all fun (k, v) => nsLabels.lookup k = some v) &&
        selector.matchExpressions.all fun r => requirementMatches nsLabels r = some true
  | some .none | some (.other _) => false

/-- The consent to a reference into another namespace; without it the config is emptied. -/
def checkGrant (mcpExt : MCPGatewayExtension) : Ctl (Except ExtError Unit) :=
  let target := mcpExt.spec.targetRef
  if target.ns = mcpExt.ns then return .ok ()
  else do
    match ← hasValidReferenceGrant mcpExt with
    | .error e => return .error (.other e)
    | .ok true => return .ok ()
    | .ok false =>
      match ← call (.writeEmptyConfig (namespaceName mcpExt.ns)) with
      | .error e => return .error (.other e)
      | .ok () =>
        return .error (.validation "ReferenceGrantRequired" ("invalid: ReferenceGrant required in " ++
          target.ns ++ " to allow cross-namespace reference from " ++ mcpExt.ns))

def validateGatewayTarget (mcpExt : MCPGatewayExtension) :
    Ctl (Except ExtError (Gateway × ListenerConfig)) := do
  let target := mcpExt.spec.targetRef
  match ← call (.get .gateway (targetKey target)) with
  | .error e =>
    if e.isNotFound then
      return .error (invalid ("invalid: gateway target " ++ target.ns ++ "/" ++ target.name ++
        " not found"))
    else return .error (.other (e.wrap "failed to find gateway targeted by the mcpgatewayextension "))
  | .ok gateway =>
    let listenerOn := "listener " ++ quote target.sectionName ++ " on gateway " ++ gateway.ns ++ "/" ++
      gateway.name
    match findListenerConfigByName gateway target.sectionName with
    | .error e => return .error e
    | .ok listenerConfig =>
      if listenerConfig.hostname = "" ∧ mcpExt.spec.publicHost = "" then
        return .error (invalid (listenerOn ++ " has no hostname and spec.publicHost is not set"))
      else
        match ← call (.get .namespaceObject ⟨"", mcpExt.ns⟩) with
        | .error e => return .error (.other (e.wrap ("failed to get namespace " ++ mcpExt.ns ++ ": ")))
        | .ok ns =>
          let listener := gateway.listeners.find? fun l => l.name = target.sectionName
          if listener.all fun l => listenerAllowsNamespace l mcpExt.ns gateway.ns ns.labels then
            match ← checkGrant mcpExt with
            | .error e => return .error e
            | .ok () => return .ok (gateway, listenerConfig)
          else
            return .error (invalid (listenerOn ++ " does not allow routes from namespace " ++
              quote mcpExt.ns))

/-! ## The filter and the listener's condition -/

def envoyFilterNameAndNamespace (mcpExt : MCPGatewayExtension) : NamespacedName :=
  ⟨gatewayNamespace mcpExt, "mcp-ext-proc-" ++ mcpExt.ns ++ "-gateway"⟩

def deleteEnvoyFilter (mcpExt : MCPGatewayExtension) : Ctl (Except Err Unit) := do
  let key := envoyFilterNameAndNamespace mcpExt
  match ← call (.get .envoyFilter key) with
  | .error e =>
    if e.isNotFound then return .ok ()
    else return .error (e.wrap "failed to get envoy filter for cleanup: ")
  | .ok envoyFilter =>
    match ← call (.delete .envoyFilter envoyFilter) with
    | .error e =>
      if e.isNotFound then return .ok ()
      else return .error (e.wrap ("failed to delete envoy filter " ++ key.ns ++ "/" ++ key.name ++ ": "))
    | .ok () => return .ok ()

/-- `GatewayListenerConditionType` -/
def gatewayListenerConditionType : String := "MCPGatewayExtension"

/-- The statuses with the condition removed from the first one of the listener, if it is there. -/
def withoutCondition (listenerName : String) : List ListenerStatus → Option (List ListenerStatus)
  | [] => none
  | s :: rest =>
    if s.name = listenerName then
      match findStatusCondition s.conditions gatewayListenerConditionType with
      | none => none
      | some _ => some ({ s with
          conditions := (removeStatusCondition s.conditions gatewayListenerConditionType).1 } :: rest)
    else (withoutCondition listenerName rest).map (s :: ·)

def removeGatewayListenerStatus (mcpExt : MCPGatewayExtension) : Ctl (Except Err Unit) := do
  match ← call (.get .gateway ⟨gatewayNamespace mcpExt, mcpExt.spec.targetRef.name⟩) with
  | .error e =>
    if e.isNotFound then return .ok ()
    else return .error (e.wrap "failed to get gateway for status cleanup: ")
  | .ok gateway =>
    match withoutCondition mcpExt.spec.targetRef.sectionName gateway.listenerStatuses with
    | none => return .ok ()
    | some statuses => call (.updateStatus .gateway { gateway with listenerStatuses := statuses })

/-! ## The reconcile -/

/-- The status is written if the condition is new or changed. -/
def updateStatus (mcpExt : MCPGatewayExtension) (status : ConditionStatus) (reason message : String) :
    Ctl Reconciled := do
  let now ← call .now
  let conditions := setStatusCondition now mcpExt.conditions
    { type := conditionTypeReady, status := status, observedGeneration := mcpExt.generation,
      reason := reason, message := message }
  if conditions.2 then
    orFail (call (.updateStatus .mcpGatewayExtension { mcpExt with conditions := conditions.1 }))
      fun () => return .ok .done
  else return .ok .done

/-- Go on with the result; a validation error is reported in the status. -/
def orReport {α : Type} (mcpExt : MCPGatewayExtension) (p : Ctl (Except ExtError α))
    (next : α → Ctl Reconciled) : Ctl Reconciled := do
  match ← p with
  | .error (.validation reason message) => updateStatus mcpExt .conditionFalse reason message
  | .error (.other e) => return .error e
  | .ok a => next a

/-- The reconcile up to the config secret; `configure` stands for the steps that set up the broker,
the filter and the listener's condition of an accepted extension. -/
def reconcileActive (configure : MCPGatewayExtension → Gateway → ListenerConfig → Ctl Reconciled)
    (mcpExt : MCPGatewayExtension) : Ctl Reconciled :=
  orReport mcpExt (checkNamespaceConflict mcpExt) fun () =>
  orReport mcpExt (validateGatewayTarget mcpExt) fun (targetGateway, listenerConfig) =>
  orReport mcpExt (checkListenerConflict mcpExt targetGateway listenerConfig) fun () =>
  orFail (call (.ensureConfigExists (namespaceName mcpExt.ns))) fun () =>
  configure mcpExt targetGateway listenerConfig

def handleDeletion (mcpExt : MCPGatewayExtension) : Ctl Reconciled :=
  if mcpExt.finalizers.contains mcpGatewayFinalizer then do
    -- an error of the status cleanup is only logged
    let _ ← removeGatewayListenerStatus mcpExt
    orFail (deleteEnvoyFilter mcpExt) fun () =>
    orFail (call (.writeEmptyConfig (namespaceName mcpExt.ns))) fun () =>
    orFail (call (.update .mcpGatewayExtension
      { mcpExt with finalizers := mcpExt.finalizers.filter (· ≠ mcpGatewayFinalizer) })) fun () =>
    return .ok .done
  else return .ok .done

def reconcile (configure : MCPGatewayExtension → Gateway → ListenerConfig → Ctl Reconciled)
    (req : NamespacedName) : Ctl Reconciled := do
  match ← call (.get .mcpGatewayExtension req) with
  | .error e => if e.isNotFound then return .ok .done else return .error e
  | .ok mcpExt =>
    if mcpExt.deletionTimestamp.isSome then handleDeletion mcpExt
    else if mcpExt.finalizers.contains mcpGatewayFinalizer then reconcileActive configure mcpExt
    else
      orFail (call (.update .mcpGatewayExtension
        { mcpExt with finalizers := mcpExt.finalizers ++ [mcpGatewayFinalizer] })) fun () =>
      return .ok .done

end McpGateway.Controller.Extension
