import McpGateway.A2A.Agents
import McpGateway.Config.Kubernetes
import McpGateway.Config.Types
import McpGateway.Foundation.Effect

/-!
# Kubernetes objects

The objects the controllers read and write and the calls of a controller: those of `client.Client`,
and those of the config writer's interfaces.

Of each object only the fields that a modelled function uses are kept.  Resource versions are left
out here; they are in the model of the config writer, whose loops depend on them.  `DirectAPIReader`
and the cached client are one client.
-/

namespace McpGateway.Controller

open Go Effect Kubernetes

/-! ## Metadata and conditions -/

structure ObjectMeta where
  name : String
  ns : String
  uid : String := ""
  labels : GoMap String := ∅
  creationTimestamp : Nat := 0
  deletionTimestamp : Option Nat := none
  finalizers : List String := []
  generation : Nat := 0

/-- `client.ObjectKeyFromObject(o)` -/
def ObjectMeta.key (m : ObjectMeta) : NamespacedName := ⟨m.ns, m.name⟩

inductive ConditionStatus where
  | conditionTrue | conditionFalse | conditionUnknown
  deriving DecidableEq, Repr

/-- `metav1.Condition`; the zero time is `0`. -/
structure Condition where
  type : String
  status : ConditionStatus
  observedGeneration : Nat := 0
  lastTransitionTime : Nat := 0
  reason : String := ""
  message : String := ""
  deriving DecidableEq, Repr

/-- `meta.FindStatusCondition` -/
def findStatusCondition (conditions : List Condition) (type : String) : Option Condition :=
  conditions.find? fun c => c.type = type

/-- `meta.IsStatusConditionTrue` -/
def isStatusConditionTrue (conditions : List Condition) (type : String) : Bool :=
  match findStatusCondition conditions type with
  | some c => c.status = .conditionTrue
  | none => false

/-- What `meta.SetStatusCondition` makes of the existing condition. -/
def Condition.updated (now : Nat) (existing new : Condition) : Condition :=
  { existing with
    status := new.status
    lastTransitionTime :=
      if existing.status = new.status then existing.lastTransitionTime
      else if new.lastTransitionTime = 0 then now else new.lastTransitionTime
    reason := new.reason
    message := new.message
    observedGeneration := new.observedGeneration }

/-- `meta.SetStatusCondition`: the conditions afterwards, and whether any of them changed.  Only the
first condition of the type is looked at. -/
def setStatusCondition (now : Nat) : List Condition → Condition → List Condition × Bool
  | [], new =>
    ([{ new with
        lastTransitionTime := if new.lastTransitionTime = 0 then now else new.lastTransitionTime }],
      true)
  | c :: rest, new =>
    if c.type = new.type then (c.updated now new :: rest, decide (c.updated now new ≠ c))
    else
      let (rest', changed) := setStatusCondition now rest new
      (c :: rest', changed)

/-- `meta.RemoveStatusCondition`: the conditions that stay, and whether one was removed. -/
def removeStatusCondition (conditions : List Condition) (type : String) : List Condition × Bool :=
  let kept := conditions.filter fun c => c.type ≠ type
  (kept, decide (conditions.length ≠ kept.length))

/-! ## Registrations -/

/-- The reference of a registration to its route. -/
structure TargetReference where
  group : String := ""
  kind : String := ""
  name : String
  ns : String := ""
  deriving DecidableEq, Repr

/-- A reference to one key of a secret. -/
structure SecretReference where
  name : String
  key : String := ""
  deriving DecidableEq, Repr

structure MCPServerRegistrationSpec where
  targetRef : TargetReference
  namePrefix : String := ""
  path : String := ""
  credentialRef : Option SecretReference := none
  state : String := ""
  caCertSecretRef : Option SecretReference := none
  tokenURLElicitation : Option Config.TokenURLElicitationConfig := none
  userSpecificList : String := ""
  category : List String := []
  hint : String := ""
  tags : List String := []
  deriving DecidableEq, Repr

structure MCPServerRegistration extends ObjectMeta where
  spec : MCPServerRegistrationSpec
  conditions : List Condition := []

structure A2AAgentRegistrationSpec where
  targetRef : TargetReference
  agentPrefix : String
  agentCardURL : String := ""
  credentialRef : Option SecretReference := none
  caCertSecretRef : Option SecretReference := none
  state : String := ""
  deriving DecidableEq, Repr

structure A2AAgentRegistration extends ObjectMeta where
  spec : A2AAgentRegistrationSpec
  conditions : List Condition := []

/-- `ServerStateDisabled` -/
def serverStateDisabled : String := "Disabled"

/-- `UserSpecificListEnabled` -/
def userSpecificListEnabled : String := "Enabled"

/-! ## Extensions -/

/-- The reference of an extension to one listener of a gateway. -/
structure GatewayReference where
  name : String
  ns : String := ""
  sectionName : String
  deriving DecidableEq, Repr

structure MCPGatewayExtensionSpec where
  targetRef : GatewayReference
  publicHost : String := ""
  caCertBundleRef : Option SecretReference := none
  deriving DecidableEq, Repr

structure MCPGatewayExtension extends ObjectMeta where
  spec : MCPGatewayExtensionSpec
  conditions : List Condition := []

/-- `mcpv1.GroupVersion.Group`, the same for both versions of the API. -/
def mcpGroup : String := "mcp.kuadrant.io"

/-! ## Gateway API -/

/-- `gatewayv1.GroupVersion.Group` -/
def gatewayGroup : String := "gateway.networking.k8s.io"

structure LabelSelectorRequirement where
  key : String
  operator : String
  values : List String := []
  deriving DecidableEq, Repr

structure LabelSelector where
  matchLabels : List (String × String) := []
  matchExpressions : List LabelSelectorRequirement := []
  deriving DecidableEq, Repr

inductive FromNamespaces where
  | all | same | selector | none
  | other (text : String)
  deriving DecidableEq, Repr

structure RouteNamespaces where
  source : Option FromNamespaces := Option.none
  selector : Option LabelSelector := Option.none
  deriving DecidableEq, Repr

structure Listener where
  name : String
  hostname : Option String := none
  port : Nat
  protocol : String := ""
  /-- `allowedRoutes.namespaces`, absent if either is. -/
  allowedNamespaces : Option RouteNamespaces := none
  deriving DecidableEq, Repr

structure ListenerStatus where
  name : String
  conditions : List Condition := []
  deriving DecidableEq, Repr

structure Gateway extends ObjectMeta where
  listeners : List Listener := []
  listenerStatuses : List ListenerStatus := []

structure ParentReference where
  group : Option String := none
  kind : Option String := none
  ns : Option String := none
  name : String
  sectionName : Option String := none
  deriving DecidableEq, Repr

structure BackendRef where
  group : Option String := none
  kind : Option String := none
  name : String
  ns : Option String := none
  port : Option Nat := none
  deriving DecidableEq, Repr

structure RouteParentStatus where
  parentRef : ParentReference
  conditions : List Condition := []
  deriving DecidableEq, Repr

structure HTTPRoute extends ObjectMeta where
  parentRefs : List ParentReference := []
  hostnames : List String := []
  /-- The backends of each rule. -/
  rules : List (List BackendRef) := []
  parents : List RouteParentStatus := []

structure ReferenceGrantFrom where
  group : String
  kind : String
  ns : String
  deriving DecidableEq, Repr

structure ReferenceGrantTo where
  group : String
  kind : String := ""
  name : Option String := none
  deriving DecidableEq, Repr

structure ReferenceGrant extends ObjectMeta where
  sources : List ReferenceGrantFrom := []
  targets : List ReferenceGrantTo := []

/-! ## Other objects -/

structure ServicePort where
  port : Nat
  appProtocol : Option String := none
  deriving DecidableEq, Repr

structure Service extends ObjectMeta where
  type : String := ""
  externalName : String := ""
  ports : List ServicePort := []

structure Secret extends ObjectMeta where
  data : GoMap String := ∅

/-- A `corev1.Namespace`; its `ns` is empty. -/
structure NamespaceObject extends ObjectMeta

structure EnvoyFilter extends ObjectMeta

/-! ## The client -/

inductive Kind where
  | mcpServerRegistration | a2aAgentRegistration | mcpGatewayExtension | httpRoute | gateway
  | referenceGrant | service | secret | namespaceObject | envoyFilter
  deriving DecidableEq, Repr

@[reducible] def Obj : Kind → Type
  | .mcpServerRegistration => MCPServerRegistration
  | .a2aAgentRegistration => A2AAgentRegistration
  | .mcpGatewayExtension => MCPGatewayExtension
  | .httpRoute => HTTPRoute
  | .gateway => Gateway
  | .referenceGrant => ReferenceGrant
  | .service => Service
  | .secret => Secret
  | .namespaceObject => NamespaceObject
  | .envoyFilter => EnvoyFilter

/-- The metadata of an object. -/
def Obj.metadata : (k : Kind) → Obj k → ObjectMeta
  | .mcpServerRegistration, o => MCPServerRegistration.toObjectMeta o
  | .a2aAgentRegistration, o => A2AAgentRegistration.toObjectMeta o
  | .mcpGatewayExtension, o => MCPGatewayExtension.toObjectMeta o
  | .httpRoute, o => HTTPRoute.toObjectMeta o
  | .gateway, o => Gateway.toObjectMeta o
  | .referenceGrant, o => ReferenceGrant.toObjectMeta o
  | .service, o => Service.toObjectMeta o
  | .secret, o => Secret.toObjectMeta o
  | .namespaceObject, o => NamespaceObject.toObjectMeta o
  | .envoyFilter, o => EnvoyFilter.toObjectMeta o

/-- The field indexes the controllers set up. -/
inductive Index where
  /-- `gatewayIndexKey`: extensions by their gateway. -/
  | gateway
  /-- `refGrantIndexKey`: extensions by the grant that would permit their reference. -/
  | refGrant
  /-- `HTTPRouteIndex`: server registrations by their route. -/
  | httpRoute
  /-- `A2AHTTPRouteIndex`: agent registrations by their route. -/
  | a2aHTTPRoute
  /-- `A2ATargetNamespaceIndex`: agent registrations by the namespace of their route. -/
  | a2aTargetNamespace
  deriving DecidableEq, Repr

/-- The options of a `List` call. -/
inductive ListOption where
  | all
  /-- `client.InNamespace(ns)`; the empty namespace stands for all of them. -/
  | inNamespace (ns : String)
  /-- `client.MatchingFields{index: value}` -/
  | matchingFields (index : Index) (value : String)
  deriving DecidableEq, Repr

/-- An error of a step of the extension's reconcile: a `validationError`, which is reported in the
status, or any other. -/
inductive ExtError where
  | validation (reason message : String)
  | other (e : Err)
  deriving DecidableEq, Repr

structure ListenerConfig where
  port : Nat
  hostname : String
  name : String
  protocol : String
  deriving DecidableEq, Repr

/-- The calls of a controller. -/
inductive Op where
  | get (k : Kind) (key : NamespacedName)
  | list (k : Kind) (opt : ListOption)
  | update (k : Kind) (o : Obj k)
  | updateStatus (k : Kind) (o : Obj k)
  | delete (k : Kind) (o : Obj k)
  | now
  | upsertMCPServer (server : Config.MCPServer) (secret : NamespacedName)
  | removeMCPServer (serverName : String)
  | upsertA2AAgent (agent : Config.A2AAgent) (secret : NamespacedName)
  | removeA2AAgent (agentName : String)
  | ensureConfigExists (secret : NamespacedName)
  | writeEmptyConfig (secret : NamespacedName)

@[reducible] def Resp : Op → Type
  | .get k _ => Except Err (Obj k)
  | .list k _ => Except Err (List (Obj k))
  | .now => Nat
  | _ => Except Err Unit

/-- The signature of the controllers' programs. -/
@[reducible] def kube : Sig := ⟨Op, Resp⟩

/-- A controller's program. -/
abbrev Ctl (α : Type) := Prog kube α

/-- What a reconcile returns: an error, or a result with or without `RequeueAfter`. -/
inductive Result where
  | done | requeueAfter
  deriving DecidableEq, Repr

end McpGateway.Controller
