import McpGateway.Controller.Gateways

/-!
# What the registration controllers share

Reading credentials and certificates from labelled secrets, the `Ready` condition, the gateways that
accepted a route and the upstream endpoint a route leads to.
-/

namespace McpGateway.Controller

open Go Kubernetes

/-- The libraries the controllers use: `net/url` for writing a URL and for the text of its errors,
`encoding/pem` and `crypto/x509`. -/
structure Libraries where
  /-- `u.String()` after `u.Scheme = "https"`, for the URL parsed from the text. -/
  httpsURL : String → String
  /-- `URL.String` starts with the scheme. -/
  httpsURL_eq : ∀ raw, ∃ rest, httpsURL raw = "https:" ++ rest
  /-- The text of the error of `url.Parse`. -/
  parseError : String → String
  /-- `pem.Decode`: the type and the bytes of the next block, and what follows it. -/
  pemDecode : String → Option (String × String × String)
  pemDecode_shorter : ∀ {data type block rest},
    pemDecode data = some (type, block, rest) → rest.length < data.length
  /-- The text of the error of `x509.ParseCertificate`, if it fails. -/
  parseCertificate : String → Option String

/-! ## Labelled secrets -/

/-- `ManagedSecretLabel` -/
def managedSecretLabel : String := "mcp.kuadrant.io/secret"

/-- `ManagedSecretValue` -/
def managedSecretValue : String := "true"

/-- `maxCACertSize` -/
def maxCACertSize : Nat := 64 * 1024

/-- The loop of `validateCACertPEM`; `found` says that a certificate was seen. -/
def validateBlocks (lib : Libraries) (data : String) (found : Bool) : Except String Unit :=
  match _hblock : lib.pemDecode data with
  | none => if found then .ok () else .error "no valid PEM certificate blocks found"
  | some (type, block, rest) =>
    if type ≠ "CERTIFICATE" then
      .error ("unexpected PEM block type " ++ quote type ++ ", expected CERTIFICATE")
    else
      match lib.parseCertificate block with
      | some e => .error ("failed to parse certificate: " ++ e)
      | none => validateBlocks lib rest true
termination_by data.length
decreasing_by exact lib.pemDecode_shorter _hblock

def validateCACertPEM (lib : Libraries) (data : String) : Except String Unit :=
  validateBlocks lib data false

/-- The value of a key of a secret that must carry the label; `what` names the secret in the
messages. -/
def labelledValue (what : String) (secret : Secret) (name key : String) : Except Err String :=
  if secret.labels.get managedSecretLabel ≠ managedSecretValue then
    .error ⟨what ++ " " ++ name ++ " is missing required label " ++ managedSecretLabel ++ "=" ++
      managedSecretValue, none⟩
  else
    match secret.data.lookup key with
    | none => .error ⟨what ++ " " ++ name ++ " missing key " ++ key, none⟩
    | some val => .ok val

/-- Read a labelled secret.  A missing secret is reported without the API error. -/
def readLabelled (what : String) (failed : String) (ns name key : String) :
    Ctl (Except Err String) := do
  match ← call (.get .secret ⟨ns, name⟩) with
  | .error e =>
    if e.isNotFound then return .error ⟨what ++ " " ++ name ++ " not found", none⟩
    else return .error (e.wrap failed)
  | .ok secret => return labelledValue what secret name key

def readLabeledCredential (ns name key : String) : Ctl (Except Err String) :=
  readLabelled "credential secret" "failed to get credential secret: " ns name key

def readLabeledCACert (lib : Libraries) (ns name key : String) : Ctl (Except Err String) := do
  let key := if key = "" then "ca.crt" else key
  match ← readLabelled "CA certificate secret" "failed to get CA certificate secret: " ns name key with
  | .error e => return .error e
  | .ok val =>
    if maxCACertSize < (bytes val).length then
      return .error ⟨"CA certificate data in secret " ++ name ++ " exceeds maximum size (" ++
        itoa maxCACertSize ++ " bytes)", none⟩
    else
      match validateCACertPEM lib val with
      | .error e => return .error ⟨"CA certificate in secret " ++ name ++ " is invalid: " ++ e, none⟩
      | .ok () => return .ok val

/-! ## The Ready condition -/

def conditionReasonReady : String := "Ready"

def conditionReasonNotReady : String := "NotReady"

def conditionReasonDisabled : String := "Disabled"

/-- The condition that is to be set. -/
def readyCondition (now : Nat) (ready : Bool) (reason message : String) : Condition where
  type := conditionTypeReady
  status := if ready then .conditionTrue else .conditionFalse
  reason := if ready then conditionReasonReady else reason
  message := message
  lastTransitionTime := now

/-- `applyReadyCondition`: the conditions afterwards, and whether the status has to be written. -/
def applyReadyCondition (now : Nat) (ready : Bool) (reason message : String) :
    List Condition → List Condition × Bool
  | [] => ([readyCondition now ready reason message], true)
  | c :: rest =>
    let condition := readyCondition now ready reason message
    if c.type = conditionTypeReady then
      ({ condition with
          lastTransitionTime :=
            if c.status = condition.status then c.lastTransitionTime
            else condition.lastTransitionTime } :: rest,
        decide (c.status ≠ condition.status ∨ c.reason ≠ condition.reason ∨
          c.message ≠ condition.message))
    else
      let (rest', changed) := applyReadyCondition now ready reason message rest
      (c :: rest', changed)

/-! ## The gateways of a route -/

def getGatewayFromParentRef (ns name : String) : Ctl (Except Err Gateway) := do
  match ← call (.get .gateway ⟨ns, name⟩) with
  | .error e => return .error (e.wrap "failed to get parent gateway for httproute: ")
  | .ok g => return .ok g

/-- Whether the parent accepted the route. -/
def RouteParentStatus.accepted (parent : RouteParentStatus) : Bool :=
  isStatusConditionTrue parent.conditions "Accepted"

/-- The loop of `findValidGatewaysForHTTPRoute`. -/
def findGatewaysFrom (routeNamespace : String) :
    List Gateway → List RouteParentStatus → Ctl (Except Err (List Gateway))
  | validGateways, [] => return .ok validGateways
  | validGateways, parent :: rest =>
    if parent.accepted then do
      let pr := parent.parentRef
      match ← getGatewayFromParentRef (pr.ns.getD routeNamespace) pr.name with
      | .error e =>
        if e.isNotFound then findGatewaysFrom routeNamespace validGateways rest
        else return .error (e.wrap "unexpected error getting gateway from httproute ")
      | .ok pg => findGatewaysFrom routeNamespace (validGateways ++ [pg]) rest
    else findGatewaysFrom routeNamespace validGateways rest

def findValidGatewaysForHTTPRoute (targetHTTPRoute : HTTPRoute) : Ctl (Except Err (List Gateway)) :=
  findGatewaysFrom targetHTTPRoute.ns [] targetHTTPRoute.parents

/-! ## The upstream of a route -/

/-- `HTTPRouteWrapper.Validate`; a valid route has exactly one backend. -/
def HTTPRoute.validate (w : HTTPRoute) : Except Err BackendRef :=
  let route := "HTTPRoute " ++ w.ns ++ "/" ++ w.name
  match w.rules with
  | [] | [] :: _ => .error ⟨route ++ " has no backend references", none⟩
  | (_ :: _) :: _ :: _ => .error ⟨route ++ " has > 1 rule, which is unsupported", none⟩
  | [_ :: _ :: _] => .error ⟨route ++ " has > 1 backend reference, which is unsupported", none⟩
  | [[backend]] =>
    if w.hostnames = [] then .error ⟨route ++ " must have at least one hostname", none⟩
    else if backend.name = "" then .error ⟨route ++ " backend reference has no name", none⟩
    else .ok backend

def HTTPRoute.firstHostname (w : HTTPRoute) : String := w.hostnames.headD ""

def BackendRef.backendKind (b : BackendRef) : String := b.kind.getD "Service"

def BackendRef.backendGroup (b : BackendRef) : String := b.group.getD ""

def BackendRef.isHostnameBackend (b : BackendRef) : Bool :=
  b.backendKind = "Hostname" && b.backendGroup = "networking.istio.io"

def BackendRef.isServiceBackend (b : BackendRef) : Bool := b.backendKind = "Service"

/-- `isValidHostname`: nothing but a host. -/
def isValidHostname (hostname : String) : Bool :=
  hostname ≠ "" &&
    match Url.parse ("//" ++ hostname) with
    | some u => u.host = bytes hostname
    | none => false

/-- `net.JoinHostPort` -/
def joinHostPort (host port : String) : String :=
  if host.toList.contains ':' then "[" ++ host ++ "]:" ++ port else host ++ ":" ++ port

/-- Where an upstream is reached, and the host name its requests are routed by. -/
structure ServerInfo where
  endpoint : String
  hostname : String
  deriving DecidableEq, Repr

/-- `determineProtocol`: the first port of the service with the backend's number decides. -/
def determineProtocol (backend : BackendRef) (service : Service) (isExternal : Bool) : String :=
  if isExternal then
    match backend.port.bind fun port => service.ports.find? fun p => p.port = port with
    | some p => if p.appProtocol.any fun a => toLower a = "https" then "https" else "http"
    | none => "http"
  else "http"

def buildServiceEndpoint (route : HTTPRoute) (backend : BackendRef) (service : Service)
    (path : String) : ServerInfo :=
  let isExternal := service.type = "ExternalName"
  let host :=
    if isExternal then service.externalName
    else backend.name ++ "." ++ backend.ns.getD route.ns ++ ".svc.cluster.local"
  let hostAndPort :=
    match backend.port with
    | some port => host ++ ":" ++ itoa port
    | none => host
  let protocol := determineProtocol backend service isExternal
  { endpoint := protocol ++ "://" ++ hostAndPort ++ path
    hostname :=
      if isExternal then
        match Url.cutLast hostAndPort.toList ':' with
        | some (before, _) => String.ofList before
        | none => hostAndPort
      else route.firstHostname }

def buildServerInfoFromHTTPRoute (httpRoute : HTTPRoute) (path : String) :
    Ctl (Except Err ServerInfo) := do
  match httpRoute.validate with
  | .error e => return .error e
  | .ok backend =>
    if backend.isHostnameBackend then
      if !isValidHostname backend.name then
        return .error ⟨"invalid hostname in backendRef: " ++ backend.name, none⟩
      else
        let port := (backend.port.map itoa).getD "443"
        return .ok ⟨"https://" ++ joinHostPort backend.name port ++ path, httpRoute.firstHostname⟩
    else if backend.isServiceBackend then
      match ← call (.get .service ⟨backend.ns.getD httpRoute.ns, backend.name⟩) with
      | .error e => return .error (e.wrap ("failed to get service " ++ backend.name ++ ": "))
      | .ok service => return .ok (buildServiceEndpoint httpRoute backend service path)
    else return .error ⟨"unsupported backend reference kind: " ++ backend.backendKind, none⟩

/-- With a CA configured the upstream must be HTTPS: an `http` endpoint is upgraded. -/
def secureEndpoint (lib : Libraries) (endpoint : String) (hasCA : Bool) : Except Err String :=
  if hasCA then
    match Url.parse endpoint with
    | none => .error ⟨"failed to parse endpoint URL " ++ quote endpoint ++ ": " ++
        lib.parseError endpoint, none⟩
    | some u => .ok (if toLower u.scheme = "http" then lib.httpsURL endpoint else endpoint)
  else .ok endpoint

end McpGateway.Controller
