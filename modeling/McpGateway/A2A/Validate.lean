import McpGateway.A2A.Agents
import McpGateway.Foundation.Json
import McpGateway.Foundation.Url

/-!
# Card validation

`validateCard` reads the interfaces that an agent's card advertises and gives the reason for which the
card must not be served, or the empty string.  The decoded fields follow `encoding/json`: keys match up
to case, and a later key acts on what an earlier one left.
-/

namespace McpGateway.A2A

open Go

/-! ## The fields that are read -/

structure AgentInterface where
  url : String := ""
  protocolBinding : String := ""
  protocolVersion : String := ""
  deriving DecidableEq, Repr

structure AgentInterfaces where
  url : String := ""
  supportedInterfaces : Struct.Slice AgentInterface := {}

namespace AgentInterface

def fields : List String := ["url", "protocolBinding", "protocolVersion"]

def setField (field : String) (v : Json) (i : AgentInterface) : Option AgentInterface :=
  match field with
  | "url" => (Struct.decodeString v i.url).map fun s => { i with url := s }
  | "protocolBinding" =>
    (Struct.decodeString v i.protocolBinding).map fun s => { i with protocolBinding := s }
  | "protocolVersion" =>
    (Struct.decodeString v i.protocolVersion).map fun s => { i with protocolVersion := s }
  | _ => some i

def decode (v : Json) (i : AgentInterface) : Option AgentInterface :=
  Struct.decode fields setField v i

end AgentInterface

namespace AgentInterfaces

def fields : List String := ["url", "supportedInterfaces"]

def setField (field : String) (v : Json) (c : AgentInterfaces) : Option AgentInterfaces :=
  match field with
  | "url" => (Struct.decodeString v c.url).map fun s => { c with url := s }
  | "supportedInterfaces" =>
    (Struct.decodeSlice AgentInterface.decode {} v c.supportedInterfaces).map fun is =>
      { c with supportedInterfaces := is }
  | _ => some c

def decode (v : Json) : Option AgentInterfaces :=
  Struct.decode fields setField v {}

/-- `json.Unmarshal(raw, &card)`. -/
def unmarshal (raw : Bytes) : Option AgentInterfaces := do
  let v ← Json.parse raw
  decode v

def advertised (card : AgentInterfaces) : List AgentInterface :=
  let ifaces := card.supportedInterfaces.elems
  if ifaces = [] ∧ card.url ≠ "" then [{ url := card.url }] else ifaces

end AgentInterfaces

/-! ## The checks -/

def hostOnly (h : String) : Bytes :=
  if h = "" then []
  else
    match Url.parse ("//" ++ h) with
    | some u => if u.hostname = [] then bytes h else u.hostname
    | none => bytes h

/-- `strings.TrimRight(path, "/")`. -/
def trimRightPath (path : Bytes) : Bytes :=
  (path.reverse.dropWhile (· == 0x2F)).reverse

def validateInterface (iface : AgentInterface) (wantPath : String) (wantHost : Bytes) : String :=
  match Url.parse iface.url with
  | none => "card advertises unparseable interface URL " ++ quote iface.url
  | some parsed =>
    if parsed.host = [] then "card advertises unparseable interface URL " ++ quote iface.url
    else if toLower parsed.scheme ≠ "http" ∧ toLower parsed.scheme ≠ "https" then
      "card advertises non-http(s) interface URL " ++ quote iface.url
    else if trimRightPath parsed.path ≠ bytes wantPath then
      "card advertises non-gateway interface URL " ++ quote iface.url ++ " (want path " ++ wantPath ++
        ")"
    else if wantHost ≠ [] ∧ parsed.hostname ≠ wantHost then
      "card advertises interface host " ++ quote (text parsed.hostname) ++ ", gateway host is " ++
        quote (text wantHost)
    else if iface.protocolBinding ≠ "" ∧ Struct.equalFold iface.protocolBinding "JSONRPC" = false then
      "card advertises interface with unsupported binding " ++ quote iface.protocolBinding ++
        " (gateway fronts JSONRPC only)"
    else if iface.protocolVersion ≠ "" ∧ iface.protocolVersion ≠ "1" ∧
        hasPrefix iface.protocolVersion "1." = false then
      "card advertises interface protocolVersion " ++ quote iface.protocolVersion ++
        ", gateway is v1-specific"
    else ""

def firstReason (wantPath : String) (wantHost : Bytes) : List AgentInterface → String
  | [] => ""
  | iface :: rest =>
    let reason := validateInterface iface wantPath wantHost
    if reason ≠ "" then reason else firstReason wantPath wantHost rest

def gatewayPath (key : String) : String := "/a2a/" ++ key

def validateCard (raw : Bytes) (externalHost ns agent : String) : String :=
  match AgentInterfaces.unmarshal raw with
  | none => "card is not valid JSON"
  | some card =>
    if card.advertised = [] then "card advertises no interface URL"
    else firstReason (gatewayPath (storeKey ns agent)) (hostOnly externalHost) card.advertised

lemma firstReason_eq_empty {wantPath : String} {wantHost : Bytes} {ifaces : List AgentInterface} :
    firstReason wantPath wantHost ifaces = "" ↔
      ∀ i ∈ ifaces, validateInterface i wantPath wantHost = "" := by
  induction ifaces with
  | nil => simp [firstReason]
  | cons iface rest ih =>
    simp only [firstReason, forall_mem_cons]
    split_ifs with hreason
    · exact ⟨fun h => absurd h hreason, fun h => absurd h.1 hreason⟩
    · rw [not_not] at hreason
      exact ⟨fun h => ⟨hreason, ih.1 h⟩, fun h => ih.2 h.2⟩

lemma validateCard_congr {ns agent ns' agent' : String} (raw : Bytes) (host : String)
    (h : storeKey ns agent = storeKey ns' agent') :
    validateCard raw host ns agent = validateCard raw host ns' agent' := by
  unfold validateCard
  rw [h]

/-- A card with one plainly written interface is served, the same card behind another host is not. -/
example :
    let card := bytes "\x7b\"supportedInterfaces\":[\x7b\"url\":\"https://gw.example/a2a/ns/weather/\"\x7d]\x7d"
    validateCard card "gw.example:8443" "ns" "weather" = "" ∧
      validateCard card "other.example" "ns" "weather" ≠ "" := by
  decide +kernel

end McpGateway.A2A
