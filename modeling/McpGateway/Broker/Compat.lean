import McpGateway.Broker.Sessions
import McpGateway.Foundation.Headers
import McpGateway.Foundation.Mime

/-!
# The compatibility layer

`compatHandler` stands before the SDK handler of the broker's `/mcp` endpoint.  It answers every
request the SDK would treat differently from its predecessor and delegates the others.  A
`json.RawMessage` is modelled by the value it holds, and an absent one by `none`; header names are
in lower case, as the proxy sends them.
-/

namespace McpGateway.Broker

open Go Effect Routing Session Http Headers

/-! ## The envelope -/

structure JsonrpcEnvelope where
  jsonrpc : String := ""
  id : Option Json := none
  result : Option Json := none
  error : Option Json := none
  method : String := ""
  params : Option Json := none

namespace JsonrpcEnvelope

def setField (field : String) (v : Json) (e : JsonrpcEnvelope) : Option JsonrpcEnvelope :=
  match field with
  | "jsonrpc" => (Struct.decodeString v e.jsonrpc).map fun s => { e with jsonrpc := s }
  | "id" => some { e with id := some v }
  | "result" => some { e with result := some v }
  | "error" => some { e with error := some v }
  | "method" => (Struct.decodeString v e.method).map fun s => { e with method := s }
  | "params" => some { e with params := some v }
  | _ => some e

def unmarshal (body : Bytes) : Option JsonrpcEnvelope := do
  let v ← Json.parse body
  Struct.decode ["jsonrpc", "id", "result", "error", "method", "params"] setField v {}

lemma unmarshal_nil : unmarshal [] = none := by
  decide

/-- The id as an `any`.  The error of a number no double can hold is dropped, so that one is nil. -/
def idValue (e : JsonrpcEnvelope) : Any :=
  match e.id with
  | none => .nil
  | some v => Any.ofJsonLossy v

end JsonrpcEnvelope

/-- Nothing, `null`, or an object or array without elements. -/
def isJSONEmpty : Option Json → Bool
  | none | some .null | some (.obj []) | some (.arr []) => true
  | _ => false

/-- There is a value and it is not `null`. -/
def holdsValue : Option Json → Bool
  | none | some .null => false
  | _ => true

/-- Parameters that a notification cannot have: a value that is neither an object nor `null`. -/
def isNonObject : Option Json → Bool
  | none | some .null | some (.obj _) => false
  | _ => true

/-- Whether a value decodes into an `int64`. -/
def decodesInt64 : Option Json → Bool
  | some .null => true
  | some (.num (0x2D :: digits)) => digits.all Json.isDigit && Json.natOfDigits digits ≤ 2 ^ 63
  | some (.num digits) => digits.all Json.isDigit && Json.natOfDigits digits < 2 ^ 63
  | _ => false

/-! ## Answers -/

/-- `http.Error`. -/
def httpError (message : String) (status : Nat) : HttpReply :=
  ⟨status, message ++ "\n"⟩

def accepted : HttpReply := ⟨202, ""⟩

def codeParseError : Int := -32700
def codeInvalidRequest : Int := -32600
def codeMethodNotFound : Int := -32601

def writeMainJSONRPCError (status : Nat) (id : Any) (code : Int) (message : String) : HttpReply where
  status := status
  body := "\x7b\"jsonrpc\":\"2.0\",\"id\":" ++ text id.marshal ++ ",\"error\":\x7b\"code\":" ++
    toString code ++ ",\"message\":" ++ text (Json.quote message) ++ "\x7d\x7d\n"

/-- What becomes of a request: an answer of the layer, a stream that carries nothing, or a request
to the SDK handler. -/
inductive Served where
  | reply (r : HttpReply)
  | deadStream
  | stream (headers : Headers)
  | delegate (headers : Headers) (body : Bytes) (method : String)

/-! ## POST -/

def maxRequestBodyBytes : Nat := 10 * 2 ^ 20

def unsupportedDomain (method : String) : Option String :=
  if method = "logging/setLevel" then some "logging"
  else if method ∈ ["resources/list", "resources/templates/list", "resources/read",
      "resources/subscribe", "resources/unsubscribe"] then some "resources"
  else if method = "completion/complete" then some "completions"
  else if method ∈ ["tasks/get", "tasks/list", "tasks/result", "tasks/cancel"] then some "tasks"
  else none

def delegatedMethods : List String :=
  ["ping", "tools/list", "tools/call", "prompts/list", "prompts/get"]

def sdkAcceptsNotification (method : String) (params : Option Json) : Bool :=
  method ∈ ["notifications/initialized", "notifications/cancelled",
    "notifications/roots/list_changed"] ||
  (method = "notifications/progress" && holdsValue params)

/-- `r.Header.Get`: the first value. -/
def wireHeader (headers : Headers) (name : String) : String :=
  (headers.values name).headD ""

/-- Hand the request to the SDK, which asks for an `Accept` header. -/
def delegate (headers : Headers) (body : Bytes) (method : String) : Served :=
  .delegate (headers.overwrite ("accept", "application/json, text/event-stream")) body method

/-- The protocol version an initialization asks for; a value of another type is passed over. -/
def protocolVersionOf : Option Json → String
  | none => ""
  | some params =>
    (Struct.decode ["protocolVersion"]
      (fun _ v s => some ((Struct.decodeString v s).getD s)) params "").getD ""

def rewriteInitializeVersion (env : JsonrpcEnvelope) (version : String) : Bytes :=
  let members : GoMap Bytes :=
    match env.params with
    | some (.obj fields) => GoMap.ofPairs (fields.map fun f => (Json.unquote f.1, f.2.compact))
    | _ => ∅
  let params := Any.writeObject
    (GoMap.pairs (AList.insert "protocolVersion" (Json.quote version) members))
  Json.bracket "\x7b" "\x7d"
    ([bytes "\"jsonrpc\":" ++ Json.quote env.jsonrpc] ++
      (env.id.map fun v => bytes "\"id\":" ++ v.compact).toList ++
      [bytes "\"method\":" ++ Json.quote env.method, bytes "\"params\":" ++ params])

def mainDefaultProtocolVersion : String := "2025-03-26"

def serveInitialize (headers : Headers) (body : Bytes) (env : JsonrpcEnvelope) : Served :=
  delegate (headers.remove [sessionHeader])
    (if protocolVersionOf env.params = "" then
      rewriteInitializeVersion env mainDefaultProtocolVersion
    else body)
    env.method

def checkSessionWith (sessionValidator : Option JWTManager) (sid : String) : Gw (Option HttpReply) :=
  match sessionValidator with
  | none => pure none
  | some m => checkSession m sid

def serveSamplingResponse (sessionValidator : Option JWTManager) (headers : Headers)
    (env : JsonrpcEnvelope) : Gw Served :=
  let sid := wireHeader headers sessionHeader
  if sid = "" then
    pure (.reply (httpError "Missing session ID for sampling response" 400))
  else do
    match ← checkSessionWith sessionValidator sid with
    | some refused => do
      dropSession sid
      pure (.reply refused)
    | none =>
      if decodesInt64 env.id then
        pure (.reply (httpError "No pending sampling request found for the given request ID" 400))
      else
        pure (.reply (httpError "Invalid request ID in sampling response" 400))

def dispatch (headers : Headers) (body : Bytes) (env : JsonrpcEnvelope) : Served :=
  if env.jsonrpc ≠ "2.0" then
    .reply (writeMainJSONRPCError 200 env.idValue codeInvalidRequest "Invalid JSON-RPC version")
  else if env.idValue.isNil then
    if isNonObject env.params then
      .reply (writeMainJSONRPCError 200 .nil codeParseError "Failed to parse notification")
    else if sdkAcceptsNotification env.method env.params then delegate headers body env.method
    else .reply accepted
  else if holdsValue env.result then .reply accepted
  else
    match unsupportedDomain env.method with
    | some domain =>
      .reply (writeMainJSONRPCError 200 env.idValue codeMethodNotFound (domain ++ " not supported"))
    | none =>
      if env.method ∈ delegatedMethods then delegate headers body env.method
      else
        .reply (writeMainJSONRPCError 200 env.idValue codeMethodNotFound
          ("Method " ++ env.method ++ " not found"))

def servePOST (sessionValidator : Option JWTManager) (headers : Headers) (body : Bytes) : Gw Served :=
  if Mime.parseMediaType (wireHeader headers "content-type") ≠ some "application/json" then
    pure (.reply (httpError "Invalid content type: must be 'application/json'" 400))
  else if maxRequestBodyBytes < body.length then
    pure (.reply (writeMainJSONRPCError 413 .nil codeInvalidRequest "request body too large"))
  else
    match JsonrpcEnvelope.unmarshal body with
    | none =>
      pure (.reply (writeMainJSONRPCError 400 .nil codeParseError "request body is not valid json"))
    | some env =>
      if env.method = "" && env.id.isSome && isJSONEmpty env.result && isJSONEmpty env.error then
        pure (.reply accepted)
      else if env.method = "" && env.id.isSome && (env.result.isSome || env.error.isSome) then
        serveSamplingResponse sessionValidator headers env
      else if env.method = "initialize" then pure (serveInitialize headers body env)
      else do
        match ← checkSessionWith sessionValidator (wireHeader headers sessionHeader) with
        | some refused => do
          dropSession (wireHeader headers sessionHeader)
          pure (.reply refused)
        | none => pure (dispatch headers body env)

/-! ## All methods -/

def serveGET (sessionValidator : Option JWTManager) (headers : Headers) : Gw Served := do
  match ← checkSessionWith sessionValidator (wireHeader headers sessionHeader) with
  | some _ => pure .deadStream
  | none => pure (.stream (headers.overwrite ("accept", "text/event-stream")))

def serveHTTP (sessionValidator : Option JWTManager) (headers : Headers) (body : Bytes) :
    Gw Served := do
  let method := wireHeader headers ":method"
  let headers := headers.remove ["mcp-protocol-version"]
  if method = "POST" then servePOST sessionValidator headers body
  else if method = "GET" then serveGET sessionValidator headers
  else if method = "DELETE" then do
    let r ← serveDELETE (wireHeader headers sessionHeader)
    pure (.reply r)
  else pure (.reply (httpError "404 page not found" 404))

/-! ## What is delegated -/

def compatHeaders : List String :=
  ["accept", sessionHeader, "mcp-protocol-version"]

/-- A request that is handed on has the headers it came with, up to those of the layer. -/
def Served.Keeps (headers : Headers) : Served → Prop
  | .delegate hs _ _ => ∀ k ∉ compatHeaders, hs.values k = headers.values k
  | _ => True

variable {sessionValidator : Option JWTManager} {headers hs : Headers} {body b : Bytes}
  {method : String} {env : JsonrpcEnvelope} {tr : List GwEv} {out : Served}

lemma keeps_delegate : (delegate headers body method).Keeps headers := by
  intro k hk
  refine values_overwrite_ne fun h => hk ?_
  simp [compatHeaders, h]

lemma keeps_serveInitialize : (serveInitialize headers body env).Keeps headers := by
  intro k hk
  have hremove : k ∉ [sessionHeader] := by
    intro h
    exact hk (by simp_all [compatHeaders])
  have hdelegate : (serveInitialize headers body env).Keeps (headers.remove [sessionHeader]) :=
    keeps_delegate
  exact (hdelegate k hk).trans (values_remove_of_not_mem hremove)

lemma keeps_dispatch : (dispatch headers body env).Keeps headers := by
  unfold dispatch
  repeat' split
  all_goals first
    | exact keeps_delegate
    | trivial

lemma reply_of_dropSession {sid : String} {refused : HttpReply}
    (h : (dropSession sid >>= fun _ => pure (.reply refused) : Gw Served).Outcome tr out) :
    out = .reply refused := by
  obtain ⟨_, tr₁, tr₂, -, -, hret⟩ := outcome_bind_iff.1 h
  exact (outcome_ret_iff.1 hret).2

lemma reply_of_serveSamplingResponse
    (h : (serveSamplingResponse sessionValidator headers env).Outcome tr out) :
    ∃ r, out = .reply r := by
  unfold serveSamplingResponse at h
  dsimp only at h
  split at h
  · exact ⟨_, (outcome_ret_iff.1 h).2⟩
  · obtain ⟨refused, tr₁, tr₂, -, -, hrest⟩ := outcome_bind_iff.1 h
    cases refused with
    | some refused => exact ⟨refused, reply_of_dropSession hrest⟩
    | none =>
      dsimp only at hrest
      split_ifs at hrest <;> exact ⟨_, (outcome_ret_iff.1 hrest).2⟩

lemma delegated_of_servePOST
    (h : (servePOST sessionValidator headers body).Outcome tr (.delegate hs b method)) :
    Mime.parseMediaType (wireHeader headers "content-type") = some "application/json" ∧
      body ≠ [] ∧ (Served.delegate hs b method).Keeps headers := by
  unfold servePOST at h
  split_ifs at h with htype hlarge
  · cases (outcome_ret_iff.1 h).2
  · cases (outcome_ret_iff.1 h).2
  · cases henv : JsonrpcEnvelope.unmarshal body with
    | none =>
      rw [henv] at h
      cases (outcome_ret_iff.1 h).2
    | some env =>
      have hbody : body ≠ [] := by
        rintro rfl
        simp [JsonrpcEnvelope.unmarshal_nil] at henv
      refine ⟨not_not.1 htype, hbody, ?_⟩
      rw [henv] at h
      dsimp only at h
      split_ifs at h
      · cases (outcome_ret_iff.1 h).2
      · obtain ⟨r, hr⟩ := reply_of_serveSamplingResponse h
        cases hr
      · rw [(outcome_ret_iff.1 h).2]
        exact keeps_serveInitialize
      · obtain ⟨refused, tr₁, tr₂, -, -, hrest⟩ := outcome_bind_iff.1 h
        cases refused with
        | some refused => cases reply_of_dropSession hrest
        | none =>
          rw [(outcome_ret_iff.1 hrest).2]
          exact keeps_dispatch

lemma delegated_of_serveHTTP
    (h : (serveHTTP sessionValidator headers body).Outcome tr (.delegate hs b method)) :
    Mime.parseMediaType (wireHeader headers "content-type") = some "application/json" ∧
      body ≠ [] ∧ (Served.delegate hs b method).Keeps headers := by
  unfold serveHTTP at h
  dsimp only at h
  split_ifs at h
  · have hkept : ∀ k ∉ compatHeaders,
        (headers.remove ["mcp-protocol-version"]).values k = headers.values k := by
      intro k hk
      refine values_remove_of_not_mem fun h => hk ?_
      simp_all [compatHeaders]
    obtain ⟨htype, hbody, hkeeps⟩ := delegated_of_servePOST h
    rw [wireHeader, hkept "content-type" (by decide)] at htype
    exact ⟨htype, hbody, fun k hk => (hkeeps k hk).trans (hkept k hk)⟩
  · obtain ⟨refused, tr₁, tr₂, -, -, hrest⟩ := outcome_bind_iff.1 h
    cases refused <;> cases (outcome_ret_iff.1 hrest).2
  · obtain ⟨r, tr₁, tr₂, -, -, hrest⟩ := outcome_bind_iff.1 h
    cases (outcome_ret_iff.1 hrest).2
  · cases (outcome_ret_iff.1 h).2

/-! ## What reaches the SDK handler -/

/-- A request that the wrapped handler is given. -/
structure InnerRequest where
  method : String
  headers : Headers
  body : Bytes

/-- The tear-down that a call stands for, if it is one: a DELETE with the session's header only. -/
def tearDown? : GwEv → Option InnerRequest
  | ⟨.dropServerSession sid, _⟩ => some ⟨"DELETE", [(sessionHeader, sid)], []⟩
  | _ => none

def Served.inner? : Served → Option InnerRequest
  | .delegate hs body _ => some ⟨"POST", hs, body⟩
  | .stream hs => some ⟨"GET", hs, []⟩
  | _ => none

def innerRequests (tr : List GwEv) (out : Served) : List InnerRequest :=
  tr.filterMap tearDown? ++ out.inner?.toList

/-- The body is an `initialize` request. -/
def IsInitialize (body : Bytes) : Prop :=
  ∃ env, JsonrpcEnvelope.unmarshal body = some env ∧ env.method = "initialize"

/-- The validator accepted the session id of the headers at a time the request was handled. -/
def SessionAccepted (m : JWTManager) (tr : List GwEv) (hs : Headers) : Prop :=
  ∃ now, Answered tr .now now ∧ m.validate now (wireHeader hs sessionHeader) = .ok false

lemma accepted_of_checkSession {m : JWTManager} {sid : String} {p : Option HttpReply → Gw Served}
    (h : (checkSession m sid >>= p).Outcome tr out) : (∃ refused tr', (p (some refused)).Outcome tr' out) ∨
    ∃ now tr', Answered tr .now now ∧ m.validate now sid = .ok false ∧ (p none).Outcome tr' out := by
  obtain ⟨res, tr₁, tr₂, rfl, hcheck, hrest⟩ := outcome_bind_iff.1 h
  obtain ⟨now, tr', rfl, hverdict⟩ := outcome_op_iff.1 hcheck
  split at hverdict
  case h_3 hvalid =>
    obtain ⟨rfl, rfl⟩ := outcome_ret_iff.1 hverdict
    exact .inr ⟨now, tr₂, mem_append_left _ (mem_cons_self ..), hvalid, hrest⟩
  all_goals
    obtain ⟨rfl, rfl⟩ := outcome_ret_iff.1 hverdict
    exact .inl ⟨_, tr₂, hrest⟩

lemma wireHeader_overwrite {k v : String} (h : k ≠ sessionHeader) :
    wireHeader (headers.overwrite (k, v)) sessionHeader = wireHeader headers sessionHeader := by
  rw [wireHeader, values_overwrite_ne h.symm, wireHeader]

lemma wireHeader_of_dispatch {q : InnerRequest} (h : (dispatch headers body env).inner? = some q) :
    wireHeader q.headers sessionHeader = wireHeader headers sessionHeader := by
  have hdelegate : ∀ meth, (delegate headers body meth).inner? = some q →
      wireHeader q.headers sessionHeader = wireHeader headers sessionHeader := by
    intro meth heq
    cases heq
    exact wireHeader_overwrite (by decide)
  unfold dispatch at h
  repeat' split at h
  all_goals first
    | exact hdelegate _ h
    | cases h

lemma gated_of_servePOST {m : JWTManager} {q : InnerRequest}
    (h : (servePOST (some m) headers body).Outcome tr out) (hq : out.inner? = some q) :
    q.method = "POST" ∧ IsInitialize body ∧ q.headers.values sessionHeader = [] ∨
      SessionAccepted m tr q.headers := by
  unfold servePOST at h
  split_ifs at h
  · cases (outcome_ret_iff.1 h).2 ▸ hq
  · cases (outcome_ret_iff.1 h).2 ▸ hq
  · cases henv : JsonrpcEnvelope.unmarshal body with
    | none =>
      rw [henv] at h
      cases (outcome_ret_iff.1 h).2 ▸ hq
    | some env =>
      rw [henv] at h
      dsimp only at h
      split_ifs at h with _ _ hinit
      · cases (outcome_ret_iff.1 h).2 ▸ hq
      · obtain ⟨r, rfl⟩ := reply_of_serveSamplingResponse h
        cases hq
      · -- the client's session header is removed before the request is handed on
        cases (outcome_ret_iff.1 h).2 ▸ hq
        refine .inl ⟨rfl, ⟨env, henv, hinit⟩, ?_⟩
        rw [values_overwrite_ne (by decide)]
        exact values_remove_of_mem (mem_singleton.2 rfl)
      · rcases accepted_of_checkSession h with ⟨refused, tr', hrest⟩ | ⟨now, tr', hnow, hvalid, hrest⟩
        · cases reply_of_dropSession hrest ▸ hq
        · rw [(outcome_ret_iff.1 hrest).2] at hq
          rw [← wireHeader_of_dispatch hq] at hvalid
          exact .inr ⟨now, hnow, hvalid⟩

/-- With a validator, whatever reaches the handler behind the layer is an initialization without the
client's session header, a tear-down, or carries a session id the validator accepted; a body that is
no initialization, such as a response, a batch or one that cannot be read, never gets there
unvalidated. -/
theorem innerRequests_gated {m : JWTManager} {q : InnerRequest}
    (h : (serveHTTP (some m) headers body).Outcome tr out) (hq : q ∈ innerRequests tr out) :
    (q.method = "POST" ∧ IsInitialize body ∧ q.headers.values sessionHeader = [] ∨
      q.method = "DELETE" ∨ SessionAccepted m tr q.headers) ∧
    (¬ IsInitialize body → q.method ≠ "DELETE" → SessionAccepted m tr q.headers) := by
  suffices hcases : q.method = "POST" ∧ IsInitialize body ∧ q.headers.values sessionHeader = [] ∨
      q.method = "DELETE" ∨ SessionAccepted m tr q.headers by
    refine ⟨hcases, fun hbody hmethod => ?_⟩
    rcases hcases with ⟨-, hinit, -⟩ | hdelete | haccepted
    · exact absurd hinit hbody
    · exact absurd hdelete hmethod
    · exact haccepted
  rcases List.mem_append.1 hq with hdown | hend
  · -- the calls along the way are tear-downs
    obtain ⟨⟨o, r⟩, -, he⟩ := List.mem_filterMap.1 hdown
    cases o <;> cases he
    exact .inr (.inl rfl)
  · unfold serveHTTP at h
    dsimp only at h
    split_ifs at h
    · rcases gated_of_servePOST h (Option.mem_toList.1 hend) with hinit | haccepted
      · exact .inl hinit
      · exact .inr (.inr haccepted)
    · rcases accepted_of_checkSession h with ⟨refused, tr', hrest⟩ | ⟨now, tr', hnow, hvalid, hrest⟩
      · cases (outcome_ret_iff.1 hrest).2
        cases hend
      · cases (outcome_ret_iff.1 hrest).2
        cases List.mem_singleton.1 hend
        refine .inr (.inr ⟨now, hnow, ?_⟩)
        rwa [wireHeader_overwrite (by decide)]
    · obtain ⟨r, tr₁, tr₂, -, -, hrest⟩ := outcome_bind_iff.1 h
      cases (outcome_ret_iff.1 hrest).2
      cases hend
    · cases (outcome_ret_iff.1 h).2
      cases hend

def oneSessionManager : JWTManager where
  signer :=
    { verify := fun t =>
        if t = "alice" then
          some { issuer, audience := [sessionAudience], expiresAt := some 60, notBefore := none,
                 issuedAt := none, id := "1" }
        else none
      verify_compact := by
        intro t c h
        split_ifs at h with ht
        subst ht
        decide
      verify_empty := rfl }
  duration := 60 * second

theorem innerRequests_gated_stream :
    SessionAccepted oneSessionManager [⟨.now, (0 : Nat)⟩]
      [(":method", "GET"), (sessionHeader, "alice"), ("accept", "text/event-stream")] := by
  have hrun : (serveHTTP (some oneSessionManager) [(":method", "GET"), (sessionHeader, "alice")]
      []).Outcome [⟨.now, (0 : Nat)⟩]
      (.stream [(":method", "GET"), (sessionHeader, "alice"), ("accept", "text/event-stream")]) := by
    have hvalid : oneSessionManager.validate 0 "alice" = .ok false := by decide +kernel
    have hsid : wireHeader (Headers.remove [(":method", "GET"), (sessionHeader, "alice")]
        ["mcp-protocol-version"]) sessionHeader = "alice" := by decide
    unfold serveHTTP
    dsimp only
    rw [if_neg (by decide), if_pos (by decide), serveGET, hsid]
    refine outcome_bind_iff.2 ⟨none, _, [], (List.append_nil _).symm, ?_,
      outcome_ret_iff.2 ⟨rfl, congrArg Served.stream (by decide)⟩⟩
    refine outcome_op_iff.2 ⟨0, [], rfl, ?_⟩
    rw [hvalid]
    exact .ret _
  refine (innerRequests_gated hrun (List.mem_singleton.2 rfl)).2 ?_ (by decide)
  rintro ⟨env, henv, -⟩
  rw [JsonrpcEnvelope.unmarshal_nil] at henv
  cases henv

end McpGateway.Broker
