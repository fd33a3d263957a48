import McpGateway.ExtProc.HeaderFlow
import McpGateway.Routing.Payload

/-!
# The body that reaches an upstream

A tool call or a prompt request is decoded, its name is replaced by the name the upstream server uses,
and it is written again.  `forwarded_body_iff`: the body the upstream reads stands for the client's
body with another name exactly if a double keeps every number of the client's body.
`largeId_changes`: an id above `2^53` does not arrive as it was sent.
-/

namespace McpGateway.ExtProc

open Go Effect Routing MCPRequest

def upstreamRoute (table : Table) (req : MCPRequest) : Option ServerRoute :=
  if req.method = methodToolCall then table.routeOf req.toolName else table.lookupPrompt req.promptName

lemma validate_ok {r : MCPRequest} (h : MCPRequest.validate (some r) = .ok ())
    (hcall : r.isNotificationRequest = false) : r.jsonrpc = "2.0" ∧ r.id ≠ .nil := by
  simp only [MCPRequest.validate] at h
  split_ifs at h with hversion hmethod hid
  refine ⟨not_not.1 hversion, ?_⟩
  intro hnil
  exact hid ⟨by rw [hnil]; rfl, hcall⟩

lemma param_of_nameParam {r : MCPRequest} (h : r.nameParam ≠ "") :
    r.param "name" = some (.string r.nameParam) := by
  unfold MCPRequest.nameParam at h ⊢
  cases hparam : r.param "name" with
  | none =>
    rw [hparam] at h
    exact absurd rfl h
  | some a =>
    rw [hparam] at h
    cases a with
    | string s => rfl
    | nil | bool | float64 | slice | map => exact absurd rfl h

namespace RoutedExchange

variable {s : Server} (e : RoutedExchange s)

lemma rewritten_body (hmethod : e.mcpReq.method = methodToolCall ∨ e.mcpReq.method = methodPromptGet)
    (hup : e.decision.bodyMutation ≠ none) :
    ∃ route, upstreamRoute e.table e.mcpReq = some route ∧ e.mcpReq.nameParam ≠ "" ∧
      e.decision.bodyMutation =
        some (e.mcpReq.rewriteName (trimPrefix e.mcpReq.nameParam route.namePrefix)).toBytes := by
  obtain ⟨req', -, hacc⟩ := e.accepted
  have hprompt : methodPromptGet ≠ methodToolCall := by decide
  have hreply : branchOf e.table e.mcpReq ≠ .reply := by
    -- a reply has no method
    intro hbranch
    have hnone : e.mcpReq.isElicitationResponse = false := by
      rcases hmethod with hmethod | hmethod <;>
        simp +decide [MCPRequest.isElicitationResponse, hmethod]
    unfold branchOf at hbranch
    rw [hnone] at hbranch
    split_ifs at hbranch
    all_goals contradiction
  generalize e.decision = d at hacc hup ⊢
  cases hacc with
  | @tool route _ _ body _ _ hbranch hroute _ _ _ hbody hname =>
    have hcall : e.mcpReq.method = methodToolCall := by
      by_contra hne
      refine hname ?_
      unfold MCPRequest.toolName MCPRequest.isToolCall
      rw [if_neg (by simpa using hne)]
    have hnamed : e.mcpReq.toolName = e.mcpReq.nameParam := by
      unfold MCPRequest.toolName MCPRequest.isToolCall
      rw [if_pos (by simpa using hcall)]
    refine ⟨route, ?_, hnamed ▸ hname, ?_⟩
    · rw [upstreamRoute, if_pos hcall, hroute]
    · rw [upstreamDecision, hbody, hnamed]
      rfl
  | @prompt route _ _ body _ hbranch hroute _ _ hbody hname =>
    have hget : e.mcpReq.method = methodPromptGet := by
      by_contra hne
      refine hname ?_
      unfold MCPRequest.promptName MCPRequest.isPromptGet
      rw [if_neg (by simpa using hne)]
    have hnamed : e.mcpReq.promptName = e.mcpReq.nameParam := by
      unfold MCPRequest.promptName MCPRequest.isPromptGet
      rw [if_pos (by simpa using hget)]
    refine ⟨route, ?_, hnamed ▸ hname, ?_⟩
    · rw [upstreamRoute, if_neg (by rw [hget]; exact hprompt), hroute]
    · rw [upstreamDecision, hbody, hnamed]
      rfl
  | reply hbranch => exact absurd hbranch hreply
  | elicit => exact absurd rfl hup
  | hairpin => exact absurd rfl hup
  | broker => exact absurd rfl hup

/-- The body an upstream reads stands for the client's body with the name the upstream uses, exactly if
each number of the client's body survives being read into a double and written again. -/
theorem forwarded_body_iff {body : Bytes} {fields : List (Bytes × Json)}
    (hbody : e.req.body = some body) (hparse : Json.parse body = some (.obj fields))
    (hrequest : IsRequest fields)
    (hmethod : e.mcpReq.method = methodToolCall ∨ e.mcpReq.method = methodPromptGet)
    (hup : e.decision.bodyMutation ≠ none) :
    ∃ route name out j, upstreamRoute e.table e.mcpReq = some route ∧
      nameOf (Json.denote (.obj fields)) = some (.str name) ∧
      e.body = some out ∧ Json.parse out = some j ∧
      (Json.denote j = renamed (trimPrefix name route.namePrefix) (Json.denote (.obj fields)) ↔
        ∀ lit ∈ Json.literals (.obj fields), Json.RoundTrips lit) := by
  obtain ⟨route, hroute, hname, hmutation⟩ := e.rewritten_body hmethod hup
  obtain ⟨body', r, hread, hmcp, hbody', hvalid⟩ := Server.message_cases e.asked
  cases hbody.symm.trans hbody'
  have hsame : e.mcpReq.method = r.method := by rw [hmcp]
  have hcall : r.isNotificationRequest = false ∧ r.method ≠ "" := by
    rw [MCPRequest.isNotificationRequest, ← hsame]
    rcases hmethod with hmethod | hmethod <;> rw [hmethod] <;> decide
  obtain ⟨hversion, hid⟩ := validate_ok hvalid hcall.1
  have hversion' : r.jsonrpc ≠ "" := by
    rw [hversion]
    decide
  have hparam : r.param "name" = some (.string e.mcpReq.nameParam) := by
    have hparam := param_of_nameParam hname
    rw [hmcp] at hparam ⊢
    exact hparam
  -- what was read, and that it can be written
  have hfold : Struct.foldFields fieldNames setField fields {} = some r := by
    obtain ⟨v, hv, hread⟩ := Option.bind_eq_some_iff.1 hread
    cases hparse.symm.trans hv
    obtain ⟨r', hr', hsome⟩ := Option.bind_eq_some_iff.1 hread
    cases hsome
    exact hr'
  have hfrom := readFrom_of_fold hrequest.plain hfold
  obtain ⟨d, hd, hwritable⟩ := unmarshal_writable hread
  have hroom : 1 ≤ d := by
    obtain ⟨m, hm, hlookup⟩ := Option.bind_eq_some_iff.1 hparam
    have hdepth := (hwritable.params m hm "name" _ hlookup).2
    omega
  obtain ⟨hold, hvalue⟩ := rewriteName_value hrequest hfrom hid hversion' hcall.2 hparam
    (trimPrefix e.mcpReq.nameParam route.namePrefix)
  refine ⟨route, e.mcpReq.nameParam, _, _, hroute, hold, ?_,
    (hwritable.rewriteName hroom _).parse hd, hvalue⟩
  rw [e.body_eq hbody, hmutation, Option.getD_some, hmcp]
  rfl

end RoutedExchange

/-! ## A number that arrives changed -/

open Json (quoted)

def forecastFields (id : Bytes) : List (Bytes × Json) :=
  [(quoted "jsonrpc", .str (quoted "2.0")), (quoted "id", .num id),
    (quoted "method", .str (quoted "tools/call")),
    (quoted "params", .obj [(quoted "name", .str (quoted "forecast"))])]

def forecastRequest (id : Bytes) : ClientRequest :=
  { forecastCall [] with body := some (Json.render (.obj (forecastFields id))) }

def forwardedFields (id : Bytes) : List (Bytes × Json) :=
  [(quoted "id", .num id), (quoted "jsonrpc", .str (quoted "2.0")),
    (quoted "method", .str (quoted "tools/call")),
    (quoted "params", .obj [(quoted "name", .str (quoted "forecast"))])]

lemma isRequest_forecast (id : Bytes) : IsRequest (forecastFields id) := by
  constructor
  · intro kv hkv
    simp only [forecastFields, mem_cons, not_mem_nil, or_false] at hkv
    rcases hkv with rfl | rfl | rfl | rfl <;> simp
  · simp [forecastFields]

variable {id : Bytes}

lemma parse_forecast (hid : Json.IsNumber id) :
    Json.parse (Json.render (.obj (forecastFields id))) = some (.obj (forecastFields id)) := by
  have hstr := Json.isString_quoted
  refine Json.parse_render ?_ ?_
  · exact ⟨hstr _, hstr _, hstr _, hid, hstr _, hstr _, hstr _, ⟨hstr _, hstr _, trivial⟩, trivial⟩
  · show 2 ≤ 10000
    omega

lemma parse_forwarded (hid : Json.IsNumber id) :
    Json.parse (Json.render (.obj (forwardedFields id))) = some (.obj (forwardedFields id)) := by
  have hstr := Json.isString_quoted
  refine Json.parse_render ?_ ?_
  · exact ⟨hstr _, hid, hstr _, hstr _, hstr _, hstr _, hstr _, ⟨hstr _, hstr _, trivial⟩, trivial⟩
  · show 2 ≤ 10000
    omega

lemma member_id {fields : List (Bytes × Json)}
    (h : Json.member "id" fields = some (.num id)) :
    (Json.denote (.obj fields)).member "id" = some (.num (Json.numValue id)) := by
  rw [Json.denote]
  show Json.denoteFields fields (fun _ => none) "id" = _
  rw [Json.denoteFields_member, h, Option.map_some, Json.denote]

theorem forwarded_body_iff_forecast : ∃ e : RoutedExchange sessionServer,
    e.req = forecastRequest (bytes "7") ∧ ∃ route name out j,
      upstreamRoute e.table e.mcpReq = some route ∧
      nameOf (Json.denote (.obj (forecastFields (bytes "7")))) = some (.str name) ∧
      e.body = some out ∧ Json.parse out = some j ∧
      Json.denote j = renamed (trimPrefix name route.namePrefix)
        (Json.denote (.obj (forecastFields (bytes "7")))) := by
  obtain ⟨e, hreq, -, hgood⟩ := exists_exchange_exec sessionServer (forecastRequest (bytes "7"))
    smallAnswers () (fun _ m d _ => decide (m.method = methodToolCall ∧ d.bodyMutation ≠ none)) rfl
    (by decide +kernel)
  obtain ⟨hmethod, hmutation⟩ := of_decide_eq_true hgood
  have hkept : ∀ lit ∈ Json.literals (.obj (forecastFields (bytes "7"))), Json.RoundTrips lit := by
    intro lit hlit
    cases mem_singleton.1 hlit
    exact Json.roundTrips_of_written (by decide +kernel)
  have hnumber : Json.IsNumber (bytes "7") := Json.isNumber_digits (by decide) (by decide) (by decide)
  obtain ⟨route, name, out, j, hroute, hname, hbody, hparse, hiff⟩ := e.forwarded_body_iff
    (by rw [hreq]; rfl) (parse_forecast hnumber) (isRequest_forecast _) (.inl hmethod) hmutation
  exact ⟨e, hreq, route, name, out, j, hroute, hname, hbody, hparse, hiff.2 hkept⟩

/-- The id `2^53 + 1` arrives as `2^53`. -/
theorem largeId_changes : ∃ e : RoutedExchange sessionServer,
    e.req = forecastRequest (bytes "9007199254740993") ∧ e.decision.authority = "weather.svc" ∧
      IsRequest (forecastFields (bytes "9007199254740993")) ∧
      (Json.denote (.obj (forecastFields (bytes "9007199254740993")))).member "id" =
        some (.num 9007199254740993) ∧
      ∃ out j, e.body = some out ∧ Json.parse out = some j ∧
        (Json.denote j).member "id" = some (.num 9007199254740992) := by
  obtain ⟨e, hreq, hbody, hgood⟩ := exists_exchange_exec sessionServer
    (forecastRequest (bytes "9007199254740993")) smallAnswers ()
    (fun _ _ d _ => decide (d.authority = "weather.svc" ∧
      d.bodyMutation = some (Json.render (.obj (forwardedFields (bytes "9007199254740992")))))) rfl
    (by decide +kernel)
  obtain ⟨hauthority, hmutation⟩ := of_decide_eq_true hgood
  have hsent : Json.numValue (bytes "9007199254740993") = 9007199254740993 :=
    Json.numValue_nat (by decide +kernel)
  have harrived : Json.numValue (bytes "9007199254740992") = 9007199254740992 :=
    Json.numValue_nat (by decide +kernel)
  refine ⟨e, hreq, hauthority, isRequest_forecast _, ?_,
    Json.render (.obj (forwardedFields (bytes "9007199254740992"))), _, ?_,
    parse_forwarded (Json.isNumber_digits ?_ ?_ ?_), ?_⟩
  · have hmember : Json.member "id" (forecastFields (bytes "9007199254740993")) =
        some (.num (bytes "9007199254740993")) := by simp [Json.member, forecastFields]
    rw [member_id hmember, hsent]
  · rw [hbody, hmutation]
    rfl
  · decide
  · decide
  · decide
  · have hmember : Json.member "id" (forwardedFields (bytes "9007199254740992")) =
        some (.num (bytes "9007199254740992")) := by simp [Json.member, forwardedFields]
    rw [member_id hmember, harrived]

end McpGateway.ExtProc
