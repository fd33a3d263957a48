import McpGateway.Broker.Compat
import McpGateway.ExtProc.HeaderFlow

/-!
# Filter headers between the router and the broker

The broker narrows its lists by `x-mcp-authorized` and `x-mcp-virtualserver`.  The headers phase of
the router takes both off every request, and only the routing of a message that it read in the body
puts them back.  So they reach the SDK handler only if the router reads every body that the
compatibility layer of the broker accepts.

- `endOfStream_of_delegated`: it does, for a body that comes after the headers.
- `values_routed`: which values are put back.
- `delegated_filters_iff`: when a delegated request has the filter headers it was sent with.
-/

namespace McpGateway.Gateway

open Go Effect Config Routing Session Http ExtProc Broker Server

def filterHeaders : List String := [mcpAuthorizedHeader, mcpVirtualServerHeader]

/-- If the router is asked about the request, it answers that the broker is to have it. -/
def ForBroker (s : Server) (req : ClientRequest) (tr : List GwEv) : Prop :=
  ∀ mcpReq table, s.message req = some mcpReq → consultedTable tr = some table →
    branchOf table mcpReq = .broker

/-- The router read the message in the body, and the SDK handler sees the filter headers exactly as
the router received them. -/
def FiltersKept (s : Server) (req : ClientRequest) (hs : Headers) : Prop :=
  (s.message req).isSome ∧ ∀ k ∈ filterHeaders, hs.values k = req.headers.values k

/-- The body comes after the headers, and each filter header is absent or has one value that is not
empty. -/
def FiltersPlain (req : ClientRequest) : Prop :=
  req.endOfStream = false ∧ ∀ k ∈ filterHeaders,
    req.headers.values k = [] ∨ ∃ v, v ≠ "" ∧ req.headers.values k = [v]

variable {s : Server} {req : ClientRequest} {tr tr' : List GwEv} {hs hs' : Headers}
  {body : Option Bytes} {sessionValidator : Option JWTManager} {b : Bytes} {method : String}

/-! ## Requests the router does not read -/

lemma unread_of_forwarded (ha : s.isA2A req = false) (hmsg : s.message req = none)
    (hout : (s.requestPhases req).Outcome tr (.forwarded hs body)) :
    body = req.body ∧ (∃ cfg, hs = (headersMutation cfg req.headers).apply req.headers) ∧
      ∀ b, req.body = some b →
        req.endOfStream = true ∨ isJSONContent (some req.headers) = false ∨ b = [] := by
  rw [requestPhases, headersPhase_mcp ha, Prog.bind_assoc] at hout
  obtain ⟨cfg, tr', -, hrest⟩ := outcome_op_iff.1 hout
  cases hbody : req.body with
  | none =>
    simp only [hbody, pure_eq, ret_bind, applyMutation] at hrest
    cases (outcome_ret_iff.1 hrest).2
    exact ⟨rfl, ⟨cfg, rfl⟩, fun b hb => by cases hb⟩
  | some b =>
    simp only [hbody, pure_eq, ret_bind, applyMutation] at hrest
    rcases bodyPhase_mcp (s := s) ((headersMutation cfg req.headers).apply req.headers) hbody
      with ⟨-, ⟨hphase, hunread⟩ | ⟨r, hphase⟩⟩ | ⟨mcpReq, hmsg', -⟩
    · rw [hphase] at hrest
      cases (outcome_ret_iff.1 hrest).2
      refine ⟨rfl, ⟨cfg, rfl⟩, fun b' hb => ?_⟩
      cases hb
      exact hunread
    · rw [hphase] at hrest
      cases (outcome_ret_iff.1 hrest).2
    · simp [hmsg] at hmsg'

variable {headers : Headers}

lemma isJSONContent_of_mediaType
    (h : Mime.parseMediaType (wireHeader headers "content-type") = some "application/json") :
    isJSONContent (some headers) = true :=
  Mime.contains_of_parseMediaType h

lemma endOfStream_of_delegated (ha : s.isA2A req = false) (hmsg : s.message req = none)
    (hout : (s.requestPhases req).Outcome tr (.forwarded hs body))
    (hdel : (serveHTTP sessionValidator hs (body.getD [])).Outcome tr' (.delegate hs' b method)) :
    req.endOfStream = true := by
  obtain ⟨rfl, ⟨cfg, rfl⟩, hunread⟩ := unread_of_forwarded ha hmsg hout
  obtain ⟨htype, hne, -⟩ := delegated_of_serveHTTP hdel
  have hcontent : isJSONContent (some req.headers) = true := by
    refine isJSONContent_of_mediaType ?_
    rwa [wireHeader, values_headersPhase (by decide) (by decide)] at htype
  cases hbody : req.body with
  | none => simp [hbody] at hne
  | some text =>
    rcases hunread text hbody with heos | hplain | hempty
    · exact heos
    · simp [hcontent] at hplain
    · simp [hbody, hempty] at hne

/-! ## Requests it routes -/

lemma values_headersPhase_filter {cfg : MCPServersConfig} {k : String}
    (hk : k ∈ filterHeaders) : ((headersMutation cfg headers).apply headers).values k = [] := by
  have hplain : k ∈ internalOnlyHeaders ∧ authorityHeader ≠ k ∧ mcpVerifiedSubHeader ≠ k := by
    revert k
    decide
  refine Mutation.values_apply_of_remove ?_ hplain.1
  intro p hp
  rcases mem_cons.1 hp with rfl | hp
  · exact hplain.2.1
  · split at hp
    · simp at hp
    · rw [mem_singleton.1 hp]
      exact hplain.2.2
    · simp at hp

variable {mcpReq : MCPRequest}

lemma endOfStream_of_message (hmsg : s.message req = some mcpReq) : req.endOfStream = false := by
  obtain ⟨text, -, hread⟩ := bind_eq_some_iff.1 hmsg
  split_ifs at hread with hinspected
  simp only [isInspected, and_eq_true, not_eq_true'] at hinspected
  exact hinspected.1.1.1

lemma getSingleHeaderValue_message (hmsg : s.message req = some mcpReq)
    (k : String) : mcpReq.getSingleHeaderValue k = (req.headers.values k).getLast?.getD "" := by
  rw [MCPRequest.getSingleHeaderValue, message_headers hmsg, GoMap.get, headerMapToMap,
    GoMap.lookup_ofPairs]
  rfl

lemma values_routed (ha : s.isA2A req = false)
    (hmsg : s.message req = some mcpReq) (hbroker : ForBroker s req tr)
    (hout : (s.requestPhases req).Outcome tr (.forwarded hs body)) {k : String}
    (hk : k ∈ filterHeaders) :
    hs.values k = if (req.headers.values k).getLast?.getD "" = "" then []
      else [(req.headers.values k).getLast?.getD ""] := by
  obtain ⟨e, rfl, rfl, rfl, rfl⟩ := exists_routedExchange ha hmsg hout
  obtain ⟨req', -, hacc⟩ := e.accepted
  have hinternal : k ∈ internalOnlyHeaders := by
    revert k
    decide
  rw [e.headers_eq.2, accepted_broker hacc (hbroker e.mcpReq e.table hmsg rfl),
    values_brokerDecision hinternal, values_headersPhase_filter hk,
    getSingleHeaderValue_message hmsg]

lemma last_eq_iff (vs : List String) :
    (if vs.getLast?.getD "" = "" then [] else [vs.getLast?.getD ""]) = vs ↔
      vs = [] ∨ ∃ v, v ≠ "" ∧ vs = [v] := by
  constructor
  · intro h
    split_ifs at h with hempty
    · exact .inl h.symm
    · exact .inr ⟨_, hempty, h.symm⟩
  · rintro (rfl | ⟨v, hv, rfl⟩)
    · rfl
    · simp [hv]

/-! ## Both together -/

/-- A request that the compatibility layer delegates was read by the router and has its filter
headers exactly when its body came after the headers and no filter header is empty or repeated. -/
theorem delegated_filters_iff (ha : s.isA2A req = false)
    (hout : (s.requestPhases req).Outcome tr (.forwarded hs body)) (hbroker : ForBroker s req tr)
    (hdel : (serveHTTP sessionValidator hs (body.getD [])).Outcome tr' (.delegate hs' b method)) :
    FiltersKept s req hs' ↔ FiltersPlain req := by
  cases hmsg : s.message req with
  | none =>
    have heos := endOfStream_of_delegated ha hmsg hout hdel
    simp [FiltersKept, FiltersPlain, hmsg, heos]
  | some mcpReq =>
    have heos : req.endOfStream = false := endOfStream_of_message hmsg
    obtain ⟨-, -, hkeeps⟩ := delegated_of_serveHTTP hdel
    have hkept : ∀ k ∈ filterHeaders, k ∉ compatHeaders := by decide
    rw [FiltersKept, FiltersPlain, hmsg]
    simp only [Option.isSome_some, true_and, heos]
    refine forall₂_congr fun k hk => ?_
    rw [hkeeps k (hkept k hk), values_routed ha hmsg hbroker hout hk]
    exact last_eq_iff _

/-! ## A listing through both -/

/-- The listing is delegated with these headers. -/
def delegates (headers : Headers) : Bool :=
  ((serveHTTP none headers ((toolsList []).body.getD [])).exec (fun _ _ => none) ()).any fun out =>
    match out with
    | ([], .delegate _ _ method) => method = "tools/list"
    | _ => false

lemma outcome_of_delegates (h : delegates headers = true) : ∃ hs b,
    (serveHTTP none headers ((toolsList []).body.getD [])).Outcome [] (.delegate hs b "tools/list") := by
  obtain ⟨⟨tr, res⟩, hexec, hres⟩ := (any_eq_true _ _).1 h
  split at hres
  next hs b method heq =>
    cases heq
    cases of_decide_eq_true hres
    exact ⟨hs, b, Prog.outcome_exec hexec⟩
  next => cases hres

/-- What becomes of a `toolsList` request on its way through the router and the compatibility
layer. -/
structure ListRun (extra : Headers) where
  tr : List GwEv
  hs : Headers
  body : Option Bytes
  hs' : Headers
  sent : Bytes
  forwarded : (plainServer.requestPhases (toolsList extra)).Outcome tr (.forwarded hs body)
  forBroker : ForBroker plainServer (toolsList extra) tr
  delegated : (serveHTTP none hs (body.getD [])).Outcome [] (.delegate hs' sent "tools/list")

/-- The router takes the request for a listing, and passes it on as it is. -/
def listed (req : MCPRequest) (d : Decision) (headers : Headers) : Bool :=
  decide (req.isElicitationResponse = false ∧ req.method = "tools/list" ∧ Router.isHairpin req = false ∧
    d.bodyMutation = none) && delegates headers

lemma exists_listRun {e : RoutedExchange plainServer} {extra : Headers} (h : e.req = toolsList extra ∧
    e.body = (toolsList extra).body.map (e.decision.bodyMutation.getD ·) ∧
    listed e.mcpReq e.decision e.headers = true) : Nonempty (ListRun extra) := by
  obtain ⟨hreq, hbody, hlisted⟩ := h
  obtain ⟨hlist, hdelegates⟩ := Bool.and_eq_true_iff.1 hlisted
  obtain ⟨hreply, hmethod, hhairpin, hmutation⟩ := of_decide_eq_true hlist
  obtain ⟨hs', sent, hdelegated⟩ := outcome_of_delegates hdelegates
  have hbroker : ForBroker plainServer (toolsList extra)
      (⟨.loadConfig, e.cfg⟩ :: ⟨.loadTable, e.table⟩ :: e.answers) := by
    intro mcpReq table hmcp _
    cases (hreq ▸ e.asked).symm.trans hmcp
    simp +decide [branchOf, hreply, hmethod, hhairpin]
  rw [hmutation] at hbody
  exact ⟨_, e.headers, e.body, hs', sent, hreq ▸ e.forwarded, hbroker, hbody ▸ hdelegated⟩

def ListKept (extra : Headers) : Prop :=
  ∃ run : ListRun extra, FiltersKept plainServer (toolsList extra) run.hs'

theorem delegated_filters_iff_token : ListKept [("x-mcp-authorized", "token")] := by
  obtain ⟨e, he⟩ := exists_exchange_exec plainServer (toolsList [("x-mcp-authorized", "token")])
    smallAnswers () (fun _ => listed) rfl (by decide +kernel)
  obtain ⟨run⟩ := exists_listRun he
  refine ⟨run, (delegated_filters_iff rfl run.forwarded run.forBroker run.delegated).2 ?_⟩
  refine ⟨rfl, fun k hk => ?_⟩
  simp only [filterHeaders, List.mem_cons, List.not_mem_nil, or_false] at hk
  rcases hk with rfl | rfl
  · exact .inr ⟨"token", by decide, by decide⟩
  · exact .inl (by decide)

/-- An empty `x-mcp-authorized` header, which the broker answers with an empty list, does not reach
it: the listing is delegated as one without the header. -/
theorem emptyAuthorized_dropped : ∃ run : ListRun [("x-mcp-authorized", "")],
    (toolsList [("x-mcp-authorized", "")]).headers.values mcpAuthorizedHeader = [""] ∧
      run.hs'.values mcpAuthorizedHeader = [] ∧
      ¬ FiltersKept plainServer (toolsList [("x-mcp-authorized", "")]) run.hs' := by
  obtain ⟨e, he⟩ := exists_exchange_exec plainServer (toolsList [("x-mcp-authorized", "")])
    smallAnswers () (fun _ => listed) rfl (by decide +kernel)
  obtain ⟨run⟩ := exists_listRun he
  have hsent : (toolsList [("x-mcp-authorized", "")]).headers.values mcpAuthorizedHeader = [""] := by
    decide
  obtain ⟨mcpReq, hmsg, -⟩ := Option.map_eq_some_iff.1
    (show (plainServer.message (toolsList [("x-mcp-authorized", "")])).map
      MCPRequest.method = some "tools/list" by decide +kernel)
  obtain ⟨-, -, hkeeps⟩ := delegated_of_serveHTTP run.delegated
  have hdropped : run.hs'.values mcpAuthorizedHeader = [] := by
    rw [hkeeps _ (by decide), values_routed rfl hmsg run.forBroker run.forwarded (by decide), hsent]
    rfl
  refine ⟨run, hsent, hdropped, fun hkept => ?_⟩
  have hseen := hkept.2 mcpAuthorizedHeader (by decide)
  rw [hdropped, hsent] at hseen
  cases hseen

end McpGateway.Gateway
