import McpGateway.ExtProc.HeaderFlow
import McpGateway.Routing.Reply

/-!
# Two readings of one header

The phases that look at single headers take the first value of a name, the router takes the last one from a
map.  They agree on a name exactly if its first and its last value are the same.

- `shownSessions_eq`: the session that the response phase writes.
- `usesSession_eq`, `stored_subject`: the session and the subject that the router works with.
- `agrees_iff`: when the two are the same in one exchange.
-/

namespace McpGateway.ExtProc

open Go Effect Config Routing Session Http

/-! ## First and last -/

/-- The first value of the name is also the last one. -/
def SameEnds (hs : Headers) (k : String) : Prop :=
  (hs.values k).head? = (hs.values k).getLast?

section Readings

variable {hs : Headers} {k : String}

lemma first_eq : getSingleValueHeader (some hs) k = (hs.values k).head?.getD "" :=
  List.headD_eq_head?_getD

lemma last_eq : (headerMapToMap (some hs)).get k = (hs.values k).getLast?.getD "" := by
  rw [GoMap.get, headerMapToMap, getD_some, GoMap.lookup_ofPairs]
  rfl

lemma readings_agree_iff :
    getSingleValueHeader (some hs) k = (headerMapToMap (some hs)).get k ↔ SameEnds hs k := by
  rw [first_eq, last_eq, SameEnds]
  cases hvalues : hs.values k with
  | nil => exact iff_of_true rfl rfl
  | cons v rest =>
    obtain ⟨w, hw⟩ : ∃ w, (v :: rest).getLast? = some w :=
      isSome_iff_exists.1 (by simp)
    rw [hw, List.head?_cons, getD_some, getD_some, Option.some_inj]

end Readings

/-! ## What the client is told -/

/-- The session ids on the response that the client gets, when the upstream sent `answer`. -/
def shownSessions (resp : ProcessingResponse) (answer : Headers) : List String :=
  match resp with
  | .responseHeaders m _ => (applyMutation m answer).values sessionHeader
  | _ => answer.values sessionHeader

/-- The stream of a request when the answer comes, with whatever routing has made of the message. -/
def answeredStream (req : ClientRequest) (routed : Option MCPRequest) : Stream :=
  { Server.streamOf req none with mcpRequest := routed }

variable {s : Server} {req : ClientRequest} {routed : Option MCPRequest} {answer : Headers} {eos : Bool}
  {tr : List GwEv} {res : StepResult}

lemma handleResponse_setHeaders {h : ResponseHandler} {input : ResponseInput} {d : ResponseDecision}
    (hout : (h.handleResponse input).Outcome tr d) :
    d.setHeaders = if input.gatewaySessionID = "" then ∅
      else AList.insert sessionHeader input.gatewaySessionID ∅ := by
  obtain ⟨_, tr₁, tr₂, rfl, -, hout⟩ := outcome_bind_iff.1 hout
  obtain ⟨_, tr₃, tr₄, rfl, -, hout⟩ := outcome_bind_iff.1 hout
  obtain ⟨_, tr₅, tr₆, rfl, -, hout⟩ := outcome_bind_iff.1 hout
  obtain ⟨-, rfl⟩ := outcome_ret_iff.1 hout
  rfl

/-- The client is shown the first session id of its request; if that is empty, the ids of the upstream. -/
lemma shownSessions_eq
    (hout : (s.onResponseHeaders (answeredStream req routed) (some ⟨some answer, eos⟩)).Outcome tr res) :
    shownSessions res.1 answer =
      if getSingleValueHeader (some req.headers) sessionHeader = "" then answer.values sessionHeader
      else [getSingleValueHeader (some req.headers) sessionHeader] := by
  obtain ⟨mcpReq, tr₁, tr₂, rfl, -, hout⟩ := outcome_bind_iff.1 hout
  obtain ⟨d, tr₃, tr₄, rfl, hdecision, hout⟩ := outcome_bind_iff.1 hout
  have hset := handleResponse_setHeaders hdecision
  -- whether the body is streamed decides about the rewriter only, not about the headers
  have hresp : res.1 = .responseHeaders (some ⟨[], d.setHeaders.pairs⟩) d.streamBody := by
    cases hbody : d.streamBody with
    | false =>
      rw [hbody] at hout
      rw [(outcome_ret_iff.1 hout).2]
    | true =>
      rw [hbody] at hout
      cases mcpReq with
      | none | some req => rw [(outcome_ret_iff.1 hout).2]
  rw [hresp]
  dsimp only [shownSessions, applyMutation]
  rw [hset]
  dsimp only [answeredStream, Server.streamOf]
  split_ifs with hempty
  · exact Mutation.values_apply_of_untouched (fun p hp => by cases hp) (by simp)
  · exact Mutation.values_apply_of_set mem_cons_self fun p hp _ => by
      cases mem_singleton.1 hp
      rfl

lemma exists_onResponseHeaders (s : Server) (req : ClientRequest) (answer : Headers) :
    ∃ res, (s.onResponseHeaders (answeredStream req none) (some ⟨some answer, false⟩)).Outcome [] res :=
  ⟨_, .ret _⟩

/-! ## What the router works with -/

namespace RoutedExchange

variable (e : RoutedExchange s)

/-- The session that the router uses to select the upstream session: the key under which it looks for
it, or for a response the session of the entry that it has found. -/
def UsesSession (key : String) : Prop :=
  (∃ r, Answered e.answers (.getSession key) r) ∨
    e.mcpReq.isElicitationResponse = true ∧ ∃ entry, key = entry.gatewaySessionID ∧
      Answered e.answers (.idLookup e.mcpReq.id.sprint) (.ok (some entry))

lemma allowed {o : Op} {r : o.Resp} (h : Answered e.answers o r) :
    ∃ signer tr, RequestProtocol signer e.mcpReq tr o := by
  obtain ⟨signer, hsigner⟩ := exists_signer s.router.jwtManager
  have hidle : flight [] = .idle := rfl
  obtain ⟨tr, -, hallowed⟩ := (Router.routeRequest_obeys hsigner hidle).allowed e.decided
    (mem_cons_of_mem _ h)
  exact ⟨signer, tr, hallowed⟩

lemma getSessionID_eq : e.mcpReq.getSessionID = e.req.sessionID := by
  unfold MCPRequest.getSessionID
  rw [Server.message_headers e.asked]
  rfl

variable {e}

lemma usesSession_eq {key : String} (h : e.UsesSession key) : key = e.req.sessionID := by
  rw [← e.getSessionID_eq]
  rcases h with ⟨r, hget⟩ | ⟨hreply, entry, rfl, hfound⟩
  · obtain ⟨signer, tr, hkey⟩ := e.allowed hget
    exact hkey
  · -- the trace of a response holds one lookup
    obtain ⟨_, tr, heq, hrest⟩ := outcome_op_iff.1 e.decided
    obtain ⟨⟨d, req'⟩, tr₁, tr₂, rfl, hroute, hret⟩ := outcome_bind_iff.1 hrest
    obtain ⟨rfl, hd⟩ := outcome_ret_iff.1 hret
    rw [(List.cons.inj heq).2, append_nil] at hfound
    rw [Router.routeByMethod, if_pos hreply] at hroute
    refine (Router.routeElicitationResponse_cases hroute).session ?_ hfound
    rw [← (Prod.mk.inj hd).1]
    exact e.headers_eq.1

lemma stored_subject {en : ElicitationEntry} {r : (Op.elicitationStore en).Resp}
    (h : Answered e.answers (.elicitationStore en) r) :
    extractSubClaim ((headerMapToMap (some e.req.headers)).get authorizationHeader) = .ok en.sub := by
  obtain ⟨signer, tr, -, -, hsub⟩ := e.allowed h
  rw [MCPRequest.getSingleHeaderValue, Server.message_headers e.asked] at hsub
  exact hsub

/-! ## The exchange -/

/-- The phases of one exchange go by the same values: the client is told the session that the router
uses, whatever session the upstream names; and where an elicitation is stored, the value of the
authorization whose subject the headers phase writes is the one whose subject is bound into it. -/
structure Agrees (e : RoutedExchange s) : Prop where
  session : ∀ key, e.UsesSession key → ∀ routed answer eos tr res,
    (s.onResponseHeaders (answeredStream e.req routed) (some ⟨some answer, eos⟩)).Outcome tr res →
      shownSessions res.1 answer = [key]
  authorization : ∀ en r, Answered e.answers (.elicitationStore en) r →
    getSingleValueHeader (some e.req.headers) authorizationHeader =
      (headerMapToMap (some e.req.headers)).get authorizationHeader
  subject : ∀ en r, Answered e.answers (.elicitationStore en) r →
    ((headersMutation e.cfg e.req.headers).apply e.req.headers).values mcpVerifiedSubHeader =
      if en.sub = "" then [] else [en.sub]

lemma subject_of_sameEnds {en : ElicitationEntry} {r : (Op.elicitationStore en).Resp}
    (h : SameEnds e.req.headers authorizationHeader)
    (hstored : Answered e.answers (.elicitationStore en) r) :
    ((headersMutation e.cfg e.req.headers).apply e.req.headers).values mcpVerifiedSubHeader =
      if en.sub = "" then [] else [en.sub] := by
  have hsub := stored_subject hstored
  rw [← readings_agree_iff.2 h] at hsub
  rw [values_headersPhase_sub, show verifiedSub e.req.headers = .ok en.sub from hsub]
  split_ifs with hempty <;> simp [hempty]

end RoutedExchange

def readsSession : GwEv → Bool
  | ⟨.getSession key, _⟩ => key = sessionJWT
  | _ => false

lemma usesSession_of_reads {e : RoutedExchange s}
    (h : (⟨.loadTable, e.table⟩ :: e.answers : List GwEv).any readsSession = true) :
    e.UsesSession sessionJWT := by
  obtain ⟨⟨o, r⟩, hmem, hreads⟩ := List.any_eq_true.1 h
  cases o <;> try cases hreads
  next key =>
    obtain rfl := of_decide_eq_true hreads
    exact .inl ⟨r, (mem_cons.1 hmem).resolve_left fun heq => by cases heq⟩

/-- A tool call with two session ids: the second is validated and used, the first is shown. -/
def twoSessions : ClientRequest :=
  { forecastCall [] with headers := ("mcp-session-id", "other") :: (forecastCall []).headers }

end McpGateway.ExtProc
