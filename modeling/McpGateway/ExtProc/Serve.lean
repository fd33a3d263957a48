import McpGateway.ExtProc.Envoy

/-!
# One exchange from end to end

`serve` is the code of the processor for one request: both request phases, and the response phases
once the request has been sent on and answered.

- `ServeProtocol` says which calls that code may make, `serve_obeys` that it keeps to them.
- `serve_sent` ties a decision that was sent to the headers with which Envoy forwards the request.
-/

namespace McpGateway.ExtProc

open Go Effect Config Routing Session Http ResponseHandler Server SseRewriter

def answerHeaders (ans : Answer) : HttpHeaders :=
  ⟨some [(":status", ans.statusCode), (sessionHeader, ans.sessionID)], ans.chunks.isEmpty⟩

namespace Server

variable (s : Server)

def receiveChunks : Stream → List Bytes → Gw Unit
  | _, [] => pure ()
  | st, chunk :: rest => do
    let (_, next) ← onResponseBody st chunk rest.isEmpty
    match next with
    | some st => receiveChunks st rest
    | none => pure ()

def receive (st : Stream) (ans : Answer) : Gw Unit := do
  let (_, next) ← s.onResponseHeaders st (some (answerHeaders ans))
  match next with
  | some st => receiveChunks st ans.chunks
  | none => pure ()

/-- Route a message, send it on and handle the answer.  Routing a message always gives it back. -/
def serveMessage (req : ClientRequest) (mcpReq : MCPRequest) : Gw Unit := do
  let (d, rewritten) ← s.router.routeRequest (some mcpReq)
  match rewritten with
  | none => pure ()
  | some req' => do
    op (.send req' d)
    match d.error with
    | some _ => pure ()
    | none => do
      let ans ← op (.awaitAnswer req' d)
      s.receive { streamOf req none with mcpRequest := some req' } ans

/-- The code of one request.  An A2A request makes no calls, and a request without a message for the
router none after its headers phase. -/
def serve (req : ClientRequest) : Gw Unit :=
  if s.isA2A req then pure ()
  else do
    let _ ← op .loadConfig
    match s.message req with
    | none => pure ()
    | some mcpReq => s.serveMessage req mcpReq

end Server

/-! ## The protocol of an exchange -/

/-- No upstream session has been removed yet. -/
def Undropped (tr : List GwEv) : Prop :=
  ∀ key S r, ¬ Answered tr (.removeServerSession key S) r

lemma Undropped.snoc {tr : List GwEv} {o : Op} {r : o.Resp} (h : Undropped tr)
    (ho : ∀ key S, o ≠ .removeServerSession key S) : Undropped (tr ++ [⟨o, r⟩]) := by
  intro key S r' hdropped
  rcases mem_append.1 hdropped with hold | hnew
  · exact h key S r' hold
  · cases mem_singleton.1 hnew
    exact ho key S rfl

/-- Whether the response phases may make a call, after the request `req` was answered with `ans`. -/
def ResponseProtocol (signer : Signer) (req : MCPRequest) (ans : Answer) (tr : List GwEv) : Op → Prop
  | .now | .getClientElicitation _ => True
  | .setClientElicitation sid _ => sid = ans.sessionID ∧ IsToken signer sid
  | .removeServerSession key S =>
    ans.statusCode = "404" ∧ key = req.getSessionID ∧ S = req.serverName ∧ Undropped tr
  | .loadConfig => ans.statusCode = "401"
  | .deleteUserToken key S =>
    ans.statusCode = "401" ∧ key = req.getSessionID ∧ S = req.serverName
  | .idStore e => ans.statusCode = "200" ∧ e.gatewaySessionID = req.getSessionID ∧
      e.serverName = req.serverName ∧ e.sessionID = req.backendSessionID
  | .idRemove id => ans.statusCode = "200" ∧ ∃ e, e.gatewaySessionID = req.getSessionID ∧
      Answered tr (.idStore e) (.ok id)
  | _ => False

/-- The response handler stores no ids. -/
def HandlerProtocol (signer : Signer) (req : MCPRequest) (ans : Answer) (tr : List GwEv) (o : Op) : Prop :=
  ResponseProtocol signer req ans tr o ∧ ∀ e, o ≠ .idStore e

def Unsent (tr : List GwEv) : Prop :=
  ∀ req d, ¬ Answered tr (.send req d) ()

/-- Whether the code of the exchange of `req₀` may make a call after the answered calls `tr`. -/
inductive ServeProtocol (signer : Signer) (r : Router) (req₀ : MCPRequest) (tr : List GwEv) :
    Op → Prop where
  | route {o : Op} (hunsent : Unsent tr) (h : RequestProtocol signer req₀ tr o) :
      ServeProtocol signer r req₀ tr o
  | send {cfg : MCPServersConfig} {tr₁ : List GwEv} {req : MCPRequest} {d : Decision}
      (hunsent : Unsent tr) (htr : tr = ⟨.loadConfig, cfg⟩ :: tr₁)
      (hout : (r.routeRequest (some req₀)).Outcome tr₁ (d, some req))
      (hd : Router.Refused d ∨ ∃ table, Answered tr .loadTable table ∧ Accepted r table req₀ tr d req) :
      ServeProtocol signer r req₀ tr (.send req d)
  | await {tr₁ : List GwEv} {req : MCPRequest} {d : Decision}
      (hlast : tr = tr₁ ++ [⟨.send req d, ()⟩]) (herr : d.error = none) :
      ServeProtocol signer r req₀ tr (.awaitAnswer req d)
  | respond {req : MCPRequest} {d : Decision} {ans : Answer} {o : Op}
      (hsent : Answered tr (.send req d) ()) (hans : Answered tr (.awaitAnswer req d) ans)
      (h : ResponseProtocol signer req ans tr o) : ServeProtocol signer r req₀ tr o

/-- Whether the code for a client's request may make a call after the answered calls `tr`. -/
def ExchangeProtocol (signer : Signer) (s : Server) (client : ClientRequest) (tr : List GwEv)
    (o : Op) : Prop :=
  s.isA2A client = false ∧ ((tr = [] ∧ o = .loadConfig) ∨
    ∃ mcpReq, s.message client = some mcpReq ∧ ServeProtocol signer s.router mcpReq tr o)

/-! ## The response phases keep to it -/

section Response

variable {signer : Signer} {req : MCPRequest} {ans : Answer} {tr : List GwEv} {h : ResponseHandler}
  (hsigner : ∀ m, h.jwtManager = some m → m.signer = signer)

include hsigner

lemma sessionTTL_obeys (sid : String) (htr : Undropped tr) :
    (h.sessionTTL sid).Obeys (HandlerProtocol signer req ans) (fun ttl tr' => (0 < ttl →
    IsToken signer sid) ∧ Undropped tr') tr := by
  unfold sessionTTL
  cases hm : h.jwtManager with
  | none => exact ⟨fun hpos => absurd hpos (Int.lt_irrefl 0), htr⟩
  | some m =>
    refine obeys_op.2 ⟨⟨trivial, by simp⟩, fun now => ?_⟩
    have hnow : Undropped (tr ++ [⟨.now, now⟩]) := htr.snoc (by simp)
    cases hexp : m.getExpiresIn now sid with
    | error e => exact ⟨fun hpos => absurd hpos (Int.lt_irrefl 0), hnow⟩
    | ok expiresAt =>
      exact obeys_op.2 ⟨⟨trivial, by simp⟩, fun _ =>
        ⟨fun _ => hsigner m hm ▸ isToken_of_getExpiresIn hexp, hnow.snoc (by simp)⟩⟩

variable {input : ResponseInput}

lemma recordElicitation_obeys
    (hsid : input.responseSessionID = ans.sessionID) (htr : Undropped tr) :
    (h.recordElicitation input).Obeys (HandlerProtocol signer req ans) (fun _ => Undropped) tr := by
  unfold recordElicitation
  split_ifs with hdeclares
  · refine obeys_seq (sessionTTL_obeys hsigner _ htr) fun ttl tr' _ htoken => ?_
    split_ifs with httl
    · exact htoken.2
    · exact obeys_op.2 ⟨⟨⟨hsid, htoken.1 (Int.not_le.1 httl)⟩, by simp⟩, fun _ =>
        htoken.2.snoc (by simp)⟩
  · exact htr

variable {req' : MCPRequest}

omit hsigner in
lemma dropSession_obeys (hreq : input.request = some req') (hstatus : input.statusCode = ans.statusCode)
    (hsame : req'.headers = req.headers ∧ req'.serverName = req.serverName) (htr : Undropped tr) :
    (dropSession input).Obeys (HandlerProtocol signer req ans) (fun _ _ => True) tr := by
  have hsid := MCPRequest.getSessionID_congr hsame.1
  unfold dropSession
  rw [hreq, hstatus]
  dsimp only
  split_ifs with hgone
  · exact obeys_op.2 ⟨⟨⟨hgone, hsid, hsame.2, htr⟩, by simp⟩, fun _ => trivial⟩
  · exact trivial

omit hsigner in
lemma dropUserToken_obeys (hreq : input.request = some req') (hstatus : input.statusCode = ans.statusCode)
    (hsame : req'.headers = req.headers ∧ req'.serverName = req.serverName) :
    (h.dropUserToken input).Obeys (HandlerProtocol signer req ans) (fun _ _ => True) tr := by
  have hsid := MCPRequest.getSessionID_congr hsame.1
  unfold dropUserToken
  rw [hreq, hstatus]
  dsimp only
  split_ifs with hdenied
  · refine obeys_op.2 ⟨⟨hdenied.1, by simp⟩, fun cfg => ?_⟩
    cases cfg.getServerConfigByName req'.serverName with
    | none => exact trivial
    | some serverInfo =>
      dsimp only
      split_ifs with helicit
      · exact obeys_op.2 ⟨⟨⟨hdenied.1, hsid, hsame.2⟩, by simp⟩, fun _ => trivial⟩
      · exact trivial
  · exact trivial

lemma handleResponse_obeys
    (hreq : input.request = some req') (hstatus : input.statusCode = ans.statusCode)
    (hsid : input.responseSessionID = ans.sessionID)
    (hsame : req'.headers = req.headers ∧ req'.serverName = req.serverName) (htr : Undropped tr) :
    (h.handleResponse input).Obeys (HandlerProtocol signer req ans)
      (fun d _ => d.streamBody = true → ans.statusCode = "200" ∧ req'.isToolCall = true) tr := by
  refine obeys_seq (recordElicitation_obeys hsigner hsid htr) fun _ tr₁ _ htr₁ => ?_
  refine obeys_seq (dropSession_obeys hreq hstatus hsame htr₁) fun _ tr₂ _ _ => ?_
  refine obeys_seq (dropUserToken_obeys hreq hstatus hsame) fun _ tr₃ _ _ => ?_
  intro hstream
  simp only [streamsBody, hreq, and_eq_true, decide_eq_true_eq] at hstream
  exact ⟨hstatus ▸ hstream.2, hstream.1.1⟩

omit hsigner

/-! ### The rewriter -/

/-- The rewriter of an answered exchange: it works for the request, and the ids it has assigned were
stored for the session of the request. -/
def RewriterOf (req : MCPRequest) (w : SseRewriter) (tr : List GwEv) : Prop :=
  (w.req.headers = req.headers ∧ w.req.serverName = req.serverName ∧
    w.req.backendSessionID = req.backendSessionID) ∧
  ∀ id ∈ w.gatewayIDs, ∃ e, e.gatewaySessionID = req.getSessionID ∧ Answered tr (.idStore e) (.ok id)

variable {w : SseRewriter}

lemma RewriterOf.mono {tr' : List GwEv} (h : RewriterOf req w tr) (hp : tr <+: tr') :
    RewriterOf req w tr' := by
  refine ⟨h.1, fun id hid => ?_⟩
  obtain ⟨e, he, hstored⟩ := h.2 id hid
  exact ⟨e, he, hstored.mono hp⟩

variable (hstatus : ans.statusCode = "200")

include hstatus

lemma rewriteLine_obeys (hw : RewriterOf req w tr) (line : Bytes) :
    (w.rewriteLine line).Obeys (ResponseProtocol signer req ans)
      (fun res tr' => RewriterOf req res.2 tr') tr := by
  have hsid := MCPRequest.getSessionID_congr hw.1.1
  unfold rewriteLine maybeRewriteElicitation
  split_ifs with hdata
  · cases elicitationIn line with
    | none => exact hw
    | some msg =>
      refine obeys_op.2 ⟨⟨hstatus, hsid, hw.1.2.1, hw.1.2.2⟩, fun res => ?_⟩
      cases res with
      | error e => exact hw.mono (prefix_append _ _)
      | ok gatewayID =>
        refine ⟨hw.1, fun id hid => ?_⟩
        rcases mem_append.1 hid with hold | hnew
        · exact (hw.mono (prefix_append _ _)).2 id hold
        · rw [mem_singleton.1 hnew]
          exact ⟨_, hsid, answered_append _ _ _⟩
  · exact hw

lemma rewriteLines_obeys (lines : List Bytes)
    (hw : RewriterOf req w tr) :
    (w.rewriteLines lines).Obeys (ResponseProtocol signer req ans)
      (fun res tr' => RewriterOf req res.2 tr') tr := by
  induction lines generalizing w tr with
  | nil => exact hw
  | cons line rest ih =>
    refine obeys_seq (rewriteLine_obeys hstatus hw line) fun res tr' _ hw' => ?_
    exact obeys_seq (ih hw') fun _ _ _ hw'' => hw''

lemma removeIDs_obeys (ids : List String)
    (hids : ∀ id ∈ ids, ∃ e, e.gatewaySessionID = req.getSessionID ∧
      Answered tr (.idStore e) (.ok id)) :
    (removeIDs ids).Obeys (ResponseProtocol signer req ans) (fun _ _ => True) tr := by
  induction ids generalizing tr with
  | nil => exact trivial
  | cons id rest ih =>
    refine obeys_op.2 ⟨⟨hstatus, hids id mem_cons_self⟩, fun _ => ih fun id' hid' => ?_⟩
    obtain ⟨e, he, hstored⟩ := hids id' (mem_cons_of_mem _ hid')
    exact ⟨e, he, hstored.mono (prefix_append _ _)⟩

lemma flush_obeys (hw : RewriterOf req w tr) :
    w.flush.Obeys (ResponseProtocol signer req ans) (fun _ _ => True) tr := by
  have hrest : w.rewriteRemaining.Obeys (ResponseProtocol signer req ans)
      (fun res tr' => RewriterOf req res.2 tr') tr := by
    unfold rewriteRemaining
    split_ifs with hempty
    · exact hw
    · exact rewriteLine_obeys hstatus hw w.buf
  refine obeys_seq hrest fun res tr' _ hw' => ?_
  exact obeys_seq (removeIDs_obeys hstatus _ hw'.2) fun _ _ _ _ => trivial

omit hstatus

/-! ### The stream -/

/-- The stream of an answered exchange that has a rewriter only for an answer that is streamed. -/
def StreamOf (req : MCPRequest) (ans : Answer) (st : Stream) (tr : List GwEv) : Prop :=
  ∀ w, st.rewriter = some w → ans.statusCode = "200" ∧ RewriterOf req w tr

lemma onResponseBody_obeys {st : Stream} (hst : StreamOf req ans st tr) (chunk : Bytes)
    (endOfStream : Bool) :
    (onResponseBody st chunk endOfStream).Obeys (ResponseProtocol signer req ans)
      (fun res tr' => ∀ st', res.2 = some st' → StreamOf req ans st' tr') tr := by
  unfold onResponseBody
  cases hrw : st.rewriter with
  | none =>
    intro st' hst' w hw
    cases endOfStream with
    | true => simp at hst'
    | false =>
      obtain rfl := Option.some.inj hst'
      rw [hrw] at hw
      cases hw
  | some w =>
    obtain ⟨hstatus, hw⟩ := hst w hrw
    have hbuf : ∀ buf, RewriterOf req { w with buf := buf } tr := fun _ => hw
    refine obeys_seq (rewriteLines_obeys hstatus _ (hbuf _)) fun res tr' _ hw' => ?_
    dsimp only
    split_ifs with heos
    · exact obeys_seq (flush_obeys hstatus hw') fun _ _ _ _ st' hst' => by cases hst'
    · intro st' hst' w' heq
      cases hst'
      cases heq
      exact ⟨hstatus, hw'⟩

lemma receiveChunks_obeys (chunks : List Bytes) {st : Stream} (hst : StreamOf req ans st tr) :
    (receiveChunks st chunks).Obeys (ResponseProtocol signer req ans) (fun _ _ => True) tr := by
  induction chunks generalizing st tr with
  | nil => exact trivial
  | cons chunk rest ih =>
    refine obeys_seq (onResponseBody_obeys hst chunk rest.isEmpty) fun res tr' _ hnext => ?_
    rcases res with ⟨resp, _ | st'⟩
    · exact trivial
    · exact ih (hnext st' rfl)

lemma populateElicitation_obeys (req' : MCPRequest) (htr : Undropped tr) :
    (populateElicitation (some req')).Obeys (HandlerProtocol signer req ans)
      (fun res tr' => (∃ b, res = some { req' with clientElicitation := b }) ∧ Undropped tr') tr := by
  have hsame : req' = { req' with clientElicitation := req'.clientElicitation } := rfl
  unfold populateElicitation
  dsimp only
  split_ifs with htool
  · refine obeys_op.2 ⟨⟨trivial, by simp⟩, fun res => ?_⟩
    cases res with
    | error e => exact ⟨⟨false, rfl⟩, htr.snoc (by simp)⟩
    | ok b => exact ⟨⟨b, rfl⟩, htr.snoc (by simp)⟩
  · exact ⟨⟨_, congrArg some hsame⟩, htr⟩

variable {client : ClientRequest}
  {s : Server} (hmanager : ∀ m, s.responseHandler.jwtManager = some m → m.signer = signer)

include hmanager

lemma onResponseHeaders_obeys (htr : Undropped tr) :
    (s.onResponseHeaders { streamOf client none with mcpRequest := some req }
      (some (answerHeaders ans))).Obeys (HandlerProtocol signer req ans) (fun res tr' => ∀ st,
        res.2 = some st → ∀ w, st.rewriter = some w → (ans.statusCode = "200" ∧ RewriterOf req w tr') ∧
          req.isToolCall = true ∧ w.buf = []) tr := by
  refine obeys_seq (populateElicitation_obeys req htr) ?_
  rintro _ tr₁ - ⟨⟨b, rfl⟩, htr₁⟩
  have hinput : getSingleValueHeader (answerHeaders ans).headers ":status" = ans.statusCode ∧
      getSingleValueHeader (answerHeaders ans).headers sessionHeader = ans.sessionID := by
    constructor <;> simp +decide [getSingleValueHeader, answerHeaders, Headers.values]
  refine obeys_seq (handleResponse_obeys hmanager rfl hinput.1 hinput.2 ⟨rfl, rfl⟩ htr₁) ?_
  intro d tr₂ _ hstream
  cases hbody : d.streamBody with
  | false =>
    intro st hst
    simp at hst
  | true =>
    intro st hst w hw
    cases hst
    cases hw
    obtain ⟨hstatus, htool⟩ := hstream hbody
    exact ⟨⟨hstatus, ⟨rfl, rfl, rfl⟩, fun id hid => by simp at hid⟩, htool, rfl⟩

lemma receive_obeys (htr : Undropped tr) :
    (s.receive { streamOf client none with mcpRequest := some req } ans).Obeys
      (ResponseProtocol signer req ans) (fun _ _ => True) tr := by
  refine obeys_seq (obeys_mono (onResponseHeaders_obeys hmanager htr) (fun _ _ h => h.1) fun _ _ h => h)
    fun res tr' _ hnext => ?_
  rcases res with ⟨resp, _ | st⟩
  · exact trivial
  · exact receiveChunks_obeys ans.chunks fun w hw => (hnext st rfl w hw).1

end Response

/-! ## The whole exchange keeps to it -/

variable {tr : List GwEv}

lemma unsent_snoc {signer : Signer} {req₀ : MCPRequest} {o : Op} {r : o.Resp}
    (h : Unsent tr ∧ Undropped tr) (hallowed : RequestProtocol signer req₀ tr o) :
    Unsent (tr ++ [⟨o, r⟩]) ∧ Undropped (tr ++ [⟨o, r⟩]) := by
  refine ⟨?_, h.2.snoc fun key S ho => by subst ho; exact hallowed⟩
  intro req d hsent
  rcases mem_append.1 hsent with hold | hnew
  · exact h.1 req d hold
  · cases mem_singleton.1 hnew
    exact hallowed

section Serve

variable {signer : Signer} {s : Server} {client : ClientRequest}
  (hrouter : ∀ m, s.router.jwtManager = some m → m.signer = signer)
  (hresponse : ∀ m, s.responseHandler.jwtManager = some m → m.signer = signer)

include hrouter hresponse

variable {mcpReq : MCPRequest}

lemma serveMessage_obeys {cfg : MCPServersConfig} :
    (s.serveMessage client mcpReq).Obeys (ServeProtocol signer s.router mcpReq)
      (fun _ _ => True) [⟨.loadConfig, cfg⟩] := by
  have hunsent : Unsent [⟨.loadConfig, cfg⟩] ∧ Undropped [⟨.loadConfig, cfg⟩] := by
    constructor
    · intro req d hsent
      cases mem_singleton.1 hsent
    · intro key S r hdropped
      cases mem_singleton.1 hdropped
  have hidle : flight [⟨.loadConfig, cfg⟩] = .idle := rfl
  refine obeys_seq (obeys_mono (Prog.obeys_invariant
    (Prog.obeys_outcome (Router.routeRequest_obeys hrouter hidle)) hunsent
    fun _ _ _ h hallowed => unsent_snoc h hallowed) (fun _ _ h => .route h.1.1 h.2) fun _ _ h => h) ?_
  rintro ⟨d, rewritten⟩ tr hp ⟨⟨hunsent', hundropped⟩, ⟨-, req', hreq', hd⟩, tr₁, htr, hout⟩
  dsimp only at hreq'
  subst hreq'
  refine obeys_op.2 ⟨.send hunsent' htr hout hd, fun _ => ?_⟩
  cases herr : d.error with
  | some e => exact trivial
  | none =>
    have hsent : Answered (tr ++ [⟨.send req' d, ()⟩]) (.send req' d) () := answered_append _ _ _
    refine obeys_op.2 ⟨.await rfl herr, fun ans => ?_⟩
    refine Prog.obeys_mono_trace (receive_obeys hresponse ((hundropped.snoc (by simp)).snoc (by simp))) (fun tr' o hp' h => ?_)
      fun _ _ _ _ => trivial
    exact .respond ((hsent.mono (prefix_append _ _)).mono hp')
      ((answered_append _ (.awaitAnswer req' d) ans).mono hp') h

lemma serve_obeys : (s.serve client).Obeys (ExchangeProtocol signer s client) (fun _ _ => True) [] := by
  unfold serve
  split_ifs with ha
  · exact trivial
  · have ha' : s.isA2A client = false := by simpa using ha
    refine obeys_op.2 ⟨⟨ha', .inl ⟨rfl, rfl⟩⟩, fun cfg => ?_⟩
    cases hmsg : s.message client with
    | none => exact trivial
    | some mcpReq =>
      exact obeys_mono (serveMessage_obeys hrouter hresponse)
        (fun tr o h => ⟨ha', .inr ⟨mcpReq, hmsg, h⟩⟩) fun _ _ _ => trivial

end Serve

end McpGateway.ExtProc
