import McpGateway.Gateway.Tasks

/-!
# Who makes which call

The protocols of the tasks, read from the side of the call: for each call that changes a shared
object, which task can be about to make it, and what its trace then holds.
-/

namespace McpGateway

open Go Effect Config Routing Session ExtProc

variable {req : MCPRequest} {tr : List GwEv} {d : Decision}

lemma Routing.Accepted.headers {r : Router} {table : Table} {req' : MCPRequest} (h : Accepted r table req tr d req') :
    req'.headers = req.headers := by
  cases h with
  | tool _ _ _ _ hreq => exact hreq.1
  | elicit _ _ hreq => exact hreq.1
  | prompt _ _ _ hreq => exact hreq.1
  | reply _ _ _ _ _ _ hreq => exact hreq.1
  | hairpin => rfl
  | broker => rfl

lemma ExtProc.message_sessionID {s : Server} {client : ClientRequest} {mcpReq : MCPRequest}
    (h : s.message client = some mcpReq) : mcpReq.getSessionID = client.sessionID := by
  rw [MCPRequest.getSessionID, Server.message_headers h, ClientRequest.sessionID]

/-- A thread whose next call is `o`: the protocol of its task allows it, and allowed every call
before it. -/
structure Ready (g : Gateway) (t : GwThread) (o : Op) : Prop where
  allowed : t.task.Protocol g t.trace o
  justified : System.Justified (t.task.Protocol g) t.trace

variable {t : GwThread} {e : GwEv}

lemma ready_of_mem {g : Gateway}
    (h : System.Justified (t.task.Protocol g) t.trace) (he : e ∈ t.trace) :
    ∃ tr, tr <+: t.trace ∧ Ready g { t with trace := tr } e.op := by
  obtain ⟨tr, hpre, hallowed⟩ := h.of_mem he
  exact ⟨tr, hpre, hallowed, h.mono hpre⟩

namespace Gateway

variable {g : Gateway} {G : GwConfig → Label gatewaySig Task → Prop} {c c' : GwConfig}

lemma justified (h : g.system.Reachable G c) (ht : t ∈ c.threads) :
    System.Justified (t.task.Protocol g) t.trace :=
  (h.obeys (Task.code_obeys g) t ht).2

variable {o : Op}

lemma ready (h : g.system.Reachable G c) (ht : t ∈ c.threads)
    {k : o.Resp → Gw Unit} (hrest : t.rest = .vis o k) : Ready g t o :=
  ⟨h.allowed (Task.code_obeys g) ht hrest, justified h ht⟩

lemma caller (h : g.system.Reachable G c) {i : Nat} (hs : g.system.Step c (.call i e) c') :
    ∃ t, c.threads[i]? = some t ∧ t ∈ c.threads ∧ Ready g t e.op ∧
      c.world.Answers g e.op e.resp c'.world := by
  obtain ⟨t, k, hi, hrest, hans, -⟩ := hs.caller rfl
  have ht := mem_of_getElem? hi
  exact ⟨t, hi, ht, ready h ht hrest, hans⟩

end Gateway

def Op.ofExchange : Op → Bool
  | .loadTable | .getSession _ | .removeServerSession .. | .setClientElicitation ..
  | .getClientElicitation _ | .getUserToken .. | .deleteUserToken .. | .flightJoin _ | .flightWait _
  | .flightDone .. | .initForClient .. | .afterFunc .. | .idStore _ | .idLookup _ | .idRemove _
  | .elicitationStore _ | .send .. | .awaitAnswer .. => true
  | _ => false

variable {task : Task}

lemma exchange_of_allowed {g : Gateway} (h : task.Protocol g tr o) (ho : o.ofExchange = true) :
    ∃ client mcpReq, task = .request client ∧ g.server.message client = some mcpReq ∧
    ServeProtocol g.signer g.server.router mcpReq tr o := by
  cases task with
  | request client =>
    obtain ⟨-, ⟨-, rfl⟩ | ⟨mcpReq, hmsg, hserve⟩⟩ := h
    · simp [Op.ofExchange] at ho
    · exact ⟨client, mcpReq, rfl, hmsg, hserve⟩
  | storeTaskRecord agent id principal | deleteTaskRecord agent id =>
    cases h
    simp [Op.ofExchange] at ho
  | _ =>
    -- the protocols of the other tasks allow none of these calls
    cases o <;> first | exact h.elim | simp [Op.ofExchange] at ho

section Inversion

variable {g : Gateway} {t : GwThread}

variable (h : System.Justified (t.task.Protocol g) t.trace)

include h

lemma sent_cases
    (hsent : Answered t.trace (.send req d) ()) : ∃ client mcpReq tr, t.task = .request client ∧
    g.server.message client = some mcpReq ∧ tr <+: t.trace ∧ (Router.Refused d ∨ ∃ table,
    Answered tr .loadTable table ∧ Accepted g.server.router table mcpReq tr d req) := by
  obtain ⟨tr, hpre, hallowed⟩ := h.of_mem hsent
  obtain ⟨client, mcpReq, htask, hmsg, hserve⟩ := exchange_of_allowed hallowed rfl
  cases hserve with
  | route _ hroute => exact hroute.elim
  | respond _ _ hrespond => exact hrespond.elim
  | send _ _ _ hd => exact ⟨client, mcpReq, tr, htask, hmsg, hpre, hd⟩

lemma answered_cases {ans : Answer} (hans : Answered t.trace (.awaitAnswer req d) ans) :
    Answered t.trace (.send req d) () ∧ ∃ client mcpReq table tr, t.task = .request client ∧
      g.server.message client = some mcpReq ∧ req.getSessionID = client.sessionID ∧
      tr <+: t.trace ∧ Accepted g.server.router table mcpReq tr d req := by
  obtain ⟨tr, hpre, hallowed⟩ := h.of_mem hans
  obtain ⟨_, _, _, _, hserve⟩ := exchange_of_allowed hallowed rfl
  cases hserve with
  | route _ hroute => exact hroute.elim
  | respond _ _ hrespond => exact hrespond.elim
  | await hlast herr =>
    have hsent' : Answered t.trace (.send req d) () :=
      (hlast ▸ answered_append _ (.send req d) ()).mono hpre
    obtain ⟨client, mcpReq, tr', htask, hmsg, hpre', hrefused | ⟨table, -, hacc⟩⟩ :=
      sent_cases h hsent'
    · exact absurd herr hrefused.1
    · refine ⟨hsent', client, mcpReq, table, tr', htask, hmsg, ?_, hpre', hacc⟩
      rw [MCPRequest.getSessionID, hacc.headers]
      exact message_sessionID hmsg

omit h in
lemma prefix_of_mem {tr : List GwEv} (h : e ∈ tr) : ∃ pre, pre ++ [e] <+: tr := by
  obtain ⟨pre, post, rfl⟩ := append_of_mem h
  exact ⟨pre, post, by simp⟩

variable {req₁ req₂ : MCPRequest} {d₁ d₂ : Decision} {pre pre' : List GwEv}

lemma unsent_of_send
    (hpre : pre ++ [⟨.send req d, ()⟩] <+: t.trace) : Unsent pre := by
  obtain ⟨_, _, _, _, hserve⟩ := exchange_of_allowed (h pre _ hpre) rfl
  cases hserve with
  | route _ hroute => exact hroute.elim
  | respond _ _ hrespond => exact hrespond.elim
  | send hunsent => exact hunsent

lemma send_unique
    (h₁ : pre ++ [⟨.send req₁ d₁, ()⟩] <+: t.trace) (h₂ : pre' ++ [⟨.send req₂ d₂, ()⟩] <+: t.trace) :
    pre ++ [⟨.send req₁ d₁, ()⟩] = pre' ++ [(⟨.send req₂ d₂, ()⟩ : GwEv)] := by
  -- the later one would find the earlier one sent
  have hlater : ∀ {pre pre' : List GwEv} {req req' : MCPRequest} {d d' : Decision},
      pre' ++ [⟨.send req' d', ()⟩] <+: t.trace →
      pre ++ [⟨.send req d, ()⟩] <+: pre' ++ [(⟨.send req' d', ()⟩ : GwEv)] →
      pre ++ [⟨.send req d, ()⟩] = pre' ++ [(⟨.send req' d', ()⟩ : GwEv)] := by
    intro pre pre' req req' d d' hpre' hle
    rcases List.prefix_concat_iff.1 hle with heq | hbefore
    · exact heq
    · exact absurd (hbefore.subset (by simp)) (unsent_of_send h hpre' req d)
  rcases List.prefix_or_prefix_of_prefix h₁ h₂ with hle | hle
  · exact hlater h₂ hle
  · exact (hlater h₁ hle).symm

lemma answer_unique {ans₁ ans₂ : Answer}
    (h₁ : Answered t.trace (.awaitAnswer req₁ d₁) ans₁)
    (h₂ : Answered t.trace (.awaitAnswer req₂ d₂) ans₂) : ans₁ = ans₂ := by
  have hsent : ∀ {pre : List GwEv} {req : MCPRequest} {d : Decision} {ans : Answer},
      pre ++ [⟨.awaitAnswer req d, ans⟩] <+: t.trace → ∃ tr₁, pre = tr₁ ++ [⟨.send req d, ()⟩] := by
    intro pre req d ans hpre
    obtain ⟨_, _, _, _, hserve⟩ := exchange_of_allowed (h pre _ hpre) rfl
    cases hserve with
    | route _ hroute => exact hroute.elim
    | respond _ _ hrespond => exact hrespond.elim
    | await hlast _ => exact ⟨_, hlast⟩
  obtain ⟨pre₁, hpre₁⟩ := prefix_of_mem h₁
  obtain ⟨pre₂, hpre₂⟩ := prefix_of_mem h₂
  obtain ⟨tr₁, rfl⟩ := hsent hpre₁
  obtain ⟨tr₂, rfl⟩ := hsent hpre₂
  rw [send_unique h ((prefix_append _ _).trans hpre₁) ((prefix_append _ _).trans hpre₂)] at hpre₁
  have heq := (List.prefix_of_prefix_length_le hpre₁ hpre₂ (by simp)).eq_of_length (by simp)
  cases (List.append_inj' heq rfl).2
  rfl

omit h

/-! ## Routing -/

lemma routing_cases (h : task.Protocol g tr o)
    (ho : o.ofExchange = true) (hrespond : ∀ req ans, ¬ ResponseProtocol g.signer req ans tr o)
    (hsend : ∀ req d, o ≠ .send req d ∧ o ≠ .awaitAnswer req d) :
    ∃ client mcpReq, task = .request client ∧ g.server.message client = some mcpReq ∧
      mcpReq.getSessionID = task.sessionID ∧ RequestProtocol g.signer mcpReq tr o := by
  obtain ⟨client, mcpReq, rfl, hmsg, hserve⟩ := exchange_of_allowed h ho
  cases hserve with
  | route _ hroute => exact ⟨client, mcpReq, rfl, hmsg, message_sessionID hmsg, hroute⟩
  | send => exact absurd rfl (hsend _ _).1
  | await => exact absurd rfl (hsend _ _).2
  | respond _ _ hresp => exact absurd hresp (hrespond _ _)

variable {key : String}

lemma flightJoin_cases (h : Ready g t (.flightJoin key)) : flight t.trace = .idle ∧
    IsToken g.signer t.task.sessionID ∧ ∃ S, key = Router.groupKey t.task.sessionID S := by
  obtain ⟨client, mcpReq, htask, -, hsid, hroute⟩ := routing_cases h.allowed rfl
    (fun _ _ h => h.elim) (by simp)
  rw [← hsid]
  exact hroute

lemma flightDone_cases {call : Nat} {res : Except RouterError String}
    (h : Ready g t (.flightDone key call res)) :
    (flight t.trace).Leads key call ∧ ∃ S, key = Router.groupKey t.task.sessionID S ∧
      ∀ u, res = .ok u → Obtained t.trace t.task.sessionID S u := by
  obtain ⟨client, mcpReq, htask, -, hsid, hroute⟩ := routing_cases h.allowed rfl
    (fun _ _ h => h.elim) (by simp)
  rw [← hsid]
  exact hroute

lemma elicitationStore_cases {e : ElicitationEntry} (h : Ready g t (.elicitationStore e)) : (∃ client,
    t.task = .request client) ∧ e.sessionID = t.task.sessionID ∧ IsToken g.signer e.sessionID := by
  obtain ⟨client, mcpReq, htask, -, hsid, hroute⟩ := routing_cases h.allowed rfl
    (fun _ _ h => h.elim) (by simp)
  rw [← hsid]
  exact ⟨⟨client, htask⟩, hroute.1, hroute.2.1⟩

lemma initForClient_cases {host : String} {conf : MCPServer} {headers : GoMap String} {b : Bool}
    (h : Ready g t (.initForClient host conf headers b)) :
    (∃ call m, flight t.trace = .cleared (Router.groupKey t.task.sessionID conf.name) call m ∧
      m.lookup conf.name = none) ∧
    ∃ client, t.task = .request client ∧ ∀ token, headers.lookup authorizationHeader = some token →
      (headerMapToMap (some client.headers)).lookup authorizationHeader = some token ∨
        Answered t.trace (.getUserToken t.task.sessionID conf.name) (.ok (some token)) := by
  obtain ⟨client, mcpReq, htask, hmsg, hsid, hleads, hauth⟩ := routing_cases h.allowed rfl
    (fun _ _ h => h.elim) (by simp)
  rw [← hsid]
  refine ⟨hleads, client, htask, ?_⟩
  rw [← Server.message_headers hmsg]
  exact hauth

lemma getSession_session (h : Ready g t (.getSession key)) : key = t.task.sessionID := by
  obtain ⟨client, mcpReq, htask, -, hsid, hroute⟩ := routing_cases h.allowed rfl
    (fun _ _ h => h.elim) (by simp)
  rw [← hsid]
  exact hroute

variable {S : String}

lemma getUserToken_session (h : Ready g t (.getUserToken key S)) : key = t.task.sessionID := by
  obtain ⟨client, mcpReq, htask, -, hsid, hroute⟩ := routing_cases h.allowed rfl
    (fun _ _ h => h.elim) (by simp)
  rw [← hsid]
  exact hroute

/-! ## Responding -/

lemma responding_cases (h : Ready g t o) (ho : o.ofExchange = true) (hroute : ∀ req,
    ¬ RequestProtocol g.signer req t.trace o) (hsend : ∀ req d, o ≠ .send req d ∧ o ≠ .awaitAnswer req d) :
    ∃ req d ans, Answered t.trace (.awaitAnswer req d) ans ∧ req.getSessionID = t.task.sessionID ∧
    ResponseProtocol g.signer req ans t.trace o := by
  obtain ⟨_, _, _, _, hserve⟩ := exchange_of_allowed h.allowed ho
  cases hserve with
  | route _ h => exact absurd h (hroute _)
  | send => exact absurd rfl (hsend _ _).1
  | await => exact absurd rfl (hsend _ _).2
  | @respond req d ans _ _ hans hrespond =>
    obtain ⟨-, client, _, _, _, htask, -, hsid, -⟩ := answered_cases h.justified hans
    exact ⟨req, d, ans, hans, by rw [hsid, htask]; rfl, hrespond⟩

lemma removeServerSession_cases (h : Ready g t (.removeServerSession key S)) :
    key = t.task.sessionID ∧ ∃ req d ans, Answered t.trace (.awaitAnswer req d) ans ∧
      ans.statusCode = "404" ∧ S = req.serverName := by
  obtain ⟨req, d, ans, hans, hsid, hrespond⟩ := responding_cases h rfl
    (fun _ h => h.elim) (by simp)
  obtain ⟨hstatus, hkey, hS, -⟩ := hrespond
  exact ⟨hkey.trans hsid, req, d, ans, hans, hstatus, hS⟩

lemma removeServerSession_undropped (h : Ready g t (.removeServerSession key S)) : Undropped t.trace := by
  obtain ⟨req, d, ans, -, -, hrespond⟩ := responding_cases h rfl (fun _ h => h.elim) (by simp)
  exact hrespond.2.2.2

variable {ttl : Duration}

lemma setClientElicitation_cases {sid : String}
    (h : Ready g t (.setClientElicitation sid ttl)) : IsToken g.signer sid := by
  obtain ⟨req, d, ans, hans, hsid, hrespond⟩ := responding_cases h rfl
    (fun _ h => h.elim) (by simp)
  exact hrespond.2

lemma deleteUserToken_cases (h : Ready g t (.deleteUserToken key S)) :
    key = t.task.sessionID ∧ ∃ req d ans, Answered t.trace (.awaitAnswer req d) ans ∧
      ans.statusCode = "401" ∧ S = req.serverName := by
  obtain ⟨req, d, ans, hans, hsid, hrespond⟩ := responding_cases h rfl
    (fun _ h => h.elim) (by simp)
  obtain ⟨hstatus, hkey, hS⟩ := hrespond
  exact ⟨hkey.trans hsid, req, d, ans, hans, hstatus, hS⟩

lemma idStore_cases {e : IdEntry} (h : Ready g t (.idStore e)) :
    e.gatewaySessionID = t.task.sessionID ∧ ∃ req d ans, Answered t.trace (.awaitAnswer req d) ans ∧
      e.serverName = req.serverName ∧ e.sessionID = req.backendSessionID := by
  obtain ⟨req, d, ans, hans, hsid, hrespond⟩ := responding_cases h rfl
    (fun _ h => h.elim) (by simp)
  obtain ⟨-, hgateway, hname, hsession⟩ := hrespond
  exact ⟨hgateway.trans hsid, req, d, ans, hans, hname, hsession⟩

/-! ## Storing and ending sessions -/

def Op.ofSession : Op → Bool
  | .addSession .. | .deleteSessions _ | .setUserToken .. | .sign _ => true
  | _ => false

lemma session_cases (h : task.Protocol g tr o) (ho : o.ofSession = true) : (∃ client mcpReq,
    task = .request client ∧ g.server.message client = some mcpReq ∧ RequestProtocol g.signer mcpReq tr o) ∨
    (∃ srv headers, task = .listTools srv headers ∧ Broker.FetchProtocol g.signer srv task.sessionID tr o) ∨
    (∃ post, task = .submitToken post ∧ Broker.SubmitProtocol tr o) ∨
    Broker.EndProtocol task.sessionID tr o ∨ Broker.MintProtocol g.jwtManager tr o := by
  cases task with
  | request client =>
    rcases h with ⟨-, ⟨-, rfl⟩ | ⟨mcpReq, hmsg, hserve⟩⟩
    · cases ho
    · cases hserve with
      | route _ hroute => exact .inl ⟨client, mcpReq, rfl, hmsg, hroute⟩
      | respond _ _ hrespond =>
        cases o <;> first | exact hrespond.elim | cases ho
      | send | await => cases ho
  | listTools srv headers => exact .inr (.inl ⟨srv, headers, rfl, h⟩)
  | submitToken post => exact .inr (.inr (.inl ⟨post, rfl, h⟩))
  | delete sid | sessionEnd sid | expire client sid => exact .inr (.inr (.inr (.inl h)))
  | mint => exact .inr (.inr (.inr (.inr h)))
  | storeTaskRecord | deleteTaskRecord =>
    cases h
    cases ho

lemma addSession_cases {u : String} (h : Ready g t (.addSession key S u ttl)) : IsToken g.signer key ∧
    key = t.task.sessionID ∧ ((∃ client, t.task = .request client ∧ (∃ cfg s,
    Answered t.trace .loadConfig cfg ∧ s ∈ cfg.servers ∧ s.name = S) ∧ ∃ call m,
    flight t.trace = .cleared (Router.groupKey key S) call m ∧ m.lookup S = none) ∨ ∃ srv headers,
    t.task = .listTools srv headers ∧ S = srv.name) := by
  rcases session_cases h.allowed rfl with
    ⟨client, mcpReq, htask, hmsg, hroute⟩ | ⟨srv, headers, htask, hfetch⟩ | ⟨_, _, hnone⟩ | hnone | hnone
  · rcases hroute with ⟨hkey, htoken, hcfg, hflight⟩
    refine ⟨htoken, ?_, .inl ⟨client, htask, hcfg, hflight⟩⟩
    rw [htask]
    exact hkey.trans (message_sessionID hmsg)
  · rcases hfetch with ⟨hkey, hS, htoken⟩
    exact ⟨hkey.symm ▸ htoken, hkey, .inr ⟨srv, headers, htask, hS⟩⟩
  all_goals exact hnone.elim

lemma deleteSessions_cases {keys : List String} (h : Ready g t (.deleteSessions keys)) :
    keys = [t.task.sessionID] := by
  rcases session_cases h.allowed rfl with
    ⟨client, mcpReq, htask, hmsg, hroute⟩ | ⟨_, _, _, hnone⟩ | ⟨_, _, hnone⟩ | hend | hnone
  · rw [htask]
    exact hroute.trans (congrArg (fun sid => [sid]) (message_sessionID hmsg))
  · exact hnone.elim
  · exact hnone.elim
  · exact hend
  · exact hnone.elim

lemma setUserToken_cases {sid token : String} (h : Ready g t (.setUserToken sid S token ttl)) : (∃ post,
    t.task = .submitToken post) ∧ ∃ id entry, Answered t.trace (.elicitationClaim id) (.ok (some entry)) ∧
    entry.sessionID = sid ∧ entry.serverName = S := by
  rcases session_cases h.allowed rfl with
    ⟨_, _, _, _, hnone⟩ | ⟨_, _, _, hnone⟩ | ⟨post, htask, hclaimed⟩ | hnone | hnone
  · exact hnone.elim
  · exact hnone.elim
  · exact ⟨⟨post, htask⟩, hclaimed⟩
  all_goals exact hnone.elim

lemma elicitationClaim_cases {id : String} (h : Ready g t (.elicitationClaim id)) :
    ∃ post, t.task = .submitToken post := by
  have hallowed := h.allowed
  cases htask : t.task with
  | submitToken post => exact ⟨post, rfl⟩
  | request client =>
    rw [htask] at hallowed
    rcases hallowed with ⟨-, ⟨-, hload⟩ | ⟨mcpReq, -, hserve⟩⟩
    · cases hload
    · cases hserve with
      | route _ hroute => exact hroute.elim
      | respond _ _ hrespond => exact hrespond.elim
  | storeTaskRecord | deleteTaskRecord =>
    rw [htask] at hallowed
    cases hallowed
  | _ =>
    rw [htask] at hallowed
    exact hallowed.elim

lemma sign_cases {claims : Claims} (h : Ready g t (.sign claims)) :
    (∃ client, t.task = .request client ∧ ∃ cfg s now id, Answered t.trace .loadConfig cfg ∧
      s ∈ cfg.servers ∧ Answered t.trace .now now ∧
      claims = JWTManager.backendInitClaims s.hostname now id) ∨
    ∃ now uuid, claims = g.jwtManager.sessionClaims now uuid := by
  rcases session_cases h.allowed rfl with
    ⟨client, _, htask, _, hroute⟩ | ⟨_, _, _, hnone⟩ | ⟨_, _, hnone⟩ | hnone | hmint
  · exact .inl ⟨client, htask, hroute⟩
  · exact hnone.elim
  · exact hnone.elim
  · exact hnone.elim
  · rcases hmint with ⟨now, uuid, -, hclaims⟩
    exact .inr ⟨now, uuid, hclaims⟩

end Inversion

end McpGateway
