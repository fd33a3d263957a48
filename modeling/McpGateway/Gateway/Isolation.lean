import McpGateway.Gateway.Authority
import McpGateway.Gateway.KeySpace

/-!
# Sessions are kept apart

What a forwarded request carries for its session comes from the session itself.
-/

namespace McpGateway

open Go Effect Config Routing Session ExtProc Router System.Reachable

variable {sid : String}

lemma Routing.Router.groupKey_inj {signer : Signer} {sid' S S' : String}
    (h : IsToken signer sid) (h' : IsToken signer sid')
    (heq : groupKey sid S = groupKey sid' S') : sid = sid' ∧ S = S' := by
  have hkey : ∀ {sid S : String}, IsToken signer sid →
      (groupKey sid S).toList.takeWhile (· ≠ '/') = sid.toList := by
    intro sid S htoken
    have hslash : '/' ∉ sid.toList := htoken.not_mem (by decide)
    rw [groupKey, String.toList_append, String.toList_append, append_assoc,
      List.takeWhile_append_of_pos fun a ha => decide_eq_true (ne_of_mem_of_not_mem ha hslash)]
    exact append_nil _
  have hsid : sid = sid' := String.toList_injective ((hkey h).symm.trans (heq ▸ hkey h'))
  subst hsid
  exact ⟨rfl, append_left_cancel heq⟩

variable {table : Table} {tr : List GwEv}

lemma Routing.Accepted.offers {r : Router} {req req' : MCPRequest} {d : Decision} (h : Accepted r table req tr d req')
    (hreq : req.backendSessionID = "") (hne : req'.backendSessionID ≠ "") :
    Offers tr req.getSessionID req'.serverName req'.backendSessionID := by
  cases h with
  | tool _ _ hu _ hreq' | prompt _ _ hu hreq' =>
    obtain ⟨-, hname, hsession⟩ := hreq'
    rw [hname, hsession]
    exact hu.1
  | elicit _ _ hreq' => exact absurd (hreq'.2.trans hreq) hne
  | reply _ _ _ _ _ _ hreq' => exact absurd (hreq'.2.1.trans hreq) hne
  | hairpin | broker => exact absurd hreq hne

namespace Gateway

/-! ## Where the fields of a session come from -/

/-- A request of the session, or its `tools/list`, stored the upstream session for the server. -/
def StoredFor (c : GwConfig) (sid S u : String) : Prop :=
  ∃ ttl b, System.Happened c (fun task => task.sessionID = sid ∧
    ((∃ client, task = .request client) ∨ ∃ srv headers, task = .listTools srv headers))
    ⟨.addSession sid S u ttl, .ok b⟩

/-- The token was submitted for an elicitation that was issued to the session and the server. -/
def TokenFor (c : GwConfig) (sid S token : String) : Prop :=
  ∃ t ∈ c.threads, (∃ post, t.task = .submitToken post) ∧
    (∃ ttl, Answered t.trace (.setUserToken sid S token ttl) (.ok ())) ∧
    ∃ id e, Answered t.trace (.elicitationClaim id) (.ok (some e)) ∧ Elicited c id e ∧
      e.sessionID = sid ∧ e.serverName = S

/-- Where the value of a field comes from.  Upstream sessions and user tokens share the fields. -/
def Origin (c : GwConfig) (sid f v : String) : Prop :=
  StoredFor c sid f v ∨ ∃ S, f = userTokenFieldPrefix ++ S ∧ TokenFor c sid S v

variable {g : Gateway} {G : GwConfig → Label gatewaySig Task → Prop} {c c' : GwConfig}
  {l : Label gatewaySig Task} {sid S f u v token : String}

lemma TokenFor.step (h : TokenFor c sid S token) (hs : g.system.Step c l c') :
    TokenFor c' sid S token := by
  obtain ⟨t, ht, hpost, ⟨ttl, hset⟩, id, e, hclaim, helicited, hsid, hS⟩ := h
  obtain ⟨j, hj⟩ := mem_iff_getElem?.1 ht
  obtain ⟨t', hj', htask, hpre⟩ := hs.thread_mono hj
  exact ⟨t', mem_of_getElem? hj', htask ▸ hpost, ⟨ttl, hset.mono hpre⟩, id, e,
    hclaim.mono hpre, helicited.step hs, hsid, hS⟩

lemma Origin.step (h : Origin c sid f v) (hs : g.system.Step c l c') : Origin c' sid f v := by
  rcases h with ⟨ttl, b, hstored⟩ | ⟨S, hf, htoken⟩
  · exact .inl ⟨ttl, b, hstored.step hs⟩
  · exact .inr ⟨S, hf, htoken.step hs⟩

variable {t : GwThread} (h : g.system.Reachable G c)

include h

variable (ht : t ∈ c.threads)

include ht

lemma storedFor_of_answered {ttl : Duration} {b : Bool}
    (ha : Answered t.trace (.addSession sid S u ttl) (.ok b)) : StoredFor c sid S u := by
  obtain ⟨tr, -, hready⟩ := ready_of_mem (justified h ht) ha
  obtain ⟨-, hsid, hrequest | hlist⟩ := addSession_cases hready
  · exact ⟨ttl, b, t, ht, ⟨hsid.symm, .inl (hrequest.imp fun _ hreq => hreq.1)⟩, ha⟩
  · obtain ⟨srv, headers, htask, -⟩ := hlist
    exact ⟨ttl, b, t, ht, ⟨hsid.symm, .inr ⟨srv, headers, htask⟩⟩, ha⟩

lemma tokenFor_of_answered {ttl : Duration}
    (ha : Answered t.trace (.setUserToken sid S token ttl) (.ok ())) : TokenFor c sid S token := by
  obtain ⟨tr, hpre, hready⟩ := ready_of_mem (justified h ht) ha
  obtain ⟨hpost, id, e, hclaim, hsid, hS⟩ := setUserToken_cases hready
  have hclaim' := hclaim.mono hpre
  exact ⟨t, ht, hpost, ⟨ttl, ha⟩, id, e, hclaim', claimed_elicited h ht hclaim', hsid, hS⟩

omit ht in
lemma fields_origin (hf : c.world.cache.field sid f = some v) :
    Origin c sid f v := by
  refine explained
    (W := fun (x : String × String × String) w => w.cache.field x.1 x.2.1 = some x.2.2)
    (H := fun x c => Origin c x.1 x.2.1 x.2.2) ?_ ?_ (fun _ _ _ _ hs ho => ho.step hs) ?_ h
    (sid, f, v) hf
  · intro w x hw hx
    rw [hw] at hx
    simp [Cache.field] at hx
  · intro w w' x henv hx
    cases henv <;> exact hx
  · rintro c i ⟨o, r⟩ c' ⟨sid, f, v⟩ hc hg hs hx
    obtain ⟨t, k, -, -, hans, hnew⟩ := hs.caller rfl
    have hc' := step hc hg hs
    have ht' := mem_of_getElem? hnew
    have hmem : ⟨o, r⟩ ∈ t.trace ++ [⟨o, r⟩] := mem_append_right _ (mem_singleton.2 rfl)
    have hchange : World.Change g c.world ⟨o, r⟩ c'.world := World.Answers.change hans
    dsimp only at hx
    generalize c'.world = w' at hchange hx hans
    cases hchange with
    | @cache _ _ cache' hw =>
      rcases hw.field sid f with hsame | hwrite
      · exact .inl (hsame.symm.trans hx)
      · dsimp only at hx
        rw [hx] at hwrite
        cases hwrite with
        | addSession u ttl =>
          obtain ⟨_, -, rfl, -⟩ := hans
          exact .inr (.inl (storedFor_of_answered hc' ht' hmem))
        | setUserToken token ttl hf =>
          obtain ⟨_, -, rfl, -⟩ := hans
          exact .inr (.inr ⟨_, hf, tokenFor_of_answered hc' ht' hmem⟩)
    | _ => exact .inl hx

/-! ## What the router reads -/

lemma read_origin {m : GoMap String}
    (hread : Answered t.trace (.getSession sid) (.ok m)) (hu : m.lookup f = some u) : Origin c sid f u := by
  refine h.answered ht hread (fun _ _ _ hs ih => ih.step hs) fun c i c' hc _ hs => ?_
  obtain ⟨-, -, -, -, m', hm', hans, -⟩ := caller hc hs
  cases hans
  rw [Cache.getSession_field hm'] at hu
  exact (fields_origin hc hu).step hs

lemma readToken_origin
    (hread : Answered t.trace (.getUserToken sid S) (.ok (some token))) :
    Origin c sid (userTokenFieldPrefix ++ S) token := by
  refine h.answered ht hread (fun _ _ _ hs ih => ih.step hs) fun c i c' hc _ hs => ?_
  obtain ⟨-, -, -, -, stored, cache', hget, hans, -⟩ := caller hc hs
  cases hans
  rcases Cache.getUserToken_cases hget with ⟨-, hfield⟩ | ⟨hnone, -, -⟩
  · exact (fields_origin hc (hfield token rfl)).step hs
  · cases hnone

lemma obtained_origin
    (ho : Obtained t.trace sid S u) : Origin c sid S u := by
  rcases ho with ⟨m, hread, hu⟩ | ⟨ttl, b, hadd⟩
  · exact read_origin h ht hread hu
  · exact .inl (storedFor_of_answered h ht hadd)

omit ht

omit h

def FlightOrigin (g : Gateway) (c : GwConfig) (call : Nat) (u : String) : Prop :=
  ∃ sid S, IsToken g.signer sid ∧ Led c (Router.groupKey sid S) call ∧ Origin c sid S u

variable {call : Nat}

lemma FlightOrigin.step (h : FlightOrigin g c call u) (hs : g.system.Step c l c') :
    FlightOrigin g c' call u := by
  obtain ⟨sid, S, htoken, hled, ho⟩ := h
  exact ⟨sid, S, htoken, hled.step hs, ho.step hs⟩

lemma leads_token (h : System.Justified (t.task.Protocol g) t.trace) {key : String} (hleads : (flight t.trace).Leads key call) : IsToken g.signer t.task.sessionID := by
  obtain ⟨tr, -, hready⟩ := ready_of_mem h (leads_answered hleads)
  exact (flightJoin_cases hready).2.1

lemma results_origin (h : g.system.Reachable G c)
    (hr : (call, .ok u) ∈ c.world.results) : FlightOrigin g c call u := by
  refine explained
    (W := fun (x : Nat × String) w => (x.1, Except.ok x.2) ∈ w.results)
    (H := fun x c => FlightOrigin g c x.1 x.2) ?_ ?_ (fun _ _ _ _ hs ho => ho.step hs) ?_ h
    (call, u) hr
  · intro w x hw hx
    rw [hw] at hx
    simp at hx
  · intro w w' x henv hx
    cases henv <;> exact hx
  · rintro c i ev c' ⟨call, u⟩ hc _ hs hx
    obtain ⟨t, hi, ht, hready, hans⟩ := caller hc hs
    have hchange := hans.change
    generalize c'.world = w' at hchange hx
    cases hchange with
    | land key call' res =>
      rcases mem_cons.1 hx with hnew | hold
      · cases hnew
        obtain ⟨hleads, S, rfl, hobtained⟩ := flightDone_cases hready
        have hled : Led c _ call := ⟨t, ht, trivial, leads_answered hleads⟩
        refine .inr (FlightOrigin.step ?_ hs)
        exact ⟨_, S, leads_token hready.justified hleads, hled, obtained_origin hc ht (hobtained u rfl)⟩
      · exact .inl hold
    | _ => exact .inl hx

lemma offers_origin (h : g.system.Reachable G c) (ht : t ∈ c.threads)
    (ho : Offers t.trace t.task.sessionID S u) : Origin c t.task.sessionID S u := by
  rcases ho with hobtained | ⟨call, hjoin, hwait⟩
  · exact obtained_origin h ht hobtained
  · -- the flight that was joined has the key of this session, so its result is one of this session
    have hresult : FlightOrigin g c call u := by
      refine h.answered ht hwait (fun _ _ _ hs ih => ih.step hs) fun c i c' hc _ hs => ?_
      obtain ⟨-, -, -, -, hans⟩ := caller hc hs
      exact (results_origin hc hans.1).step hs
    obtain ⟨sid, S', htoken, hled, horigin⟩ := hresult
    obtain ⟨tr, -, hready⟩ := ready_of_mem (justified h ht) hjoin
    have hown : IsToken g.signer t.task.sessionID := (flightJoin_cases hready).2.1
    have hkey := (follower_led h ht hjoin).key_unique h hled
    obtain ⟨rfl, rfl⟩ := groupKey_inj hown htoken hkey
    exact horigin

def IdOrigin (c : GwConfig) (e : IdEntry) : Prop :=
  e.sessionID ≠ "" → Origin c e.gatewaySessionID e.serverName e.sessionID

lemma Assigned.origin (h : g.system.Reachable G c) {id : String} {e : IdEntry} (he : Assigned c id e) :
    IdOrigin c e := by
  intro hne
  obtain ⟨t, ht, -, hmem⟩ := he
  obtain ⟨tr, hpre, hready⟩ := ready_of_mem (justified h ht) hmem
  obtain ⟨hgateway, req, d, ans, hanswered, hname, hsession⟩ := idStore_cases hready
  obtain ⟨-, client, mcpReq, table, tr', htask, hmsg, -, hpre', hacc⟩ :=
    answered_cases hready.justified hanswered
  have hoffers := hacc.offers (Server.message_backendSessionID hmsg) (hsession ▸ hne)
  rw [message_sessionID hmsg] at hoffers
  rw [hgateway, hname, hsession]
  refine offers_origin (t := t) h ht ?_
  rw [show t.task = .request client from htask]
  exact hoffers.mono (hpre'.trans hpre)

/-! ## What a request carries -/

/-- The thread has read the name in a routing table or a configuration. -/
def Named (tr : List GwEv) (S : String) : Prop :=
  (∃ table route, Answered tr .loadTable table ∧ route ∈ table.routes ∧ route.name = S) ∨
    ∃ cfg s, Answered tr .loadConfig cfg ∧ s ∈ cfg.servers ∧ s.name = S

lemma Named.mono {tr' : List GwEv} (h : Named tr S) (hp : tr <+: tr') : Named tr' S := by
  rcases h with ⟨table, route, htable, hmem, hname⟩ | ⟨cfg, s, hcfg, hmem, hname⟩
  · exact .inl ⟨table, route, htable.mono hp, hmem, hname⟩
  · exact .inr ⟨cfg, s, hcfg.mono hp, hmem, hname⟩

lemma accepted_origin (h : g.system.Reachable G c) (ht : t ∈ c.threads)
    {client : ClientRequest} (htask : t.task = .request client) {mcpReq req : MCPRequest}
    (hmsg : g.server.message client = some mcpReq) (hpre : tr <+: t.trace) (htable : Answered tr .loadTable table) {d : Decision}
    (hacc : Accepted g.server.router table mcpReq tr d req)
    (hS : d.setHeaders.lookup mcpServerNameHeader = some S) :
    (∀ u, d.setHeaders.lookup sessionHeader = some u → u ≠ "" →
      Named t.trace S ∧ Origin c t.task.sessionID S u) ∧
    ∀ token, d.setHeaders.lookup authorizationHeader = some token →
      Named t.trace S ∧ Origin c t.task.sessionID (userTokenFieldPrefix ++ S) token := by
  have hsid : mcpReq.getSessionID = t.task.sessionID := by
    rw [htask]
    exact message_sessionID hmsg
  -- every decision for an upstream names one server, one session and at most one token of the user
  have hend : ∀ S' u' stored, d.setHeaders.lookup mcpServerNameHeader = some S' →
      d.setHeaders.lookup sessionHeader = some u' → d.setHeaders.lookup authorizationHeader = stored →
      Named t.trace S' → (u' ≠ "" → Origin c t.task.sessionID S' u') →
      (∀ token, stored = some token → Origin c t.task.sessionID (userTokenFieldPrefix ++ S') token) →
      (∀ u, d.setHeaders.lookup sessionHeader = some u → u ≠ "" →
        Named t.trace S ∧ Origin c t.task.sessionID S u) ∧
      ∀ token, d.setHeaders.lookup authorizationHeader = some token →
        Named t.trace S ∧ Origin c t.task.sessionID (userTokenFieldPrefix ++ S) token := by
    rintro S' u' _ hname hsession rfl hnamed hu htoken
    obtain rfl := mem_unique hname hS
    refine ⟨fun u hu' hne => ⟨hnamed, ?_⟩, fun token htoken' => ⟨hnamed, htoken token htoken'⟩⟩
    obtain rfl := mem_unique hsession hu'
    exact hu hne
  cases hacc with
  | @tool route path u' body stored _ _ hroute hu htoken _ =>
    rw [hsid] at hu htoken
    refine hend route.name u' stored ?_ ?_ ?_
      (.inl ⟨table, route, htable.mono hpre, Table.routeOf_mem hroute, rfl⟩)
      (fun _ => offers_origin h ht (hu.1.mono hpre))
      fun token htoken' => readToken_origin h ht ((htoken token htoken').mono hpre)
    all_goals simp +decide [upstreamDecision, lookup_upstreamHeaders, lookup_toolHeaders, routeToMCPServer]
  | elicit => simp +decide [elicitDecision, lookup_toolHeaders]
  | @prompt route path u' body _ _ hroute hu _ =>
    rw [hsid] at hu
    refine hend route.name u' none ?_ ?_ ?_
      (.inl ⟨table, route, htable.mono hpre, Table.lookupPrompt_mem hroute, rfl⟩)
      (fun _ => offers_origin h ht (hu.1.mono hpre)) (by simp)
    all_goals simp +decide [upstreamDecision, lookup_upstreamHeaders, lookup_promptHeaders, routeToMCPServer]
  | @reply cfg conf path entry body _ _ hentry hown _ hcfg hconf =>
    rw [hsid] at hown
    refine hend entry.serverName entry.sessionID none ?_ ?_ ?_
      (.inr ⟨cfg, conf, hcfg.mono hpre, MCPServersConfig.getServerConfigByName_mem hconf,
        MCPServersConfig.getServerConfigByName_name hconf⟩)
      (fun hne => hown ▸ (lookup_assigned h ht (hentry.mono hpre)).origin h hne) (by simp)
    all_goals simp +decide [elicitationDecision, lookup_singleton]
  | hairpin =>
    simp +decide [hairpinDecision, lookup_singleton] at hS
  | broker =>
    simp +decide [brokerDecision, lookup_reinjectInternal, lookup_singleton]

/-! ## Names that are no token fields -/

/-- The server name is not taken for the field of a user token. -/
def plainName (S : String) : Bool := !hasPrefix S userTokenFieldPrefix

lemma plainName_append (S : String) : plainName (userTokenFieldPrefix ++ S) = false := by
  simp [plainName]

def PlainWorld (w : World) : Prop :=
  (∀ route ∈ w.table.routes, plainName route.name = true) ∧
    ∀ s ∈ w.config.servers, plainName s.name = true

/-- Every server that is published, configured or asked for its tools has a plain name. -/
def PlainNames (c : GwConfig) (l : Label gatewaySig Task) : Prop :=
  PlainWorld c.world ∧ ∀ srv headers, l = .start (.listTools srv headers) → plainName srv.name = true

lemma named_plain (h : g.system.Reachable PlainNames c) (ht : t ∈ c.threads)
    (hn : Named t.trace S) : plainName S = true := by
  rcases hn with ⟨table, route, htable, hmem, rfl⟩ | ⟨cfg, s, hcfg, hmem, rfl⟩
  · refine h.answered ht htable (fun _ _ _ _ ih => ih) fun c i c' hc hg hs => ?_
    obtain ⟨-, -, -, -, hsame, -⟩ := caller hc hs
    exact hg.1.1 route (hsame.mem_routes.1 hmem)
  · refine h.answered ht hcfg (fun _ _ _ _ ih => ih) fun c i c' hc hg hs => ?_
    obtain ⟨-, -, -, -, rfl, -⟩ := caller hc hs
    exact hg.1.2 s hmem

lemma listed_plain (h : g.system.Reachable PlainNames c) (ht : t ∈ c.threads)
    {srv : Broker.UserSpecificServer} {headers : Broker.HttpHeader}
    (htask : t.task = .listTools srv headers) : plainName srv.name = true :=
  started (P := fun (_ : GwConfig) task => ∀ srv headers,
    task = .listTools srv headers → plainName srv.name = true)
    (fun _ _ hg _ srv headers htask => hg.2 srv headers (htask ▸ rfl)) (fun _ _ _ _ _ hP => hP)
    h t ht srv headers htask

lemma StoredFor.plain (h : g.system.Reachable PlainNames c) (hst : StoredFor c sid S u) :
    plainName S = true := by
  obtain ⟨ttl, b, t, ht, -, hadd⟩ := hst
  obtain ⟨tr, hpre, hready⟩ := ready_of_mem (justified h ht) hadd
  obtain ⟨-, -, ⟨client, -, hnamed, -⟩ | ⟨srv, headers, htask, rfl⟩⟩ := addSession_cases hready
  · exact named_plain h ht (Named.mono (.inr hnamed) hpre)
  · exact listed_plain h ht htask

lemma Origin.storedFor (h : Origin c sid S u) (hplain : plainName S = true) : StoredFor c sid S u := by
  rcases h with hstored | ⟨S', rfl, -⟩
  · exact hstored
  · rw [plainName_append] at hplain
    cases hplain

lemma Origin.tokenFor (h : g.system.Reachable PlainNames c)
    (ho : Origin c sid (userTokenFieldPrefix ++ S) token) : TokenFor c sid S token := by
  rcases ho with hstored | ⟨S', hS, htoken⟩
  · have hplain := hstored.plain h
    rw [plainName_append] at hplain
    cases hplain
  · rw [append_left_cancel hS]
    exact htoken

/-! ## What the others can do -/

/-- The thread works for the session: it is a task of the session, or a submission that has claimed an
elicitation of it. -/
def ActsFor (t : GwThread) (sid : String) : Prop :=
  t.task.sessionID = sid ∨
    ∃ id e, Answered t.trace (.elicitationClaim id) (.ok (some e)) ∧ e.sessionID = sid

/-- A step that is not a call of a thread acting for the session. -/
def ForeignStep (g : Gateway) (sid : String) (c c' : GwConfig) : Prop :=
  ∃ l, g.system.Step c l c' ∧ ∀ i e t, l = .call i e → c.threads[i]? = some t → ¬ ActsFor t sid

/-- Everything that decides what the requests of the session carry is as it was: its entry in the
cache, its flights with their results, and no id entry of it is new or another one. -/
structure Untouched (sid : String) (c : GwConfig) (w : World) : Prop where
  entry : w.cache.lookup sid = c.world.cache.lookup sid
  flights : ∀ S, w.flights.lookup (Router.groupKey sid S) =
    c.world.flights.lookup (Router.groupKey sid S)
  results : ∀ S call r, Led c (Router.groupKey sid S) call →
    ((call, r) ∈ w.results ↔ (call, r) ∈ c.world.results)
  ids : ∀ id e, e.gatewaySessionID = sid → w.ids.lookup id = some e → c.world.ids.lookup id = some e

lemma Untouched.refl (sid : String) (c : GwConfig) : Untouched sid c c.world :=
  ⟨rfl, fun _ => rfl, fun _ _ _ _ => Iff.rfl, fun _ _ _ h => h⟩

variable {w : World}

lemma Untouched.trans (h : Untouched sid c c'.world) (h' : Untouched sid c' w)
    (hled : ∀ S call, Led c (groupKey sid S) call → Led c' (groupKey sid S) call) :
    Untouched sid c w where
  entry := h'.entry.trans h.entry
  flights S := (h'.flights S).trans (h.flights S)
  results S call r hl := (h'.results S call r (hled S call hl)).trans (h.results S call r hl)
  ids id e he hw := h.ids id e he (h'.ids id e he hw)

lemma actsFor_of_writes {o : Op} (hready : Ready g t o)
    (htoken : IsToken g.signer sid) (hw : World.Writes o sid) : ActsFor t sid := by
  cases o with
  | addSession key S u ttl =>
    obtain rfl : sid = key := hw
    exact .inl (addSession_cases hready).2.1.symm
  | removeServerSession key S =>
    obtain rfl : sid = key := hw
    exact .inl (removeServerSession_cases hready).1.symm
  | getUserToken key S =>
    obtain rfl : sid = key := hw
    exact .inl (getUserToken_session hready).symm
  | deleteUserToken key S =>
    obtain rfl : sid = key := hw
    exact .inl (deleteUserToken_cases hready).1.symm
  | setUserToken key S token ttl =>
    obtain rfl : sid = key := hw
    obtain ⟨-, id, e, hclaim, hsid, -⟩ := setUserToken_cases hready
    exact .inr ⟨id, e, hclaim, hsid⟩
  | deleteSessions keys =>
    obtain rfl := deleteSessions_cases hready
    obtain ⟨key, hmem, rfl | hflag⟩ := hw
    · exact .inl (mem_singleton.1 hmem).symm
    · exact absurd hflag (htoken.ne_flagKey key)
  | setClientElicitation sid' ttl => exact absurd hw (htoken.ne_flagKey sid')
  | storeTaskRecord agent id p => exact absurd hw (htoken.ne_taskKey agent id)
  | deleteTaskRecord agent id => exact absurd hw (htoken.ne_taskKey agent id)
  | _ => exact hw.elim

lemma untouched_call (h : g.system.Reachable G c) (htoken : IsToken g.signer sid) {i : Nat}
    {e : GwEv} (hs : g.system.Step c (.call i e) c')
    (hforeign : ∀ t, c.threads[i]? = some t → ¬ ActsFor t sid) : Untouched sid c c'.world := by
  obtain ⟨t, hi, ht, hready, hans⟩ := caller h hs
  have hother : t.task.sessionID ≠ sid := fun hsid => hforeign t hi (.inl hsid)
  -- a flight of another session has another key
  have hkey : IsToken g.signer t.task.sessionID → ∀ S S',
      groupKey sid S ≠ groupKey t.task.sessionID S' :=
    fun hown S S' heq => hother (groupKey_inj htoken hown heq).1.symm
  have hchange := hans.change
  generalize c'.world = w' at hchange ⊢
  have hrefl := Untouched.refl sid c
  cases hchange with
  | idle | pool | afterFunc | elicitationStore | elicitationClaim =>
    exact ⟨hrefl.entry, hrefl.flights, hrefl.results, hrefl.ids⟩
  | cache hw =>
    refine ⟨hw.lookup_eq fun hwrites => ?_, hrefl.flights, hrefl.results, hrefl.ids⟩
    exact hforeign t hi (actsFor_of_writes hready htoken hwrites)
  | lead hnone =>
    obtain ⟨-, hown, S', rfl⟩ := flightJoin_cases hready
    refine ⟨hrefl.entry, fun S => ?_, hrefl.results, hrefl.ids⟩
    exact (lookup_insert ..).trans (if_neg (hkey hown S S'))
  | land key call res =>
    obtain ⟨hleads, S', rfl, -⟩ := flightDone_cases hready
    have hown := leads_token hready.justified hleads
    refine ⟨hrefl.entry, fun S => ?_, fun S call' r hled => ?_, hrefl.ids⟩
    · dsimp only
      split_ifs
      · exact (lookup_erase ..).trans (if_neg (hkey hown S S'))
      · rfl
    · have hne : call' ≠ call := by
        rintro rfl
        exact hkey hown S S' (hled.key_unique h ⟨t, ht, trivial, leads_answered hleads⟩)
      simp [hne]
  | idStore entry hfresh =>
    refine ⟨hrefl.entry, hrefl.flights, hrefl.results, fun id e he hid => ?_⟩
    rw [lookup_insert] at hid
    split_ifs at hid
    · cases hid
      exact absurd ((idStore_cases hready).1.symm.trans he) hother
    · exact hid
  | idRemove id' =>
    refine ⟨hrefl.entry, hrefl.flights, hrefl.results, fun id e he hid => ?_⟩
    rw [lookup_erase] at hid
    split_ifs at hid
    exact hid

lemma untouched_step (h : g.system.Reachable G c) (htoken : IsToken g.signer sid)
    (hs : ForeignStep g sid c c') : Untouched sid c c'.world := by
  obtain ⟨l, hstep, hforeign⟩ := hs
  cases hstep with
  | @call i t o k r w hi hrest hans =>
    exact untouched_call h htoken (.call hi hrest hans) fun t' ht' => hforeign i _ t' rfl ht'
  | env hw =>
    have hrefl := Untouched.refl sid c
    cases hw <;> exact ⟨hrefl.entry, hrefl.flights, hrefl.results, hrefl.ids⟩
  | start => exact Untouched.refl sid c

lemma untouched_run (h : g.system.Reachable System.Free c) (htoken : IsToken g.signer sid)
    (hrun : Relation.ReflTransGen (ForeignStep g sid) c c') : Untouched sid c c'.world := by
  suffices hall : g.system.Reachable System.Free c' ∧ Untouched sid c c'.world ∧
      ∀ key call, Led c key call → Led c' key call from hall.2.1
  induction hrun with
  | refl => exact ⟨h, .refl sid c, fun _ _ hled => hled⟩
  | tail _ hs ih =>
    obtain ⟨hb, huntouched, hled⟩ := ih
    obtain ⟨l, hstep, -⟩ := id hs
    exact ⟨.step hb trivial hstep,
      huntouched.trans (untouched_step hb htoken hs) fun S call hl => hled _ call hl,
      fun key call hl => (hled key call hl).step hstep⟩

/-- What a request carries for its session and a server was stored for both of them, by the session
itself or with a token submitted for it, and nobody else can change it. -/
structure Isolated (g : Gateway) (c : GwConfig) : Prop where
  forwarded : ∀ t ∈ c.threads, ∀ req d S, Answered t.trace (.send req d) () → d.error = none →
    d.setHeaders.lookup mcpServerNameHeader = some S →
      (∀ u, d.setHeaders.lookup sessionHeader = some u → u ≠ "" → StoredFor c t.task.sessionID S u) ∧
      ∀ token, d.setHeaders.lookup authorizationHeader = some token →
        TokenFor c t.task.sessionID S token
  /-- the initialization of an upstream session can also pass on the client's own authorization -/
  initialized : ∀ t ∈ c.threads, ∀ host conf headers b r,
    Answered t.trace (.initForClient host conf headers b) r →
      ∀ token, headers.lookup authorizationHeader = some token → (∃ client, t.task = .request client ∧
          (headerMapToMap (some client.headers)).lookup authorizationHeader = some token) ∨
        TokenFor c t.task.sessionID conf.name token
  others : ∀ sid c', IsToken g.signer sid → Relation.ReflTransGen (ForeignStep g sid) c c' →
    Untouched sid c c'.world

/-- While no server has a name that begins like a token's field, sessions are isolated. -/
theorem sessions_isolated (h : g.system.Reachable PlainNames c) : Isolated g c where
  forwarded t ht req d S hsent herr hS := by
    obtain ⟨client, mcpReq, tr, htask, hmsg, hpre, hrefused | ⟨table, htable, hacc⟩⟩ :=
      sent_cases (justified h ht) hsent
    · exact absurd herr hrefused.1
    · obtain ⟨hsession, hauth⟩ := accepted_origin h ht htask hmsg hpre htable hacc hS
      refine ⟨fun u hu hne => ?_, fun token htoken => ?_⟩
      · obtain ⟨hnamed, ho⟩ := hsession u hu hne
        exact ho.storedFor (named_plain h ht hnamed)
      · exact (hauth token htoken).2.tokenFor h
  initialized t ht host conf headers b r hinit token htoken := by
    obtain ⟨tr, hpre, hready⟩ := ready_of_mem (justified h ht) hinit
    obtain ⟨-, client, htask, hauth⟩ := initForClient_cases hready
    rcases hauth token htoken with hown | hread
    · exact .inl ⟨client, htask, hown⟩
    · exact .inr ((readToken_origin h ht (hread.mono hpre)).tokenFor h)
  others sid c' htoken hrun := untouched_run h.free htoken hrun

/-! ## Tool calls after a listing -/

instance (w : World) : Decidable (PlainWorld w) := inferInstanceAs (Decidable (_ ∧ _))

def allowsPlain (c : GwConfig) : Label gatewaySig Task → Bool
  | .start (.listTools srv _) => decide (PlainWorld c.world) && plainName srv.name
  | _ => decide (PlainWorld c.world)

lemma allowsPlain_sound {c : GwConfig} {l : Label gatewaySig Task} (h : allowsPlain c l = true) :
    PlainNames c l := by
  unfold allowsPlain at h
  split at h
  next srv headers =>
    obtain ⟨hworld, hname⟩ := Bool.and_eq_true_iff.1 h
    refine ⟨of_decide_eq_true hworld, fun srv' headers' heq => ?_⟩
    cases heq
    exact hname
  next hother => exact ⟨of_decide_eq_true h, fun srv headers heq => absurd heq (hother srv headers)⟩

/-- The headers of the `tools/list` requests. -/
def listHeaders : Broker.HttpHeader := AList.insert "Mcp-Session-Id" [sessionJWT] ∅

def weatherList : Broker.UserSpecificServer := ⟨"1", "weather", "http://w/mcp", ""⟩

/-- The session lists the tools of a server and calls one. -/
def listedCall (calls : Nat) : List (System.Move Task) :=
  .start .mint :: System.calls 0 3 ++ .start (.listTools weatherList listHeaders) :: System.calls 1 7 ++
    .start (.request (forecastCall [])) :: System.calls 2 calls

/-- A tool call of a session that has listed the tools is forwarded on the session listed with. -/
theorem listedCall_isolated : ∃ (c : GwConfig) (t : GwThread) (req : MCPRequest) (d : Decision),
    demoGateway.system.Reachable PlainNames c ∧ t ∈ c.threads ∧ Answered t.trace (.send req d) () ∧
      d.setHeaders.lookup sessionHeader = some "u1" ∧ StoredFor c t.task.sessionID "weather" "u1" := by
  obtain ⟨c, hreach, hsends⟩ : ∃ c : GwConfig, demoGateway.system.Reachable PlainNames c ∧
      (c.threads[2]?.any fun t => (sends t).any fun s => s.2.error.isNone &&
        decide (s.2.setHeaders.lookup mcpServerNameHeader = some "weather" ∧
          s.2.setHeaders.lookup sessionHeader = some "u1")) = true :=
    ⟨(player {} allowsPlain fun _ _ => allowsPlain_sound).play ⟨weatherWorld, []⟩ (listedCall 6),
      played _ weatherWorld rfl _, by decide +kernel⟩
  obtain ⟨t, req, d, hi, hsent, hp⟩ := sent_of_any (p := fun _ _ d => d.error.isNone &&
    decide (d.setHeaders.lookup mcpServerNameHeader = some "weather" ∧
      d.setHeaders.lookup sessionHeader = some "u1")) hsends
  obtain ⟨herr, hheaders⟩ := Bool.and_eq_true_iff.1 hp
  obtain ⟨hserver, hsession⟩ := of_decide_eq_true hheaders
  have hmem := List.mem_of_getElem? hi
  exact ⟨c, t, req, d, hreach, hmem, hsent, hsession, ((sessions_isolated hreach).forwarded t hmem req d
    "weather" hsent (Option.isNone_iff_eq_none.1 herr) hserver).1 "u1" hsession (by decide)⟩

/-! ## A server with the name of a token's field -/

def elicitingRoute : ServerRoute := { weatherRoute with tokenURLElicitation := some "http://w/token" }

def elicitingTable : Table where
  tools := AList.insert "forecast" elicitingRoute ∅

def elicitingWorld : World := { weatherWorld with table := elicitingTable }

def tokenList : Broker.UserSpecificServer := ⟨"2", "token:weather", "http://t/mcp", ""⟩

def isSubmission : Task → Bool
  | .submitToken _ => true
  | _ => false

/-- The upstream session of the one server is sent to the other as the user's token. -/
theorem tokenName_leaks : ∃ (c : GwConfig) (t : GwThread) (req : MCPRequest) (d : Decision),
    demoGateway.system.Reachable System.Free c ∧ t ∈ c.threads ∧ Answered t.trace (.send req d) () ∧
      d.error = none ∧ d.setHeaders.lookup mcpServerNameHeader = some "weather" ∧
      d.setHeaders.lookup authorizationHeader = some "u2" ∧
      StoredFor c t.task.sessionID "token:weather" "u2" ∧ ¬ Isolated demoGateway c := by
  obtain ⟨c, hreach, hsends, hlists, hnone⟩ : ∃ c : GwConfig,
      demoGateway.system.Reachable System.Free c ∧
      (c.threads[2]?.any fun t => (sends t).any fun s => s.2.error.isNone &&
        decide (t.task.sessionID = sessionJWT ∧ s.2.setHeaders.lookup mcpServerNameHeader = some "weather" ∧
          s.2.setHeaders.lookup authorizationHeader = some "u2")) = true ∧
      (c.threads[3]?.any fun t => t.trace.any fun e =>
        stored e = some (sessionJWT, "token:weather", "u2")) = true ∧
      (c.threads.all fun t => !isSubmission t.task) = true :=
    ⟨(freePlayer {}).play ⟨elicitingWorld, []⟩ (listedCall 0 ++
        .start (.listTools tokenList listHeaders) :: System.calls 3 7 ++ System.calls 2 6),
      played _ elicitingWorld rfl _, by decide +kernel, by decide +kernel, by decide +kernel⟩
  obtain ⟨t, req, d, hi, hsent, hp⟩ := sent_of_any (p := fun t _ d => d.error.isNone &&
    decide (t.task.sessionID = sessionJWT ∧ d.setHeaders.lookup mcpServerNameHeader = some "weather" ∧
      d.setHeaders.lookup authorizationHeader = some "u2")) hsends
  obtain ⟨herr, hheaders⟩ := Bool.and_eq_true_iff.1 hp
  have herr := Option.isNone_iff_eq_none.1 herr
  obtain ⟨hsid, hserver, hauth⟩ := of_decide_eq_true hheaders
  have hmem := List.mem_of_getElem? hi
  obtain ⟨t₁, hi₁, hstored⟩ := (Option.any_eq_true _ _).1 hlists
  obtain ⟨ttl, b, hstored⟩ := answered_of_stored hstored
  refine ⟨c, t, req, d, hreach, hmem, hsent, herr, hserver, hauth, ?_, ?_⟩
  · rw [hsid]
    exact storedFor_of_answered hreach (List.mem_of_getElem? hi₁) hstored
  · intro hisolated
    -- nobody has submitted a token
    obtain ⟨t', ht', ⟨post, htask⟩, -⟩ := (hisolated.forwarded t hmem _ _ "weather" hsent herr hserver).2
      "u2" hauth
    have hother := List.all_eq_true.1 hnone t' ht'
    rw [htask] at hother
    cases hother

end Gateway

end McpGateway
