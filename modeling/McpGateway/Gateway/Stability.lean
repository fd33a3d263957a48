import McpGateway.Gateway.Isolation

/-!
# A binding lasts

Once the cache binds a session and a server to an upstream session, the binding should only end with
the session or with a 404 on that upstream session.  The router keeps to that by itself: a flight for
the key is open while it initializes, and it looks again before it does.  The per-user `tools/list`
stores without looking, and a 404 removes whatever is stored by then.  So a calm run has no per-user list
of the server in the session, and no second 404 on an upstream session: every upstream session that a
request was given is then the bound one or one that a request was told is gone.

- `leads_flight`: the flight that a request leads is the one in the group.
- `cleared_unbound`: between the second look and the store of a leader nothing is bound.
- `Settled`, `settled`: the upstream sessions that the requests of a calm run hold.
- `binding_step`, `binding_stable`: in a calm run a binding stays until it ends.
- `openings_exclusive`: no two requests open an upstream session at the same time.
-/

namespace McpGateway

open Go Effect Routing Session ExtProc Router

namespace Gateway

variable {g : Gateway} {G : GwConfig → Label gatewaySig Task → Prop} {c c' : GwConfig}
  {l : Label gatewaySig Task} {sid S u : String}

/-! ## Flights in the air -/

variable {call : Nat}

lemma flights_keep {w w' : World} {e : GwEv} (h : w.Answers g e.op e.resp w') {key : String} (hf : w.flights.lookup key = some call)
    (hdone : ∀ res, e.op ≠ .flightDone key call res) : w'.flights.lookup key = some call := by
  have hchange := h.change
  cases hchange with
  | @lead key' hnone =>
    have hne : key ≠ key' := by
      rintro rfl
      cases hnone.symm.trans hf
    exact (lookup_insert ..).trans ((if_neg hne).trans hf)
  | land key' call' res =>
    dsimp only
    split_ifs with hlast
    · have hne : key ≠ key' := by
        rintro rfl
        obtain rfl := mem_unique hf hlast
        exact hdone res rfl
      exact (lookup_erase ..).trans ((if_neg hne).trans hf)
    · exact hf
  | _ => exact hf

variable {i : Nat} {t : GwThread}

lemma leads_flight (h : g.system.Reachable G c) {key : String} (hi : c.threads[i]? = some t)
    (hl : (flight t.trace).Leads key call) : c.world.flights.lookup key = some call := by
  induction h generalizing t with
  | init _ => cases hi
  | @step c c' l hc _ hs ih =>
    rcases hs.thread_cases hi with hold | ⟨t₀, o, k, r, rfl, ht₀, hrest, hans, rfl⟩ | ⟨task, -, -, -, rfl⟩
    · have hflight := ih hold hl
      cases l with
      | call j e =>
        obtain ⟨t', hj, ht', hready, hans⟩ := caller hc hs
        refine flights_keep hans hflight fun res hdone => ?_
        -- only the leader itself could end its flight, and it has made no call
        obtain ⟨t₁, k, hj₁, -, -, hnew⟩ := hs.caller rfl
        rw [hdone] at hready
        have hleads := (flightDone_cases hready).1
        obtain ⟨rfl, -⟩ := led_unique hc hold hj (leads_answered hl) (leads_answered hleads)
        obtain rfl := mem_unique hj₁ hold
        have hlen := congrArg (fun t : GwThread => t.trace.length) (mem_unique hi hnew)
        simp at hlen
      | env =>
        cases hs with
        | env hw => cases hw <;> exact hflight
      | start task =>
        cases hs
        exact hflight
    · rw [flight_append] at hl
      rcases Flight.leads_next hl with hjoin | ⟨hbefore, hdone⟩
      · cases hjoin
        obtain ⟨-, rfl, hw⟩ := leader_eq (g := g) hans
        rw [hw]
        exact (lookup_insert ..).trans (if_pos rfl)
      · exact flights_keep (e := ⟨o, r⟩) hans (ih ht₀ hbefore) fun res => hdone _ _ _
    · rcases hl with hl | ⟨m, hl⟩ <;> cases hl

/-! ## Calm runs -/

/-- The session is bound to the upstream session `u` of the server. -/
def Bound (w : World) (sid S u : String) : Prop :=
  w.cache.field sid S = some u

/-- A request of the session was answered 404 on the upstream session `v` of the server. -/
def Gone (t : GwThread) (sid S v : String) : Prop :=
  t.task.sessionID = sid ∧ ∃ req d ans, Answered t.trace (.awaitAnswer req d) ans ∧
    ans.statusCode = "404" ∧ req.serverName = S ∧ req.backendSessionID = v

/-- A step of a calm run: the session does not list the server's tools per user, its requests for the server
are answered 404 only on upstream sessions, no two on the same one, and the session does not end. -/
structure Calm (sid S : String) (c : GwConfig) (l : Label gatewaySig Task) : Prop where
  unlisted : ∀ srv headers, l = .start (.listTools srv headers) →
    (Task.listTools srv headers).sessionID = sid → srv.name ≠ S
  once : ∀ i t req d ans, l = .call i ⟨.awaitAnswer req d, ans⟩ → c.threads[i]? = some t →
    t.task.sessionID = sid → ans.statusCode = "404" → req.serverName = S →
      req.backendSessionID ≠ "" ∧ ∀ t' ∈ c.threads, ¬ Gone t' sid S req.backendSessionID
  lasting : ∀ i r, l ≠ .call i ⟨.deleteSessions [sid], r⟩

/-- A request removes the binding because of a 404 on the upstream session `v`. -/
def Removes (c : GwConfig) (l : Label gatewaySig Task) (sid S v : String) : Prop :=
  ∃ i t r, l = .call i ⟨.removeServerSession sid S, r⟩ ∧ c.threads[i]? = some t ∧ Gone t sid S v

/-- The binding ends with this step: the session is deleted, or a 404 was answered on the upstream
session. -/
def EndsBinding (c : GwConfig) (l : Label gatewaySig Task) (sid S u : String) : Prop :=
  (∃ i r, l = .call i ⟨.deleteSessions [sid], r⟩) ∨ Removes c l sid S u

/-- A request of the session opens an upstream session for the server, or a per-user list does. -/
def OpensSession (c : GwConfig) (l : Label gatewaySig Task) (sid S : String) : Prop :=
  ∃ i t, c.threads[i]? = some t ∧ t.task.sessionID = sid ∧
    ((∃ host conf headers b r, l = .call i ⟨.initForClient host conf headers b, r⟩ ∧ conf.name = S) ∨
      ∃ srv headers url userHeaders r, t.task = .listTools srv headers ∧ srv.name = S ∧
        l = .call i ⟨.connectUser url userHeaders, r⟩)

lemma StoredFor.isToken (h : g.system.Reachable G c) (hst : StoredFor c sid S u) :
    IsToken g.signer sid := by
  obtain ⟨ttl, b, t, ht, -, hadd⟩ := hst
  obtain ⟨tr, -, hready⟩ := ready_of_mem (justified h ht) hadd
  exact (addSession_cases hready).1

lemma Bound.isToken (h : g.system.Reachable G c) (hb : Bound c.world sid S u)
    (hS : plainName S = true) : IsToken g.signer sid :=
  ((fields_origin h hb).storedFor hS).isToken h

lemma ne_tokenField {S' : String} (hS : plainName S = true) : S ≠ userTokenFieldPrefix ++ S' := by
  rintro rfl
  rw [plainName_append] at hS
  cases hS

lemma field_of_quiet (hs : g.system.Step c l c') (hl : ∀ i e, l ≠ .call i e) (sid S : String) :
    c'.world.cache.field sid S = c.world.cache.field sid S := by
  cases hs with
  | call => exact absurd rfl (hl _ _)
  | env hw => cases hw <;> rfl
  | start => rfl

/-- A request that is sent on an upstream session was given it. -/
lemma await_offers {req : MCPRequest} {d : Decision} (h : Ready g t (.awaitAnswer req d))
    (hne : req.backendSessionID ≠ "") :
    Offers t.trace t.task.sessionID req.serverName req.backendSessionID := by
  obtain ⟨_, _, _, _, hserve⟩ := exchange_of_allowed h.allowed rfl
  cases hserve with
  | route _ hroute => exact hroute.elim
  | respond _ _ hrespond => exact hrespond.elim
  | await hlast herr =>
    have hsent : Answered t.trace (.send req d) () := hlast ▸ answered_append _ (.send req d) ()
    obtain ⟨client, mcpReq, tr, htask, hmsg, hpre, hrefused | ⟨table, -, hacc⟩⟩ :=
      sent_cases h.justified hsent
    · exact absurd herr hrefused.1
    · have hoffers := hacc.offers (Server.message_backendSessionID hmsg) hne
      rw [message_sessionID hmsg] at hoffers
      rw [htask]
      exact hoffers.mono hpre

section Calm

variable (h : g.system.Reachable (Calm sid S) c)

include h

lemma unlisted_thread (ht : t ∈ c.threads) {srv : Broker.UserSpecificServer} {headers : Broker.HttpHeader}
    (htask : t.task = .listTools srv headers) (hsid : t.task.sessionID = sid) : srv.name ≠ S := by
  have hall := h.started (P := fun (_ : GwConfig) (task : Task) => ∀ (srv : Broker.UserSpecificServer)
    (headers : Broker.HttpHeader), task = .listTools srv headers → task.sessionID = sid → srv.name ≠ S)
    (fun _ _ hg _ srv headers htask hsid => hg.unlisted srv headers (htask ▸ rfl) (htask ▸ hsid))
    (fun _ _ _ _ _ hp => hp)
  exact hall t ht srv headers htask hsid

/-- Only the leader of the flight fills the field, after it has found it empty. -/
lemma filler {e : GwEv} (hs : g.system.Step c (.call i e) c') (hS : plainName S = true)
    (hfield : c'.world.cache.field sid S ≠ c.world.cache.field sid S) {v : String}
    (hv : c'.world.cache.field sid S = some v) :
    (∃ ttl, e.op = .addSession sid S v ttl) ∧ ∃ t, c.threads[i]? = some t ∧ sid = t.task.sessionID ∧
      ∃ call m, flight t.trace = .cleared (groupKey sid S) call m ∧ m.lookup S = none := by
  obtain ⟨t, hi, ht, hready, hans⟩ := caller h hs
  have hchange := hans.change
  generalize c'.world = w' at hchange hfield hv
  cases hchange with
  | @cache o r cache' hw =>
    rcases hw.field sid S with hsame | hwrite
    · exact absurd hsame hfield
    · dsimp only at hv
      rw [hv] at hwrite
      cases hwrite with
      | setUserToken token ttl hf => exact absurd hf (ne_tokenField hS)
      | addSession u ttl =>
        refine ⟨⟨ttl, rfl⟩, t, hi, ?_⟩
        obtain ⟨-, hsid, ⟨client, -, -, hflight⟩ | ⟨srv, headers, htask, hname⟩⟩ :=
          addSession_cases hready
        · exact ⟨hsid, hflight⟩
        · exact absurd hname.symm (unlisted_thread h ht htask hsid.symm)
  | _ => exact absurd rfl hfield

lemma unfilled_step (hs : g.system.Step c l c') (hi : c.threads[i]? = some t)
    (hl : (flight t.trace).Leads (groupKey sid S) call)
    (hother : ∀ u ttl r, l ≠ .call i ⟨.addSession sid S u ttl, r⟩) (hS : plainName S = true)
    (hnone : c.world.cache.field sid S = none) : c'.world.cache.field sid S = none := by
  by_contra hsome
  obtain ⟨v, hv⟩ := Option.ne_none_iff_exists'.1 hsome
  have hfield : c'.world.cache.field sid S ≠ c.world.cache.field sid S := by
    rw [hnone]
    exact hsome
  cases l with
  | call j e =>
    obtain ⟨⟨ttl, hadd⟩, t', hj, -, call', m, hflight, -⟩ := filler h hs hS hfield hv
    -- two leaders of one key lead one call, so they are one
    have hl' : (flight t'.trace).Leads (groupKey sid S) call' := .inr ⟨m, hflight⟩
    obtain rfl := Option.some.inj ((leads_flight h hi hl).symm.trans (leads_flight h hj hl'))
    obtain ⟨rfl, -⟩ := led_unique h hi hj (leads_answered hl) (leads_answered hl')
    obtain ⟨o, r⟩ := e
    cases hadd
    exact hother _ _ _ rfl
  | env | start task => exact hfield (field_of_quiet hs (fun _ _ => by simp) sid S)

lemma cleared_unbound {m : GoMap String} (hi : c.threads[i]? = some t) (hsid : t.task.sessionID = sid)
    (hf : flight t.trace = .cleared (groupKey sid S) call m) (hm : m.lookup S = none)
    (hS : plainName S = true) : c.world.cache.field sid S = none := by
  induction h generalizing t with
  | init _ => cases hi
  | @step c c' l hc hg hs ih =>
    rcases hs.thread_cases hi with hold | ⟨t₀, o, k, r, rfl, ht₀, hrest, hans, rfl⟩ | ⟨task, -, -, -, rfl⟩
    · refine unfilled_step hc hs hold (.inr ⟨m, hf⟩) (fun u ttl r hl => ?_) hS (ih hold hsid hf)
      -- the thread has made no call
      subst hl
      obtain ⟨t₁, k, hi₁, -, -, hnew⟩ := hs.caller rfl
      obtain rfl := mem_unique hi₁ hold
      have hlen := congrArg (fun t : GwThread => t.trace.length) (mem_unique hi hnew)
      simp at hlen
    · dsimp only at hf hsid
      rw [flight_append] at hf
      rcases Flight.cleared_next hf with ⟨key, hlook, hleading⟩ | ⟨hbefore, hadd⟩
      · -- it has just looked: the cache is as it was
        cases hlook
        obtain ⟨m', hm', hok, hw⟩ := hans
        cases hok
        have hkey := getSession_session (ready hc (mem_of_getElem? ht₀) hrest)
        rw [hkey, hsid] at hm'
        rw [hw, ← Cache.getSession_field hm', hm]
      · refine unfilled_step hc hs ht₀ (.inr ⟨m, hbefore⟩) (fun u ttl r hl => ?_) hS
          (ih ht₀ hsid hbefore)
        cases hl
        exact hadd _ _ _ _ rfl
    · cases hf

/-! ## Bindings -/

/-- A request that was answered 404 and has not removed the binding yet finds its own. -/
def Pending (c : GwConfig) (sid S : String) : Prop :=
  ∀ t ∈ c.threads, ∀ v, Gone t sid S v → Undropped t.trace → Bound c.world sid S v

lemma binding_step (hpending : Pending c sid S) (hg : Calm sid S c l) (hs : g.system.Step c l c')
    (hS : plainName S = true) (hb : Bound c.world sid S u) :
    Bound c'.world sid S u ∨ Removes c l sid S u := by
  by_cases hfield : c'.world.cache.field sid S = c.world.cache.field sid S
  · exact .inl (hfield.trans hb)
  have htoken := hb.isToken h hS
  cases l with
  | env | start task => exact absurd (field_of_quiet hs (fun _ _ => by simp) sid S) hfield
  | call i e =>
    cases hv : c'.world.cache.field sid S with
    | some v =>
      -- a leader that stores had found the field empty
      obtain ⟨-, t, hi, hsid, call, m, hflight, hnone⟩ := filler h hs hS hfield hv
      cases hb.symm.trans (cleared_unbound h hi hsid.symm hflight hnone hS)
    | none =>
      obtain ⟨t, hi, ht, hready, hans⟩ := caller h hs
      have hchange := hans.change
      generalize c'.world = w' at hchange hfield hv
      cases hchange with
      | @cache o r cache' hw =>
        rcases hw.field sid S with hsame | hwrite
        · exact absurd hsame hfield
        · dsimp only at hv
          rw [hv] at hwrite
          cases hwrite with
          | deleteUserToken hf | expireToken hf => exact absurd hf (ne_tokenField hS)
          | removeServerSession =>
            obtain ⟨hsid, req, d, ans, hans, hstatus, hname⟩ := removeServerSession_cases hready
            have hgone : Gone t sid S req.backendSessionID :=
              ⟨hsid.symm, req, d, ans, hans, hstatus, hname.symm, rfl⟩
            have hown := hpending t ht _ hgone (removeServerSession_undropped hready)
            exact .inr ⟨i, t, r, rfl, hi, mem_unique hown hb ▸ hgone⟩
          | entry hwrites ho =>
            rcases ho with ⟨keys, rfl⟩ | ⟨sid', ttl, rfl⟩ | ⟨agent, id, p, rfl⟩ | ⟨agent, id, rfl⟩
            · obtain rfl := deleteSessions_cases hready
              obtain ⟨key, hkey, rfl | hflag⟩ := hwrites
              · rw [mem_singleton.1 hkey] at hg
                exact absurd rfl (hg.lasting i r)
              · exact absurd hflag (htoken.ne_flagKey key)
            · exact absurd hwrites (htoken.ne_flagKey sid')
            · exact absurd hwrites (htoken.ne_taskKey agent id)
            · exact absurd hwrites (htoken.ne_taskKey agent id)
      | _ => exact absurd rfl hfield

omit h

/-! ## The upstream sessions that are held -/

/-- The upstream session is bound, or a request was answered 404 on it. -/
def Held (c : GwConfig) (sid S v : String) : Prop :=
  Bound c.world sid S v ∨ ∃ t ∈ c.threads, Gone t sid S v

/-- The result of a flight for the session and the server is held. -/
def FlightHeld (g : Gateway) (sid S : String) (c : GwConfig) (call : Nat) (v : String) : Prop :=
  ∃ sid' S', IsToken g.signer sid' ∧ Led c (groupKey sid' S') call ∧ (sid' = sid → S' = S → Held c sid S v)

/-- The upstream sessions that requests of the session have been given for the server are held, those a
flight will hand out are, and at most one request was answered 404 on each. -/
structure Settled (g : Gateway) (sid S : String) (c : GwConfig) : Prop where
  obtained : ∀ t ∈ c.threads, t.task.sessionID = sid → ∀ v, Obtained t.trace sid S v → Held c sid S v
  waited : ∀ t ∈ c.threads, ∀ call v, Answered t.trace (.flightWait call) (.ok v) →
    FlightHeld g sid S c call v
  results : ∀ call v, (call, .ok v) ∈ c.world.results → FlightHeld g sid S c call v
  pending : Pending c sid S
  single : ∀ (i j : Nat) t t' v, c.threads[i]? = some t → c.threads[j]? = some t' → Gone t sid S v →
    Gone t' sid S v → i = j

lemma Gone.cases {j : Nat} {t' : GwThread} {v : String} (hs : g.system.Step c l c')
    (hj : c'.threads[j]? = some t') (hgone : Gone t' sid S v) : ∃ t, c.threads[j]? = some t ∧
      (Gone t sid S v ∨ t.task.sessionID = sid ∧ ∃ req d ans, l = .call j ⟨.awaitAnswer req d, ans⟩ ∧
        ans.statusCode = "404" ∧ req.serverName = S ∧ req.backendSessionID = v) := by
  obtain ⟨hsid, req, d, ans, hans, hrest⟩ := hgone
  obtain ⟨t, hi, htask, hbefore | hnow⟩ := hs.mem_trace hj hans
  · exact ⟨t, hi, .inl ⟨htask ▸ hsid, req, d, ans, hbefore, hrest⟩⟩
  · exact ⟨t, hi, .inr ⟨htask ▸ hsid, req, d, ans, hnow, hrest⟩⟩

lemma gone_step {v : String} (hs : g.system.Step c l c') (hgone : ∃ t ∈ c.threads, Gone t sid S v) :
    ∃ t ∈ c'.threads, Gone t sid S v := by
  obtain ⟨t, ht, hsid, req, d, ans, hans, hrest⟩ := hgone
  obtain ⟨j, hj⟩ := mem_iff_getElem?.1 ht
  obtain ⟨t', hj', htask, hpre⟩ := hs.thread_mono hj
  exact ⟨t', mem_of_getElem? hj', htask ▸ hsid, req, d, ans, hans.mono hpre, hrest⟩

section Step

variable (hc : g.system.Reachable (Calm sid S) c) (hset : Settled g sid S c) (hg : Calm sid S c l)
  (hs : g.system.Step c l c') (hS : plainName S = true)

include hc hset hg hs hS

lemma Held.step {v : String} (hheld : Held c sid S v) : Held c' sid S v := by
  rcases hheld with hb | hgone
  · rcases binding_step hc hset.pending hg hs hS hb with hb' | ⟨i, t, r, -, hi, hgone⟩
    · exact .inl hb'
    · exact .inr (gone_step hs ⟨t, mem_of_getElem? hi, hgone⟩)
  · exact .inr (gone_step hs hgone)

lemma FlightHeld.step {v : String} (hheld : FlightHeld g sid S c call v) : FlightHeld g sid S c' call v := by
  obtain ⟨sid', S', htoken, hled, hown⟩ := hheld
  exact ⟨sid', S', htoken, hled.step hs, fun hsid hname =>
    Held.step hc hset hg hs hS (hown hsid hname)⟩

lemma obtained_step {t' : GwThread} (ht' : t' ∈ c'.threads) (hsid : t'.task.sessionID = sid) {v : String}
    (ho : Obtained t'.trace sid S v) : Held c' sid S v := by
  obtain ⟨j, hj⟩ := mem_iff_getElem?.1 ht'
  rcases ho with ⟨m, hread, hu⟩ | ⟨ttl, b, hadd⟩
  · obtain ⟨t, hi, htask, hbefore | rfl⟩ := hs.mem_trace hj hread
    · exact Held.step hc hset hg hs hS
        (hset.obtained t (mem_of_getElem? hi) (htask ▸ hsid) v (.inl ⟨m, hbefore, hu⟩))
    · obtain ⟨-, -, -, -, m', hm', hans, -⟩ := caller hc hs
      cases hans
      rw [Cache.getSession_field hm'] at hu
      exact Held.step hc hset hg hs hS (.inl hu)
  · obtain ⟨t, hi, htask, hbefore | rfl⟩ := hs.mem_trace hj hadd
    · exact Held.step hc hset hg hs hS
        (hset.obtained t (mem_of_getElem? hi) (htask ▸ hsid) v (.inr ⟨ttl, b, hbefore⟩))
    · obtain ⟨-, -, -, -, cache', hcache, -, hw⟩ := caller hc hs
      refine .inl ?_
      rw [Bound, hw, Cache.field_setField hcache]
      exact if_pos ⟨rfl, rfl⟩

lemma waited_step {t' : GwThread} (ht' : t' ∈ c'.threads) {v : String}
    (hwait : Answered t'.trace (.flightWait call) (.ok v)) : FlightHeld g sid S c' call v := by
  obtain ⟨j, hj⟩ := mem_iff_getElem?.1 ht'
  obtain ⟨t, hi, -, hbefore | rfl⟩ := hs.mem_trace hj hwait
  · exact FlightHeld.step hc hset hg hs hS (hset.waited t (mem_of_getElem? hi) call v hbefore)
  · obtain ⟨-, -, -, -, hans⟩ := caller hc hs
    exact FlightHeld.step hc hset hg hs hS (hset.results call v hans.1)

lemma results_step {v : String} (hr : (call, .ok v) ∈ c'.world.results) : FlightHeld g sid S c' call v := by
  have hold (hr : (call, .ok v) ∈ c.world.results) : FlightHeld g sid S c' call v :=
    FlightHeld.step hc hset hg hs hS (hset.results call v hr)
  cases l with
  | env =>
    cases hs with
    | env hw => cases hw <;> exact hold hr
  | start task =>
    cases hs
    exact hold hr
  | call i e =>
    obtain ⟨t, hi, ht, hready, hans⟩ := caller hc hs
    have hchange := hans.change
    generalize c'.world = w' at hchange hr
    cases hchange with
    | land key call' res =>
      rcases mem_cons.1 hr with hnew | hbefore
      · cases hnew
        obtain ⟨hleads, S', rfl, hobtained⟩ := flightDone_cases hready
        refine FlightHeld.step hc hset hg hs hS ⟨_, S', leads_token hready.justified hleads,
          ⟨t, ht, trivial, leads_answered hleads⟩, ?_⟩
        rintro hsid rfl
        exact hset.obtained t ht hsid v (hsid ▸ hobtained v rfl)
      · exact hold hbefore
    | _ => exact hold hr

omit hg hs hS in
/-- What a request was given is held, also by way of a flight that it has joined. -/
lemma offers_held (ht : t ∈ c.threads) (hsid : t.task.sessionID = sid) {v : String}
    (ho : Offers t.trace sid S v) : Held c sid S v := by
  rcases ho with hobtained | ⟨call, hjoin, hwait⟩
  · exact hset.obtained t ht hsid v hobtained
  · obtain ⟨sid', S', htoken, hled, hown⟩ := hset.waited t ht call v hwait
    obtain ⟨tr, -, hready⟩ := ready_of_mem (justified hc ht) hjoin
    have htoken' : IsToken g.signer sid := hsid ▸ (flightJoin_cases hready).2.1
    obtain ⟨rfl, rfl⟩ := groupKey_inj htoken' htoken ((follower_led hc ht hjoin).key_unique hc hled)
    exact hown rfl rfl

lemma pending_step : Pending c' sid S := by
  intro t' ht' v hgone hundropped
  obtain ⟨j, hj⟩ := mem_iff_getElem?.1 ht'
  obtain ⟨t, hi, hbefore | ⟨hsid, req, d, ans, rfl, hstatus, hname, rfl⟩⟩ := hgone.cases hs hj
  · -- it was pending before, and the binding can only have been removed by itself
    obtain ⟨t₁, hj₁, -, hpre⟩ := hs.thread_mono hi
    obtain rfl := mem_unique hj₁ hj
    have hb := hset.pending t (mem_of_getElem? hi) v hbefore fun key S' r hd =>
      hundropped key S' r (hd.mono hpre)
    rcases binding_step hc hset.pending hg hs hS hb with hb' | ⟨i, t₂, r, rfl, hi₂, hgone₂⟩
    · exact hb'
    · obtain rfl := hset.single i j t₂ t v hi₂ hi hgone₂ hbefore
      obtain ⟨t₃, k, -, -, -, hnew⟩ := hs.caller rfl
      obtain rfl := mem_unique hnew hj
      exact absurd (answered_append _ _ _) (hundropped sid S r)
  · -- it is told now; nobody was told before, so what it was sent on is bound
    obtain ⟨t₁, hi₁, ht, hready, -⟩ := caller hc hs
    obtain rfl := mem_unique hi₁ hi
    obtain ⟨hne, hfirst⟩ := hg.once j t₁ req d ans rfl hi hsid hstatus hname
    have hoffers := await_offers hready hne
    rw [hname, hsid] at hoffers
    rcases offers_held hc hset ht hsid hoffers with hb | ⟨t₂, ht₂, hgone₂⟩
    · rcases binding_step hc hset.pending hg hs hS hb with hb' | ⟨i, t₂, r, hl, -⟩
      · exact hb'
      · cases hl
    · exact absurd hgone₂ (hfirst t₂ ht₂)

omit hc hS in
lemma single_step {i j : Nat} {t' t₂ : GwThread} {v : String} (hi : c'.threads[i]? = some t')
    (hj : c'.threads[j]? = some t₂) (hgone : Gone t' sid S v) (hgone₂ : Gone t₂ sid S v) : i = j := by
  obtain ⟨t, ht, hbefore | ⟨hsid, req, d, ans, rfl, hstatus, hname, rfl⟩⟩ := hgone.cases hs hi
  · obtain ⟨t₃, ht₃, hbefore₃ | ⟨hsid, req, d, ans, rfl, hstatus, hname, rfl⟩⟩ := hgone₂.cases hs hj
    · exact hset.single i j t t₃ v ht ht₃ hbefore hbefore₃
    · exact absurd hbefore ((hg.once j t₃ req d ans rfl ht₃ hsid hstatus hname).2 t (mem_of_getElem? ht))
  · obtain ⟨t₃, ht₃, hbefore₃ | ⟨-, _, _, _, hl, -⟩⟩ := hgone₂.cases hs hj
    · exact absurd hbefore₃ ((hg.once i t req d ans rfl ht hsid hstatus hname).2 t₃ (mem_of_getElem? ht₃))
    · cases hl
      rfl

end Step

lemma settled (h : g.system.Reachable (Calm sid S) c) (hS : plainName S = true) :
    Settled g sid S c := by
  induction h with
  | init hw =>
    refine ⟨fun t ht => absurd ht not_mem_nil, fun t ht => absurd ht not_mem_nil, ?_,
      fun t ht => absurd ht not_mem_nil, fun i j t t' v hi => by cases hi⟩
    intro call v hr
    rw [hw] at hr
    cases hr
  | step hc hg hs ih =>
    exact ⟨fun t ht hsid v ho => obtained_step hc ih hg hs hS ht hsid ho,
      fun t ht call v hwait => waited_step hc ih hg hs hS ht hwait,
      fun call v hr => results_step hc ih hg hs hS hr, pending_step hc ih hg hs hS,
      fun i j t t' v hi hj hgone hgone' => single_step ih hg hs hi hj hgone hgone'⟩

lemma not_opensSession (h : g.system.Reachable (Calm sid S) c) (hs : g.system.Step c l c')
    (hS : plainName S = true) (hb : Bound c.world sid S u) : ¬ OpensSession c l sid S := by
  rintro ⟨i, t, hi, hsid, ⟨host, conf, headers, b, r, rfl, rfl⟩ | ⟨srv, headers, _, _, r, htask, rfl, rfl⟩⟩
  · obtain ⟨t', hi', -, hready, -⟩ := caller h hs
    obtain rfl := mem_unique hi' hi
    obtain ⟨⟨call, m, hflight, hnone⟩, -⟩ := initForClient_cases hready
    rw [hsid] at hflight
    cases hb.symm.trans (cleared_unbound h hi hsid hflight hnone hS)
  · exact unlisted_thread h (mem_of_getElem? hi) htask hsid rfl

end Calm

/-- In a calm run a binding stays until the session is deleted or a 404 is answered on it, and no other
upstream session is opened meanwhile. -/
theorem binding_stable (h : g.system.Reachable (Calm sid S) c) (hS : plainName S = true)
    (hb : Bound c.world sid S u)
    (hrun : g.system.Leads (fun c l => Calm sid S c l ∧ ¬ EndsBinding c l sid S u) c c') :
    Bound c'.world sid S u ∧ ∀ l c'', g.system.Step c' l c'' → ¬ OpensSession c' l sid S := by
  suffices hall : g.system.Reachable (Calm sid S) c' ∧ Bound c'.world sid S u from
    ⟨hall.2, fun l c'' hs => not_opensSession hall.1 hs hS hall.2⟩
  refine hrun.invariant (I := fun c => g.system.Reachable (Calm sid S) c ∧ Bound c.world sid S u)
    ⟨h, hb⟩ ?_
  rintro c l c' ⟨hreach, hbound⟩ ⟨hg, hnot⟩ hs
  refine ⟨.step hreach hg hs, ?_⟩
  exact (binding_step hreach (settled hreach hS).pending hg hs hS hbound).resolve_right
    fun hremoves => hnot (.inr hremoves)

/-! ## Tool calls and a listing -/

/-- Steps after which nothing is gone: no 404, no end of a session, no list of weather. -/
def allowsCalm : Label gatewaySig Task → Bool
  | .start (.listTools srv _) => srv.name ≠ "weather"
  | .call _ ⟨.awaitAnswer _ _, ans⟩ => ans.statusCode ≠ "404"
  | .call _ ⟨.deleteSessions _, _⟩ | .call _ ⟨.removeServerSession .., _⟩ => false
  | _ => true

lemma allowsCalm_sound {u : String} (h : allowsCalm l = true) :
    Calm sessionJWT "weather" c l ∧ ¬ EndsBinding c l sessionJWT "weather" u := by
  refine ⟨⟨?_, ?_, ?_⟩, ?_⟩
  · rintro srv headers rfl -
    exact of_decide_eq_true h
  · rintro i t req d ans rfl - - hstatus -
    exact absurd hstatus (of_decide_eq_true h)
  · rintro i r rfl
    cases h
  · rintro (⟨i, r, rfl⟩ | ⟨i, t, r, rfl, -⟩) <;> cases h

def mailList : Broker.UserSpecificServer := ⟨"2", "mail", "http://m/mcp", ""⟩

/-- The second tool call of the session is sent on the upstream session of the first, and a list of another
server's tools binds that server. -/
theorem binding_stable_secondCall : ∃ c c' : GwConfig,
    demoGateway.system.Reachable (Calm sessionJWT "weather") c ∧ Bound c.world sessionJWT "weather" "u1" ∧
      ((c'.threads[2]?.any fun t => (sends t).any fun p => p.1.backendSessionID = "u1") = true ∧
        Bound c'.world sessionJWT "mail" "u2") ∧
      Bound c'.world sessionJWT "weather" "u1" ∧
      ∀ l c'', demoGateway.system.Step c' l c'' → ¬ OpensSession c' l sessionJWT "weather" := by
  let P : System.Player demoGateway.system fun c l =>
      Calm sessionJWT "weather" c l ∧ ¬ EndsBinding c l sessionJWT "weather" "u1" :=
    player {} (fun _ => allowsCalm) fun _ _ => allowsCalm_sound
  let second : List (System.Move Task) := .start (.request (forecastCall [])) ::
    .start (.listTools mailList listHeaders) :: System.calls 2 12 ++ System.calls 3 7
  obtain ⟨c, hreach, hbound, hsent, hmail⟩ : ∃ c,
      demoGateway.system.Reachable (Calm sessionJWT "weather") c ∧ Bound c.world sessionJWT "weather" "u1" ∧
      ((P.play c second).threads[2]?.any fun t => (sends t).any fun p =>
        p.1.backendSessionID = "u1") = true ∧ Bound (P.play c second).world sessionJWT "mail" "u2" :=
    ⟨P.play ⟨weatherWorld, []⟩ firstCall, (played P weatherWorld rfl _).mono fun _ _ h => h.1, by
      unfold Bound
      decide +kernel, by decide +kernel, by
      unfold Bound
      decide +kernel⟩
  exact ⟨c, _, hreach, hbound, ⟨hsent, hmail⟩,
    binding_stable hreach (by decide) hbound (P.leads_play .refl second)⟩

/-- A `tools/list` of the session puts its own upstream session in the place of the one that the first
tool call has opened. -/
theorem listing_rebinds : ∃ (c c' : GwConfig) (l : Label gatewaySig Task),
    demoGateway.system.Reachable System.Free c ∧ demoGateway.system.Step c l c' ∧
      Bound c.world sessionJWT "weather" "u1" ∧ ¬ EndsBinding c l sessionJWT "weather" "u1" ∧
      Bound c'.world sessionJWT "weather" "u2" := by
  obtain ⟨c, hreach, hnext, hbound, hrebound⟩ : ∃ c : GwConfig,
      demoGateway.system.Reachable System.Free c ∧
      (((freePlayer {}).next c 2).any fun e => stored e = some (sessionJWT, "weather", "u2")) = true ∧
      c.world.cache.field sessionJWT "weather" = some "u1" ∧
      ((freePlayer {}).call c 2).world.cache.field sessionJWT "weather" = some "u2" :=
    ⟨(freePlayer {}).play ⟨weatherWorld, []⟩
        (firstCall ++ .start (.listTools weatherList listHeaders) :: System.calls 2 6),
      played _ weatherWorld rfl _, by decide +kernel, by decide +kernel, by decide +kernel⟩
  obtain ⟨e, he, hstored⟩ := (Option.any_eq_true _ _).1 hnext
  refine ⟨c, _, .call 2 e, hreach, ((freePlayer {}).step_of_next he).2, hbound, ?_, hrebound⟩
  rintro (⟨i, r, hl⟩ | ⟨i, t, r, hl, -⟩) <;>
  · cases hl
    cases hstored

/-! ## One opening at a time -/

/-- The session and the server for which a request is about to open an upstream session, or to store
the one it has opened. -/
def opens (t : GwThread) : Option (String × String) :=
  match t.task, t.rest with
  | .request _, .vis (.initForClient _ conf _ _) _ => some (t.task.sessionID, conf.name)
  | .request _, .vis (.addSession sid S _ _) _ => some (sid, S)
  | _, _ => none

lemma leads_of_opens (h : g.system.Reachable G c) (hi : c.threads[i]? = some t)
    (ho : opens t = some (sid, S)) : ∃ call, (flight t.trace).Leads (groupKey sid S) call := by
  have ht := mem_of_getElem? hi
  unfold opens at ho
  split at ho
  next client host conf headers b k htask hrest =>
    cases ho
    obtain ⟨⟨call, m, hflight, -⟩, -⟩ := initForClient_cases (ready h ht hrest)
    exact ⟨call, .inr ⟨m, hflight⟩⟩
  next client sid S u ttl k htask hrest =>
    cases ho
    obtain ⟨-, -, ⟨-, -, -, call, m, hflight, -⟩ | ⟨srv, headers, hlist, -⟩⟩ :=
      addSession_cases (ready h ht hrest)
    · exact ⟨call, .inr ⟨m, hflight⟩⟩
    · -- a `tools/list` also stores, but it is no request
      cases htask.symm.trans hlist
  next => cases ho

/-- No two requests open an upstream session for a session and a server at the same time. -/
theorem openings_exclusive (h : g.system.Reachable G c) {j : Nat} {t' : GwThread}
    (hi : c.threads[i]? = some t) (hj : c.threads[j]? = some t') (ho : opens t = some (sid, S))
    (ho' : opens t' = some (sid, S)) : i = j := by
  obtain ⟨call, hl⟩ := leads_of_opens h hi ho
  obtain ⟨call', hl'⟩ := leads_of_opens h hj ho'
  obtain rfl := mem_unique (leads_flight h hi hl) (leads_flight h hj hl')
  exact (led_unique h hi hj (leads_answered hl) (leads_answered hl')).1

/-- While a request stores the upstream session that it has opened, another one waits for it. -/
theorem openings_exclusive_waiting : ∃ c t, demoGateway.system.Reachable System.Free c ∧
    c.threads[1]? = some t ∧ opens t = some (sessionJWT, "weather") ∧
    ∀ t', c.threads[2]? = some t' → opens t' ≠ some (sessionJWT, "weather") := by
  obtain ⟨c, hreach, hopens⟩ : ∃ c : GwConfig, demoGateway.system.Reachable System.Free c ∧
      c.threads[1]?.bind opens = some (sessionJWT, "weather") :=
    ⟨(freePlayer {}).play ⟨weatherWorld, []⟩
        (firstCall.take 19 ++ .start (.request (forecastCall [])) :: System.calls 2 6),
      played _ weatherWorld rfl _, by decide +kernel⟩
  obtain ⟨t, hi, ho⟩ := bind_eq_some_iff.1 hopens
  refine ⟨c, t, hreach, hi, ho, fun t' hj ho' => ?_⟩
  cases openings_exclusive hreach hi hj ho ho'

end Gateway

end McpGateway
