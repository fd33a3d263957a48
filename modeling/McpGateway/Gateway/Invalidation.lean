import McpGateway.Broker.Elicitation
import McpGateway.Gateway.Stability

/-!
# Late answers

A 404 drops the upstream session that the cache holds for the request's session and server, and a 401
the user's token, whatever they are by the time the answer is handled.  Neither the session nor the token
that the request was forwarded with is compared.
-/

namespace McpGateway

open Go Effect Routing Session ExtProc

inductive Credential where
  | session
  | token
  deriving DecidableEq, Repr

namespace Credential

def status : Credential → String
  | .session => "404"
  | .token => "401"

def header : Credential → String
  | .session => sessionHeader
  | .token => authorizationHeader

def field (S : String) : Credential → String
  | .session => S
  | .token => userTokenFieldPrefix ++ S

def drop (sid S : String) : Credential → Op
  | .session => .removeServerSession sid S
  | .token => .deleteUserToken sid S

def stored (w : World) (sid S : String) (k : Credential) : Option String :=
  w.cache.field sid (k.field S)

variable (k : Credential)

/-- The request was forwarded to an upstream server, and its answer may still drop the credential. -/
structure Outstanding (t : GwThread) (req : MCPRequest) (d : Decision) : Prop where
  sent : Answered t.trace (.send req d) ()
  named : req.serverName ≠ ""
  upstream : d.bodyMutation.isSome = true
  running : t.rest ≠ .ret ()
  answer : ∀ ans, Answered t.trace (.awaitAnswer req d) ans → ans.statusCode = k.status

/-- The request was forwarded to the server itself, and its answer drops the credential. -/
structure Failed (t : GwThread) (S : String) (req : MCPRequest) (d : Decision) : Prop where
  sent : Answered t.trace (.send req d) ()
  server : ∃ route path headers body, route.name = S ∧ d = upstreamDecision route path headers body
  bound : req.getSessionID = t.task.sessionID ∧ req.serverName = S
  answer : ∃ ans, Answered t.trace (.awaitAnswer req d) ans ∧ ans.statusCode = k.status

end Credential

namespace Gateway

/-- A step that does not disturb a request on its way.  A request is forwarded with what the cache still
holds; while its answer can drop that, nothing else is stored in its place; and what is sent to the
broker's elicitation handler is answered by it. -/
structure Undisturbed (c : GwConfig) (l : Label gatewaySig Task) : Prop where
  forward : ∀ (k : Credential) i req d v, l = .call i ⟨.send req d, ()⟩ → req.serverName ≠ "" →
    d.bodyMutation.isSome = true → d.setHeaders.lookup k.header = some v →
      k.stored c.world req.getSessionID req.serverName = none ∨
        k.stored c.world req.getSessionID req.serverName = some v
  store : ∀ (k : Credential) i e t req d v, l = .call i e → t ∈ c.threads → k.Outstanding t req d →
    World.FieldWrite req.getSessionID (k.field req.serverName) e.op (some v) →
      d.setHeaders.lookup k.header = some v
  broker : ∀ i req base requestID elicitationID ans,
    l = .call i ⟨.awaitAnswer req (elicitDecision base requestID elicitationID), ans⟩ →
      ∃ (h : Broker.ElicitationHandler) (r : Broker.ElicitationRequest),
        ans.statusCode = itoa (h.serveHTTP r).status

/-- A step of an undisturbed run. -/
def UndisturbedStep (g : Gateway) (c c' : GwConfig) : Prop :=
  ∃ l, Undisturbed c l ∧ g.system.Step c l c'

variable {g : Gateway} {c c' c₀ : GwConfig} {l : Label gatewaySig Task} {k : Credential} {i : Nat}
  {t t' : GwThread} {sid S : String} {req : MCPRequest} {d : Decision}

/-! ## While a request is outstanding -/

lemma outstanding_of_step (hs : g.system.Step c l c') (hi : c.threads[i]? = some t)
    (hi' : c'.threads[i]? = some t') (hsent : Answered t.trace (.send req d) ())
    (hout : k.Outstanding t' req d) : k.Outstanding t req d := by
  rcases hs.thread_cases hi' with hold | ⟨t₀, o, p, r, -, ht₀, hrest, -, rfl⟩ | ⟨task, -, -, -, rfl⟩
  · obtain rfl := mem_unique hold hi
    exact hout
  · obtain rfl := mem_unique ht₀ hi
    refine ⟨hsent, hout.named, hout.upstream, ?_, ?_⟩
    · rw [hrest]
      intro hret
      cases hret
    · intro ans hans
      exact hout.answer ans (hans.mono (prefix_append _ _))
  · have hnew := hout.sent
    simp [Answered] at hnew

variable {v : String}

lemma stored_step (hg : Undisturbed c l) (hs : g.system.Step c l c') (ht : t ∈ c.threads)
    (hout : k.Outstanding t req d)
    (hv : k.stored c'.world req.getSessionID req.serverName = some v) :
    k.stored c.world req.getSessionID req.serverName = some v ∨
      d.setHeaders.lookup k.header = some v := by
  cases l with
  | call j e =>
    obtain ⟨t₀, p, -, -, hans, -⟩ := hs.caller rfl
    have hfield := World.Answers.field (g := g) hans req.getSessionID (k.field req.serverName)
    rcases hfield with hsame | hwrite
    · left
      exact hsame.symm.trans hv
    · right
      have hstores : World.FieldWrite req.getSessionID (k.field req.serverName) e.op (some v) := by
        rw [← hv]
        exact hwrite
      exact hg.store k j e t req d v rfl ht hout hstores
  | env | start task =>
    left
    exact (field_of_quiet hs (fun _ _ => by simp) _ _).symm.trans hv

lemma kept (h : g.system.Reachable Undisturbed c) (hi : c.threads[i]? = some t)
    (hout : k.Outstanding t req d) (hv : d.setHeaders.lookup k.header = some v) :
    k.stored c.world req.getSessionID req.serverName = none ∨
      k.stored c.world req.getSessionID req.serverName = some v := by
  induction h generalizing t with
  | init _ => cases hi
  | @step c c' l hc hg hs ih =>
    obtain ⟨t₀, hi₀, -, hsent⟩ := hs.mem_trace hi hout.sent
    rcases hsent with hbefore | hnow
    · -- it was outstanding before the step
      have hout₀ := outstanding_of_step hs hi₀ hi hbefore hout
      cases hstored : k.stored c'.world req.getSessionID req.serverName with
      | none => exact .inl rfl
      | some v' =>
        right
        rcases stored_step hg hs (mem_of_getElem? hi₀) hout₀ hstored with hold | hsame
        · rcases ih hi₀ hout₀ with hnone | hkept
          · cases hnone.symm.trans hold
          · exact hold.symm.trans hkept
        · exact hsame.symm.trans hv
    · -- the step sends it, and changes nothing else
      have hforward := hg.forward k i req d v hnow hout.named hout.upstream hv
      subst hnow
      obtain ⟨-, -, -, -, hans, -⟩ := hs.caller rfl
      have hworld : c'.world = c.world := hans
      rw [hworld]
      exact hforward

lemma stored_since (hrun : Relation.ReflTransGen (UndisturbedStep g) c₀ c) {t₀ : GwThread}
    (hi₀ : c₀.threads[i]? = some t₀) (hsent : Answered t₀.trace (.send req d) ())
    (hi : c.threads[i]? = some t) (hout : k.Outstanding t req d)
    (hv : k.stored c.world req.getSessionID req.serverName = some v) :
    k.stored c₀.world req.getSessionID req.serverName = some v ∨ d.setHeaders.lookup k.header = some v := by
  suffices hall : k.Outstanding t₀ req d ∧ (k.stored c₀.world req.getSessionID req.serverName = some v ∨
        d.setHeaders.lookup k.header = some v) from hall.2
  -- from the end of the run back to its start, along which the request stays outstanding
  induction hrun using Relation.ReflTransGen.head_induction_on generalizing t₀ with
  | refl =>
    obtain rfl := mem_unique hi₀ hi
    exact ⟨hout, .inl hv⟩
  | head hstep _ ih =>
    obtain ⟨l, hg, hs⟩ := hstep
    obtain ⟨t₁, hi₁, -, hpre⟩ := hs.thread_mono hi₀
    obtain ⟨hout₁, hbefore⟩ := ih hi₁ (hsent.mono hpre)
    have hout₀ := outstanding_of_step hs hi₀ hi₁ hsent hout₁
    refine ⟨hout₀, ?_⟩
    rcases hbefore with hstored | hcarried
    · exact stored_step hg hs (mem_of_getElem? hi₀) hout₀ hstored
    · exact .inr hcarried

/-! ## What is dropped -/

lemma drop_cases (h : Ready g t (k.drop sid S)) : sid = t.task.sessionID ∧ ∃ req d ans,
    Answered t.trace (.awaitAnswer req d) ans ∧ ans.statusCode = k.status ∧ S = req.serverName := by
  cases k with
  | session => exact removeServerSession_cases h
  | token => exact deleteUserToken_cases h

lemma serveHTTP_keeps (k : Credential) (h : Broker.ElicitationHandler)
    (r : Broker.ElicitationRequest) : itoa (h.serveHTTP r).status ≠ k.status := by
  have hall : ∀ k ∈ [Credential.session, .token], ∀ s ∈ [200, 400, 405, 500], itoa s ≠ k.status := by
    decide
  refine hall k ?_ _ (h.serveHTTP_status r)
  cases k <;> decide

lemma elicited_status (h : g.system.Reachable Undisturbed c) (ht : t ∈ c.threads)
    {base : GoMap String} {requestID elicitationID : String} {ans : Answer}
    (hans : Answered t.trace (.awaitAnswer req (elicitDecision base requestID elicitationID)) ans) :
    ans.statusCode ≠ k.status := by
  refine h.answered ht hans (fun _ _ _ _ ih => ih) fun c i c' _ hg _ => ?_
  obtain ⟨handler, r, hstatus⟩ := hg.broker i req base requestID elicitationID ans rfl
  rw [hstatus]
  exact serveHTTP_keeps k handler r

lemma failed_of_drop (hready : Ready g t (k.drop sid S)) (hS : S ≠ "")
    (helicit : ∀ req base requestID elicitationID ans, Answered t.trace
      (.awaitAnswer req (elicitDecision base requestID elicitationID)) ans → ans.statusCode ≠ k.status) :
    t.task.sessionID = sid ∧ ∃ req d, k.Failed t S req d ∧
      (k = .session → ∃ u, d.setHeaders.lookup k.header = some u) := by
  obtain ⟨hsid, req, d, ans, hans, hstatus, hname⟩ := drop_cases hready
  obtain ⟨hsent, client, mcpReq, table, tr, htask, hmsg, hown, -, hacc⟩ :=
    answered_cases hready.justified hans
  have hunnamed : mcpReq.serverName = "" := Server.message_serverName hmsg
  have hbound : req.getSessionID = t.task.sessionID := by
    rw [hown, htask]
    rfl
  refine ⟨hsid.symm, req, d, ?_⟩
  cases hacc
  case tool hreq | prompt hreq =>
    have hserver := hreq.2.1.symm.trans hname.symm
    refine ⟨⟨hsent, ⟨_, _, _, _, hserver, rfl⟩, ⟨hbound, hname.symm⟩, ans, hans, hstatus⟩, ?_⟩
    rintro rfl
    exact ⟨_, by simp +decide [Credential.header, upstreamDecision, lookup_upstreamHeaders]; rfl⟩
  case elicit => exact absurd hstatus (helicit _ _ _ _ _ hans)
  case reply hreq => exact absurd (hname.trans (hreq.2.2.trans hunnamed)) hS
  case hairpin | broker => exact absurd (hname.trans hunnamed) hS

lemma outstanding_of_failed (hf : k.Failed t S req d) (hS : S ≠ "")
    (hjust : System.Justified (t.task.Protocol g) t.trace) (hrest : t.rest ≠ .ret ()) :
    k.Outstanding t req d := by
  obtain ⟨route, path, headers, body, -, hd⟩ := hf.server
  obtain ⟨ans, hans, hstatus⟩ := hf.answer
  refine ⟨hf.sent, ?_, ?_, hrest, ?_⟩
  · rw [hf.bound.2]
    exact hS
  · rw [hd]
    rfl
  · intro ans' hans'
    rw [answer_unique hjust hans' hans]
    exact hstatus

lemma drop_frame {r : (k.drop sid S).Resp} (hs : g.system.Step c (.call i ⟨k.drop sid S, r⟩) c')
    {sid' f : String} (hne : (sid', f) ≠ (sid, k.field S)) :
    c'.world.cache.field sid' f = c.world.cache.field sid' f := by
  obtain ⟨-, -, -, -, hans, -⟩ := hs.caller rfl
  rcases World.Answers.field (g := g) hans sid' f with hsame | hwrite
  · exact hsame
  · refine absurd ?_ hne
    cases k with
    | session =>
      generalize c'.world.cache.field sid' f = v at hwrite
      cases hwrite with
      | removeServerSession => rfl
      | entry _ ho => rcases ho with ⟨_, ho⟩ | ⟨_, _, ho⟩ | ⟨_, _, _, ho⟩ | ⟨_, _, ho⟩ <;> cases ho
    | token =>
      generalize c'.world.cache.field sid' f = v at hwrite
      cases hwrite with
      | deleteUserToken hf => rw [hf]; rfl
      | entry _ ho => rcases ho with ⟨_, ho⟩ | ⟨_, _, ho⟩ | ⟨_, _, _, ho⟩ | ⟨_, _, ho⟩ <;> cases ho

/-- In an undisturbed run a credential of a named server is dropped only for the answer of the server
itself to a request that was forwarded to it.  If the request carried one, that is what the cache holds,
or nothing; in any case what it holds was there when the request was forwarded, or is what the request
carried.  Everything else stays. -/
theorem invalidation_precise (h : g.system.Reachable Undisturbed c) {r : (k.drop sid S).Resp}
    (hs : g.system.Step c (.call i ⟨k.drop sid S, r⟩) c') (hS : S ≠ "") :
    ∃ t req d, c.threads[i]? = some t ∧ t.task.sessionID = sid ∧ k.Failed t S req d ∧
      (k = .session → ∃ u, d.setHeaders.lookup k.header = some u) ∧
      (∀ v, d.setHeaders.lookup k.header = some v →
        k.stored c.world sid S = none ∨ k.stored c.world sid S = some v) ∧
      (∀ c₀ t₀, Relation.ReflTransGen (UndisturbedStep g) c₀ c → c₀.threads[i]? = some t₀ →
        Answered t₀.trace (.send req d) () → ∀ v, k.stored c.world sid S = some v →
          k.stored c₀.world sid S = some v ∨ d.setHeaders.lookup k.header = some v) ∧
      ∀ sid' f, (sid', f) ≠ (sid, k.field S) →
        c'.world.cache.field sid' f = c.world.cache.field sid' f := by
  obtain ⟨t, p, hi, hrest, -, -⟩ := hs.caller rfl
  have ht : t ∈ c.threads := List.mem_of_getElem? hi
  have hready : Ready g t (k.drop sid S) := ready h ht hrest
  obtain ⟨hsid, req, d, hfailed, hcarries⟩ :=
    failed_of_drop hready hS fun _ _ _ _ _ => elicited_status h ht
  have hout : k.Outstanding t req d := by
    refine outstanding_of_failed hfailed hS hready.justified ?_
    rw [hrest]
    intro hret
    cases hret
  obtain ⟨hown, hname⟩ := hfailed.bound
  rw [hsid] at hown
  refine ⟨t, req, d, hi, hsid, hfailed, hcarries, ?_, ?_, fun _ _ => drop_frame hs⟩
  · intro v hv
    rw [← hown, ← hname]
    exact kept h hi hout hv
  · intro c₀ t₀ hrun hi₀ hsent v hv
    rw [← hown, ← hname] at hv ⊢
    exact stored_since hrun hi₀ hsent hi hout hv

/-! ## A tool call that is answered with a 404 -/

def allowsUndisturbed (c : GwConfig) : Label gatewaySig Task → Bool
  | .call _ ⟨.send req d, ()⟩ => [Credential.session, .token].all fun k =>
      (d.setHeaders.lookup k.header).all fun v =>
        k.stored c.world req.getSessionID req.serverName = some v
  | .call _ ⟨.awaitAnswer _ d, _⟩ => d.bodyMutation.isSome
  | .call _ ⟨.addSession .., _⟩ | .call _ ⟨.setUserToken .., _⟩ => c.threads.all fun t => (sends t).isEmpty
  | _ => true

lemma allowsUndisturbed_sound (h : allowsUndisturbed c l = true) : Undisturbed c l where
  forward k i req d v hl _ _ hv := by
    subst hl
    have hk := all_eq_true.1 h k (by cases k <;> decide)
    rw [hv, all_some] at hk
    exact .inr (of_decide_eq_true hk)
  store k i e t req d v hl ht hout hwrite := by
    subst hl
    obtain ⟨o, r⟩ := e
    have hempty : (sends t).isEmpty = true := by
      cases hwrite with
      | addSession | setUserToken => exact all_eq_true.1 h t ht
    have hsent := mem_sends.2 hout.sent
    rw [List.isEmpty_iff.1 hempty] at hsent
    cases hsent
  broker i req base requestID elicitationID ans hl := by
    subst hl
    cases h

/-- The server answers with a 404. -/
def goneScript : Script where
  answer _ _ := ⟨"404", "", []⟩

/-- The tool call is answered with a 404 while nobody else does anything: its own session is dropped. -/
theorem goneCall_precise : ∃ (c c' : GwConfig) (i : Nat) (r : Except String Unit),
    demoGateway.system.Reachable Undisturbed c ∧
      demoGateway.system.Step c (.call i ⟨.removeServerSession sessionJWT "weather", r⟩) c' ∧
      Bound c.world sessionJWT "weather" "u1" ∧
      ∃ t req d, c.threads[i]? = some t ∧ Credential.session.Failed t "weather" req d ∧
        d.setHeaders.lookup sessionHeader = some "u1" := by
  obtain ⟨c, hgone, hthread, hbound, hremove⟩ : ∃ c : GwConfig,
      demoGateway.system.Reachable Undisturbed c ∧
      (c.threads[2]?.any fun t => removes t = some (sessionJWT, "weather")) = true ∧
      c.world.cache.field sessionJWT "weather" = some "u1" ∧
      (c.world.cache.removeServerSession sessionJWT "weather").toOption.isSome = true :=
    ⟨(player goneScript allowsUndisturbed fun _ _ => allowsUndisturbed_sound).play ⟨weatherWorld, []⟩
        (listedCall 7), played _ weatherWorld rfl _, by decide +kernel, by decide +kernel, by decide +kernel⟩
  obtain ⟨t, hi, hremoves⟩ := (Option.any_eq_true _ _).1 hthread
  obtain ⟨p, hrest⟩ := rest_of_removes (of_decide_eq_true hremoves)
  obtain ⟨cache, hcache⟩ := Option.isSome_iff_exists.1 hremove
  have hstep : demoGateway.system.Step c
      (.call 2 ⟨.removeServerSession sessionJWT "weather", .ok ()⟩) _ :=
    .call hi hrest ⟨cache, Script.eq_ok_of_toOption hcache, rfl, rfl⟩
  obtain ⟨t, req', d', hi, -, hfailed, hcarries, hkept, -⟩ :=
    invalidation_precise (k := .session) hgone hstep (by decide)
  obtain ⟨u, hu⟩ := hcarries rfl
  have hsame : u = "u1" := by
    rcases hkept u hu with hnone | hkept
    · cases hbound.symm.trans hnone
    · exact Option.mem_unique hkept hbound
  exact ⟨c, _, 2, .ok (), hgone, hstep, hbound, t, req', d', hi, hfailed, hsame ▸ hu⟩

/-- A tool call is forwarded on `u1`; a listing of the tools then stores `u2`; the 404 that answers the
call drops `u2`. -/
theorem lateAnswer_drops : ∃ (c c' : GwConfig) (i : Nat) (r : Except String Unit) (t : GwThread)
    (req : MCPRequest) (d : Decision), demoGateway.system.Reachable System.Free c ∧
      demoGateway.system.Step c (.call i ⟨.removeServerSession sessionJWT "weather", r⟩) c' ∧
      c.threads[i]? = some t ∧ Credential.session.Failed t "weather" req d ∧
      d.setHeaders.lookup sessionHeader = some "u1" ∧ Bound c.world sessionJWT "weather" "u2" ∧
      c'.world.cache.field sessionJWT "weather" = none := by
  obtain ⟨c, hgone, hthread, hbound, hremove⟩ : ∃ c : GwConfig,
      demoGateway.system.Reachable System.Free c ∧
      (c.threads[2]?.any fun t => decide (removes t = some (sessionJWT, "weather")) &&
        (sends t).all fun s => s.2.bodyMutation.isSome &&
          decide (s.2.setHeaders.lookup sessionHeader = some "u1")) = true ∧
      c.world.cache.field sessionJWT "weather" = some "u2" ∧
      ((c.world.cache.removeServerSession sessionJWT "weather").toOption.any fun cache =>
        cache.field sessionJWT "weather" = none) = true :=
    ⟨(freePlayer goneScript).play ⟨weatherWorld, []⟩ (firstCall ++
        .start (.request (forecastCall [])) :: System.calls 2 5 ++
        .start (.listTools weatherList listHeaders) :: System.calls 3 7 ++ System.calls 2 2),
      played _ weatherWorld rfl _, by decide +kernel, by decide +kernel, by decide +kernel⟩
  obtain ⟨t, hi, hp⟩ := (Option.any_eq_true _ _).1 hthread
  obtain ⟨hremoves, hsends⟩ := Bool.and_eq_true_iff.1 hp
  obtain ⟨p, hrest⟩ := rest_of_removes (of_decide_eq_true hremoves)
  have hcarried : ∀ req d, Answered t.trace (.send req d) () → d.bodyMutation.isSome = true ∧
      d.setHeaders.lookup sessionHeader = some "u1" := by
    intro req d hsent
    obtain ⟨hbody, hsession⟩ := Bool.and_eq_true_iff.1 (List.all_eq_true.1 hsends _ (mem_sends.2 hsent))
    exact ⟨hbody, of_decide_eq_true hsession⟩
  obtain ⟨cache, hcache, hdropped⟩ := (Option.any_eq_true _ _).1 hremove
  have hready : Ready demoGateway t (Credential.session.drop sessionJWT "weather") :=
    ready hgone (List.mem_of_getElem? hi) hrest
  obtain ⟨-, req, d, hfailed, -⟩ := failed_of_drop (k := .session) hready (by decide) (by
    intro req base requestID elicitationID ans hans
    have hsent := (answered_cases hready.justified hans).1
    cases (hcarried _ _ hsent).1)
  exact ⟨c, _, 2, .ok (), t, req, d, hgone, .call hi hrest ⟨cache, Script.eq_ok_of_toOption hcache, rfl, rfl⟩,
    hi, hfailed, (hcarried req d hfailed.sent).2, hbound, of_decide_eq_true hdropped⟩

end Gateway

end McpGateway
