import McpGateway.Foundation.Replay
import McpGateway.Gateway.Tasks

/-!
# Playing the gateway

A `Script` says what the world outside answers in a run of the small gateway: the upstreams, and the
ids that are drawn.  `player` plays the tasks of the gateway with it.
-/

namespace McpGateway.Gateway

open Go Effect Routing Session ExtProc

structure Script where
  uuid : World → String := fun w => if w.nextCall = 0 then "1" else "2"
  opened : World → ClientSession := fun w =>
    if w.cache.field sessionJWT "weather" = none then ⟨1, "u1"⟩ else ⟨2, "u2"⟩
  answer : MCPRequest → Decision → Answer := fun _ _ => ⟨"200", "", []⟩

namespace Script

def answers (sc : Script) (w : World) : (o : Op) → Option (o.Resp × World)
  | .panic _ => none
  | .now => some (w.now, w)
  | .uuid => some (sc.uuid w, w)
  | .loadTable => some (w.table, w)
  | .loadConfig => some (w.config, w)
  | .sign c =>
    some ((([sessionJWT, "b1"].find? fun t => demoSigner.verify t = some c).elim (.error "") .ok), w)
  | .getSession key => (w.cache.getSession key).toOption.map fun m => (.ok m, w)
  | .addSession key S u _ =>
    (w.cache.addSession key S u).toOption.map fun c => (.ok true, { w with cache := c })
  | .deleteSessions keys => some (.ok (), { w with cache := w.cache.deleteSessions keys })
  | .removeServerSession key S =>
    (w.cache.removeServerSession key S).toOption.map fun c => (.ok (), { w with cache := c })
  | .setClientElicitation sid _ => some (.ok (), { w with cache := w.cache.setClientElicitation sid })
  | .getClientElicitation sid => some (.ok (w.cache.getClientElicitation sid), w)
  | .setUserToken sid S token _ =>
    (w.cache.setUserToken sid S token).toOption.map fun c => (.ok (), { w with cache := c })
  | .getUserToken sid S =>
    (w.cache.getUserToken w.now sid S).toOption.map fun r => (.ok r.1, { w with cache := r.2 })
  | .deleteUserToken sid S =>
    (w.cache.deleteUserToken sid S).toOption.map fun c => (.ok (), { w with cache := c })
  | .storeTaskRecord agent id principal =>
    (w.cache.storeTaskRecord agent id principal).toOption.map fun r =>
      (.ok r.1, { w with cache := r.2 })
  | .deleteTaskRecord agent id =>
    some (.ok (), { w with cache := w.cache.deleteTaskRecord agent id })
  | .flightJoin key =>
    match w.flights.lookup key with
    | some call => some (.follower call, w)
    | none => some (.leader w.nextCall,
        { w with flights := AList.insert key w.nextCall w.flights, nextCall := w.nextCall + 1 })
  | .flightWait call => (w.results.find? fun r => r.1 = call).map fun r => (r.2, w)
  | .flightDone key call res => some ((), { w with
      flights := if w.flights.lookup key = some call then AList.erase key w.flights else w.flights
      results := (call, res) :: w.results })
  | .idStore e => if w.ids.lookup "y1" = none then
      some (.ok "y1", { w with ids := AList.insert "y1" e w.ids }) else none
  | .idLookup id => some (.ok (w.ids.lookup id), w)
  | .idRemove id => some ((), { w with ids := AList.erase id w.ids })
  | .elicitationStore e => if w.elicitations.lookup "e1" = none then
      some (.ok "e1", { w with
        elicitations := AList.insert "e1" (e, w.now + demoGateway.elicitationTTL) w.elicitations })
      else none
  | .elicitationClaim id =>
    some (.ok (w.liveElicitation id), { w with elicitations := AList.erase id w.elicitations })
  | .poolLoad key headers =>
    match w.pool.lookup key with
    | some (s, _) => some (some s, { w with pool := AList.insert key (s, headers) w.pool })
    | none => some (none, w)
  | .poolLoadOrStore key s headers =>
    match w.pool.lookup key with
    | some (s', _) => some ((s', true), { w with pool := AList.insert key (s', headers) w.pool })
    | none => some ((s, false), { w with pool := AList.insert key (s, headers) w.pool })
  | .poolDelete key =>
    some ((w.pool.lookup key).map Prod.fst, { w with pool := AList.erase key w.pool })
  | .poolKeys => some (w.pool.pairs.map Prod.fst, w)
  | .afterFunc ttl s sid => some ((), { w with timers := (w.now + ttl, s, sid) :: w.timers })
  | .initForClient .. => some (.ok (sc.opened w), w)
  | .connectUser .. => some (.ok (sc.opened w), w)
  | .listTools _ => some (.ok [], w)
  | .closeClient _ => some ((), w)
  | .dropServerSession _ => some ((), w)
  | .send .. => some ((), w)
  | .awaitAnswer req d => some (sc.answer req d, w)

variable (sc : Script) {w w' : World} {o : Op} {r : o.Resp}

lemma eq_ok_of_toOption {ε α : Type} {x : Except ε α} {a : α} (h : x.toOption = some a) : x = .ok a := by
  cases x with
  | error e => cases h
  | ok b => exact congrArg _ (Option.some.inj h)

lemma sound (h : sc.answers w o = some (r, w')) : w.Answers demoGateway o r w' := by
  cases o with
  | panic p => exact r.elim
  | sign c =>
    cases h
    refine ⟨fun t ht => ?_, rfl⟩
    cases hfind : [sessionJWT, "b1"].find? fun t => demoSigner.verify t = some c with
    | none =>
      rw [hfind] at ht
      cases ht
    | some t' =>
      rw [hfind] at ht
      cases ht
      have hverify := find?_some hfind
      exact of_decide_eq_true hverify
  | getSession | addSession | removeServerSession | setUserToken | deleteUserToken =>
    obtain ⟨m, hm, heq⟩ := map_eq_some_iff.1 h
    cases heq
    exact ⟨m, eq_ok_of_toOption hm, rfl, rfl⟩
  | getUserToken | storeTaskRecord =>
    obtain ⟨m, hm, heq⟩ := map_eq_some_iff.1 h
    cases heq
    exact ⟨m.1, m.2, eq_ok_of_toOption hm, rfl, rfl⟩
  | flightJoin key =>
    cases hkey : w.flights.lookup key with
    | none | some call =>
      simp only [answers, hkey] at h
      cases h
      simp only [World.Answers, hkey, and_self]
  | poolLoad key | poolLoadOrStore key =>
    cases hkey : w.pool.lookup key with
    | none | some s =>
      simp only [answers, hkey] at h
      cases h
      simp only [World.Answers, hkey, and_self]
  | flightWait call =>
    obtain ⟨p, hp, heq⟩ := map_eq_some_iff.1 h
    cases heq
    have hcall := find?_some hp
    obtain rfl : p.1 = call := of_decide_eq_true hcall
    exact ⟨mem_of_find?_eq_some hp, rfl⟩
  | idStore e | elicitationStore e =>
    simp only [answers] at h
    split_ifs at h with hfree
    cases h
    exact ⟨_, hfree, rfl, rfl⟩
  | loadTable =>
    cases h
    exact ⟨.refl _, rfl⟩
  | _ => cases h; first | exact rfl | exact ⟨rfl, rfl⟩

end Script

def signed (e : GwEv) : Option Claims :=
  match e with
  | ⟨.sign c, .ok _⟩ => some c
  | _ => none

/-- The claims of every token that the request presents have been signed. -/
def presents (c : GwConfig) : Task → Bool
  | .request client => client.headers.all fun h => (demoSigner.verify h.2).all fun claims =>
      c.threads.any fun t => t.trace.any fun e => signed e = some claims
  | .expire .. => false
  | _ => true

lemma presents_sound {c : GwConfig} {task : Task} (h : presents c task = true) :
    demoGateway.Starts c task := by
  cases task with
  | request client =>
    intro hd hmem claims hv
    have hv : demoSigner.verify hd.2 = some claims := hv
    have hall := all_eq_true.1 h hd hmem
    rw [hv, all_some] at hall
    obtain ⟨t, ht, he⟩ := List.any_eq_true.1 hall
    obtain ⟨e, he, hsigned⟩ := List.any_eq_true.1 he
    obtain ⟨o, r⟩ := e
    have hsigned := of_decide_eq_true hsigned
    unfold signed at hsigned
    split at hsigned
    next c' token heq =>
      cases hsigned
      exact ⟨token, t, ht, trivial, heq ▸ he⟩
    next => cases hsigned
  | expire client sid => cases h
  | _ => trivial

def player {G : GwConfig → Label gatewaySig Task → Prop} (sc : Script)
    (allows : GwConfig → Label gatewaySig Task → Bool) (sound : ∀ c l, allows c l = true → G c l) :
    System.Player demoGateway.system G where
  answer := sc.answers
  answers _ _ _ _ := sc.sound
  starts := presents
  starts_sound _ _ := presents_sound
  allows := allows
  allows_sound := sound

def freePlayer (sc : Script) : System.Player demoGateway.system System.Free :=
  player sc (fun _ _ => true) fun _ _ _ => trivial

lemma played {G : GwConfig → Label gatewaySig Task → Prop} (P : System.Player demoGateway.system G)
    (w : World) (hw : w.Fresh) (moves : List (System.Move Task)) :
    demoGateway.system.Reachable G (P.play ⟨w, []⟩ moves) :=
  P.reachable_play (.init hw) moves

deriving instance DecidableEq for ClientRequest

def client : Task → Option ClientRequest
  | .request client => some client
  | _ => none

lemma eq_request {task : Task} {r : ClientRequest} (h : client task = some r) : task = .request r := by
  cases task with
  | request r' => exact congrArg _ (Option.some.inj h)
  | _ => cases h

def removes (t : GwThread) : Option (String × String) :=
  match t.rest with
  | .vis (.removeServerSession key S) _ => some (key, S)
  | _ => none

variable {t : GwThread}

lemma rest_of_removes {key S : String} (h : removes t = some (key, S)) :
    ∃ k, t.rest = .vis (.removeServerSession key S) k := by
  unfold removes at h
  split at h
  next k heq =>
    cases h
    exact ⟨k, heq⟩
  next => cases h

variable {c : GwConfig} {i : Nat}

/-- The upstream session that a call stores, with its session and server. -/
def stored (e : GwEv) : Option (String × String × String) :=
  match e with
  | ⟨.addSession sid S u _, .ok _⟩ => some (sid, S, u)
  | _ => none

lemma answered_of_stored {sid S u : String}
    (h : (t.trace.any fun e => stored e = some (sid, S, u)) = true) :
    ∃ ttl b, Answered t.trace (.addSession sid S u ttl) (.ok b) := by
  obtain ⟨e, he, hstored⟩ := List.any_eq_true.1 h
  have hstored := of_decide_eq_true hstored
  unfold stored at hstored
  split at hstored
  next =>
    cases hstored
    exact ⟨_, _, he⟩
  next => cases hstored

def sends (t : GwThread) : List (MCPRequest × Decision) :=
  t.trace.filterMap fun e => match e with
    | ⟨.send req d, ()⟩ => some (req, d)
    | _ => none

lemma mem_sends {req : MCPRequest} {d : Decision} :
    (req, d) ∈ sends t ↔ Answered t.trace (.send req d) () := by
  constructor
  · intro h
    obtain ⟨e, he, heq⟩ := List.mem_filterMap.1 h
    split at heq
    next =>
      cases heq
      exact he
    next => cases heq
  · intro h
    exact List.mem_filterMap.2 ⟨_, h, rfl⟩

lemma sent_of_any {p : GwThread → MCPRequest → Decision → Bool}
    (h : (c.threads[i]?.any fun t => (sends t).any fun s => p t s.1 s.2) = true) :
    ∃ t req d, c.threads[i]? = some t ∧ Answered t.trace (.send req d) () ∧ p t req d = true := by
  obtain ⟨t, ht, hany⟩ := (any_eq_true _ _).1 h
  obtain ⟨⟨req, d⟩, hs, hp⟩ := List.any_eq_true.1 hany
  exact ⟨t, req, d, ht, mem_sends.1 hs, hp⟩

end McpGateway.Gateway
