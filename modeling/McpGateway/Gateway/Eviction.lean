import McpGateway.Gateway.Incarnations

/-!
# Idle eviction

A session that has been idle is closed, and a later request with its token resurrects it.  What the gateway
keeps under the id of the session for the client (that the client supports elicitation, the tokens the user
has submitted, the selected tools) is released with everything else when the session has ended.
-/

namespace McpGateway.Resurrection

open Go Effect Session Broker Cache ScopeStore

structure Knowledge where
  clientElicitation : Bool
  userToken : String → Except Panic (Option String)
  scope : Option (List String)

/-- The answers at the time `now`. -/
def SvWorld.known (w : SvWorld) (sid : String) (now : Time) : Knowledge where
  clientElicitation := w.gw.cache.getClientElicitation sid
  userToken S := (w.gw.cache.getUserToken now sid S).map Prod.fst
  scope := w.scopes.getScope now sid

def Knowledge.nothing : Knowledge := ⟨false, fun _ => .ok none, none⟩

/-! ## What is recorded for a session -/

/-- The call can record a capability, a token or a scope for the session, or put something else in the
place of its cache entries. -/
def Tells (sid : String) : SessionOp → Prop
  | .setScope s _ | .resetScope s => s = sid
  | .gw (.addSession key S _ _) =>
    key = sid ∧ hasPrefix S userTokenFieldPrefix = true ∨ key = clientElicitationPrefix ++ sid
  | .gw (.setUserToken key _ _ _) => key = sid ∨ key = clientElicitationPrefix ++ sid
  | .gw (.setClientElicitation s _) => s = sid ∨ clientElicitationPrefix ++ s = sid
  | .gw (.storeTaskRecord agent id _) => Cache.taskRecordKey agent id = sid ∨
      Cache.taskRecordKey agent id = clientElicitationPrefix ++ sid
  | _ => False

/-- The cache has no flag and no token of the session. -/
structure Forgotten (c : Cache) (sid : String) : Prop where
  flag : c.lookup (clientElicitationPrefix ++ sid) = none
  typed : c.isForeign sid = false
  tokens : ∀ S, c.field sid (userTokenFieldPrefix ++ S) = none

lemma Forgotten.getUserToken {c : Cache} {sid : String} (h : Forgotten c sid) (now : Time) (S : String) :
    (c.getUserToken now sid S).map Prod.fst = .ok none := by
  obtain ⟨m, hm⟩ := (Cache.sessionMap_ok_iff sid).2 h.typed
  have hfield := h.tokens S
  rw [Cache.field_of_sessionMap hm] at hfield
  simp only [Cache.getUserToken, Cache.getSession, hm, bind, Except.bind, hfield]
  rfl

lemma known_eq_nothing {w : SvWorld} {sid : String} (hcache : Forgotten w.gw.cache sid)
    (hscope : w.scopes.scopes.lookup sid = none) (now : Time) : w.known sid now = .nothing := by
  have htokens : (fun S => (w.gw.cache.getUserToken now sid S).map Prod.fst) = fun _ => .ok none :=
    funext (hcache.getUserToken now)
  simp only [SvWorld.known, Knowledge.nothing, getClientElicitation, hcache.flag, htokens,
    getScope, hscope, Option.isSome_none]

lemma forgotten_deleteSessions (c : Cache) (sid : String) : Forgotten (c.deleteSessions [sid]) sid where
  flag := by
    rw [lookup_deleteSessions]
    exact if_pos ⟨sid, mem_singleton.2 rfl, .inr rfl⟩
  typed := by
    have hnone : (c.deleteSessions [sid]).lookup sid = none := by
      rw [lookup_deleteSessions]
      exact if_pos ⟨sid, mem_singleton.2 rfl, .inl rfl⟩
    simp [isForeign, hnone]
  tokens S := by
    rw [field_deleteSessions]
    exact if_pos ⟨sid, mem_singleton.2 rfl, .inl rfl⟩

lemma Forgotten.write {c c' : Cache} {sid : String} {o : Op} (h : Forgotten c sid)
    (hw : World.CacheWrite c o c') (ho : ¬ Tells sid (.gw o)) : Forgotten c' sid := by
  have hflag : c'.lookup (clientElicitationPrefix ++ sid) = none := by
    by_cases hkey : World.Writes o (clientElicitationPrefix ++ sid)
    · cases hw with
      | addSession _ | setUserToken _ => exact absurd (.inr hkey.symm) ho
      | removeServerSession hd | expireToken hd | deleteUserToken hd =>
        -- there is no entry to delete from
        rcases deleteField_cases hd with ⟨-, rfl⟩ | ⟨m, hm, -⟩
        · exact h.flag
        · cases (hkey ▸ h.flag).symm.trans hm
      | deleteSessions keys => exact (lookup_deleteSessions ..).trans (if_pos hkey)
      | setClientElicitation s ttl => exact absurd (.inl (String.append_right_inj _ |>.1 hkey.symm)) ho
      | storeTaskRecord => exact absurd (.inr hkey.symm) ho
      | deleteTaskRecord agent id => exact (lookup_erase ..).trans (if_pos hkey)
    · rw [hw.lookup_eq hkey]
      exact h.flag
  have htyped : c'.isForeign sid = false := by
    by_cases hkey : World.Writes o sid
    · have hinsert : ∀ m : GoMap String, isForeign (AList.insert sid (.session m) c) sid = false := by
        intro m
        simp [isForeign]
      have hgone : c'.lookup sid = none → c'.isForeign sid = false := by
        intro hnone
        simp [isForeign, hnone]
      cases hw with
      | addSession hset | setUserToken hset =>
        obtain ⟨m, -, rfl⟩ := setField_cases hset
        obtain rfl : sid = _ := hkey
        exact hinsert _
      | removeServerSession hd | expireToken hd | deleteUserToken hd =>
        rcases deleteField_cases hd with ⟨-, rfl⟩ | ⟨m, hm, rfl⟩
        · exact h.typed
        · obtain rfl : sid = _ := hkey
          exact hinsert _
      | deleteSessions keys => exact hgone ((lookup_deleteSessions ..).trans (if_pos hkey))
      | setClientElicitation s ttl => exact absurd (.inr hkey.symm) ho
      | storeTaskRecord => exact absurd (.inl hkey.symm) ho
      | deleteTaskRecord agent id => exact hgone ((lookup_erase ..).trans (if_pos hkey))
    · unfold isForeign
      rw [hw.lookup_eq hkey]
      exact h.typed
  refine ⟨hflag, htyped, fun S => ?_⟩
  rcases hw.field sid (userTokenFieldPrefix ++ S) with hsame | hwrite
  · rw [hsame]
    exact h.tokens S
  · generalize c'.field sid (userTokenFieldPrefix ++ S) = v at hwrite
    cases hwrite with
    | addSession u ttl => exact absurd (.inl ⟨rfl, hasPrefix_append _ _⟩) ho
    | setUserToken token ttl _ => exact absurd (.inl rfl) ho
    | _ => rfl

/-! ## The end of a session -/

variable {g : Gateway} {G : SvConfig → Label sessionSig SvTask → Prop} {c c₀ c' : SvConfig}
  {l : Label sessionSig SvTask} {sid : String} {h : Nat}

/-- Nothing is told about the session in the run, it is closed by its idle timer only, and nobody asks to
delete it. -/
def IdleOnly (sid : String) (c : SvConfig) : Label sessionSig SvTask → Prop
  | .call i e => ¬ Tells sid e.op ∧ ∀ h s, e.op = .close h → c.world.sessions[h]? = some s → s.sid = sid →
      ∃ t, c.threads[i]? = some t ∧ t.task = .timeout h
  | .start (.request req) => req.method = .delete → req.sessionID ≠ sid
  | _ => True

/-- What is forgotten about the session, and that it has no scope, stays so. -/
lemma quiet_step (hs : (system g).Step c l c') (hg : IdleOnly sid c l) :
    (Forgotten c.world.gw.cache sid → Forgotten c'.world.gw.cache sid) ∧
      (c.world.scopes.scopes.lookup sid = none → c'.world.scopes.scopes.lookup sid = none) := by
  cases hs with
  | @call i t o k r w hi hrest hans =>
    cases o with
    | gw o =>
      obtain ⟨gw, hgw, rfl⟩ := hans
      refine ⟨fun hf => ?_, id⟩
      have hchange := hgw.change (e := ⟨o, r⟩)
      cases hchange with
      | cache hw => exact hf.write hw hg.1
      | _ => exact hf
    | setScope s tools =>
      cases hans
      exact ⟨id, setScope_none fun heq => hg.1 heq.symm⟩
    | resetScope s =>
      cases hans
      exact ⟨id, resetScope_none fun heq => hg.1 heq.symm⟩
    | deleteScope s =>
      cases hans
      exact ⟨id, fun hn => deleteScope_none (.inr hn)⟩
    | connect sid => rcases hans with ⟨e, -, rfl⟩ | ⟨-, rfl⟩ <;> exact ⟨id, id⟩
    | sdkLoad _ | sdkConnect _ | liveLoad _ | lock | deliver _ | initialized _ | wait _ =>
      obtain ⟨-, rfl⟩ := hans
      exact ⟨id, id⟩
    | _ =>
      cases hans
      exact ⟨id, id⟩
  | env henv =>
    cases henv with
    | gw hgw => cases hgw <;> exact ⟨id, id⟩
    | evictExpired => exact ⟨id, evictExpired_none⟩
  | start => exact ⟨id, id⟩

/-- What the goroutine has deleted so far is gone. -/
def Released (sid : String) (w : SvWorld) (tr : List SvEv) : Prop :=
  ((⟨.deleteScope sid, ()⟩ : SvEv) ∈ tr → w.scopes.scopes.lookup sid = none) ∧
    ∀ r, (⟨.gw (.deleteSessions [sid]), r⟩ : SvEv) ∈ tr → Forgotten w.gw.cache sid

variable {t : SvThread}

lemma released_step {j : Nat} (hs : (system g).Step c l c') (hg : IdleOnly sid c l)
    (hj : c'.threads[j]? = some t) (ih : ∀ u, c.threads[j]? = some u → u.task = t.task →
    Released sid c.world u.trace) : Released sid c'.world t.trace := by
  constructor
  · intro he
    obtain ⟨u, hu, htask, hbefore | rfl⟩ := hs.mem_trace hj he
    · exact (quiet_step hs hg).2 ((ih u hu htask).1 hbefore)
    · obtain ⟨_, _, -, -, hans, -⟩ := hs.caller rfl
      rw [show c'.world = _ from hans]
      exact deleteScope_none (.inl rfl)
  · intro r he
    obtain ⟨u, hu, htask, hbefore | rfl⟩ := hs.mem_trace hj he
    · exact (quiet_step hs hg).1 ((ih u hu htask).2 r hbefore)
    · obtain ⟨_, _, -, -, hans, -⟩ := hs.caller rfl
      obtain ⟨gw, ⟨-, hgw⟩, hw⟩ := hans
      rw [hw, hgw]
      exact forgotten_deleteSessions _ sid

lemma trace_of_open (hc : (system g).Reachable G c) (ht : t ∈ c.threads) {r : Bool}
    (htask : t.task = .awaitEnd h sid r) (hopen : c.world.isClosed h = false) : t.trace = [] := by
  have hfollows := hc.follows t ht
  rw [htask] at hfollows
  generalize htr : t.trace = tr at hfollows
  generalize t.rest = q at hfollows
  cases hfollows with
  | refl => rfl
  | vis u _ =>
    have hwait : (⟨.wait h, ()⟩ : SvEv) ∈ t.trace := htr ▸ mem_cons_self
    exact absurd (closed_of_waited hc ht hwait) (by simp [hopen])

lemma released_of_ended (hc : (system g).Reachable G c) (ht : t ∈ c.threads) {r : Bool}
    (htask : t.task = .awaitEnd h sid r) (hrest : t.rest = .ret ()) : (⟨.deleteScope sid,
    ()⟩ : SvEv) ∈ t.trace ∧ ∃ res, (⟨.gw (.deleteSessions [sid]), res⟩ : SvEv) ∈ t.trace := by
  have hend : ∀ tr, (onGatewaySessionEnd sid).Obeys (fun _ _ => True) (fun _ tr' =>
      (⟨.deleteScope sid, ()⟩ : SvEv) ∈ tr' ∧
        ∃ res, (⟨.gw (.deleteSessions [sid]), res⟩ : SvEv) ∈ tr') tr := by
    intro tr
    refine obeys_op.2 ⟨trivial, fun _ => ?_⟩
    unfold Broker.onGatewaySessionEnd
    rw [lift_bind]
    refine obeys_seq (obeys_lift (I := fun tr => (⟨.deleteScope sid, ()⟩ : SvEv) ∈ tr) _
      (fun _ _ _ => trivial) (fun _ _ _ h => mem_append_left _ h) (by simp)) ?_
    intro _ tr' _ hscope
    refine ⟨trivial, fun res => ?_⟩
    cases res with
    | error e => exact ⟨mem_append_left _ hscope, .error e, by simp⟩
    | ok u => exact ⟨mem_append_left _ hscope, .ok u, by simp⟩
  have hcode : (awaitEnd h sid r).Obeys (fun _ _ => True) (fun _ tr' =>
      (⟨.deleteScope sid, ()⟩ : SvEv) ∈ tr' ∧
        ∃ res, (⟨.gw (.deleteSessions [sid]), res⟩ : SvEv) ∈ tr') [] := by
    refine obeys_op.2 ⟨trivial, fun _ => ?_⟩
    cases r with
    | true => exact obeys_op.2 ⟨trivial, fun _ => obeys_op.2 ⟨trivial, fun _ => hend _⟩⟩
    | false => exact hend _
  have hfollows := hc.follows t ht
  rw [htask, hrest] at hfollows
  have hout := hcode.outcome (Prog.follows_ret_iff.1 hfollows)
  rwa [nil_append] at hout

/-! ## Evicted and resurrected -/

/-- The session `h` is open in `c₀`; from there to `c` it has been closed by its idle timer and cleaned up,
and the id has been resurrected, while the client has told nothing about it. -/
structure Evicted (g : Gateway) (sid : String) (h : Nat) (c₀ c : SvConfig) : Prop where
  start : (system g).Reachable System.Free c₀
  wasOpen : c₀.world.isOpen h = true
  run : (system g).Leads (IdleOnly sid) c₀ c
  ended : ∃ t ∈ c.threads, (∃ r, t.task = .awaitEnd h sid r) ∧ t.rest = .ret ()
  resurrected : ∃ h', h < h' ∧ c.world.Live h' sid

lemma Evicted.forgotten (hev : Evicted g sid h c₀ c) (now : Time) : c.world.known sid now = .nothing := by
  have hopen : c₀.world.isClosed h = false := by
    obtain ⟨s, hs, hopen⟩ := (any_eq_true _ _).1 hev.wasOpen
    rw [SvWorld.isClosed, hs]
    simpa using hopen
  obtain ⟨t, ht, ⟨r, htask⟩, hrest⟩ := hev.ended
  have hreleased : ∀ (j : Nat) (t : SvThread), c.threads[j]? = some t → (∃ r, t.task = .awaitEnd h sid r) →
      Released sid c.world t.trace := by
    refine hev.run.invariant (I := fun c => ∀ (j : Nat) (t : SvThread), c.threads[j]? = some t →
      (∃ r, t.task = .awaitEnd h sid r) → Released sid c.world t.trace) ?_ ?_
    · rintro j t hj ⟨r, htask⟩
      rw [trace_of_open hev.start (mem_of_getElem? hj) htask hopen]
      exact ⟨(fun he => by cases he), fun _ he => by cases he⟩
    · intro c l c' ih hg hs j t hj htask
      exact released_step hs hg hj fun u hu hut => ih j u hu (hut ▸ htask)
  obtain ⟨j, hj⟩ := mem_iff_getElem?.1 ht
  have hc : (system g).Reachable System.Free c :=
    (hev.run.mono fun _ _ _ => trivial).reachable hev.start
  obtain ⟨hscope, res, hsessions⟩ := released_of_ended hc ht htask hrest
  obtain ⟨hunscoped, hforgotten⟩ := hreleased j t hj ⟨r, htask⟩
  exact known_eq_nothing (hforgotten res hsessions) (hunscoped hscope) now

def idleOnlyCheck (c : SvConfig) : Label sessionSig SvTask → Bool
  | .call i ⟨.close h, _⟩ => (c.threads[i]?).any fun t =>
      match t.task with
      | .timeout k => k = h
      | _ => false
  | .call _ ⟨.setScope .., _⟩ | .call _ ⟨.resetScope _, _⟩ => false
  | .call _ ⟨.gw .now, _⟩ | .call _ ⟨.gw .poolKeys, _⟩ | .call _ ⟨.gw (.deleteSessions _), _⟩ => true
  | .call _ ⟨.gw _, _⟩ => false
  | .start (.request req) => req.method ≠ .delete
  | _ => true

lemma idleOnly_of_check (c : SvConfig) (l : Label sessionSig SvTask) (hl : idleOnlyCheck c l = true) :
    IdleOnly sid c l := by
  cases l with
  | env => exact trivial
  | start task =>
    cases task with
    | request req => exact fun hdelete => absurd hdelete (of_decide_eq_true hl)
    | _ => exact trivial
  | call i e =>
    obtain ⟨o, r⟩ := e
    constructor
    · cases o with
      | setScope _ _ | resetScope _ => cases hl
      | gw o =>
        cases o with
        | addSession _ _ _ _ | setUserToken _ _ _ _ | setClientElicitation _ _
        | storeTaskRecord _ _ _ => cases hl
        | _ => exact id
      | _ => exact id
    · rintro k s rfl - -
      obtain ⟨t, ht, htask⟩ := (any_eq_true _ _).1 hl
      refine ⟨t, ht, ?_⟩
      split at htask
      next k' heq => rw [heq, of_decide_eq_true htask]
      next => cases htask

def idlePlayer : System.Player (system dayGateway) (IdleOnly dayJWT) :=
  player idleOnlyCheck idleOnly_of_check

def connected (call : SessionCall) : SvConfig :=
  freePlayer.play ⟨dayWorld, []⟩ ([.start .serveInitialize] ++ System.calls 0 4 ++
    [.start (dayPost .initialized)] ++ System.calls 1 8 ++ .start (dayPost call) :: System.calls 2 7)

/-- It is idle for half an hour, is closed and cleaned up, and a request resurrects it. -/
def revived (call : SessionCall) : SvConfig :=
  idlePlayer.play (later sessionIdleTimeout (connected call))
    ([.start (.timeout 0), .call 3, .start (.awaitEnd 0 dayJWT false)] ++ System.calls 4 4 ++
      .start (dayPost .other) :: System.calls 5 14)

lemma revived_evicted {call : SessionCall}
    (hconnected : ((connected call).world.gw.now, (connected call).world.isOpen 0) = (0, true))
    (hended : ((revived call).threads.any fun t => t.task.awaits = some (0, dayJWT, false) &&
      System.isRet t.rest) = true)
    (hsession : (revived call).world.sessions[1]? = some ⟨dayJWT, true, false⟩) :
    Evicted dayGateway dayJWT 0 (connected call) (revived call) := by
  simp only [Prod.mk.injEq] at hconnected
  refine ⟨System.Player.reachable_play _ (.init dayWorld_fresh) _, hconnected.2, ?_, ?_, 1, by omega, _,
    hsession, rfl, rfl, rfl⟩
  · refine System.Player.leads_play _ (.step .refl trivial (later_step ?_)) _
    rw [hconnected.1]
    exact Nat.zero_le _
  · obtain ⟨t, ht, hboth⟩ := List.any_eq_true.1 hended
    rw [and_eq_true] at hboth
    exact ⟨t, ht, ⟨false, SvTask.awaits_eq_some (of_decide_eq_true hboth.1)⟩,
      System.eq_ret_of_isRet hboth.2⟩

end McpGateway.Resurrection
