import McpGateway.Foundation.Replay
import McpGateway.Gateway.Tasks

/-!
# Resurrected sessions

A session token is valid on its own, while the SDK keeps a table of the sessions it has connected and
closes those that are idle.  The handler in front of the SDK therefore connects a session again when a
valid token comes in for which no session is there; it keeps these sessions in a table of its own,
`live`.  Whenever a session has been closed, a goroutine that waits for it releases what the broker and
the cache hold under its id.

A session object is a number, its place in the list of all sessions connected so far; several objects
can have one id.  `SessionOp` adds the calls on sessions, tables and tool scopes to those of the
gateway's other code, which is lifted by `lift`.
-/

namespace McpGateway.Resurrection

open Go Effect Session Upstream Broker

inductive SessionOp where
  /-- a call of the gateway's other code -/
  | gw (o : Op)
  /-- look an id up in the SDK's table -/
  | sdkLoad (sid : String)
  /-- the SDK connects a session for an `initialize` request -/
  | sdkConnect (sid : String)
  | liveLoad (sid : String)
  | liveStore (sid : String) (h : Nat)
  | liveCompareAndDelete (sid : String) (h : Nat)
  | lock
  | unlock
  | connect (sid : String)
  /-- `time.AfterFunc` for the idle timer of a session -/
  | startTimer (h : Nat)
  | startRequest (h : Nat)
  | endRequest (h : Nat)
  | stopTimer (h : Nat)
  /-- hand a request to the transport, which refuses it once the session is closing -/
  | deliver (h : Nat)
  /-- mark the session as initialized, unless it is -/
  | initialized (h : Nat)
  /-- start the goroutine that waits for the session -/
  | goWait (h : Nat)
  /-- `session.Wait` -/
  | wait (h : Nat)
  /-- `session.Close` -/
  | close (h : Nat)
  | setScope (sid : String) (tools : List String)
  | resetScope (sid : String)
  | deleteScope (sid : String)

@[reducible] def SessionOp.Resp : SessionOp → Type
  | .gw o => o.Resp
  | .sdkLoad _ | .liveLoad _ => Option Nat
  | .sdkConnect _ => Nat
  | .connect _ => Except String Nat
  | .deliver _ | .initialized _ => Bool
  | _ => Unit

@[reducible] def sessionSig : Sig := ⟨SessionOp, SessionOp.Resp⟩

abbrev Sv := Prog sessionSig

abbrev SvEv := Ev sessionSig

def op (o : SessionOp) : Sv o.Resp := Prog.call (S := sessionSig) o

def lift {α : Type} : Gw α → Sv α
  | .ret a => .ret a
  | .vis o k => Prog.vis (S := sessionSig) (.gw o) fun r => lift (k r)

/-! ## The handler -/

inductive Method where
  | get
  | post
  | delete
  deriving DecidableEq, Repr

/-- How a request ends: answered here, or taken or refused by the transport of a session. -/
inductive Handled where
  | reply (r : HttpReply)
  | delivered (h : Nat) (accepted : Bool)

def sessionNotFoundBody : String := "session not found\n"

/-- Dispatch a request to a session; `work` is what the session does for it. -/
def serve (method : Method) (h : Nat) (work : Sv Unit) : Sv Handled :=
  match method with
  | .delete => do
    op (.close h)
    pure (.reply ⟨204, ""⟩)
  | .post => do
    op (.startRequest h)
    let accepted ← op (.deliver h)
    if accepted then work else pure ()
    op (.endRequest h)
    pure (.delivered h accepted)
  | .get => do
    let accepted ← op (.deliver h)
    pure (.delivered h accepted)

def resurrect (sid : String) : Sv (Except String Nat) := do
  op .lock
  match ← op (.liveLoad sid) with
  | some h => do
    op .unlock
    pure (.ok h)
  | none => do
    match ← op (.connect sid) with
    | .error e => do
      op .unlock
      pure (.error e)
    | .ok h => do
      op (.startTimer h)
      op (.liveStore sid h)
      op (.goWait h)
      op .unlock
      pure (.ok h)

/-- Serve a request for the id `sid`: from the handler's own table, from the SDK's, or on a session that
is connected for it. -/
def serveHTTP (m : JWTManager) (method : Method) (sid : String) (work : Nat → Sv Unit) : Sv Handled := do
  match ← op (.liveLoad sid) with
  | some h => serve method h (work h)
  | none => do
    match ← op (.sdkLoad sid) with
    | some h => serve method h (work h)
    | none =>
      -- the SDK has answered 404, which is passed on unless the session can be resurrected
      if method = .delete then pure (.reply ⟨404, sessionNotFoundBody⟩)
      else do
        let now ← op (.gw .now)
        match m.validate now sid with
        | .error _ | .ok true => pure (.reply ⟨404, sessionNotFoundBody⟩)
        | .ok false => do
          match ← resurrect sid with
          | .error _ => pure (.reply ⟨500, "failed connection\n"⟩)
          | .ok h => serve method h (work h)

/-! ## Requests -/

inductive SessionCall where
  /-- `notifications/initialized` -/
  | initialized
  /-- `tools/list`, as one user-specific server sees it -/
  | toolsList (srv : UserSpecificServer)
  /-- `select_tools` with names that have been found valid -/
  | selectTools (tools : List String)
  | other

structure BrokerRequest where
  method : Method
  headers : HttpHeader
  call : SessionCall := .other

namespace BrokerRequest

def sessionID (req : BrokerRequest) : String := headerGet req.headers gatewaySessionHeader

/-- What the session `h` does for the request. -/
def work (policy : InvalidToolPolicy) (req : BrokerRequest) (h : Nat) : Sv Unit :=
  match req.call with
  | .initialized => do
    if ← op (.initialized h) then op (.goWait h) else pure ()
  | .toolsList srv => do
    let _ ← lift (fetchUserSpecificTools srv policy req.headers)
    pure ()
  | .selectTools tools =>
    if tools = [] then op (.resetScope req.sessionID) else op (.setScope req.sessionID tools)
  | .other => pure ()

/-- The request as the layer in front of the handler treats it: a DELETE terminates the session first,
and any other request is checked. -/
def serve (g : Gateway) (req : BrokerRequest) : Sv Unit :=
  let drop : Sv Unit :=
    if req.sessionID = "" then pure ()
    else do
      let _ ← serveHTTP g.jwtManager .delete req.sessionID fun _ => pure ()
      pure ()
  match req.method with
  | .delete => do
    match ← lift (terminate req.sessionID) with
    | .error _ | .ok true => pure ()
    | .ok false => drop
  | .post => do
    match ← lift (checkSession g.jwtManager req.sessionID) with
    | some _ => drop
    | none => do
      let _ ← serveHTTP g.jwtManager .post req.sessionID (req.work g.invalidToolPolicy)
      pure ()
  | .get => do
    match ← lift (checkSession g.jwtManager req.sessionID) with
    | some _ => pure ()
    | none => do
      let _ ← serveHTTP g.jwtManager .get req.sessionID (req.work g.invalidToolPolicy)
      pure ()

end BrokerRequest

/-- An `initialize` request: the SDK connects a session under a new token. -/
def serveInitialize (m : JWTManager) : Sv Unit := do
  let sid ← lift (generate m)
  if sid = "" then pure ()
  else do
    let _ ← op (.sdkConnect sid)
    pure ()

/-! ## The end of a session -/

/-- Release what is held for the id: the tool scope, the pooled connections and the cache entries. -/
def onGatewaySessionEnd (sid : String) : Sv Unit := do
  op (.deleteScope sid)
  lift (Broker.onGatewaySessionEnd sid)

/-- The goroutine that waits for a session; only a resurrected one has an entry of the handler. -/
def awaitEnd (h : Nat) (sid : String) (resurrected : Bool) : Sv Unit := do
  op (.wait h)
  if resurrected then do
    op (.stopTimer h)
    op (.liveCompareAndDelete sid h)
    onGatewaySessionEnd sid
  else onGatewaySessionEnd sid

inductive SvTask where
  /-- a task of the gateway that does not go through the handler -/
  | gateway (task : Task)
  | serveInitialize
  | request (req : BrokerRequest)
  | awaitEnd (h : Nat) (sid : String) (resurrected : Bool)
  /-- the idle timer of a session fires -/
  | timeout (h : Nat)

def SvTask.code (g : Gateway) : SvTask → Sv Unit
  | .gateway task => lift (task.code g)
  | .serveInitialize => Resurrection.serveInitialize g.jwtManager
  | .request req => req.serve g
  | .awaitEnd h sid resurrected => Resurrection.awaitEnd h sid resurrected
  | .timeout h => op (.close h)

/-! ## Their rules -/

section Rules

variable {α : Type} {A : List SvEv → SessionOp → Prop} {Q : α → List SvEv → Prop} {tr : List SvEv}

lemma obeys_op {o : SessionOp} {f : o.Resp → Sv α} :
    Prog.Obeys A Q (op o >>= f) tr ↔ A tr o ∧ ∀ r, Prog.Obeys A Q (f r) (tr ++ [⟨o, r⟩]) :=
  Iff.rfl

lemma obeys_lift {I : List SvEv → Prop} (p : Gw α) (hA : ∀ tr o, I tr → A tr (.gw o)) (hI : ∀ tr o r,
    I tr → I (tr ++ [⟨.gw o, r⟩])) (h : I tr) : (lift p).Obeys A (fun _ tr' => I tr') tr := by
  induction p generalizing tr with
  | ret a => exact h
  | vis o k ih => exact ⟨hA tr o h, fun r => ih r (hI tr o r h)⟩

lemma lift_bind {β : Type} (p : Gw α) (f : α → Gw β) :
    lift (p >>= f) = lift p >>= fun a => lift (f a) := by
  induction p with
  | ret a => rfl
  | vis o k ih => exact congrArg (Prog.vis (S := sessionSig) (.gw o)) (funext ih)

end Rules

/-! ## The shared objects -/

structure ServerSession where
  sid : String
  /-- connected by the handler and not by the SDK -/
  resurrected : Bool
  closed : Bool := false
  deriving DecidableEq, Repr

inductive IdleTimer where
  /-- no timer, or stopped for good -/
  | none
  | paused
  | armed (due : Time)
  deriving DecidableEq, Repr

structure IdleState where
  refs : Int := 0
  timer : IdleTimer := .none
  deriving DecidableEq, Repr

def sessionIdleTimeout : Time := 30 * 60 * second

namespace IdleState

def startRequest (e : IdleState) : IdleState :=
  match e.timer with
  | .none => e
  | timer => ⟨e.refs + 1, if e.refs = 0 then .paused else timer⟩

def endRequest (now : Time) (e : IdleState) : IdleState :=
  match e.timer with
  | .none => e
  | timer => ⟨e.refs - 1, if e.refs - 1 = 0 then .armed (now + sessionIdleTimeout) else timer⟩

def stopTimer (e : IdleState) : IdleState := { e with timer := .none }

end IdleState

structure SvWorld where
  gw : World
  scopes : ScopeStore
  /-- the sessions connected so far -/
  sessions : List ServerSession := []
  /-- their idle timers -/
  idle : List IdleState := []
  /-- the sessions that the client has initialized -/
  initialized : List Nat := []
  /-- the sessions that a goroutine waits for -/
  awaited : List Nat := []
  /-- the SDK's table -/
  sdk : GoMap Nat := ∅
  live : GoMap Nat := ∅
  locked : Bool := false

namespace SvWorld

def isClosed (w : SvWorld) (h : Nat) : Bool :=
  (w.sessions[h]?).any ServerSession.closed

def isOpen (w : SvWorld) (h : Nat) : Bool :=
  (w.sessions[h]?).any fun s => !s.closed

def close (w : SvWorld) (h : Nat) : SvWorld :=
  { w with
    sessions := w.sessions.modify h fun s => { s with closed := true }
    sdk :=
      match w.sessions[h]? with
      | some s => if w.sdk.lookup s.sid = some h then AList.erase s.sid w.sdk else w.sdk
      | none => w.sdk }

def Answers (g : Gateway) (w : SvWorld) : (o : SessionOp) → o.Resp → SvWorld → Prop
  | .gw o, r, w' => ∃ gw, w.gw.Answers g o r gw ∧ w' = { w with gw := gw }
  | .sdkLoad sid, r, w' => r = w.sdk.lookup sid ∧ w' = w
  | .sdkConnect sid, r, w' => r = w.sessions.length ∧ w' = { w with
      sessions := w.sessions ++ [⟨sid, false, false⟩]
      idle := w.idle ++ [⟨0, .armed (w.gw.now + sessionIdleTimeout)⟩]
      sdk := AList.insert sid w.sessions.length w.sdk }
  | .liveLoad sid, r, w' => r = w.live.lookup sid ∧ w' = w
  | .liveStore sid h, _, w' => w' = { w with live := AList.insert sid h w.live }
  | .liveCompareAndDelete sid h, _, w' => w' = { w with
      live := if w.live.lookup sid = some h then AList.erase sid w.live else w.live }
  | .lock, _, w' => w.locked = false ∧ w' = { w with locked := true }
  | .unlock, _, w' => w' = { w with locked := false }
  | .connect sid, r, w' =>
      (∃ e, r = .error e ∧ w' = w) ∨ r = .ok w.sessions.length ∧ w' = { w with
        sessions := w.sessions ++ [⟨sid, true, false⟩]
        idle := w.idle ++ [⟨0, .none⟩]
        -- its state is that of a session the client has initialized
        initialized := w.sessions.length :: w.initialized }
  | .startTimer h, _, w' => w' = { w with
      idle := w.idle.modify h fun e => { e with timer := .armed (w.gw.now + sessionIdleTimeout) } }
  | .startRequest h, _, w' => w' = { w with idle := w.idle.modify h IdleState.startRequest }
  | .endRequest h, _, w' => w' = { w with idle := w.idle.modify h (IdleState.endRequest w.gw.now) }
  | .stopTimer h, _, w' => w' = { w with idle := w.idle.modify h IdleState.stopTimer }
  | .deliver h, r, w' => r = w.isOpen h ∧ w' = w
  | .initialized h, r, w' => r = !w.initialized.contains h ∧
      w' = { w with initialized := h :: w.initialized }
  | .goWait h, _, w' => w' = { w with awaited := h :: w.awaited }
  | .wait h, _, w' => w.isClosed h = true ∧ w' = w
  | .close h, _, w' => w' = w.close h
  | .setScope sid tools, _, w' => w' = { w with scopes := w.scopes.setScope w.gw.now sid tools }
  | .resetScope sid, _, w' => w' = { w with scopes := w.scopes.resetScope w.gw.now sid }
  | .deleteScope sid, _, w' => w' = { w with scopes := w.scopes.deleteScope sid }

/-- What changes without a call: the gateway's other objects, and the scopes that have expired are
dropped. -/
inductive Env (w : SvWorld) : SvWorld → Prop where
  | gw {gw : World} (h : World.Env w.gw gw) : Env w { w with gw := gw }
  | evictExpired : Env w { w with scopes := w.scopes.evictExpired w.gw.now }

def Fresh (w : SvWorld) : Prop :=
  w.gw.Fresh ∧ w = { gw := w.gw, scopes := { ttl := w.scopes.ttl, maxSize := w.scopes.maxSize } }

end SvWorld

abbrev SvConfig := Config sessionSig SvTask SvWorld

abbrev SvThread := Thread sessionSig SvTask

/-- Which tasks can be started: what goes through the handler is not a task of the gateway, the goroutine
of a session is started once, and a timer fires when it is due. -/
def Starts (c : SvConfig) : SvTask → Prop
  | .gateway (.listTools ..) | .gateway (.delete _) | .gateway (.sessionEnd _) => False
  | .gateway _ | .serveInitialize | .request _ => True
  | .awaitEnd h sid resurrected => h ∈ c.world.awaited ∧
      (∃ s, c.world.sessions[h]? = some s ∧ s.sid = sid ∧ s.resurrected = resurrected) ∧
      ∀ t ∈ c.threads, ∀ sid' r, t.task ≠ .awaitEnd h sid' r
  | .timeout h => ∃ refs due, c.world.idle[h]? = some ⟨refs, .armed due⟩ ∧ due ≤ c.world.gw.now

def system (g : Gateway) : System sessionSig SvTask SvWorld where
  code := SvTask.code g
  Init := SvWorld.Fresh
  Answers := SvWorld.Answers g
  Env := SvWorld.Env
  Starts := Starts

/-! ## A small gateway

A session token that lasts a day, and one answer to each call that the sessions of this gateway make. -/

def dayJWT : String := "e30.eyJleHAiOjg2NDAwfQ.AA"

def daySigner : Signer where
  verify t :=
    if t = dayJWT then
      some { issuer, audience := [sessionAudience], expiresAt := some 86400, notBefore := some 0,
             issuedAt := some 0, id := "1" }
    else none
  verify_compact h := by
    split_ifs at h with hs
    subst hs
    decide
  verify_empty := rfl

def dayGateway : Gateway where
  jwtManager := ⟨daySigner, 86400 * second⟩
  elicitationEnabled := true
  maxRequestBodySize := 0
  a2aBroker := none
  invalidToolPolicy := .filterOut
  elicitationTTL := 60 * second

def gwAnswer (w : World) : (o : Op) → Option (o.Resp × World)
  | .now => some (w.now, w)
  | .uuid => some ("1", w)
  | .sign c => if daySigner.verify dayJWT = some c then some (.ok dayJWT, w) else none
  | .deleteSessions keys => some (.ok (), { w with cache := w.cache.deleteSessions keys })
  | .poolKeys => some (w.pool.pairs.map Prod.fst, w)
  | _ => none

lemma gwAnswer_sound {w w' : World} {o : Op} {r : o.Resp} (h : gwAnswer w o = some (r, w')) :
    w.Answers dayGateway o r w' := by
  cases o with
  | now | uuid | poolKeys =>
    cases h
    first | exact ⟨rfl, rfl⟩ | exact rfl
  | deleteSessions keys =>
    cases h
    exact ⟨rfl, rfl⟩
  | sign c =>
    simp only [gwAnswer] at h
    split_ifs at h with hc
    cases h
    refine ⟨fun t ht => ?_, rfl⟩
    cases ht
    exact hc
  | _ => cases h

def svAnswer (w : SvWorld) : (o : SessionOp) → Option (o.Resp × SvWorld)
  | .gw o => (gwAnswer w.gw o).map fun p => (p.1, { w with gw := p.2 })
  | .sdkLoad sid => some (w.sdk.lookup sid, w)
  | .sdkConnect sid => some (w.sessions.length, { w with
      sessions := w.sessions ++ [⟨sid, false, false⟩]
      idle := w.idle ++ [⟨0, .armed (w.gw.now + sessionIdleTimeout)⟩]
      sdk := AList.insert sid w.sessions.length w.sdk })
  | .liveLoad sid => some (w.live.lookup sid, w)
  | .liveStore sid h => some ((), { w with live := AList.insert sid h w.live })
  | .liveCompareAndDelete sid h => some ((), { w with
      live := if w.live.lookup sid = some h then AList.erase sid w.live else w.live })
  | .lock => if w.locked then none else some ((), { w with locked := true })
  | .unlock => some ((), { w with locked := false })
  | .connect sid => some (.ok w.sessions.length, { w with
      sessions := w.sessions ++ [⟨sid, true, false⟩]
      idle := w.idle ++ [⟨0, .none⟩]
      initialized := w.sessions.length :: w.initialized })
  | .startTimer h => some ((), { w with
      idle := w.idle.modify h fun e => { e with timer := .armed (w.gw.now + sessionIdleTimeout) } })
  | .startRequest h => some ((), { w with idle := w.idle.modify h IdleState.startRequest })
  | .endRequest h => some ((), { w with idle := w.idle.modify h (IdleState.endRequest w.gw.now) })
  | .stopTimer h => some ((), { w with idle := w.idle.modify h IdleState.stopTimer })
  | .deliver h => some (w.isOpen h, w)
  | .initialized h => some (!w.initialized.contains h, { w with initialized := h :: w.initialized })
  | .goWait h => some ((), { w with awaited := h :: w.awaited })
  | .wait h => if w.isClosed h then some ((), w) else none
  | .close h => some ((), w.close h)
  | .setScope sid tools => some ((), { w with scopes := w.scopes.setScope w.gw.now sid tools })
  | .resetScope sid => some ((), { w with scopes := w.scopes.resetScope w.gw.now sid })
  | .deleteScope sid => some ((), { w with scopes := w.scopes.deleteScope sid })

lemma svAnswer_sound {w w' : SvWorld} {o : SessionOp} {r : o.Resp}
    (h : svAnswer w o = some (r, w')) : w.Answers dayGateway o r w' := by
  cases o with
  | gw o =>
    obtain ⟨⟨r', gw⟩, hgw, heq⟩ := map_eq_some_iff.1 h
    cases heq
    exact ⟨gw, gwAnswer_sound hgw, rfl⟩
  | lock =>
    simp only [svAnswer] at h
    split_ifs at h with hlocked
    cases h
    exact ⟨by simpa using hlocked, rfl⟩
  | wait k =>
    simp only [svAnswer] at h
    split_ifs at h with hclosed
    cases h
    exact ⟨hclosed, rfl⟩
  | connect sid =>
    cases h
    exact .inr ⟨rfl, rfl⟩
  | sdkLoad _ | sdkConnect _ | liveLoad _ | deliver _ | initialized _ =>
    cases h
    exact ⟨rfl, rfl⟩
  | _ =>
    cases h
    rfl

def SvTask.awaits : SvTask → Option (Nat × String × Bool)
  | .awaitEnd h sid r => some (h, sid, r)
  | _ => none

lemma SvTask.awaits_eq_some {task : SvTask} {h : Nat} {sid : String} {r : Bool}
    (ht : task.awaits = some (h, sid, r)) : task = .awaitEnd h sid r := by
  cases task with
  | awaitEnd h' sid' r' =>
    cases ht
    rfl
  | _ => cases ht

def svStarts (c : SvConfig) : SvTask → Bool
  | .serveInitialize | .request _ => true
  | .awaitEnd h sid r => c.world.awaited.contains h &&
      (c.world.sessions[h]?).any (fun s => s.sid = sid && s.resurrected = r) &&
      c.threads.all fun t => t.task.awaits.all fun a => a.1 ≠ h
  | .timeout h => (c.world.idle[h]?).any fun e =>
      match e.timer with
      | .armed due => due ≤ c.world.gw.now
      | _ => false
  | .gateway _ => false

lemma svStarts_sound {c : SvConfig} {task : SvTask} (h : svStarts c task = true) : Starts c task := by
  cases task with
  | gateway task => cases h
  | serveInitialize | request _ => exact trivial
  | awaitEnd k sid r =>
    simp only [svStarts, and_eq_true, List.contains_iff_mem, all_eq_true] at h
    obtain ⟨⟨hawaited, hsession⟩, hthreads⟩ := h
    obtain ⟨s, hs, hsid⟩ := (any_eq_true _ _).1 hsession
    simp only [and_eq_true, decide_eq_true_eq] at hsid
    refine ⟨hawaited, ⟨s, hs, hsid⟩, fun t ht sid' r' htask => ?_⟩
    have hother := hthreads t ht
    rw [htask] at hother
    simp [SvTask.awaits] at hother
  | timeout k =>
    obtain ⟨⟨refs, timer⟩, he, hdue⟩ := (any_eq_true _ _).1 h
    cases timer with
    | armed due => exact ⟨refs, due, he, by simpa using hdue⟩
    | none => cases hdue
    | paused => cases hdue

def player {G : SvConfig → Label sessionSig SvTask → Prop}
    (allows : SvConfig → Label sessionSig SvTask → Bool) (hallows : ∀ c l, allows c l = true → G c l) :
    System.Player (system dayGateway) G where
  answer := svAnswer
  answers _ _ _ _ := svAnswer_sound
  starts := svStarts
  starts_sound _ _ := svStarts_sound
  allows := allows
  allows_sound := hallows

def dayWorld : SvWorld where
  gw := { now := 0, table := {}, config := {} }
  scopes := { ttl := 86400 * second, maxSize := 10000 }

lemma dayWorld_fresh : dayWorld.Fresh := ⟨rfl, rfl⟩

def dayPost (call : SessionCall) : SvTask :=
  .request { method := .post, headers := AList.insert gatewaySessionHeader [dayJWT] ∅, call := call }

def later (t : Time) (c : SvConfig) : SvConfig :=
  ⟨{ c.world with gw := { c.world.gw with now := t } }, c.threads⟩

lemma later_step {t : Time} {c : SvConfig} (h : c.world.gw.now ≤ t) :
    (system dayGateway).Step c .env (later t c) :=
  .env (SvWorld.Env.gw (World.Env.tick h))

end McpGateway.Resurrection
