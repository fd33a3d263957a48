import McpGateway.Gateway.Resurrection

/-!
# Incarnations of a session id

A session id can be connected again and again, each time as a new session object, an incarnation.
-/

namespace McpGateway.Resurrection

open Go Effect Session Broker

/-! ## The section under the lock -/

inductive Place where
  | outside
  | inside
  /-- under the lock, and the id was not in the table -/
  | missed (sid : String)
  /-- a session has been connected and is not in the table yet -/
  | opened (sid : String) (h : Nat)
  deriving DecidableEq

def Place.next (p : Place) : SvEv → Place
  | ⟨.lock, _⟩ => .inside
  | ⟨.unlock, _⟩ => .outside
  | ⟨.liveLoad sid, none⟩ => if p = .outside then .outside else .missed sid
  | ⟨.connect sid, .ok h⟩ => .opened sid h
  | ⟨.liveStore _ _, _⟩ => .inside
  | _ => p

def place (tr : List SvEv) : Place := tr.foldl Place.next .outside

@[simp] lemma place_append (tr es : List SvEv) : place (tr ++ es) = es.foldl Place.next (place tr) :=
  foldl_append

variable {e : SvEv}

lemma place_snoc {tr : List SvEv} {pl : Place} (h : place tr = pl) (hquiet : pl.next e = pl) :
    place (tr ++ [e]) = pl := by
  rw [place_append, foldl_cons, foldl_nil, h, hquiet]

/-- What a task may call: the sections under the lock are entered and left, a session is connected under
the lock for an id that is not in the table, and only the goroutine of a session takes it out. -/
def Protocol (task : SvTask) (tr : List SvEv) : SessionOp → Prop
  | .lock => place tr = .outside
  | .unlock => place tr ≠ .outside ∧ ∀ sid h, place tr ≠ .opened sid h
  | .liveLoad _ => ∀ sid h, place tr ≠ .opened sid h
  | .connect sid => place tr = .missed sid
  | .liveStore sid h => place tr = .opened sid h
  | .liveCompareAndDelete sid h => task = .awaitEnd h sid true ∧ (⟨.wait h, ()⟩ : SvEv) ∈ tr
  | _ => True

variable {g : Gateway} {task : SvTask} {tr : List SvEv}

lemma lift_obeys {α : Type} (p : Gw α) {pl : Place} (h : place tr = pl) :
    (lift p).Obeys (Protocol task) (fun _ tr' => place tr' = pl) tr :=
  obeys_lift p (fun _ _ _ => trivial) (fun _ _ _ h => place_snoc h rfl) h

variable {sid : String}

lemma resurrect_obeys (h : place tr = .outside) :
    (resurrect sid).Obeys (Protocol task) (fun _ tr' => place tr' = .outside) tr := by
  refine obeys_op.2 ⟨h, fun _ => obeys_op.2 ⟨by simp [Protocol, Place.next], fun found => ?_⟩⟩
  cases found with
  | some old => exact obeys_op.2 ⟨by simp [Protocol, Place.next], fun _ => by simp [Place.next]⟩
  | none =>
    refine obeys_op.2 ⟨by simp [Protocol, Place.next], fun res => ?_⟩
    cases res with
    | error e => exact obeys_op.2 ⟨by simp [Protocol, Place.next], fun _ => by simp [Place.next]⟩
    | ok new =>
      refine obeys_op.2 ⟨trivial, fun _ => obeys_op.2 ⟨by simp [Protocol, Place.next], fun _ => ?_⟩⟩
      refine obeys_op.2 ⟨trivial, fun _ => obeys_op.2 ⟨by simp [Protocol, Place.next], fun _ => ?_⟩⟩
      simp [Place.next]

variable {h : Nat}

lemma serve_obeys {method : Method} {work : Sv Unit} (hplace : place tr = .outside) (hwork : ∀ tr,
    place tr = .outside → work.Obeys (Protocol task) (fun _ tr' => place tr' = .outside) tr) :
    (serve method h work).Obeys (Protocol task) (fun _ tr' => place tr' = .outside) tr := by
  cases method with
  | delete | get => exact obeys_op.2 ⟨trivial, fun _ => place_snoc hplace rfl⟩
  | post =>
    refine obeys_op.2 ⟨trivial, fun _ => obeys_op.2 ⟨trivial, fun accepted => ?_⟩⟩
    have hout : place (tr ++ [⟨.startRequest h, ()⟩] ++ [⟨.deliver h, accepted⟩]) = .outside :=
      place_snoc (place_snoc hplace rfl) rfl
    have hend : ∀ tr', place tr' = .outside → Prog.Obeys (Protocol task)
        (fun _ tr'' => place tr'' = .outside)
        (op (.endRequest h) >>= fun _ => pure (Handled.delivered h accepted)) tr' := fun tr' h' =>
      obeys_op.2 ⟨trivial, fun _ => place_snoc h' rfl⟩
    cases accepted with
    | true => exact obeys_seq (hwork _ hout) fun _ tr' _ h' => hend tr' h'
    | false => exact hend _ hout

lemma serveHTTP_obeys {m : JWTManager} {method : Method} {work : Nat → Sv Unit}
    (hplace : place tr = .outside) (hwork : ∀ h tr, place tr = .outside →
    (work h).Obeys (Protocol task) (fun _ tr' => place tr' = .outside) tr) :
    (serveHTTP m method sid work).Obeys (Protocol task) (fun _ tr' => place tr' = .outside) tr := by
  refine obeys_op.2 ⟨by simp [Protocol, hplace], fun found => ?_⟩
  have hloaded : place (tr ++ [⟨.liveLoad sid, found⟩]) = .outside := by
    refine place_snoc hplace ?_
    cases found <;> rfl
  cases found with
  | some h => exact serve_obeys hloaded (hwork h)
  | none =>
    refine obeys_op.2 ⟨trivial, fun res => ?_⟩
    have hmissed := place_snoc (e := ⟨.sdkLoad sid, res⟩) hloaded rfl
    cases res with
    | some h => exact serve_obeys hmissed (hwork h)
    | none =>
      dsimp only
      split_ifs with hdelete
      · exact hmissed
      · refine obeys_op.2 ⟨trivial, fun now => ?_⟩
        have hnow := place_snoc (e := ⟨.gw .now, now⟩) hmissed rfl
        split
        · exact hnow
        · exact hnow
        · refine obeys_seq (resurrect_obeys hnow) fun res tr' _ hout => ?_
          cases res with
          | error e => exact hout
          | ok h => exact serve_obeys hout (hwork h)

lemma request_obeys (req : BrokerRequest) :
    (req.serve g).Obeys (Protocol task) (fun _ tr' => place tr' = .outside) [] := by
  have hwork : ∀ h tr, place tr = .outside → (req.work g.invalidToolPolicy h).Obeys (Protocol task)
      (fun _ tr' => place tr' = .outside) tr := by
    intro h tr hplace
    unfold BrokerRequest.work
    split
    · refine obeys_op.2 ⟨trivial, fun first => ?_⟩
      have hfirst := place_snoc (e := ⟨.initialized h, first⟩) hplace rfl
      cases first with
      | true => exact ⟨trivial, fun _ => place_snoc hfirst rfl⟩
      | false => exact hfirst
    · exact obeys_seq (lift_obeys _ hplace) fun _ _ _ h' => h'
    · split_ifs
      · exact ⟨trivial, fun _ => place_snoc hplace rfl⟩
      · exact ⟨trivial, fun _ => place_snoc hplace rfl⟩
    · exact hplace
  have hdrop : ∀ tr, place tr = .outside → Prog.Obeys (Protocol task) (fun _ tr' => place tr' = .outside)
      (if req.sessionID = "" then pure () else do
        let _ ← serveHTTP g.jwtManager .delete req.sessionID fun _ => pure ()
        pure ()) tr := by
    intro tr hplace
    split_ifs
    · exact hplace
    · exact obeys_seq (serveHTTP_obeys hplace fun _ _ h' => h') fun _ _ _ h' => h'
  unfold BrokerRequest.serve
  dsimp only
  split
  · refine obeys_seq (lift_obeys _ rfl) fun res tr' _ hout => ?_
    split
    · exact hout
    · exact hout
    · exact hdrop tr' hout
  · refine obeys_seq (lift_obeys _ rfl) fun res tr' _ hout => ?_
    split
    · exact hdrop tr' hout
    · exact obeys_seq (serveHTTP_obeys hout hwork) fun _ _ _ h' => h'
  · refine obeys_seq (lift_obeys _ rfl) fun res tr' _ hout => ?_
    split
    · exact hout
    · exact obeys_seq (serveHTTP_obeys hout hwork) fun _ _ _ h' => h'

lemma code_obeys (g : Gateway) (task : SvTask) :
    (task.code g).Obeys (Protocol task) (fun _ _ => True) [] := by
  cases task with
  | gateway task => exact obeys_mono (lift_obeys _ rfl) (fun _ _ h => h) fun _ _ _ => trivial
  | serveInitialize =>
    refine obeys_seq (lift_obeys _ rfl) fun sid tr' _ _ => ?_
    split_ifs
    · exact trivial
    · exact obeys_op.2 ⟨trivial, fun _ => trivial⟩
  | request req => exact obeys_mono (request_obeys req) (fun _ _ h => h) fun _ _ _ => trivial
  | timeout h => exact ⟨trivial, fun _ => trivial⟩
  | awaitEnd h sid resurrected =>
    have hend : ∀ tr, place tr = .outside → (onGatewaySessionEnd sid).Obeys
        (Protocol (.awaitEnd h sid resurrected)) (fun _ _ => True) tr := by
      intro tr hplace
      refine obeys_op.2 ⟨trivial, fun _ => ?_⟩
      exact obeys_mono (lift_obeys _ (place_snoc hplace rfl)) (fun _ _ h => h) fun _ _ _ => trivial
    refine obeys_op.2 ⟨trivial, fun _ => ?_⟩
    cases resurrected with
    | true =>
      refine obeys_op.2 ⟨trivial, fun _ => obeys_op.2 ⟨⟨rfl, by simp⟩, fun _ => ?_⟩⟩
      exact hend _ rfl
    | false => exact hend _ rfl

/-! ## The table -/

lemma mutex (g : Gateway) :
    System.Mutex (system g) Protocol (fun tr => place tr ≠ .outside) fun w => w.locked = true where
  outside h := h rfl
  env h hw := by
    cases h with
    | gw => exact hw
    | evictExpired => exact hw
  enter := by
    rintro w w' task tr ⟨o, r⟩ hA hans hout hin
    rw [not_not] at hout
    simp only [place_append, foldl_cons, foldl_nil, hout] at hin
    cases o with
    | lock =>
      obtain ⟨hfree, rfl⟩ := hans
      exact ⟨by simp [hfree], rfl⟩
    | connect sid | liveStore sid h => exact absurd (hout.symm.trans hA) (by simp)
    | liveLoad sid => cases r <;> exact absurd rfl hin
    | _ => exact absurd rfl hin
  stay := by
    rintro w w' task tr ⟨o, r⟩ hA hans hiff hw
    cases o with
    | gw o =>
      obtain ⟨gw, -, rfl⟩ := hans
      exact hw
    | unlock => exact absurd (by simp [Place.next]) (hiff.2 hA.1)
    | connect sid =>
      rcases hans with ⟨e, -, rfl⟩ | ⟨-, rfl⟩
      · exact hw
      · exact hw
    | lock => cases hw.symm.trans hans.1
    | sdkLoad _ | sdkConnect _ | liveLoad _ | deliver _ | initialized _ | wait _ =>
      obtain ⟨-, rfl⟩ := hans
      exact hw
    | _ =>
      cases hans
      exact hw

namespace SvWorld

/-- The handler has connected the session `h` for the id. -/
def Resurrected (w : SvWorld) (h : Nat) (sid : String) : Prop :=
  ∃ s, w.sessions[h]? = some s ∧ s.sid = sid ∧ s.resurrected = true

/-- An open session that was resurrected under the id. -/
def Live (w : SvWorld) (h : Nat) (sid : String) : Prop :=
  ∃ s, w.sessions[h]? = some s ∧ s.sid = sid ∧ s.resurrected = true ∧ s.closed = false

variable {w w' : SvWorld} {h : Nat} {sid : String}

lemma Live.not_closed (hw : w.Live h sid) : w.isClosed h = false := by
  obtain ⟨s, hs, -, -, hopen⟩ := hw
  rw [isClosed, hs]
  exact hopen

inductive Connects (w : SvWorld) : SessionOp → SvWorld → Prop where
  | same {o : SessionOp} {w' : SvWorld} (hs : w'.sessions = w.sessions) : Connects w o w'
  | sdkConnect {w' : SvWorld} (sid : String) (hs : w'.sessions = w.sessions ++ [⟨sid, false, false⟩]) :
      Connects w (.sdkConnect sid) w'
  | connect {w' : SvWorld} (sid : String) (hs : w'.sessions = w.sessions ++ [⟨sid, true, false⟩]) :
      Connects w (.connect sid) w'
  | close (h : Nat) : Connects w (.close h) (w.close h)

variable {o : SessionOp}

lemma Answers.connects {r : o.Resp} (hans : w.Answers g o r w') : Connects w o w' := by
  cases o with
  | gw o =>
    obtain ⟨gw, -, rfl⟩ := hans
    exact .same rfl
  | sdkConnect sid =>
    obtain ⟨-, rfl⟩ := hans
    exact .sdkConnect sid rfl
  | connect sid =>
    rcases hans with ⟨e, -, rfl⟩ | ⟨-, rfl⟩
    · exact .same rfl
    · exact .connect sid rfl
  | close h =>
    cases hans
    exact .close h
  | sdkLoad _ | liveLoad _ | lock | deliver _ | initialized _ | wait _ =>
    obtain ⟨-, rfl⟩ := hans
    exact .same rfl
  | _ =>
    cases hans
    exact .same rfl

lemma Connects.session (hc : Connects w o w') {s : ServerSession} (hs : w.sessions[h]? = some s) : ∃ s',
    w'.sessions[h]? = some s' ∧ s'.sid = s.sid ∧ s'.resurrected = s.resurrected ∧ (s.closed = true →
    s'.closed = true) := by
  have happend : ∀ x : ServerSession, (w.sessions ++ [x])[h]? = some s := fun x =>
    (List.getElem?_append_left (List.getElem?_eq_some_iff.1 hs).1).trans hs
  cases hc with
  | same heq => exact ⟨s, heq ▸ hs, rfl, rfl, id⟩
  | sdkConnect sid heq | connect sid heq => exact ⟨s, heq ▸ happend _, rfl, rfl, id⟩
  | close k =>
    refine ⟨if k = h then { s with closed := true } else s, ?_, ?_, ?_, ?_⟩
    · simp only [SvWorld.close, List.getElem?_modify, hs]
      rfl
    all_goals split_ifs <;> simp

lemma Connects.resurrected (hc : Connects w o w') (hw : w.Resurrected h sid) : w'.Resurrected h sid := by
  obtain ⟨s, hs, hsid, hr⟩ := hw
  obtain ⟨s', hs', hsid', hr', -⟩ := hc.session hs
  exact ⟨s', hs', hsid'.trans hsid, hr'.trans hr⟩

lemma Connects.closed (hc : Connects w o w') (hw : w.isClosed h = true) : w'.isClosed h = true := by
  obtain ⟨s, hs, hclosed⟩ := (any_eq_true _ _).1 hw
  obtain ⟨s', hs', -, -, hclosed'⟩ := hc.session hs
  exact (any_eq_true _ _).2 ⟨s', hs', hclosed' hclosed⟩

lemma Connects.live (hc : Connects w o w') (hw : w'.Live h sid) :
    w.Live h sid ∨ o = .connect sid ∧ h = w.sessions.length := by
  obtain ⟨s, hs, hsid, hr, hopen⟩ := hw
  have hsnoc : ∀ x : ServerSession, (w.sessions ++ [x])[h]? = some s →
      w.sessions[h]? = some s ∨ h = w.sessions.length ∧ s = x := by
    intro x hx
    rw [List.getElem?_append] at hx
    split_ifs at hx with hlt
    · exact .inl hx
    · obtain ⟨hzero, rfl⟩ : h - w.sessions.length = 0 ∧ x = s := by
        simpa [List.getElem?_eq_some_iff] using hx
      exact .inr ⟨by omega, rfl⟩
  cases hc with
  | same heq => exact .inl ⟨s, heq ▸ hs, hsid, hr, hopen⟩
  | sdkConnect sid' heq =>
    rcases hsnoc _ (heq ▸ hs) with hold | ⟨-, rfl⟩
    · exact .inl ⟨s, hold, hsid, hr, hopen⟩
    · cases hr
  | connect sid' heq =>
    rcases hsnoc _ (heq ▸ hs) with hold | ⟨hlen, rfl⟩
    · exact .inl ⟨s, hold, hsid, hr, hopen⟩
    · exact .inr ⟨congrArg _ hsid, hlen⟩
  | close k =>
    simp only [SvWorld.close, List.getElem?_modify, Option.map_eq_map, map_eq_some_iff] at hs
    obtain ⟨s₀, hs₀, rfl⟩ := hs
    split_ifs at hsid hr hopen
    exact .inl ⟨s₀, hs₀, hsid, hr, hopen⟩

/-- What a call does to the table of the live sessions and to the sessions that are waited for. -/
lemma Answers.kept {r : o.Resp} (hans : w.Answers g o r w') :
    ((∃ sid h, o = .liveStore sid h ∧ w'.live = AList.insert sid h w.live) ∨
      (∃ sid h, o = .liveCompareAndDelete sid h ∧ w.live.lookup sid = some h ∧
        w'.live = AList.erase sid w.live) ∨ w'.live = w.live) ∧
    ((∃ h, o = .goWait h ∧ w'.awaited = h :: w.awaited) ∨ w'.awaited = w.awaited) := by
  cases o with
  | gw o =>
    obtain ⟨gw, -, rfl⟩ := hans
    exact ⟨.inr (.inr rfl), .inr rfl⟩
  | liveStore sid h =>
    cases hans
    exact ⟨.inl ⟨sid, h, rfl, rfl⟩, .inr rfl⟩
  | liveCompareAndDelete sid h =>
    cases hans
    by_cases hentry : w.live.lookup sid = some h
    · exact ⟨.inr (.inl ⟨sid, h, rfl, hentry, if_pos hentry⟩), .inr rfl⟩
    · exact ⟨.inr (.inr (if_neg hentry)), .inr rfl⟩
  | goWait h =>
    cases hans
    exact ⟨.inr (.inr rfl), .inl ⟨h, rfl, rfl⟩⟩
  | connect sid => rcases hans with ⟨e, -, rfl⟩ | ⟨-, rfl⟩ <;> exact ⟨.inr (.inr rfl), .inr rfl⟩
  | sdkLoad _ | sdkConnect _ | liveLoad _ | lock | deliver _ | initialized _ | wait _ =>
    obtain ⟨-, rfl⟩ := hans
    exact ⟨.inr (.inr rfl), .inr rfl⟩
  | _ =>
    cases hans
    exact ⟨.inr (.inr rfl), .inr rfl⟩

end SvWorld

/-- The thread `i` stands at the place `p`. -/
def Placed (c : SvConfig) (i : Nat) (p : Place) : Prop :=
  ∃ t, c.threads[i]? = some t ∧ place t.trace = p

/-- What the table of live sessions, the requests under way and the sessions themselves agree on. -/
structure Consistent (c : SvConfig) : Prop where
  entry : ∀ sid h, c.world.live.lookup sid = some h → c.world.Resurrected h sid
  missed : ∀ i sid, Placed c i (.missed sid) → c.world.live.lookup sid = none
  opened : ∀ i sid h, Placed c i (.opened sid h) →
    c.world.live.lookup sid = none ∧ c.world.Resurrected h sid
  tabled : ∀ sid h, c.world.Live h sid →
    c.world.live.lookup sid = some h ∨ ∃ i, Placed c i (.opened sid h)

section Runs

variable {G : SvConfig → Label sessionSig SvTask → Prop} {c c' : SvConfig}
  {l : Label sessionSig SvTask} {i : Nat}

lemma placed_call (hs : (system g).Step c (.call i e) c') {j : Nat} {p : Place} :
    Placed c' j p ↔ if j = i then ∃ q, Placed c i q ∧ p = q.next e else Placed c j p := by
  split_ifs with hji
  · subst hji
    obtain ⟨t, k, ht, -, -, hnew⟩ := hs.caller rfl
    constructor
    · rintro ⟨t', ht', rfl⟩
      obtain rfl := mem_unique hnew ht'
      exact ⟨place t.trace, ⟨t, ht, rfl⟩, by simp⟩
    · rintro ⟨q, ⟨t', ht', rfl⟩, rfl⟩
      obtain rfl := mem_unique ht ht'
      exact ⟨_, hnew, by simp⟩
  · unfold Placed
    rw [hs.others hji]

lemma placed_inj {p q : Place} (hp : Placed c i p) (hq : Placed c i q) : p = q := by
  obtain ⟨t, ht, rfl⟩ := hp
  obtain ⟨t', ht', rfl⟩ := hq
  rw [mem_unique ht ht']

lemma placed_unique (hc : (system g).Reachable G c) {j : Nat} {p q : Place} (hi : Placed c i p)
    (hj : Placed c j q) (hp : p ≠ .outside) (hq : q ≠ .outside) : i = j := by
  obtain ⟨t, ht, rfl⟩ := hi
  obtain ⟨u, hu, rfl⟩ := hj
  exact ((mutex g).exclusive (code_obeys g) hc).unique i j t u ht hu hp hq

lemma allowed (hc : (system g).Reachable G c)
    (hs : (system g).Step c (.call i e) c') : ∃ t, c.threads[i]? = some t ∧
      Protocol t.task t.trace e.op ∧ SvWorld.Answers g c.world e.op e.resp c'.world := by
  obtain ⟨t, k, ht, hrest, hans, -⟩ := hs.caller rfl
  exact ⟨t, ht, hc.allowed (code_obeys g) (mem_of_getElem? ht) hrest, hans⟩

variable {t : SvThread}

lemma closed_of_waited (hc : (system g).Reachable G c) (ht : t ∈ c.threads)
    (hwait : (⟨.wait h, ()⟩ : SvEv) ∈ t.trace) : c.world.isClosed h = true := by
  refine hc.answered ht hwait ?_ ?_
  · intro c l c' hs hclosed
    cases hs with
    | call _ _ hans => exact (SvWorld.Answers.connects hans).closed hclosed
    | env henv => cases henv <;> exact hclosed
    | start => exact hclosed
  · intro c i c' hc _ hs
    obtain ⟨t, -, -, hclosed, heq⟩ := allowed hc hs
    rw [heq]
    exact hclosed

lemma Consistent.call (h : Consistent c) (hs : (system g).Step c (.call i e) c')
    (hconnects : SvWorld.Connects c.world e.op c'.world)
    (hold : ∀ sid h, c'.world.Live h sid → c.world.Live h sid)
    (hlive : c'.world.live = c.world.live)
    (hnext : ∀ q, Placed c i q → q.next e = q ∨ (∀ sid h, q ≠ .opened sid h) ∧
      (∀ sid h, q.next e ≠ .opened sid h) ∧
      ∀ sid, q.next e = .missed sid → c.world.live.lookup sid = none) : Consistent c' where
  entry sid h' hentry := hconnects.resurrected (h.entry sid h' (hlive ▸ hentry))
  missed j sid hj := by
    rw [hlive]
    have hplaced := (placed_call hs).1 hj
    split_ifs at hplaced with hji
    · obtain ⟨q, hq, hmissed⟩ := hplaced
      rcases hnext q hq with hsame | ⟨-, -, hnone⟩
      · rw [hsame] at hmissed
        exact h.missed i sid (hmissed ▸ hq)
      · exact hnone sid hmissed.symm
    · exact h.missed j sid hplaced
  opened j sid h' hj := by
    rw [hlive]
    have hbefore : ∃ k, Placed c k (.opened sid h') := by
      have hplaced := (placed_call hs).1 hj
      split_ifs at hplaced with hji
      · obtain ⟨q, hq, hopened⟩ := hplaced
        rcases hnext q hq with hsame | ⟨-, hnot, -⟩
        · rw [hsame] at hopened
          exact ⟨i, hopened ▸ hq⟩
        · exact absurd hopened.symm (hnot sid h')
      · exact ⟨j, hplaced⟩
    obtain ⟨k, hk⟩ := hbefore
    exact ⟨(h.opened k sid h' hk).1, hconnects.resurrected (h.opened k sid h' hk).2⟩
  tabled sid h' hlives := by
    rw [hlive]
    -- a session that is opened and not yet stored stays with the thread that opened it
    rcases h.tabled sid h' (hold sid h' hlives) with hentry | ⟨k, hk⟩
    · exact .inl hentry
    · refine .inr ⟨k, (placed_call hs).2 ?_⟩
      split_ifs with hki
      · subst hki
        rcases hnext _ hk with hsame | ⟨hnot, -, -⟩
        · exact ⟨_, hk, hsame.symm⟩
        · exact absurd rfl (hnot sid h')
      · exact hk

lemma consistent_connect {new : Nat} (h : Consistent c)
    (hs : (system g).Step c (.call i ⟨.connect sid, .ok new⟩) c') (hi : Placed c i (.missed sid))
    (hw : c'.world.sessions = c.world.sessions ++ [⟨sid, true, false⟩])
    (hnew : new = c.world.sessions.length) (hlive : c'.world.live = c.world.live) : Consistent c' := by
  have hconnects : SvWorld.Connects c.world (.connect sid) c'.world := .connect sid hw
  have hothers : ∀ {j : Nat} {p : Place}, Placed c' j p →
      j = i ∧ p = .opened sid new ∨ Placed c j p := by
    intro j p hj
    have hplaced := (placed_call hs).1 hj
    split_ifs at hplaced with hji
    · obtain ⟨q, -, rfl⟩ := hplaced
      exact .inl ⟨hji, rfl⟩
    · exact .inr hplaced
  have hopened : Placed c' i (.opened sid new) := (placed_call hs).2 (by
    rw [if_pos rfl]
    exact ⟨_, hi, rfl⟩)
  refine ⟨fun sid' h' hentry => hconnects.resurrected (h.entry sid' h' (hlive ▸ hentry)), ?_, ?_, ?_⟩
  · intro j sid' hj
    rw [hlive]
    rcases hothers hj with ⟨-, hplace⟩ | hold
    · cases hplace
    · exact h.missed j sid' hold
  · intro j sid' h' hj
    rw [hlive]
    rcases hothers hj with ⟨-, hplace⟩ | hold
    · cases hplace
      refine ⟨h.missed i _ hi, ⟨_, true, false⟩, ?_, rfl, rfl⟩
      rw [hw, hnew]
      exact List.getElem?_concat_length
    · exact ⟨(h.opened j sid' h' hold).1, hconnects.resurrected (h.opened j sid' h' hold).2⟩
  · intro sid' h' hlives
    rw [hlive]
    rcases hconnects.live hlives with hold | ⟨hsid, hlen⟩
    · rcases h.tabled sid' h' hold with hentry | ⟨k, hk⟩
      · exact .inl hentry
      · refine .inr ⟨k, (placed_call hs).2 ?_⟩
        -- the caller had missed the id, so the session was opened elsewhere
        have hki : k ≠ i := by
          rintro rfl
          cases placed_inj hk hi
        rw [if_neg hki]
        exact hk
    · cases hsid
      exact .inr ⟨i, hlen ▸ hnew ▸ hopened⟩

lemma consistent_liveStore {h₀ : Nat} {r : Unit} (h : Consistent c)
    (hc : (system g).Reachable G c) (hs : (system g).Step c (.call i ⟨.liveStore sid h₀, r⟩) c')
    (hi : Placed c i (.opened sid h₀)) (hsessions : c'.world.sessions = c.world.sessions)
    (hlive : c'.world.live = AList.insert sid h₀ c.world.live) : Consistent c' := by
  have hconnects : SvWorld.Connects c.world (.liveStore sid h₀) c'.world := .same hsessions
  -- nobody else is in the section
  have hothers : ∀ {j : Nat} {p : Place}, Placed c' j p → p = .inside ∨ p = .outside := by
    intro j p hj
    have hplaced := (placed_call hs).1 hj
    split_ifs at hplaced with hji
    · obtain ⟨q, -, rfl⟩ := hplaced
      exact .inl rfl
    · by_contra hp
      exact hji (placed_unique hc hplaced hi (fun hout => hp (.inr hout)) (by simp))
  refine ⟨?_, ?_, ?_, ?_⟩
  · intro sid' h' hentry
    rw [hlive, lookup_insert] at hentry
    split_ifs at hentry with heq
    · cases hentry
      rw [heq]
      exact hconnects.resurrected (h.opened i sid h₀ hi).2
    · exact hconnects.resurrected (h.entry sid' h' hentry)
  · intro j sid' hj
    cases hothers hj with
    | inl hp => cases hp
    | inr hp => cases hp
  · intro j sid' h' hj
    cases hothers hj with
    | inl hp => cases hp
    | inr hp => cases hp
  · intro sid' h' hlives
    rcases hconnects.live hlives with hold | ⟨hop, -⟩
    · refine .inl ?_
      rw [hlive, lookup_insert]
      rcases h.tabled sid' h' hold with hentry | ⟨k, hk⟩
      · rw [if_neg]
        · exact hentry
        · rintro rfl
          cases hentry.symm.trans (h.opened i _ h₀ hi).1
      · obtain rfl := placed_unique hc hk hi (by simp) (by simp)
        cases placed_inj hk hi
        rw [if_pos rfl]
    · cases hop

lemma consistent_delete {h₀ : Nat} {r : Unit} (h : Consistent c)
    (hs : (system g).Step c (.call i ⟨.liveCompareAndDelete sid h₀, r⟩) c')
    (hclosed : c.world.isClosed h₀ = true) (hentry₀ : c.world.live.lookup sid = some h₀)
    (hsessions : c'.world.sessions = c.world.sessions)
    (hlive : c'.world.live = AList.erase sid c.world.live) : Consistent c' := by
  have hconnects : SvWorld.Connects c.world (.liveCompareAndDelete sid h₀) c'.world := .same hsessions
  have hplaced : ∀ {j : Nat} {p : Place}, Placed c' j p ↔ Placed c j p := by
    intro j p
    rw [placed_call hs]
    split_ifs with hji
    · subst hji
      constructor
      · rintro ⟨q, hq, rfl⟩
        exact hq
      · intro hp
        exact ⟨p, hp, rfl⟩
    · exact Iff.rfl
  have hnone : ∀ {sid'}, c.world.live.lookup sid' = none → c'.world.live.lookup sid' = none := by
    intro sid' hnone
    rw [hlive, lookup_erase, hnone, ite_self]
  refine ⟨?_, ?_, ?_, ?_⟩
  · intro sid' h' hentry
    rw [hlive, lookup_erase] at hentry
    split_ifs at hentry with heq
    exact hconnects.resurrected (h.entry sid' h' hentry)
  · exact fun j sid' hj => hnone (h.missed j sid' (hplaced.1 hj))
  · intro j sid' h' hj
    have hold := h.opened j sid' h' (hplaced.1 hj)
    exact ⟨hnone hold.1, hconnects.resurrected hold.2⟩
  · intro sid' h' hlives
    rcases hconnects.live hlives with hold | ⟨hop, -⟩
    · rcases h.tabled sid' h' hold with hentry | ⟨k, hk⟩
      · refine .inl ?_
        rw [hlive, lookup_erase, if_neg]
        · exact hentry
        · -- the entry that is taken out is that of a closed session
          rintro rfl
          obtain rfl := mem_unique hentry hentry₀
          exact absurd hold.not_closed (by simp [hclosed])
      · exact .inr ⟨k, hplaced.2 hk⟩
    · cases hop

lemma consistent (hc : (system g).Reachable G c) : Consistent c := by
  refine hc.invariant ?_ ?_
  · rintro w ⟨-, hw⟩
    rw [hw]
    refine ⟨fun sid h hentry => ?_, fun i sid hi => ?_, fun i sid h hi => ?_, fun sid h hlives => ?_⟩
    · cases hentry
    · obtain ⟨t, ht, -⟩ := hi
      cases ht
    · obtain ⟨t, ht, -⟩ := hi
      cases ht
    · obtain ⟨s, hs, -⟩ := hlives
      cases hs
  · intro c l c' hc ih _ hs
    cases l with
    | env =>
      cases hs with
      | env henv =>
        cases henv with
        | gw | evictExpired => exact ⟨ih.entry, ih.missed, ih.opened, ih.tabled⟩
    | start task =>
      -- the new thread stands outside
      have hplaced : ∀ {j : Nat} {p : Place}, Placed c' j p → Placed c j p ∨ p = .outside := by
        rintro j p ⟨t, ht, rfl⟩
        rcases hs.thread_cases ht with hold | ⟨_, _, _, _, hl, _⟩ | ⟨_, _, _, _, rfl⟩
        · exact .inl ⟨t, hold, rfl⟩
        · cases hl
        · exact .inr rfl
      have hkept : ∀ {j : Nat} {p : Place}, Placed c j p → Placed c' j p := by
        rintro j p ⟨t, ht, rfl⟩
        cases hs with
        | start =>
          exact ⟨t, (List.getElem?_append_left (List.getElem?_eq_some_iff.1 ht).1).trans ht, rfl⟩
      have hworld : c'.world = c.world := by
        cases hs with
        | start => rfl
      refine ⟨hworld ▸ ih.entry, fun j sid hj => ?_, fun j sid h hj => ?_, fun sid h hlives => ?_⟩
      · rw [hworld]
        exact ih.missed j sid ((hplaced hj).resolve_right (by simp))
      · rw [hworld]
        exact ih.opened j sid h ((hplaced hj).resolve_right (by simp))
      · rw [hworld] at hlives ⊢
        exact (ih.tabled sid h hlives).imp_right fun ⟨k, hk⟩ => ⟨k, hkept hk⟩
    | call i e =>
      obtain ⟨t, ht, hA, hans⟩ := allowed hc hs
      have hi : Placed c i (place t.trace) := ⟨t, ht, rfl⟩
      have hplace : ∀ {q}, Placed c i q → q = place t.trace := fun hq => placed_inj hq hi
      have hconnects := hans.connects
      have hlive : (∀ sid h, e.op ≠ .liveStore sid h) → (∀ sid h, e.op ≠ .liveCompareAndDelete sid h) →
          c'.world.live = c.world.live := by
        intro hstore hdelete
        rcases hans.kept.1 with ⟨sid, h, hop, -⟩ | ⟨sid, h, hop, -⟩ | hlive
        · exact absurd hop (hstore sid h)
        · exact absurd hop (hdelete sid h)
        · exact hlive
      have hold : (∀ sid, e.op ≠ .connect sid) → ∀ sid h, c'.world.Live h sid → c.world.Live h sid :=
        fun hop sid h hlives => (hconnects.live hlives).resolve_right fun hnew => hop sid hnew.1
      obtain ⟨o, r⟩ := e
      cases o with
      | connect sid =>
        rcases hans with ⟨e, rfl, hw⟩ | ⟨rfl, hw⟩
        · exact ih.call hs hconnects (fun _ _ => hw ▸ id) (by rw [hw])
            fun q _ => .inl (by cases q <;> rfl)
        · exact consistent_connect ih hs (hA ▸ hi) (by rw [hw]) rfl (by rw [hw])
      | liveStore sid h =>
        exact consistent_liveStore ih hc hs (hA ▸ hi) (by rw [hans]) (by rw [hans])
      | liveCompareAndDelete sid h =>
        by_cases hentry : c.world.live.lookup sid = some h
        · have hclosed := closed_of_waited hc (mem_of_getElem? ht) hA.2
          refine consistent_delete ih hs hclosed hentry (by rw [hans]) ?_
          rw [hans]
          exact if_pos hentry
        · refine ih.call hs hconnects (hold (by simp)) ?_ fun q _ => .inl (by cases q <;> rfl)
          rw [hans]
          exact if_neg hentry
      | lock =>
        refine ih.call hs hconnects (hold (by simp)) (hlive (by simp) (by simp)) fun q hq => .inr ?_
        obtain rfl := (hplace hq).trans hA
        simp [Place.next]
      | unlock =>
        refine ih.call hs hconnects (hold (by simp)) (hlive (by simp) (by simp)) fun q hq => .inr ?_
        obtain rfl := hplace hq
        exact ⟨hA.2, by simp [Place.next], by simp [Place.next]⟩
      | liveLoad sid =>
        refine ih.call hs hconnects (hold (by simp)) (hlive (by simp) (by simp)) fun q hq => ?_
        obtain rfl := hplace hq
        cases r with
        | some h => exact .inl rfl
        | none =>
          by_cases hout : place t.trace = .outside
          · exact .inl (by simp [Place.next, hout])
          · refine .inr ⟨hA, by simp [Place.next, hout], fun sid' hmissed => ?_⟩
            -- the table has just been looked at
            simp only [Place.next, hout, if_false, Place.missed.injEq] at hmissed
            exact hmissed ▸ hans.1.symm
      | _ =>
        exact ih.call hs hconnects (hold (by simp)) (hlive (by simp) (by simp))
          fun q _ => .inl (by cases q <;> rfl)

/-- No session id has two live sessions. -/
def OneLive (c : SvConfig) : Prop :=
  ∀ sid h h', c.world.Live h sid → c.world.Live h' sid → h = h'

/-- An entry of the handler's table is only taken out by the goroutine of its own session, which is
closed. -/
def OwnEntry (g : Gateway) (c : SvConfig) : Prop :=
  ∀ l c' sid h, (system g).Step c l c' → c.world.live.lookup sid = some h →
    c'.world.live.lookup sid ≠ some h → ∃ i t, c.threads[i]? = some t ∧
      t.task = .awaitEnd h sid true ∧ l = .call i ⟨.liveCompareAndDelete sid h, ()⟩ ∧
      c.world.isClosed h = true

lemma oneLive (hc : (system g).Reachable G c) : OneLive c := by
  intro sid h h' hlive hlive'
  have hcons := consistent hc
  rcases hcons.tabled sid h hlive with hentry | ⟨i, hi⟩
  · rcases hcons.tabled sid h' hlive' with hentry' | ⟨j, hj⟩
    · exact mem_unique hentry hentry'
    · cases hentry.symm.trans (hcons.opened j sid h' hj).1
  · rcases hcons.tabled sid h' hlive' with hentry' | ⟨j, hj⟩
    · cases hentry'.symm.trans (hcons.opened i sid h hi).1
    · -- both have been opened by the thread that holds the lock
      obtain rfl := placed_unique hc hi hj (by simp) (by simp)
      cases placed_inj hi hj
      rfl

lemma ownEntry (hc : (system g).Reachable G c) : OwnEntry g c := by
  intro l c' sid h hs hentry hgone
  cases l with
  | env =>
    cases hs with
    | env henv => cases henv <;> exact absurd hentry hgone
  | start task =>
    cases hs with
    | start => exact absurd hentry hgone
  | call i e =>
    obtain ⟨t, ht, hA, hans⟩ := allowed hc hs
    obtain ⟨o, r⟩ := e
    rcases hans.kept.1 with ⟨sid', h', hop, hlive⟩ | ⟨sid', h', hop, hentry', hlive⟩ | hlive
    · -- a session is only stored for an id that is not in the table
      cases hop
      rw [hlive, lookup_insert] at hgone
      split_ifs at hgone with heq
      · cases hentry.symm.trans (heq ▸ ((consistent hc).opened i _ _ ⟨t, ht, hA⟩).1)
      · exact absurd hentry hgone
    · cases hop
      rw [hlive, lookup_erase] at hgone
      split_ifs at hgone with heq
      · subst heq
        obtain rfl := mem_unique hentry hentry'
        exact ⟨i, t, ht, hA.1, rfl, closed_of_waited hc (mem_of_getElem? ht) hA.2⟩
      · exact absurd hentry hgone
    · exact absurd (hlive ▸ hentry) hgone

end Runs

/-! ## What an incarnation records -/

/-- The calls by which a session records something under its id: a tool scope, a pooled connection or the
id of an upstream session. -/
def IsRecord : SessionOp → Prop
  | .setScope .. | .resetScope _ | .gw (.poolLoadOrStore ..) | .gw (.addSession ..) => True
  | _ => False

def Holds (w : SvWorld) : SvEv → Prop
  | ⟨.setScope sid tools, _⟩ => (w.scopes.scopes.lookup sid).map SessionScope.tools = some (some tools)
  | ⟨.resetScope sid, _⟩ => (w.scopes.scopes.lookup sid).map SessionScope.tools = some none
  | ⟨.gw (.poolLoadOrStore key s _), r⟩ => r.2 = false ∧ (w.gw.pool.lookup key).map Prod.fst = some s
  | ⟨.gw (.addSession key S u _), _⟩ => w.gw.cache.field key S = some u
  | _ => False

variable {w : SvWorld}

lemma Holds.isRecord (h : Holds w e) : IsRecord e.op := by
  unfold Holds at h
  split at h
  · exact trivial
  · exact trivial
  · exact trivial
  · exact trivial
  · exact h.elim

/-- The session `h` has taken the request. -/
def TakenBy (h : Nat) (tr : List SvEv) : Prop := (⟨.deliver h, true⟩ : SvEv) ∈ tr

/-- The call was made for a request that the session `h` has taken. -/
def Recorded (c : SvConfig) (h : Nat) (e : SvEv) : Prop :=
  ∃ t ∈ c.threads, ∃ pre, pre ++ [e] <+: t.trace ∧ TakenBy h pre

/-- `h'` is a later session with the id of `h`. -/
def Succeeds (w : SvWorld) (h h' : Nat) : Prop :=
  h < h' ∧ ∃ s s', w.sessions[h]? = some s ∧ w.sessions[h']? = some s' ∧ s.sid = s'.sid

/-- The end of a session removes nothing that a later session with its id has recorded. -/
def KeepsLater (g : Gateway) (c : SvConfig) : Prop :=
  ∀ i t h sid resurrected e c', c.threads[i]? = some t → t.task = .awaitEnd h sid resurrected →
    (system g).Step c (.call i e) c' → ∀ h', Succeeds c.world h h' →
      ∀ e', Recorded c h' e' → Holds c.world e' → Holds c'.world e'

def Ended (c : SvConfig) (h : Nat) : Prop :=
  h ∈ c.world.awaited → ∃ t ∈ c.threads, (∃ sid r, t.task = .awaitEnd h sid r) ∧ t.rest = .ret ()

/-- A session records something only after the goroutines of the earlier sessions with its id have ended,
and no such goroutine is started once there is a later session. -/
def AfterEnd (c : SvConfig) : Label sessionSig SvTask → Prop
  | .call i e =>
    (IsRecord e.op → ∀ t, c.threads[i]? = some t → ∀ h', TakenBy h' t.trace →
      ∀ h, Succeeds c.world h h' → Ended c h) ∧
    ∀ h, e.op = .goWait h → ∀ h', ¬ Succeeds c.world h h'
  | _ => True

variable {h' : Nat}

section Recording

variable {G : SvConfig → Label sessionSig SvTask → Prop} {c c' : SvConfig}
  {l : Label sessionSig SvTask}

lemma awaited_mono (hs : (system g).Step c l c') (hh : h ∈ c.world.awaited) : h ∈ c'.world.awaited := by
  cases hs with
  | call _ _ hans =>
    rcases (SvWorld.Answers.kept hans).2 with ⟨h', -, heq⟩ | heq
    · exact heq ▸ mem_cons_of_mem _ hh
    · exact heq ▸ hh
  | env henv => cases henv <;> exact hh
  | start => exact hh

lemma awaited_of_task (hc : (system g).Reachable G c) (ht : t ∈ c.threads) {r : Bool} (htask : t.task = .awaitEnd h sid r) : h ∈ c.world.awaited := by
  refine System.Reachable.started (P := fun (c : SvConfig) task => ∀ h sid r,
    task = .awaitEnd h sid r → h ∈ c.world.awaited) ?_ ?_ hc t ht h sid r htask
  · rintro c _ - hstarts h sid r rfl
    exact hstarts.1
  · intro c l c' task hs ih h sid r htask
    exact awaited_mono hs (ih h sid r htask)

lemma awaiting_unique (hc : (system g).Reachable G c) : ∀ (i j : Nat) (t u : SvThread) (h : Nat),
    c.threads[i]? = some t → c.threads[j]? = some u → (∃ sid r, t.task = .awaitEnd h sid r) →
    (∃ sid r, u.task = .awaitEnd h sid r) → i = j := by
  refine hc.invariant ?_ ?_
  · intro w _ i j t u h hi
    cases hi
  · intro c l c' _ ih _ hs i j t' u' h hi hj ht hu
    -- a thread of the next configuration that was there before, or the one that has been started
    have hcases : ∀ {k : Nat} {v' : SvThread}, c'.threads[k]? = some v' →
        (∃ v, c.threads[k]? = some v ∧ v.task = v'.task) ∨
        ∃ task, l = .start task ∧ Starts c task ∧ k = c.threads.length ∧ v'.task = task := by
      intro k v' hk
      rcases hs.thread_cases hk with hold | ⟨v, _, _, _, -, hv, -, -, rfl⟩ | ⟨task, hl, hst, hlen, rfl⟩
      · exact .inl ⟨v', hold, rfl⟩
      · exact .inl ⟨v, hv, rfl⟩
      · exact .inr ⟨task, hl, hst, hlen, rfl⟩
    -- a goroutine is not started when there is one
    have hnew : ∀ {k : Nat} {v : SvThread} {task : SvTask}, c.threads[k]? = some v →
        (∃ sid r, v.task = .awaitEnd h sid r) → Starts c task → (∃ sid r, task = .awaitEnd h sid r) →
        False := by
      rintro k v task hk ⟨sid, r, hv⟩ hst ⟨sid', r', rfl⟩
      exact hst.2.2 v (mem_of_getElem? hk) sid r hv
    rcases hcases hi with ⟨t, hi', htask⟩ | ⟨task, rfl, hst, hlen, htask⟩
    · rcases hcases hj with ⟨u, hj', hutask⟩ | ⟨task, rfl, hst, hlen, hutask⟩
      · exact ih i j t u h hi' hj' (htask ▸ ht) (hutask ▸ hu)
      · exact (hnew hi' (htask ▸ ht) hst (hutask ▸ hu)).elim
    · rcases hcases hj with ⟨u, hj', hutask⟩ | ⟨task', hl, hst', hlen', hutask⟩
      · exact (hnew hj' (hutask ▸ hu) hst (htask ▸ ht)).elim
      · exact hlen.trans hlen'.symm

lemma Ended.step (hend : Ended c h) (hs : (system g).Step c l c')
    (hgo : ∀ i r, l ≠ .call i ⟨.goWait h, r⟩) : Ended c' h := by
  intro hawaited
  have hbefore : h ∈ c.world.awaited := by
    cases hs with
    | @call i t o k r w hi hrest hans =>
      rcases (SvWorld.Answers.kept hans).2 with ⟨h', hop, heq⟩ | heq
      · cases hop
        rcases mem_cons.1 (heq ▸ hawaited) with rfl | hold
        · exact absurd rfl (hgo i r)
        · exact hold
      · exact heq ▸ hawaited
    | env henv => cases henv <;> exact hawaited
    | start => exact hawaited
  obtain ⟨t, ht, htask, hrest⟩ := hend hbefore
  obtain ⟨j, hj⟩ := mem_iff_getElem?.1 ht
  refine ⟨t, ?_, htask, hrest⟩
  cases hs with
  | @call i u o k r w hi hrest' hans =>
    refine mem_of_getElem? ((List.getElem?_set_ne ?_).trans hj)
    rintro rfl
    rw [mem_unique hi hj, hrest] at hrest'
    cases hrest'
  | env => exact ht
  | start => exact mem_append_left _ ht

lemma taken_lt (hc : (system g).Reachable G c) (ht : t ∈ c.threads)
    (htaken : TakenBy h t.trace) : h < c.world.sessions.length := by
  refine hc.answered ht htaken ?_ ?_
  · intro c l c' hs hlt
    have hlookup : c.world.sessions[h]? = some c.world.sessions[h] := List.getElem?_eq_getElem hlt
    cases hs with
    | call _ _ hans =>
      obtain ⟨s', hs', -⟩ := (SvWorld.Answers.connects hans).session hlookup
      exact (List.getElem?_eq_some_iff.1 hs').1
    | env henv => cases henv <;> exact hlt
    | start => exact hlt
  · intro c i c' hc _ hs
    obtain ⟨t, -, -, hopen, heq⟩ := allowed hc hs
    obtain ⟨s, hs, -⟩ := (any_eq_true _ _).1 hopen.symm
    rw [heq]
    exact (List.getElem?_eq_some_iff.1 hs).1

lemma succeeds_back (hs : (system g).Step c l c') (hlt : h' < c.world.sessions.length)
    (hsucc : Succeeds c'.world h h') : Succeeds c.world h h' := by
  obtain ⟨hh, s, s', hs₁, hs₂, hsid⟩ := hsucc
  have hback : ∀ k s₁, k < c.world.sessions.length → c'.world.sessions[k]? = some s₁ →
      ∃ s₀, c.world.sessions[k]? = some s₀ ∧ s₀.sid = s₁.sid := by
    intro k s₁ hk hk'
    have hlookup : c.world.sessions[k]? = some c.world.sessions[k] := List.getElem?_eq_getElem hk
    cases hs with
    | call _ _ hans =>
      obtain ⟨s₂, hs₂, hsid, -⟩ := (SvWorld.Answers.connects hans).session hlookup
      exact ⟨_, hlookup, by rw [← hsid, mem_unique hs₂ hk']⟩
    | env henv => cases henv <;> exact ⟨s₁, hk', rfl⟩
    | start => exact ⟨s₁, hk', rfl⟩
  obtain ⟨r, hr, hrsid⟩ := hback h s (hh.trans hlt) hs₁
  obtain ⟨r', hr', hrsid'⟩ := hback h' s' hlt hs₂
  exact ⟨hh, r, r', hr, hr', by rw [hrsid, hrsid', hsid]⟩

lemma ended_of_recorded (hc : (system g).Reachable AfterEnd c) : ∀ h' e, Recorded c h' e →
    IsRecord e.op → ∀ h, Succeeds c.world h h' → Ended c h := by
  refine hc.invariant ?_ ?_
  · rintro w - h' e ⟨t, ht, -⟩
    cases ht
  · rintro c l c' hc ih hg hs h' e ⟨t', ht', pre, hpre, htaken⟩ hrec h hsucc
    obtain ⟨j, hj⟩ := mem_iff_getElem?.1 ht'
    -- a session that has taken a request was there before this step
    have hback : ∀ {t : SvThread}, t ∈ c.threads → TakenBy h' t.trace → Succeeds c.world h h' :=
      fun ht htaken => succeeds_back hs (taken_lt hc ht htaken) hsucc
    have hgo : Succeeds c.world h h' → ∀ i r, l ≠ .call i ⟨.goWait h, r⟩ := by
      rintro hsucc i r rfl
      exact hg.2 h rfl h' hsucc
    rcases hs.thread_cases hj with hold | ⟨t, o, k, r, rfl, ht, -, -, rfl⟩ | ⟨task, -, -, -, rfl⟩
    · have hmem := mem_of_getElem? hold
      have hpre' : TakenBy h' t'.trace := hpre.subset (mem_append_left _ htaken)
      have hsucc := hback hmem hpre'
      exact (ih h' e ⟨t', hmem, pre, hpre, htaken⟩ hrec h hsucc).step hs (hgo hsucc)
    · have hmem := mem_of_getElem? ht
      rcases List.prefix_concat_iff.1 hpre with heq | hpre
      · -- the call of this step
        obtain ⟨rfl, he⟩ := List.append_inj' heq rfl
        obtain rfl := List.head_eq_of_cons_eq he
        have hsucc := hback hmem htaken
        exact (hg.1 hrec t ht h' htaken h hsucc).step hs (hgo hsucc)
      · have hsucc := hback hmem (hpre.subset (mem_append_left _ htaken))
        exact (ih h' e ⟨t, hmem, pre, hpre, htaken⟩ hrec h hsucc).step hs (hgo hsucc)
    · have hlen := hpre.length_le
      simp at hlen

lemma keepsLater (hc : (system g).Reachable AfterEnd c) : KeepsLater g c := by
  intro i t h sid resurrected e c' ht htask hs h' hsucc e' hrecorded hholds
  have hmem := mem_of_getElem? ht
  have hend := ended_of_recorded hc h' e' hrecorded hholds.isRecord h hsucc
  obtain ⟨u, hu, hutask, hrest⟩ := hend (awaited_of_task hc hmem htask)
  obtain ⟨j, hj⟩ := mem_iff_getElem?.1 hu
  -- the goroutine that makes the call has not ended
  obtain rfl := awaiting_unique hc i j t u h ht hj ⟨sid, resurrected, htask⟩ hutask
  obtain ⟨v, k, hv, hvrest, -⟩ := hs.caller rfl
  rw [mem_unique hv hj, hrest] at hvrest
  cases hvrest

/-- In every run at most one resurrected session of an id is live and an entry of the table is only taken
out for its own session; in the runs in which a session records nothing before the earlier ones of its id
have been cleaned up, the end of a session removes nothing that a later one has recorded. -/
theorem incarnations_separate (g : Gateway) (c : SvConfig) :
    ((system g).Reachable System.Free c → OneLive c ∧ OwnEntry g c) ∧
      ((system g).Reachable AfterEnd c → OneLive c ∧ OwnEntry g c ∧ KeepsLater g c) :=
  ⟨fun hc => ⟨oneLive hc, ownEntry hc⟩, fun hc => ⟨oneLive hc, ownEntry hc, keepsLater hc⟩⟩

end Recording

/-! ## Two incarnations -/

/-- Only the goroutine of the newest session is still to end when something is recorded. -/
def inOrder (c : SvConfig) : Label sessionSig SvTask → Bool
  | .call _ ⟨.setScope .., _⟩ => c.world.awaited.all fun h => c.world.sessions.length ≤ h + 1 ||
      c.threads.any fun t => t.task.awaits.any (fun a => a.1 = h) && System.isRet t.rest
  | .call _ ⟨.goWait h, _⟩ => c.world.sessions.length ≤ h + 1
  | .call _ ⟨.resetScope _, _⟩ | .call _ ⟨.gw (.poolLoadOrStore ..), _⟩
  | .call _ ⟨.gw (.addSession ..), _⟩ => false
  | _ => true

lemma Succeeds.lt (hsucc : Succeeds w h h') : h + 1 < w.sessions.length := by
  obtain ⟨hlt, s, s', -, hs', -⟩ := hsucc
  have hlen := (List.getElem?_eq_some_iff.1 hs').1
  omega

lemma afterEnd_of_inOrder (c : SvConfig) (l : Label sessionSig SvTask) (h : inOrder c l = true) :
    AfterEnd c l := by
  cases l with
  | env | start _ => exact trivial
  | call i e =>
    obtain ⟨o, r⟩ := e
    constructor
    · intro hrec t ht h' htaken k hsucc hawaited
      cases o with
      | setScope sid tools =>
        rcases or_eq_true _ _ ▸ all_eq_true.1 h k hawaited with hlast | hended
        · have hlt := hsucc.lt
          have hlen := of_decide_eq_true hlast
          omega
        · obtain ⟨u, hu, hboth⟩ := List.any_eq_true.1 hended
          rw [and_eq_true] at hboth
          obtain ⟨⟨k', sid', r'⟩, ha, hk⟩ := (any_eq_true _ _).1 hboth.1
          cases of_decide_eq_true hk
          exact ⟨u, hu, ⟨sid', r', SvTask.awaits_eq_some ha⟩, System.eq_ret_of_isRet hboth.2⟩
      | resetScope sid => cases h
      | gw o =>
        cases o with
        | poolLoadOrStore _ _ _ => cases h
        | addSession _ _ _ _ => cases h
        | _ => exact hrec.elim
      | _ => exact hrec.elim
    · rintro k rfl h' hsucc
      have hlt := hsucc.lt
      have hlen := of_decide_eq_true h
      omega

def isDelivery (h : Nat) : SvEv → Bool
  | ⟨.deliver k, true⟩ => k = h
  | _ => false

lemma takenBy_of_any {tr : List SvEv} (hany : tr.any (isDelivery h) = true) : TakenBy h tr := by
  obtain ⟨⟨o, r⟩, he, hd⟩ := List.any_eq_true.1 hany
  unfold isDelivery at hd
  split at hd
  · next k heq =>
    cases heq
    cases of_decide_eq_true hd
    exact he
  · cases hd

/-- The scope that the call selects is there in `w` and not in `w'`. -/
def losesScope (w w' : SvWorld) : SvEv → Bool
  | ⟨.setScope sid tools, _⟩ =>
    decide ((w.scopes.scopes.lookup sid).map SessionScope.tools = some (some tools)) &&
      (w'.scopes.scopes.lookup sid).isNone
  | _ => false

lemma holds_of_losesScope {w' : SvWorld} (h : losesScope w w' e = true) : Holds w e ∧ ¬ Holds w' e := by
  unfold losesScope at h
  split at h
  · rw [and_eq_true] at h
    have hheld := of_decide_eq_true h.1
    refine ⟨hheld, fun hholds => ?_⟩
    have hnone := Option.isNone_iff_eq_none.1 h.2
    simp [Holds, hnone] at hholds
  · cases h

/-- The session `h` has selected a scope in `tr` that is there in `w` and not in `w'`. -/
def losesRecord (w w' : SvWorld) (h : Nat) (tr : List SvEv) : Bool :=
  (List.range tr.length).any fun n =>
    (tr.take n).any (isDelivery h) && (tr[n]?).any (losesScope w w')

lemma not_keepsLater {g : Gateway} {c c' : SvConfig} {u : SvThread} {r : Bool} (ht : c.threads[i]? = some t) (htask : t.task = .awaitEnd h sid r)
    (hs : (system g).Step c (.call i e) c') (hsucc : Succeeds c.world h h') (hu : u ∈ c.threads)
    (hloses : losesRecord c.world c'.world h' u.trace = true) : ¬ KeepsLater g c := by
  intro hkeeps
  obtain ⟨n, -, hboth⟩ := List.any_eq_true.1 hloses
  rw [and_eq_true] at hboth
  obtain ⟨e', he', hlost⟩ := (any_eq_true _ _).1 hboth.2
  have hpre : u.trace.take n ++ [e'] <+: u.trace := by
    have htake : u.trace.take (n + 1) = u.trace.take n ++ [e'] := by
      rw [List.take_add_one, he']
      rfl
    exact htake ▸ List.take_prefix _ _
  have hholds := holds_of_losesScope hlost
  exact hholds.2 (hkeeps i t h sid r e c' ht htask hs h' hsucc e'
    ⟨u, hu, _, hpre, takenBy_of_any hboth.1⟩ hholds.1)

def freePlayer : System.Player (system dayGateway) System.Free :=
  player (fun _ _ => true) fun _ _ _ => trivial

/-- The session is resurrected, is idle for half an hour and is closed; its goroutine makes `n` calls, and
then a request selects tools. -/
def reselect {G : SvConfig → Label sessionSig SvTask → Prop} (P : System.Player (system dayGateway) G)
    (n : Nat) : SvConfig :=
  P.play
    (later sessionIdleTimeout (P.play ⟨dayWorld, []⟩ (.start (dayPost .other) :: System.calls 0 14)))
    ([.start (.timeout 0), .call 1, .start (.awaitEnd 0 dayJWT true)] ++ System.calls 2 n ++
      .start (dayPost (.selectTools ["forecast"])) :: System.calls 3 15)

lemma reselect_reachable {G : SvConfig → Label sessionSig SvTask → Prop}
    {P : System.Player (system dayGateway) G} {n : Nat} (henv : ∀ c, G c .env)
    (hnow : (P.play ⟨dayWorld, []⟩ (.start (dayPost .other) :: System.calls 0 14)).world.gw.now = 0) :
    (system dayGateway).Reachable G (reselect P n) := by
  refine System.Player.reachable_play _ ?_ _
  refine .step (System.Player.reachable_play _ (.init dayWorld_fresh) _) (henv _) (later_step ?_)
  rw [hnow]
  exact Nat.zero_le _

/-- The goroutine has taken the closed session out of the table and not released its state yet. -/
def reselected : SvConfig := reselect freePlayer 3

def orderedPlayer : System.Player (system dayGateway) AfterEnd :=
  player inOrder afterEnd_of_inOrder

/-- When the goroutine has ended before, the scope stays. -/
theorem incarnations_separate_forecast :
    (system dayGateway).Reachable AfterEnd (reselect orderedPlayer 6) ∧
      (reselect orderedPlayer 6).world.live.lookup dayJWT = some 1 ∧
      (reselect orderedPlayer 6).world.scopes.getScope (reselect orderedPlayer 6).world.gw.now dayJWT =
        some ["forecast"] ∧
      OneLive (reselect orderedPlayer 6) ∧ OwnEntry dayGateway (reselect orderedPlayer 6) ∧
      KeepsLater dayGateway (reselect orderedPlayer 6) := by
  have hreach : (system dayGateway).Reachable AfterEnd (reselect orderedPlayer 6) :=
    reselect_reachable (fun _ => trivial) (by decide +kernel)
  exact ⟨hreach, by decide +kernel, by decide +kernel,
    (incarnations_separate dayGateway (reselect orderedPlayer 6)).2 hreach⟩

/-- The goroutine of the closed session deletes the scope that the next one has recorded. -/
theorem reselected_loses : (system dayGateway).Reachable System.Free reselected ∧
    ¬ KeepsLater dayGateway reselected := by
  refine ⟨reselect_reachable (fun _ => trivial) (by decide +kernel), ?_⟩
  have hthreads : (reselected.threads[2]?.bind fun t => t.task.awaits) = some (0, dayJWT, true) := by
    decide +kernel
  obtain ⟨t, ht, hawaits⟩ := Option.bind_eq_some_iff.1 hthreads
  have hnext : (freePlayer.next reselected 2).isSome = true := by decide +kernel
  obtain ⟨e, he⟩ := Option.isSome_iff_exists.1 hnext
  have hsessions : reselected.world.sessions = [⟨dayJWT, true, true⟩, ⟨dayJWT, true, false⟩] := by
    decide +kernel
  have hloses : (reselected.threads[3]?.any fun u =>
      losesRecord reselected.world (freePlayer.call reselected 2).world 1 u.trace) = true := by
    decide +kernel
  obtain ⟨u, hu, hloses⟩ := (Option.any_eq_true _ _).1 hloses
  refine not_keepsLater ht (SvTask.awaits_eq_some hawaits) (freePlayer.step_of_next he).2 ?_
    (List.mem_of_getElem? hu) hloses
  rw [Succeeds, hsessions]
  exact ⟨by omega, _, _, rfl, rfl, rfl⟩

end McpGateway.Resurrection
