import McpGateway.A2A.Serving

/-!
# Convergence of reloads

Each load is followed by a call of `OnConfigChange` in a goroutine of its own, which reads the shared
configuration when it runs.
-/

namespace McpGateway.A2A

open Go Effect Config McpGateway.A2A.Task World.Answers

variable {s : Setup} {G : A2AState → Label brokerSig Task → Prop} {c c' : A2AState}
  {l : Label brokerSig Task}

/-! ## Calls that are still to come -/

/-- A callback is still to begin. -/
def CallToCome (c : A2AState) : Prop :=
  (∃ t ∈ c.threads, t.task.isLoad = true ∧ ¬ finished t) ∨ callsBegun c < c.world.notified

/-- A callback has begun and waits for the lock. -/
def CallWaits (c : A2AState) : Prop :=
  ∃ t ∈ c.threads, t.task = .onConfigChange ∧ t.trace = []

variable {i : Nat} {e : BrokerEv}

lemma callsBegun_of_call (hs : (system s).Step c (.call i e) c') : callsBegun c' = callsBegun c := by
  have hmap : ∀ c : A2AState, callsBegun c = (c.threads.map Thread.task).countP isCall := by
    intro c
    rw [List.countP_map]
    rfl
  rw [hmap, hmap, hs.tasks]

variable {w' : World}
  {next prev : GoMap A2AAgent} {rest : BrokerProg Unit} {tr : List BrokerEv} {w : World}

lemma notified_of_change (h : World.Change w e w') : w.notified ≤ w'.notified := by
  cases h with
  | notify => exact Nat.le_succ _
  | idle | configure | lock | unlock | swap | client | store | fail | delete | spawn => exact le_rfl

lemma callsBegun_le (h : (system s).Reachable G c) : callsBegun c ≤ c.world.notified := by
  refine h.invariant ?_ ?_
  · intro w _
    exact Nat.zero_le _
  · intro c l c' _ ih _ hs
    cases l with
    | call i e =>
      rcases change_of_step hs with ⟨_, _, _, _, hchg⟩
      rw [callsBegun_of_call hs]
      exact ih.trans (notified_of_change hchg)
    | env =>
      cases hs with
      | env henv =>
        cases henv with
        | tick ht => exact ih
    | start task =>
      cases hs with
      | start hstart =>
        have hcount : callsBegun ⟨c.world, c.threads ++ [⟨task, [], (system s).code task⟩]⟩ =
            callsBegun c + if task.isCall then 1 else 0 := by
          simp [callsBegun, List.countP_append, List.countP_singleton]
        show callsBegun _ ≤ c.world.notified
        rw [hcount]
        cases task with
        | onConfigChange =>
          have hlt : callsBegun c < c.world.notified := hstart
          exact hlt
        | load | setAgents | refreshAll | refreshCards => exact ih

variable {t : A2AThread}

lemma notify_of_load_finished (hc : (system s).Reachable G c) (hs : (system s).Step c (.call i e) c')
    {t' : A2AThread} (hi : c.threads[i]? = some t) (hi' : c'.threads[i]? = some t')
    (hload : t.task.isLoad = true) (hfin : finished t') : e = ⟨.notify, ()⟩ := by
  rcases hs.caller rfl with ⟨u, k, hu, hrest, -, hnew⟩
  obtain rfl := mem_unique hu hi
  obtain rfl := mem_unique hi' hnew
  have hc' : (system s).Reachable System.Free c' := .step hc.free trivial hs
  have hproto := protocol_of hc (mem_of_getElem? hi) hrest
  have hdone := System.Reachable.returned (code_obeys s) hc' (mem_of_getElem? hnew) hfin
  dsimp only at hdone
  generalize u.task = task at hload hproto hdone
  cases task with
  | load conf =>
    have hnot : (⟨.notify, ()⟩ : BrokerEv) ∉ u.trace := by
      generalize e.op = o at hproto
      cases o with
      | setExternalHostname | setA2AAgents | setGatewayCACertPEM | notify => exact hproto
      | _ => exact False.elim hproto
    rcases mem_append.1 hdone with hold | hlast
    · exact absurd hold hnot
    · exact (mem_singleton.1 hlast).symm
  | onConfigChange | setAgents | refreshAll | refreshCards => cases hload

lemma CallToCome.step (hc : (system s).Reachable G c) (hs : (system s).Step c l c')
    (h : CallToCome c) : CallToCome c' ∨ CallWaits c' := by
  cases l with
  | env =>
    cases hs with
    | env henv =>
      cases henv with
      | tick ht => exact .inl h
  | start task =>
    cases hs with
    | start hstart =>
      rcases h with ⟨t, ht, hload, hrun⟩ | hlt
      · exact .inl (.inl ⟨t, mem_append_left _ ht, hload, hrun⟩)
      · cases task with
        -- the call has begun, and waits for the lock
        | onConfigChange => exact .inr ⟨_, mem_append_right _ (List.mem_singleton_self _), rfl, rfl⟩
        | load | setAgents | refreshAll | refreshCards =>
          refine .inl (.inr ?_)
          show callsBegun _ < c.world.notified
          simpa [callsBegun, List.countP_append, List.countP_singleton, isCall] using hlt
  | call i e =>
    refine .inl ?_
    rcases change_of_step hs with ⟨u, _, hu, _, hchg⟩
    rcases h with ⟨t, ht, hload, hrun⟩ | hlt
    · rcases mem_iff_getElem?.1 ht with ⟨j, hj⟩
      rcases hs.thread_mono hj with ⟨t', hj', htask, -⟩
      by_cases hfin : finished t'
      · -- the load has returned, so it has notified just now
        have hij : j = i := by
          by_contra hne
          rw [hs.others hne, hj] at hj'
          cases hj'
          exact hrun hfin
        subst hij
        have he := notify_of_load_finished hc hs hj hj' hload hfin
        rcases hs.caller rfl with ⟨_, _, _, _, hans, _⟩
        subst he
        have hw : c'.world = { c.world with notified := c.world.notified + 1 } := hans
        refine .inr ?_
        rw [callsBegun_of_call hs, hw]
        exact Nat.lt_succ_of_le (callsBegun_le hc)
      · exact .inl ⟨t', mem_of_getElem? hj', htask ▸ hload, hfin⟩
    · refine .inr ?_
      rw [callsBegun_of_call hs]
      exact lt_of_lt_of_le hlt (notified_of_change hchg)

lemma callToCome_of_configure (hc : (system s).Reachable G c) (hs : (system s).Step c (.call i e) c')
    (hconf : c'.world.config ≠ c.world.config) : CallToCome c' := by
  rcases hs.caller rfl with ⟨t, k, hi, hrest, hans, hnew⟩
  have hproto := protocol_of hc (mem_of_getElem? hi) hrest
  obtain ⟨o, r⟩ := e
  have hload : t.task.isLoad = true ∧ o ≠ .notify := by
    have hchg : World.Change c.world ⟨o, r⟩ c'.world := change hans
    generalize c'.world = w' at hchg hconf
    cases hchg with
    | configure conf h =>
      generalize t.task = task at hproto
      rcases h with ⟨_, rfl, -⟩ | ⟨_, rfl, -⟩ | ⟨_, rfl, -⟩
      all_goals
        cases task with
        | load conf => exact ⟨rfl, by simp⟩
        | onConfigChange =>
          cases hproto with
          | set _ hset => exact False.elim hset
        | setAgents => exact False.elim hproto
        | refreshAll | refreshCards =>
          cases hproto with
          | read hread => cases hread
    | idle | notify | lock | unlock | swap | client | store | fail | delete | spawn =>
      exact absurd rfl hconf
  refine .inl ⟨_, mem_of_getElem? hnew, hload.1, fun hfin => hload.2 ?_⟩
  have he := notify_of_load_finished hc hs hi hnew hload.1 hfin
  cases he
  rfl

/-! ## The lock -/

/-- The thread is in the critical section of `OnConfigChange`. -/
def Critical (t : A2AThread) : Prop :=
  t.task = .onConfigChange ∧ (⟨.lock, ()⟩ : BrokerEv) ∈ t.trace ∧
    ∀ host ca, (⟨.unlock host ca, ()⟩ : BrokerEv) ∉ t.trace

def Holds (c : A2AState) (i : Nat) : Prop := ∃ t, c.threads[i]? = some t ∧ Critical t

/-- The lock is held by exactly one thread, or by none and free. -/
def LockSound (c : A2AState) : Prop :=
  (c.world.locked = false ∧ ∀ i, ¬ Holds c i) ∨ (c.world.locked = true ∧ ∃ i, ∀ j, Holds c j ↔ j = i)

lemma Task.lock_first {task : Task} (h : task.Protocol s tr .lock) :
    task = .onConfigChange ∧ tr = [] := by
  cases task with
  | load | setAgents => exact False.elim h
  | onConfigChange =>
    cases h with
    | lock htr => exact ⟨rfl, htr⟩
    | set _ hset => exact False.elim hset
  | refreshAll | refreshCards =>
    cases h with
    | read hread => cases hread

variable {host ca : String}

lemma Task.unlock_reads {task : Task} (h : task.Protocol s tr (.unlock host ca)) :
    task = .onConfigChange ∧ tr = [⟨.lock, ()⟩, ⟨.getExternalHostname, host⟩, ⟨.getGatewayCACertPEM,
    ca⟩] := by
  cases task with
  | load | setAgents => exact False.elim h
  | onConfigChange =>
    cases h with
    | unlock htr => exact ⟨rfl, htr⟩
    | set _ hset => exact False.elim hset
  | refreshAll | refreshCards =>
    cases h with
    | read hread => cases hread

def BrokerOp.isLock : BrokerOp → Bool
  | .lock | .unlock .. => true
  | _ => false

lemma critical_snoc
    (he : e.op.isLock = false) : Critical ⟨t.task, t.trace ++ [e], rest⟩ ↔ Critical t := by
  have hlock : e ≠ ⟨.lock, ()⟩ := by
    rintro rfl
    cases he
  have hunlock : ∀ host ca, e ≠ ⟨.unlock host ca, ()⟩ := by
    rintro host ca rfl
    cases he
  simp [Critical, hlock.symm, fun host ca => (hunlock host ca).symm]

lemma holds_of_call (hs : (system s).Step c (.call i e) c')
    (he : e.op.isLock = false) (j : Nat) : Holds c' j ↔ Holds c j := by
  by_cases hij : j = i
  · subst hij
    rcases hs.caller rfl with ⟨t, k, hi, -, -, hnew⟩
    constructor
    · rintro ⟨u, hu, hcrit⟩
      obtain rfl := mem_unique hu hnew
      exact ⟨t, hi, (critical_snoc he).1 hcrit⟩
    · rintro ⟨u, hu, hcrit⟩
      obtain rfl := mem_unique hu hi
      exact ⟨_, hnew, (critical_snoc he).2 hcrit⟩
  · unfold Holds
    rw [hs.others hij]

lemma locked_of_change (h : World.Change w e w') (he : e.op.isLock = false) : w'.locked =
    w.locked ∧ w'.broker.externalHost = w.broker.externalHost ∧ w'.broker.caCertPEM =
    w.broker.caCertPEM := by
  cases h with
  | lock | unlock => cases he
  | idle | configure | notify | swap | client | store | fail | delete | spawn => exact ⟨rfl, rfl, rfl⟩

lemma holds_of_lock (hc : (system s).Reachable G c) (ih : LockSound c)
    (hs : (system s).Step c (.call i ⟨.lock, ()⟩) c') :
    c'.world.locked = true ∧ ∀ j, Holds c' j ↔ j = i := by
  rcases hs.caller rfl with ⟨t, k, hi, hrest, hans, hnew⟩
  rcases hans with ⟨hfree, hw⟩
  have hnone : ∀ j, ¬ Holds c j := by
    rcases ih with ⟨-, hnone⟩ | ⟨hlocked, -⟩
    · exact hnone
    · rw [hlocked] at hfree
      cases hfree
  have hproto := protocol_of hc (mem_of_getElem? hi) hrest
  rcases lock_first hproto with ⟨htask, htrace⟩
  refine ⟨by rw [hw], fun j => ⟨fun hj => ?_, ?_⟩⟩
  · by_contra hij
    rw [Holds, hs.others hij] at hj
    exact hnone j hj
  · rintro rfl
    refine ⟨_, hnew, htask, by simp, fun host ca => ?_⟩
    simp [htrace]

lemma holds_of_unlock (hc : (system s).Reachable G c) (ih : LockSound c)
    (hs : (system s).Step c (.call i ⟨.unlock host ca, ()⟩) c') :
    Holds c i ∧ c'.world.locked = false ∧ ∀ j, ¬ Holds c' j := by
  rcases hs.caller rfl with ⟨t, k, hi, hrest, hans, hnew⟩
  have hproto := protocol_of hc (mem_of_getElem? hi) hrest
  rcases unlock_reads hproto with ⟨htask, htrace⟩
  have hheld : Holds c i := ⟨t, hi, htask, by simp [htrace], by simp [htrace]⟩
  have hw : c'.world.locked = false := by
    rw [show c'.world = { c.world with
      locked := false, broker := { c.world.broker with externalHost := host, caCertPEM := ca } }
      from hans]
  refine ⟨hheld, hw, fun j hj => ?_⟩
  rcases ih with ⟨-, hnone⟩ | ⟨-, n, hn⟩
  · exact hnone i hheld
  · by_cases hij : j = i
    · subst hij
      rcases hj with ⟨u, hu, -, -, hopen⟩
      obtain rfl := mem_unique hu hnew
      exact hopen host ca (by simp)
    · rw [Holds, hs.others hij] at hj
      exact hij (((hn j).1 hj).trans ((hn i).1 hheld).symm)

lemma lockSound_of_reachable (h : (system s).Reachable G c) : LockSound c := by
  refine h.invariant ?_ ?_
  · intro w hw
    rw [show w = {} from hw]
    refine .inl ⟨rfl, ?_⟩
    rintro i ⟨t, hi, -⟩
    cases hi
  · intro c l c' hc ih _ hs
    cases l with
    | env =>
      cases hs with
      | env henv =>
        cases henv with
        | tick ht => exact ih
    | start task =>
      have hholds : ∀ j, Holds c' j ↔ Holds c j := by
        intro j
        constructor
        · rintro ⟨t, hj, hcrit⟩
          rcases hs.thread_cases hj with hold | ⟨_, _, _, _, hl, -⟩ | ⟨_, -, -, -, rfl⟩
          · exact ⟨t, hold, hcrit⟩
          · cases hl
          · cases hcrit.2.1
        · rintro ⟨t, hj, hcrit⟩
          cases hs with
          | start _ =>
            have hlt : j < c.threads.length := (List.getElem?_eq_some_iff.1 hj).1
            exact ⟨t, (List.getElem?_append_left hlt).trans hj, hcrit⟩
      have hw : c'.world = c.world := by
        cases hs with
        | start _ => rfl
      unfold LockSound at ih ⊢
      simpa only [hholds, hw] using ih
    | call i e =>
      -- only `lock` and `unlock` change who holds the lock
      by_cases he : e.op.isLock = false
      · rcases change_of_step hs with ⟨_, _, _, _, hchg⟩
        have hlocked := (locked_of_change hchg he).1
        unfold LockSound at ih ⊢
        simpa only [holds_of_call hs he, hlocked] using ih
      · obtain ⟨o, r⟩ := e
        cases o with
        | lock =>
          rcases holds_of_lock hc ih hs with ⟨hlocked, hholds⟩
          exact .inr ⟨hlocked, i, hholds⟩
        | unlock host ca =>
          rcases holds_of_unlock hc ih hs with ⟨-, hlocked, hnone⟩
          exact .inl ⟨hlocked, hnone⟩
        | _ => exact absurd rfl he

/-! ## The host and the CA bundle -/

def ReadsCurrent (conf : SharedConfig) (t : A2AThread) : Prop :=
  (∀ host, (⟨.getExternalHostname, host⟩ : BrokerEv) ∈ t.trace → host = conf.externalHostname) ∧
    ∀ ca, (⟨.getGatewayCACertPEM, ca⟩ : BrokerEv) ∈ t.trace → ca = conf.gatewayCACertPEM

def TrustCurrent (w : World) : Prop :=
  w.broker.externalHost = w.config.externalHostname ∧ w.broker.caCertPEM = w.config.gatewayCACertPEM

/-- The host and the CA bundle follow the configuration, but for the thread with the lock. -/
def TrustTracks (c : A2AState) : Prop :=
  (∀ t ∈ c.threads, Critical t → ReadsCurrent c.world.config t) ∧
    (c.world.locked = false → TrustCurrent c.world)

lemma trustTracks_of_lock (hc : (system s).Reachable G c)
    (hs : (system s).Step c (.call i ⟨.lock, ()⟩) c') : TrustTracks c' := by
  rcases holds_of_lock hc (lockSound_of_reachable hc) hs with ⟨hlocked, hholds⟩
  rcases hs.caller rfl with ⟨t, k, hi, hrest, -, hnew⟩
  have hproto := protocol_of hc (mem_of_getElem? hi) hrest
  refine ⟨fun u hu hcrit => ?_, fun hfree => ?_⟩
  · rcases mem_iff_getElem?.1 hu with ⟨j, hj⟩
    obtain rfl := (hholds j).1 ⟨u, hj, hcrit⟩
    obtain rfl := mem_unique hj hnew
    rw [(lock_first hproto).2]
    constructor
    · intro host hmem
      simp at hmem
    · intro ca hmem
      simp at hmem
  · rw [hlocked] at hfree
    cases hfree

lemma trustTracks_of_unlock (hc : (system s).Reachable G c) (h : TrustTracks c) (hs : (system s).Step c (.call i ⟨.unlock host ca, ()⟩) c') :
    TrustTracks c' := by
  rcases holds_of_unlock hc (lockSound_of_reachable hc) hs with ⟨⟨u, hu, hcrit⟩, -, hnone⟩
  rcases hs.caller rfl with ⟨t, k, hi, hrest, hans, -⟩
  obtain rfl := mem_unique hi hu
  have hproto := protocol_of hc (mem_of_getElem? hi) hrest
  have htrace := (unlock_reads hproto).2
  have hreads := h.1 t (mem_of_getElem? hi) hcrit
  refine ⟨fun v hv hcrit' => ?_, fun _ => ?_⟩
  · rcases mem_iff_getElem?.1 hv with ⟨j, hj⟩
    exact absurd ⟨v, hj, hcrit'⟩ (hnone j)
  · have hhost : host = c.world.config.externalHostname := hreads.1 host (by simp [htrace])
    have hca : ca = c.world.config.gatewayCACertPEM := hreads.2 ca (by simp [htrace])
    rw [show c'.world = { c.world with
      locked := false, broker := { c.world.broker with externalHost := host, caCertPEM := ca } }
      from hans]
    exact ⟨hhost, hca⟩

lemma readsCurrent_snoc (hans : World.Answers s c.world e.op e.resp w')
    (h : ReadsCurrent c.world.config t) : ReadsCurrent c.world.config ⟨t.task, t.trace ++ [e], rest⟩ := by
  constructor
  · intro host hmem
    rcases mem_append.1 hmem with hold | hnow
    · exact h.1 host hold
    · cases mem_singleton.1 hnow
      exact hans.1
  · intro ca hmem
    rcases mem_append.1 hmem with hold | hnow
    · exact h.2 ca hold
    · cases mem_singleton.1 hnow
      exact hans.1

lemma trustTracks_of_call (h : TrustTracks c) (hs : (system s).Step c (.call i e) c')
    (he : e.op.isLock = false) (hconf : c'.world.config = c.world.config) : TrustTracks c' := by
  rcases hs.caller rfl with ⟨t, k, hi, hrest, hans, hnew⟩
  rcases locked_of_change (change hans) he with ⟨hlocked, hhost, hca⟩
  refine ⟨fun u hu hcrit => ?_, fun hfree => ?_⟩
  · rw [hconf]
    rcases mem_iff_getElem?.1 hu with ⟨j, hj⟩
    by_cases hij : j = i
    · subst hij
      obtain rfl := mem_unique hj hnew
      exact readsCurrent_snoc hans (h.1 t (mem_of_getElem? hi) ((critical_snoc he).1 hcrit))
    · rw [hs.others hij] at hj
      exact h.1 u (mem_of_getElem? hj) hcrit
  · rw [hlocked] at hfree
    rw [TrustCurrent, hhost, hca, hconf]
    exact h.2 hfree

/-- As long as the host and the CA bundle do not follow the configuration, a call is still to come. -/
def TrustInv (c : A2AState) : Prop := CallToCome c ∨ CallWaits c ∨ TrustTracks c

lemma trustInv_of_call (hc : (system s).Reachable G c) (ih : TrustInv c)
    (hs : (system s).Step c (.call i e) c') : TrustInv c' := by
  by_cases hconf : c'.world.config = c.world.config
  swap
  · exact .inl (callToCome_of_configure hc hs hconf)
  rcases ih with hcome | ⟨t, ht, htask, htrace⟩ | htracks
  · exact (hcome.step hc hs).imp_right .inl
  · rcases mem_iff_getElem?.1 ht with ⟨j, hj⟩
    by_cases hij : j = i
    · -- the waiting call makes its first call, which takes the lock
      subst hij
      rcases hs.caller rfl with ⟨u, k, hu, hrest, -, -⟩
      obtain rfl := mem_unique hu hj
      have hproto := protocol_of hc ht hrest
      rw [htask, htrace] at hproto
      obtain ⟨o, r⟩ := e
      have ho : o = .lock := by
        cases hproto with
        | lock _ => rfl
        | host htr | ca htr | unlock htr | list htr => cases htr
        | set htr _ => cases htr
      subst ho
      exact .inr (.inr (trustTracks_of_lock hc hs))
    · rw [← hs.others hij] at hj
      exact .inr (.inl ⟨t, mem_of_getElem? hj, htask, htrace⟩)
  · by_cases he : e.op.isLock = false
    · exact .inr (.inr (trustTracks_of_call htracks hs he hconf))
    · obtain ⟨o, r⟩ := e
      cases o with
      | lock => exact .inr (.inr (trustTracks_of_lock hc hs))
      | unlock host ca => exact .inr (.inr (trustTracks_of_unlock hc htracks hs))
      | _ => exact absurd rfl he

lemma trust_of_reachable (h : (system s).Reachable G c) : TrustInv c := by
  refine h.invariant ?_ ?_
  · intro w hw
    rw [show w = {} from hw]
    refine .inr (.inr ⟨?_, fun _ => ⟨rfl, rfl⟩⟩)
    intro t ht
    cases ht
  · intro c l c' hc ih _ hs
    cases l with
    | call i e => exact trustInv_of_call hc ih hs
    | env =>
      cases hs with
      | env henv =>
        cases henv with
        | tick ht => exact ih
    | start task =>
      rcases ih with hcome | ⟨t, ht, htask, htrace⟩ | htracks
      · exact (hcome.step hc hs).imp_right .inl
      · cases hs with
        | start _ => exact .inr (.inl ⟨t, mem_append_left _ ht, htask, htrace⟩)
      · cases hs with
        | start _ =>
          refine .inr (.inr ⟨fun t ht hcrit => ?_, htracks.2⟩)
          rcases mem_append.1 ht with hold | hnew
          · exact htracks.1 t hold hcrit
          · cases mem_singleton.1 hnew
            cases hcrit.2.1

/-! ## The agents -/

abbrev listsAgents (agents : List (Option A2AAgent)) : BrokerEv := ⟨.listA2AAgents, agents⟩

/-- The agents are not replaced between the listing of a call and its return, and are only set by
calls. -/
def ListingsSettled (c : A2AState) : Label brokerSig Task → Prop
  | .call _ ⟨.setA2AAgents _, _⟩ =>
    ∀ t ∈ c.threads, ∀ agents, listsAgents agents ∈ t.trace → finished t
  | .start (.setAgents _) => False
  | _ => True

lemma configured_of_change (h : World.Change w e w') :
    w'.config.a2aAgents = w.config.a2aAgents ∨ ∃ agents, e = ⟨.setA2AAgents agents, ()⟩ := by
  cases h with
  | configure conf h =>
    rcases h with ⟨_, rfl, rfl⟩ | ⟨agents, rfl, -⟩ | ⟨_, rfl, rfl⟩
    · exact .inl rfl
    · exact .inr ⟨agents, rfl⟩
    · exact .inl rfl
  | idle | notify | lock | unlock | swap | client | store | fail | delete | spawn => exact .inl rfl

variable (h : (system s).Reachable ListingsSettled c)

include h

lemma listing_current : ∀ t ∈ c.threads, ∀ agents,
    listsAgents agents ∈ t.trace → ¬ finished t → agents = c.world.config.a2aAgents := by
  refine h.invariant ?_ ?_
  · intro w _ t ht
    cases ht
  · intro c l c' hc ih hg hs t' ht' agents hlist hrun
    rcases mem_iff_getElem?.1 ht' with ⟨j, hj⟩
    -- a thread that has listed and not returned was there before, or lists now
    have hbefore : (∃ t ∈ c.threads, listsAgents agents ∈ t.trace ∧ ¬ finished t) ∨
        l = .call j (listsAgents agents) := by
      rcases hs.thread_cases hj with hold | ⟨t, o, k, r, rfl, ht, hrest, -, rfl⟩ | ⟨_, -, -, -, rfl⟩
      · exact .inl ⟨t', mem_of_getElem? hold, hlist, hrun⟩
      · rcases mem_append.1 hlist with hold | hnow
        · exact .inl ⟨t, mem_of_getElem? ht, hold, by simp [finished, hrest]⟩
        · exact .inr (by rw [mem_singleton.1 hnow])
      · cases hlist
    rcases hbefore with ⟨t, ht, hlisted, hopen⟩ | rfl
    · have hold := ih t ht agents hlisted hopen
      cases hs with
      | env henv =>
        cases henv with
        | tick _ => exact hold
      | start _ => exact hold
      | @call i u o k r w _ _ hans =>
        have hchg : World.Change c.world ⟨o, r⟩ w := change hans
        rcases configured_of_change hchg with hsame | ⟨agents', heq⟩
        · rw [hold]
          exact hsame.symm
        · cases heq
          exact absurd (hg t ht agents hlisted) hopen
    · rcases hs.caller rfl with ⟨_, _, _, _, ⟨hagents, hw⟩, _⟩
      rw [hw]
      exact hagents

lemma isCall_of_isSet : ∀ t ∈ c.threads,
    t.task.isSet = true → t.task = .onConfigChange := by
  refine System.Reachable.started
    (P := fun (_ : A2AState) (task : Task) => task.isSet = true → task = .onConfigChange)
    ?_ (fun _ _ _ _ _ hset => hset) h
  intro c task hg _ hset
  cases task with
  | onConfigChange => rfl
  | setAgents => exact False.elim hg
  | load | refreshAll | refreshCards => cases hset

lemma set_current {o : BrokerOp} {k : o.Resp →
    BrokerProg Unit} (ht : t ∈ c.threads) (hrest : t.rest = .vis o k) (hset : t.task.isSet = true)
    (ho : o = .storeList ∨ (∃ next, o = .swapAgents next) ∨ ∃ ns agentPrefix,
    o = .storeDelete ns agentPrefix) : ∃ tr, (∃ pre, t.trace = pre ++ tr) ∧
    SetProtocol (agentIndex c.world.config.a2aAgents) tr o := by
  have hproto := protocol_of h ht hrest
  have htask := isCall_of_isSet h t ht hset
  rw [htask] at hproto
  have hbusy : ¬ finished t := by
    intro hfin
    rw [finished, hrest] at hfin
    cases hfin
  cases hproto with
  | lock | host | ca | unlock | list => simp at ho
  | @set host ca agents tr _ htr hsetp =>
    have hagents := listing_current h t ht agents (by simp [htr, callTrace]) hbusy
    rw [← hagents]
    exact ⟨tr, ⟨_, htr⟩, hsetp⟩

lemma swap_current
    (hs : (system s).Step c (.call i (swaps next prev)) c') :
    next = agentIndex c.world.config.a2aAgents := by
  rcases hs.caller rfl with ⟨t, k, hi, hrest, -, -⟩
  have ht := mem_of_getElem? hi
  have hproto := protocol_of h ht hrest
  rcases set_current h ht hrest (swap_first hproto).1 (.inr (.inl ⟨next, rfl⟩)) with ⟨tr, -, hset⟩
  exact hset.1

omit h

/-- As long as the index is not that of the configuration, a call is to come or has not swapped yet. -/
def IndexInv (c : A2AState) : Prop :=
  CallToCome c ∨ (∃ t ∈ c.threads, t.task = .onConfigChange ∧ ∀ next prev, swaps next prev ∉ t.trace) ∨
    c.world.broker.agents = agentIndex c.world.config.a2aAgents

lemma index_of_swap (hc : (system s).Reachable ListingsSettled c)
    (hs : (system s).Step c (.call i (swaps next prev)) c') :
    c'.world.broker.agents = agentIndex c'.world.config.a2aAgents := by
  rcases hs.caller rfl with ⟨_, _, _, _, hans, _⟩
  have hw : c'.world = { c.world with broker := c.world.broker.swap next } := hans.2.2
  rw [hw]
  exact swap_current hc hs

lemma CallWaits.index (h : CallWaits c) : IndexInv c := by
  rcases h with ⟨t, ht, htask, htrace⟩
  exact .inr (.inl ⟨t, ht, htask, by simp [htrace]⟩)

lemma indexInv_of_call (hc : (system s).Reachable ListingsSettled c) (ih : IndexInv c) (hs : (system s).Step c (.call i e) c') : IndexInv c' := by
  by_cases hconf : c'.world.config = c.world.config
  swap
  · exact .inl (callToCome_of_configure hc hs hconf)
  rcases change_of_step hs with ⟨_, _, _, _, hchg⟩
  by_cases hswap : ∃ next prev, e = swaps next prev
  · rcases hswap with ⟨next, prev, rfl⟩
    exact .inr (.inr (index_of_swap hc hs))
  rcases ih with hcome | ⟨t, ht, htask, hnot⟩ | hindex
  · exact (hcome.step hc hs).elim .inl CallWaits.index
  · rcases mem_iff_getElem?.1 ht with ⟨j, hj⟩
    rcases hs.thread_mono hj with ⟨t', hj', htask', -⟩
    refine .inr (.inl ⟨t', mem_of_getElem? hj', htask'.trans htask, ?_⟩)
    intro next prev hmem
    rcases hs.mem_trace hj' hmem with ⟨u, hu, -, hold | hnow⟩
    · obtain rfl := mem_unique hu hj
      exact hnot next prev hold
    · cases hnow
      exact hswap ⟨next, prev, rfl⟩
  · rcases agents_of_change hchg with hsame | ⟨next, prev, rfl, -⟩
    · exact .inr (.inr (by rw [hsame, hconf, hindex]))
    · exact absurd ⟨next, prev, rfl⟩ hswap

lemma index_of_reachable (h : (system s).Reachable ListingsSettled c) : IndexInv c := by
  refine h.invariant ?_ ?_
  · intro w hw
    rw [show w = {} from hw]
    exact .inr (.inr rfl)
  · intro c l c' hc ih _ hs
    cases l with
    | call i e => exact indexInv_of_call hc ih hs
    | env =>
      cases hs with
      | env henv =>
        cases henv with
        | tick ht => exact ih
    | start task =>
      rcases ih with hcome | ⟨t, ht, htask, hnot⟩ | hindex
      · exact (hcome.step hc hs).elim .inl CallWaits.index
      · cases hs with
        | start _ => exact .inr (.inl ⟨t, mem_append_left _ ht, htask, hnot⟩)
      · cases hs with
        | start _ => exact .inr (.inr hindex)

/-! ## Convergence -/

/-- Every load is finished, and so is every call of a callback it gave rise to. -/
def Settled (c : A2AState) : Prop :=
  (∀ t ∈ c.threads, t.task.isLoad = true → finished t) ∧ callsBegun c = c.world.notified ∧
    ∀ t ∈ c.threads, t.task.isCall = true → finished t

lemma Settled.no_call (h : Settled c) : ¬ CallToCome c := by
  rintro (⟨t, ht, hload, hrun⟩ | hlt)
  · exact hrun (h.1 t ht hload)
  · exact absurd h.2.1 (Nat.ne_of_lt hlt)

lemma evicted_of_finished (h : (system s).Reachable G c) (ht : t ∈ c.threads)
    (htask : t.task = .onConfigChange) (hfin : finished t) : Evicted t.trace := by
  have hdone := System.Reachable.returned (code_obeys s) h ht hfin
  rw [htask] at hdone
  exact hdone

lemma trust_settled (h : (system s).Reachable G c) (hset : Settled c) : TrustCurrent c.world := by
  have hfin : ∀ t ∈ c.threads, t.task = .onConfigChange → finished t := by
    intro t ht htask
    exact hset.2.2 t ht (by rw [htask]; rfl)
  have hopen : c.world.locked = false := by
    rcases lockSound_of_reachable h with ⟨hfree, -⟩ | ⟨-, i, hi⟩
    · exact hfree
    · -- the holder has returned, so it has come past the critical section
      rcases (hi i).2 rfl with ⟨t, ht, htask, -, hnot⟩
      have hmem := mem_of_getElem? ht
      rcases (evicted_of_finished h hmem htask (hfin t hmem htask)).1 with ⟨next, prev, hswap⟩
      have hjust := (h.obeysUntil (code_obeys s) t hmem).2
      rcases hjust.of_mem hswap with ⟨pre, hpre, hproto⟩
      rw [htask] at hproto
      cases hproto with
      | @set host ca _ _ _ htr _ =>
        exact absurd (hpre.subset (by simp [htr, callTrace])) (hnot host ca)
  rcases trust_of_reachable h with hcome | ⟨t, ht, htask, htrace⟩ | htracks
  · exact absurd hcome hset.no_call
  · rcases (evicted_of_finished h ht htask (hfin t ht htask)).1 with ⟨next, prev, hswap⟩
    rw [htrace] at hswap
    cases hswap
  · exact htracks.2 hopen

lemma index_settled (h : (system s).Reachable ListingsSettled c) (hset : Settled c) :
    c.world.broker.agents = agentIndex c.world.config.a2aAgents := by
  rcases index_of_reachable h with hcome | ⟨t, ht, htask, hnot⟩ | hindex
  · exact absurd hcome hset.no_call
  · have hfin : finished t := hset.2.2 t ht (by rw [htask]; rfl)
    rcases (evicted_of_finished h ht htask hfin).1 with ⟨next, prev, hswap⟩
    exact absurd hswap (hnot next prev)
  · exact hindex

lemma slash_mem_of_listed (h : (system s).Reachable G c) (ht : t ∈ c.threads) {keys : List String}
    (hlist : lists keys ∈ t.trace) {key : String} (hkey : key ∈ keys) : '/' ∈ key.toList := by
  refine h.answered ht hlist (fun _ _ _ _ ih => ih) fun c i c' hc _ hs => ?_
  rcases hs.caller rfl with ⟨_, _, _, _, hans, _⟩
  have hperm : keys.Perm c.world.cards.keys := hans.1
  exact (entriesMatch hc key).slash (AList.lookup_isSome.2 (hperm.mem_iff.1 hkey))

/-- When the agents are not replaced between the listing of a call and its return, then after the last
call has returned the index, the host and the CA bundle are those of the configuration; and a card is
never evicted while its agent is configured. -/
theorem reloads_converge (h : (system s).Reachable ListingsSettled c) :
    (Settled c → c.world.broker.agents = agentIndex c.world.config.a2aAgents ∧
      c.world.broker.externalHost = c.world.config.externalHostname ∧
      c.world.broker.caCertPEM = c.world.config.gatewayCACertPEM) ∧
    ∀ i ns agentPrefix c', (system s).Step c (.call i ⟨.storeDelete ns agentPrefix, ()⟩) c' →
      (agentIndex c.world.config.a2aAgents).lookup (storeKey ns agentPrefix) = none := by
  constructor
  · intro hset
    exact ⟨index_settled h hset, trust_settled h hset⟩
  · intro i ns agentPrefix c' hs
    rcases hs.caller rfl with ⟨t, k, hi, hrest, -, -⟩
    have ht := List.mem_of_getElem? hi
    have hset : t.task.isSet = true := by
      have hproto := protocol_of h ht hrest
      generalize t.task = task at hproto
      cases task with
      | onConfigChange | setAgents => rfl
      | load => exact False.elim hproto
      | refreshAll | refreshCards =>
        cases hproto with
        | read hread => cases hread
    rcases set_current h ht hrest hset (.inr (.inr ⟨ns, agentPrefix, rfl⟩)) with
      ⟨tr, ⟨pre, htr⟩, _, keys, key, _, hlist, hkey, hnone, hsplit⟩
    have hslash : '/' ∈ key.toList :=
      slash_mem_of_listed h ht (by rw [htr]; exact List.mem_append_right _ hlist) hkey
    have hglue := storeKey_splitKey hslash
    rw [hsplit] at hglue
    rw [hglue]
    exact hnone

/-- `Settled` as a check. -/
def settledCheck (c : A2AState) : Bool :=
  idle Task.isLoad c && callsBegun c = c.world.notified && idle Task.isCall c

lemma settled_of_check (h : settledCheck c = true) : Settled c := by
  simp only [settledCheck, and_eq_true, decide_eq_true_eq] at h
  exact ⟨finished_of_idle h.1.1, h.1.2, finished_of_idle h.2⟩

/-- `ListingsSettled` as a check. -/
def listingsSettledCheck (c : A2AState) : Label brokerSig Task → Bool
  | .call _ ⟨.setA2AAgents _, _⟩ => c.threads.all fun t =>
    System.isRet t.rest || t.trace.all fun e =>
      match e.op with
      | .listA2AAgents => false
      | _ => true
  | .start (.setAgents _) => false
  | _ => true

lemma listingsSettled_of_check (c : A2AState) (l : Label brokerSig Task)
    (h : listingsSettledCheck c l = true) : ListingsSettled c l := by
  cases l with
  | env => exact trivial
  | start task =>
    cases task with
    | setAgents => cases h
    | _ => exact trivial
  | call i e =>
    obtain ⟨o, r⟩ := e
    cases o with
    | setA2AAgents agents =>
      intro t ht agents' hlist
      rcases Bool.or_eq_true_iff.1 (all_eq_true.1 h t ht) with hret | hnone
      · exact System.eq_ret_of_isRet hret
      · cases all_eq_true.1 hnone _ hlist
    | _ => exact trivial

def tidesAgent : A2AAgent :=
  { name := "mcp-test/tides-agent", url := "http://tides:8080", agentPrefix := "tides" }

def tidesUpstream : Upstream := fun client req =>
  if req.url = cardURL tidesAgent then
    .ok { status := 200, body := demoCard "https://gw.example/a2a/mcp-test/tides" }
  else demoUpstream client req

def loadedTwice : A2AState :=
  (player demoSetup tidesUpstream listingsSettledCheck listingsSettled_of_check).play started <|
    reloadMoves 0 (demoConfig "old.example" [weatherAgent]) ++
      reloadMoves 2 (demoConfig "gw.example" [weatherAgent, tidesAgent])

theorem reloads_converge_tides :
    Settled loadedTwice ∧
      loadedTwice.world.broker.agents = agentIndex loadedTwice.world.config.a2aAgents ∧
      loadedTwice.world.config = demoConfig "gw.example" [weatherAgent, tidesAgent] ∧
      loadedTwice.world.broker.externalHost = loadedTwice.world.config.externalHostname := by
  have hsettled : Settled loadedTwice := settled_of_check (by decide +kernel)
  have hreach : (system demoSetup).Reachable ListingsSettled loadedTwice :=
    System.Player.reachable_play _ reachable_started _
  rcases (reloads_converge hreach).1 hsettled with ⟨hindex, hhost, -⟩
  exact ⟨hsettled, hindex, by decide +kernel, hhost⟩

/-! ## A call with a list that is out of date -/

/-- The first call has listed the weather agent.  Then the tides agent is configured, the second call
registers both, and both cards are fetched. -/
def tidesFetched : A2AState :=
  (freePlayer demoSetup tidesUpstream).play started <|
    .start (.load (demoConfig "gw.example" [weatherAgent])) :: System.calls 0 4 ++
      .start .onConfigChange :: System.calls 1 5 ++
      reloadMoves 2 (demoConfig "gw.example" [weatherAgent, tidesAgent]) ++
      .start .refreshAll :: System.calls 4 13

def staleSwapped : A2AState :=
  (freePlayer demoSetup tidesUpstream).play tidesFetched (System.calls 1 11)

/-- All calls have returned, but the tides agent of the last configuration is not registered, and its
card, which was committed under that configuration, has been evicted. -/
theorem staleCall_wins :
    (system demoSetup).Reachable System.Free staleSwapped ∧ Settled staleSwapped ∧
      tidesFetched.world.config = demoConfig "gw.example" [weatherAgent, tidesAgent] ∧
      staleSwapped.world.config = tidesFetched.world.config ∧
      (tidesFetched.world.card "mcp-test" "tides").isSome ∧
      staleSwapped.world.broker.agents.lookup "mcp-test/tides" = none ∧
      staleSwapped.world.card "mcp-test" "tides" = none := by
  refine ⟨?_, settled_of_check (by decide +kernel), ?_, ?_, ?_, ?_, ?_⟩
  · exact System.Player.reachable_play _ (System.Player.reachable_play _ reachable_started _) _
  all_goals decide +kernel

end McpGateway.A2A
