import McpGateway.A2A.Serving

/-!
# Which cards are committed

A refresh commits a new body only after validating it, but on a 304 and on an unchanged digest it
commits what it has read from the store.  So what holds of committed cards has to hold of the cached
ones, and of those a running refresh has read, when the inputs of the check change.
-/

namespace McpGateway.A2A

open Go Effect Config

/-! ## Commits -/

def committed : BrokerEv → Option (String × String × CardEntry)
  | ⟨.storeIfCurrent ns agentPrefix _ _ _ entry, true⟩ => some (ns, agentPrefix, entry)
  | _ => none

variable {e : BrokerEv} {ns agentPrefix : String} {entry : CardEntry}

lemma committed_eq_some
    (h : committed e = some (ns, agentPrefix, entry)) :
    ∃ agent gwCA host, e = ⟨.storeIfCurrent ns agentPrefix agent gwCA host entry, true⟩ := by
  unfold committed at h
  split at h
  · cases h
    exact ⟨_, _, _, rfl⟩
  · cases h

lemma card_of_committed {w w' : World}
    {s : Setup} (hans : w.Answers s e.op e.resp w')
    (h : committed e = some (ns, agentPrefix, entry)) :
    w'.cards.lookup (storeKey ns agentPrefix) = some entry ∧
      w'.broker.externalHost = w.broker.externalHost ∧ w'.broker.agents = w.broker.agents := by
  rcases committed_eq_some h with ⟨agent, gwCA, host, rfl⟩
  rcases hans with ⟨-, -, rfl⟩
  exact ⟨AList.lookup_insert _, rfl, rfl⟩

/-! ## Cards in use -/

/-- A refresh that is still running has read these bytes under the key. -/
def Reads (c : A2AState) (key : String) (raw : Bytes) : Prop :=
  ∃ t ∈ c.threads, t.task.isRefresh = true ∧ ¬ finished t ∧
    ∃ ns agentPrefix prev, storeKey ns agentPrefix = key ∧
      (⟨.storeGet ns agentPrefix, some prev⟩ : BrokerEv) ∈ t.trace ∧ prev.raw = raw

/-- The bytes are the stored card of the key, or a refresh still works with them. -/
def Uses (c : A2AState) (key : String) (raw : Bytes) : Prop :=
  (∃ entry, c.world.cards.lookup key = some entry ∧ entry.raw = raw) ∨ Reads c key raw

/-- The thread is about to commit a new body that was validated, and its fetch is still current. -/
structure FreshCommit (c : A2AState) (i : Nat) (a : Attempt) (body : Bytes) : Prop where
  thread : ∃ t pre now, c.threads[i]? = some t ∧ t.trace = pre ++ a.trace ++ [⟨.now, now⟩]
  status : a.resp.status = 200
  body_eq : cardBody a.resp = some body
  valid : validateCard body a.host a.ns a.agentPrefix = ""
  current : c.world.broker.stillCurrent a.key a.agent a.gwCA a.host = true

variable {s : Setup} {G : A2AState → Label brokerSig Task → Prop} {c c' : A2AState}
  {l : Label brokerSig Task} {key : String} {raw : Bytes}

lemma not_finished_of_call {t : A2AThread} {o : BrokerOp} {k : o.Resp → BrokerProg Unit}
    (h : t.rest = .vis o k) : ¬ finished t := by
  intro hfin
  rw [finished, h] at hfin
  cases hfin

lemma uses_of_commit {t : A2AThread} {i : Nat} {agent : A2AAgent}
    {gwCA host : String} {k : Bool → BrokerProg Unit}
    (hc : (system s).Reachable G c) (hi : c.threads[i]? = some t)
    (hrest : t.rest = .vis (.storeIfCurrent ns agentPrefix agent gwCA host entry) k)
    (hcur : c.world.broker.stillCurrent (storeKey ns agentPrefix) agent gwCA host = true) :
    Uses c (storeKey ns agentPrefix) entry.raw ∨
      ∃ a, FreshCommit c i a entry.raw ∧ a.key = storeKey ns agentPrefix := by
  have hproto := protocol_of hc (mem_of_getElem? hi) hrest
  have hrefresh : t.task.isRefresh = true ∧ RefreshProtocol s t.trace
      (.storeIfCurrent ns agentPrefix agent gwCA host entry) := by
    generalize t.task = task at hproto
    cases task with
    | load conf => exact False.elim hproto
    | onConfigChange =>
      cases hproto with
      | set _ hset => exact False.elim hset
    | setAgents agents => exact False.elim hproto
    | refreshAll | refreshCards => exact ⟨rfl, hproto⟩
  rcases hrefresh with ⟨hrefresh, hproto⟩
  cases hproto with
  | read hread => cases hread
  | @commit pre a now _ htr hcommits =>
    have hreads : ∀ prev, a.prev = some prev → Reads c a.key prev.raw := by
      intro prev hprev
      refine ⟨t, mem_of_getElem? hi, hrefresh, not_finished_of_call hrest, a.ns, a.agentPrefix,
        prev, rfl, ?_, rfl⟩
      rw [htr]
      simp [Attempt.trace, hprev]
    cases hcommits with
    | @notModified prev hprev _ | @unchanged prev _ hprev _ _ _ =>
      exact .inl (.inr (hreads prev hprev))
    | fresh hstatus hbody hvalid =>
      exact .inr ⟨a, ⟨⟨t, pre, now, hi, htr⟩, hstatus, hbody, hvalid, hcur⟩, rfl⟩

lemma uses_of_step (hc : (system s).Reachable G c) (hs : (system s).Step c l c')
    (huses : Uses c' key raw) : Uses c key raw ∨ ∃ i e a, l = .call i e ∧ (committed e).isSome ∧
    FreshCommit c i a raw ∧ a.key = key := by
  rcases huses with ⟨entry, hentry, rfl⟩ | ⟨t', ht', hrefresh, hrun, ns, p, prev, hkey, hget, rfl⟩
  · cases l with
    | env =>
      cases hs with
      | env henv =>
        cases henv with
        | tick ht => exact .inl (.inl ⟨entry, hentry, rfl⟩)
    | start task =>
      cases hs with
      | start _ => exact .inl (.inl ⟨entry, hentry, rfl⟩)
    | call i e =>
      rcases change_of_step hs with ⟨t, k, hi, hrest, hchg⟩
      generalize c'.world = w' at hchg hentry
      cases hchg with
      | idle | configure | notify | lock | unlock | client | spawn | swap =>
        exact .inl (.inl ⟨entry, hentry, rfl⟩)
      | @store ns p _ _ _ stored hcur =>
        rw [lookup_insert] at hentry
        split_ifs at hentry with hkey
        · -- the body is new, or that of the card the refresh has read and found unmodified
          cases hentry
          rcases uses_of_commit hc hi hrest hcur with hold | ⟨a, hfresh, ha⟩
          · exact .inl (hkey ▸ hold)
          · exact .inr ⟨i, _, a, rfl, rfl, hfresh, ha.trans hkey.symm⟩
        · exact .inl (.inl ⟨entry, hentry, rfl⟩)
      | fail | delete =>
        rw [lookup_erase] at hentry
        split_ifs at hentry
        exact .inl (.inl ⟨entry, hentry, rfl⟩)
  · rcases mem_iff_getElem?.1 ht' with ⟨j, hj⟩
    rcases hs.thread_cases hj with hold | ⟨t, o, k, r, rfl, ht, hrest, hans, rfl⟩ |
      ⟨task, -, -, -, rfl⟩
    · exact .inl (.inr ⟨t', mem_of_getElem? hold, hrefresh, hrun, ns, p, prev, hkey, hget, rfl⟩)
    · rcases mem_append.1 hget with hbefore | hnow
      · exact .inl (.inr ⟨t, mem_of_getElem? ht, hrefresh, not_finished_of_call hrest, ns, p,
          prev, hkey, hbefore, rfl⟩)
      · -- the card was read just now
        cases mem_singleton.1 hnow
        have hcard : some prev = c.world.cards.lookup (storeKey ns p) := hans.1
        exact .inl (.inl ⟨prev, hkey ▸ hcard.symm, rfl⟩)
    · simp at hget

/-- What is kept for the cards in use by every step, and holds of a new body when it is committed, holds
of every card in use. -/
lemma uses_invariant {V : A2AState → String → Bytes → Prop} (hkeep : ∀ c l c' key raw,
    (system s).Reachable G c → G c l → (system s).Step c l c' → Uses c key raw → V c key raw → V c' key raw)
    (hfresh : ∀ c i e c' a raw, (system s).Reachable G c → (system s).Step c (.call i e) c' →
    (committed e).isSome → FreshCommit c i a raw → V c' a.key raw) (h : (system s).Reachable G c) :
    ∀ key raw, Uses c key raw → V c key raw := by
  refine h.invariant ?_ ?_
  · intro w hw key raw huses
    rw [show w = {} from hw] at huses
    rcases huses with ⟨entry, hentry, -⟩ | ⟨t, ht, -⟩
    · cases hentry
    · cases ht
  · intro c l c' hc ih hg hs key raw huses
    rcases uses_of_step hc hs huses with hold | ⟨i, e, a, rfl, hcommit, hnew, rfl⟩
    · exact hkeep c l c' key raw hc hg hs hold (ih key raw hold)
    · exact hfresh c i e c' a raw hc hs hcommit hnew

/-! ## Validation under the current host -/

/-- A reload changes the external host only while no card is in use. -/
def HostSettled (c : A2AState) : Label brokerSig Task → Prop
  | .call _ ⟨.unlock host _, _⟩ => host = c.world.broker.externalHost ∨ ∀ key raw, ¬ Uses c key raw
  | _ => True

lemma host_of_change {w w' : World} (h : World.Change w e w') :
    w'.broker.externalHost = w.broker.externalHost ∨
      ∃ host ca, e = ⟨.unlock host ca, ()⟩ ∧ w'.broker.externalHost = host := by
  cases h with
  | unlock host ca => exact .inr ⟨host, ca, rfl, rfl⟩
  | idle | configure | notify | lock | swap | client | store | fail | delete | spawn => exact .inl rfl

lemma host_of_stillCurrent {b : Broker} {agent : A2AAgent} {gwCA host : String}
    (h : b.stillCurrent key agent gwCA host = true) : b.externalHost = host := by
  unfold Broker.stillCurrent at h
  cases hcur : b.agents.lookup key with
  | none => simp [hcur] at h
  | some cur =>
    rw [hcur] at h
    simp only [and_eq_true, decide_eq_true_eq] at h
    exact h.2

/-- The bytes are a valid card under the present external host. -/
def ValidNow (c : A2AState) (key : String) (raw : Bytes) : Prop :=
  ∀ ns agentPrefix, storeKey ns agentPrefix = key →
    validateCard raw c.world.broker.externalHost ns agentPrefix = ""

lemma ValidNow.step {l : Label brokerSig Task} (hg : HostSettled c l) (hs : (system s).Step c l c')
    (huses : Uses c key raw) (h : ValidNow c key raw) : ValidNow c' key raw := by
  have hhost : c'.world.broker.externalHost = c.world.broker.externalHost := by
    cases l with
    | call i e =>
      rcases change_of_step hs with ⟨t, k, hi, hrest, hchg⟩
      rcases host_of_change hchg with hsame | ⟨host, ca, rfl, hnew⟩
      · exact hsame
      · rcases hg with heq | hnone
        · exact hnew.trans heq
        · exact absurd huses (hnone key raw)
    | env =>
      cases hs with
      | env henv =>
        cases henv with
        | tick ht => rfl
    | start task =>
      cases hs with
      | start _ => rfl
  intro ns agentPrefix hkey
  rw [hhost]
  exact h ns agentPrefix hkey

lemma uses_valid (h : (system s).Reachable HostSettled c) :
    ∀ key raw, Uses c key raw → ValidNow c key raw := by
  refine uses_invariant (V := ValidNow) ?_ ?_ h
  · intro c l c' key raw _ hg hs huses hvalid
    exact hvalid.step hg hs huses
  · intro c i e c' a raw _ hs hcommit hfresh ns agentPrefix hkey
    rcases isSome_iff_exists.1 hcommit with ⟨⟨_, _, _⟩, hcommit⟩
    rcases hs.caller rfl with ⟨_, _, _, _, hans, _⟩
    have hhost : c'.world.broker.externalHost = a.host :=
      (card_of_committed hans hcommit).2.1.trans (host_of_stillCurrent hfresh.current)
    rw [hhost, validateCard_congr _ _ hkey]
    exact hfresh.valid

lemma card_of_served {w : World} {path : String} (h : (w.serveAgentCard path).status = 200) :
    ∃ ns agentPrefix entry, parseCardPath path = some (ns, agentPrefix) ∧
      w.card ns agentPrefix = some entry ∧ (w.serveAgentCard path).body = entry.raw := by
  unfold World.serveAgentCard at h ⊢
  cases hpath : parseCardPath path with
  | none => simp [hpath, notFound, httpError] at h
  | some parts =>
    obtain ⟨ns, agentPrefix⟩ := parts
    rw [hpath] at h
    dsimp only at h ⊢
    split_ifs at h ⊢ with hagent hrejected
    · simp [notFound, httpError] at h
    · simp [httpError] at h
    · cases hcard : w.card ns agentPrefix with
      | none => simp [hcard, httpError] at h
      | some entry => exact ⟨ns, agentPrefix, entry, rfl, hcard, rfl⟩

/-- When the gateway host changes only while no card is in use, a committed card passes validation
under the host and the key of that moment, and so does every card that is served or that the catalog
links to. -/
theorem commits_validated (h : (system s).Reachable HostSettled c) :
    (∀ i e c' ns agentPrefix entry, (system s).Step c (.call i e) c' →
      committed e = some (ns, agentPrefix, entry) →
      validateCard entry.raw c.world.broker.externalHost ns agentPrefix = "") ∧
    (∀ path, (c.world.serveAgentCard path).status = 200 → ∃ ns agentPrefix,
      parseCardPath path = some (ns, agentPrefix) ∧
      validateCard (c.world.serveAgentCard path).body c.world.broker.externalHost ns agentPrefix =
        "") ∧
    ∀ href ∈ c.world.catalogHrefs, ∃ ns agentPrefix entry,
      href = a2aPathPrefix ++ storeKey ns agentPrefix ∧ c.world.card ns agentPrefix = some entry ∧
      validateCard entry.raw c.world.broker.externalHost ns agentPrefix = "" := by
  have hcached : ∀ ns agentPrefix entry, c.world.card ns agentPrefix = some entry →
      validateCard entry.raw c.world.broker.externalHost ns agentPrefix = "" := by
    intro ns agentPrefix entry hcard
    exact uses_valid h _ _ (.inl ⟨entry, hcard, rfl⟩) ns agentPrefix rfl
  refine ⟨?_, ?_, ?_⟩
  · intro i e c' ns agentPrefix entry hs hcommit
    rcases hs.caller rfl with ⟨_, _, _, _, hans, _⟩
    rcases card_of_committed hans hcommit with ⟨hcard, hhost, -⟩
    have hg : HostSettled c (.call i e) := by
      rcases committed_eq_some hcommit with ⟨_, _, _, rfl⟩
      exact trivial
    have hvalid := uses_valid (.step h hg hs) _ _ (.inl ⟨entry, hcard, rfl⟩) ns agentPrefix rfl
    rwa [hhost] at hvalid
  · intro path hstatus
    rcases card_of_served hstatus with ⟨ns, agentPrefix, entry, hpath, hcard, hbody⟩
    exact ⟨ns, agentPrefix, hpath, hbody ▸ hcached ns agentPrefix entry hcard⟩
  · intro href hhref
    rcases c.world.mem_catalogHrefs.1 hhref with ⟨key, hreg, hlisted, rfl⟩
    obtain ⟨agent, hagent⟩ := Option.isSome_iff_exists.1 hreg
    have hkey : storeKey (splitKey key).1 (splitKey key).2 = key :=
      storeKey_splitKey (slash_mem_of_keyed (keyed_of_reachable h) hagent)
    simp only [World.listed, Bool.and_eq_true] at hlisted
    obtain ⟨entry, hentry⟩ := Option.isSome_iff_exists.1 hlisted.2
    exact ⟨_, _, entry, by rw [hkey], hentry, hcached _ _ entry hentry⟩

/-- `HostSettled` as a check: no card is cached and no refresh is running. -/
def hostSettledCheck (c : A2AState) : Label brokerSig Task → Bool
  | .call _ ⟨.unlock host _, _⟩ =>
    host = c.world.broker.externalHost || (c.world.cards.keys.isEmpty && idle Task.isRefresh c)
  | _ => true

lemma not_uses_of_idle (hcards : c.world.cards.keys.isEmpty = true)
    (hidle : idle Task.isRefresh c = true) : ¬ Uses c key raw := by
  rintro (⟨entry, hentry, -⟩ | ⟨t, ht, hrefresh, hrun, -⟩)
  · have hmem : key ∈ c.world.cards.keys := AList.lookup_isSome.1 (by rw [hentry]; rfl)
    rw [List.isEmpty_iff.1 hcards] at hmem
    cases hmem
  · exact hrun (finished_of_idle hidle t ht hrefresh)

lemma hostSettled_of_check (c : A2AState) (l : Label brokerSig Task)
    (h : hostSettledCheck c l = true) : HostSettled c l := by
  cases l with
  | env | start => exact trivial
  | call i e =>
    obtain ⟨o, r⟩ := e
    cases o with
    | unlock host ca =>
      rcases Bool.or_eq_true_iff.1 h with hsame | hnone
      · exact .inl (of_decide_eq_true hsame)
      · rw [and_eq_true] at hnone
        exact .inr fun key raw => not_uses_of_idle hnone.1 hnone.2
    | _ => exact trivial

def firstFetch : List (System.Move Task) :=
  (fetchMoves (demoConfig "gw.example" [weatherAgent]) weatherAgent).dropLast

def settledPlayer (up : Upstream) : System.Player (system demoSetup) HostSettled :=
  player demoSetup up hostSettledCheck hostSettled_of_check

theorem commits_validated_weather :
    ∃ e entry, (system demoSetup).Step ((settledPlayer demoUpstream).play started firstFetch)
        (.call 2 e) ((settledPlayer demoUpstream).call
          ((settledPlayer demoUpstream).play started firstFetch) 2) ∧
      committed e = some ("mcp-test", "weather", entry) ∧
      validateCard entry.raw "gw.example" "mcp-test" "weather" = "" := by
  generalize hc : (settledPlayer demoUpstream).play started firstFetch = c
  have hreach : (system demoSetup).Reachable HostSettled c :=
    hc ▸ System.Player.reachable_play _ reachable_started _
  have hhost : c.world.broker.externalHost = "gw.example" := by
    rw [← hc]
    decide +kernel
  have hnext : (((settledPlayer demoUpstream).next c 2).bind committed).map (fun x => (x.1, x.2.1)) =
      some ("mcp-test", "weather") := by
    rw [← hc]
    decide +kernel
  rcases Option.map_eq_some_iff.1 hnext with ⟨⟨ns, agentPrefix, entry⟩, hbind, hkey⟩
  rcases Option.bind_eq_some_iff.1 hbind with ⟨e, he, hcommit⟩
  cases hkey
  have hstep := (System.Player.step_of_next _ he).2
  have hvalid := (commits_validated hreach).1 _ _ _ _ _ _ hstep hcommit
  rw [hhost] at hvalid
  exact ⟨e, entry, hstep, hcommit, hvalid⟩

/-! ## A card of an earlier host -/

/-- The card was fetched for the first host and the gateway has moved to another one.  A refresh has
been answered 304. -/
def rehosted : A2AState :=
  (freePlayer demoSetup demoUpstream).play started <|
    fetchMoves (demoConfig "gw.example" [weatherAgent]) weatherAgent ++
      reloadMoves 3 (demoConfig "new.example" [weatherAgent]) ++
      .start .refreshAll :: System.calls 5 6

/-- The refresh commits the card of the first host, which is then served under the new one. -/
theorem rehosted_commits :
    (system demoSetup).Reachable System.Free rehosted ∧
      rehosted.world.broker.externalHost = "new.example" ∧
      ∃ e entry, committed e = some ("mcp-test", "weather", entry) ∧
        (system demoSetup).Step rehosted (.call 5 e)
          ((freePlayer demoSetup demoUpstream).call rehosted 5) ∧
        validateCard entry.raw "new.example" "mcp-test" "weather" ≠ "" ∧
        ((freePlayer demoSetup demoUpstream).call rehosted 5).world.serveAgentCard
            "/a2a/mcp-test/weather/.well-known/agent-card.json" =
          { contentType := "application/json", etag := "v1", body := entry.raw } := by
  refine ⟨System.Player.reachable_play _ reachable_started _, by decide +kernel, ?_⟩
  have hnext : (((freePlayer demoSetup demoUpstream).next rehosted 5).bind committed) =
      some ("mcp-test", "weather", ⟨weatherCard, "v1", "", text weatherCard, 0⟩) := by
    decide +kernel
  rcases Option.bind_eq_some_iff.1 hnext with ⟨e, he, hcommit⟩
  exact ⟨e, _, hcommit, (System.Player.step_of_next _ he).2, by decide +kernel, by decide +kernel⟩

end McpGateway.A2A
