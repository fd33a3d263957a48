import McpGateway.A2A.Commits

/-!
# Where committed cards come from

A card is committed for the agent that is registered under the key at that moment.  Its bytes should be
a 200 answer that was obtained with the card URL, the credential and the CA of this agent.

- `commits_delivered`: that is so when the fetch inputs of a key change only while no card of the key is
  in use.
- `repointed_commits`: otherwise a new agent that answers 304 keeps the card of the old one.
-/

namespace McpGateway.A2A

open Go Effect Config

/-- A card as it was delivered: the inputs of the fetch and the body of the 200 answer. -/
structure Delivery where
  url : String
  authorization : String
  agentCA : String
  body : Bytes
  deriving DecidableEq, Repr

def delivery : BrokerEv → Option Delivery
  | ⟨.fetch client req, .ok resp⟩ =>
    if resp.status = 200 then
      (cardBody resp).map fun body => ⟨req.url, req.authorization, client.agentPEM, body⟩
    else none
  | _ => none

/-- The agent answered a request for its card with these bytes. -/
def Delivered (c : A2AState) (agent : A2AAgent) (raw : Bytes) : Prop :=
  ∃ e, System.Happened c (fun _ => True) e ∧
    delivery e = some ⟨cardURL agent, agent.credential, agent.caCert, raw⟩

/-- The two agents are asked for their cards in the same way. -/
def SameInputs (a b : A2AAgent) : Prop :=
  cardURL a = cardURL b ∧ a.credential = b.credential ∧ a.caCert = b.caCert

instance (a b : A2AAgent) : Decidable (SameInputs a b) := inferInstanceAs (Decidable (_ ∧ _ ∧ _))

/-- The fetch inputs of a key change only while no card of the key is in use, and no input holds the
separator of fingerprints. -/
def InputsSettled (c : A2AState) : Label brokerSig Task → Prop
  | .call _ ⟨.swapAgents next, _⟩ => ∀ key a, next.lookup key = some a → separable a = true ∧
      ((∃ cur, c.world.broker.agents.lookup key = some cur ∧ SameInputs cur a) ∨
        ∀ raw, ¬ Uses c key raw)
  | _ => True

variable {s : Setup} {G : A2AState → Label brokerSig Task → Prop} {c c' : A2AState}
  {l : Label brokerSig Task} {key : String} {raw : Bytes} {agent : A2AAgent}

lemma Delivered.step (h : Delivered c agent raw)
    (hs : (system s).Step c l c') : Delivered c' agent raw := by
  rcases h with ⟨e, hhap, hdel⟩
  exact ⟨e, hhap.step hs, hdel⟩

lemma Delivered.congr {a b : A2AAgent} (h : Delivered c a raw) (hsame : SameInputs a b) :
    Delivered c b raw := by
  rcases h with ⟨e, hhap, hdel⟩
  rw [hsame.1, hsame.2.1, hsame.2.2] at hdel
  exact ⟨e, hhap, hdel⟩

lemma agents_of_step (hg : InputsSettled c l) (hs : (system s).Step c l c') :
    c'.world.broker.agents = c.world.broker.agents ∨
      ∀ key a, c'.world.broker.agents.lookup key = some a → separable a = true ∧
        ((∃ cur, c.world.broker.agents.lookup key = some cur ∧ SameInputs cur a) ∨
          ∀ raw, ¬ Uses c key raw) := by
  cases l with
  | call i e =>
    rcases change_of_step hs with ⟨_, _, _, _, hchg⟩
    rcases agents_of_change hchg with hsame | ⟨next, prev, rfl, hnext⟩
    · exact .inl hsame
    · refine .inr ?_
      rw [hnext]
      exact hg
  | env =>
    cases hs with
    | env henv =>
      cases henv with
      | tick ht => exact .inl rfl
  | start task =>
    cases hs with
    | start _ => exact .inl rfl

lemma separable_of_reachable (h : (system s).Reachable InputsSettled c) :
    ∀ key a, c.world.broker.agents.lookup key = some a → separable a = true := by
  refine h.invariant ?_ ?_
  · intro w hw key a ha
    rw [show w = {} from hw] at ha
    cases ha
  · intro c l c' _ ih hg hs key a ha
    rcases agents_of_step hg hs with hsame | hswap
    · exact ih key a (hsame ▸ ha)
    · exact (hswap key a ha).1

lemma client_of_answered (h : (system s).Reachable G c) {t : A2AThread} (ht : t ∈ c.threads) {client : AgentClient} (hclient : (⟨.clientFor key agent,
    .ok client⟩ : BrokerEv) ∈ t.trace) : client.agentPEM = agent.caCert := by
  refine h.answered ht hclient (fun _ _ _ _ ih => ih) fun c i c' _ _ hs => ?_
  rcases hs.caller rfl with ⟨_, _, _, _, hans, _⟩
  have hfst : (c.world.broker.clientFor s key agent).1 = .ok client := hans.2.1.symm
  exact World.clientFor_fst hfst

lemma current_of_stillCurrent {b : Broker} {gwCA host : String}
    (h : b.stillCurrent key agent gwCA host = true) :
    ∃ cur, b.agents.lookup key = some cur ∧ agentFingerprint cur = agentFingerprint agent := by
  unfold Broker.stillCurrent at h
  cases hcur : b.agents.lookup key with
  | none => simp [hcur] at h
  | some cur =>
    rw [hcur] at h
    simp only [and_eq_true, decide_eq_true_eq] at h
    exact ⟨cur, rfl, h.1.1⟩

lemma FreshCommit.delivered (hc : (system s).Reachable InputsSettled c) {i : Nat} {a : Attempt}
    (h : FreshCommit c i a raw) {cur : A2AAgent}
    (hcur : c.world.broker.agents.lookup a.key = some cur) : Delivered c cur raw := by
  rcases h.thread with ⟨t, pre, now, hi, htr⟩
  have ht : t ∈ c.threads := mem_of_getElem? hi
  have hmem : ∀ e ∈ a.trace, e ∈ t.trace := by
    intro e he
    rw [htr]
    exact mem_append_left _ (mem_append_right _ he)
  rcases current_of_stillCurrent h.current with ⟨cur', hcur', hfp⟩
  obtain rfl := mem_unique hcur' hcur
  have hinputs := fingerprint_injective (separable_of_reachable hc _ _ hcur) hfp
  have hca : a.client.agentPEM = a.agent.caCert :=
    client_of_answered hc ht (hmem ⟨.clientFor a.key a.agent, .ok a.client⟩ (by simp [Attempt.trace]))
  refine ⟨⟨.fetch a.client (cardRequest a.agent a.prev), .ok a.resp⟩,
    ⟨t, ht, trivial, hmem _ (by simp [Attempt.trace])⟩, ?_⟩
  simp [delivery, h.status, h.body_eq, cardRequest, hca, hinputs]

lemma uses_delivered (h : (system s).Reachable InputsSettled c) : ∀ key raw, Uses c key raw → ∀ cur,
    c.world.broker.agents.lookup key = some cur → Delivered c cur raw := by
  refine uses_invariant (V := fun c key raw => ∀ cur, c.world.broker.agents.lookup key = some cur →
    Delivered c cur raw) ?_ ?_ h
  · intro c l c' key raw _ hg hs huses hdel cur hcur
    rcases agents_of_step hg hs with hsame | hswap
    · exact (hdel cur (hsame ▸ hcur)).step hs
    · rcases (hswap key cur hcur).2 with ⟨old, hold, hinputs⟩ | hnone
      · exact ((hdel old hold).congr hinputs).step hs
      · exact absurd huses (hnone raw)
  · intro c i e c' a raw hc hs hcommit hfresh cur hcur
    rcases isSome_iff_exists.1 hcommit with ⟨⟨_, _, _⟩, hcommit⟩
    rcases hs.caller rfl with ⟨_, _, _, _, hans, _⟩
    rw [(card_of_committed hans hcommit).2.2] at hcur
    exact (hfresh.delivered hc hcur).step hs

/-- When the fetch inputs of a key change only while no card of the key is in use, the bytes of a
committed card were the body of a 200 answer to a fetch with the card URL, the credential and the CA of
the agent that is registered under the key. -/
theorem commits_delivered (h : (system s).Reachable InputsSettled c) {i : Nat} {e : BrokerEv}
    {ns agentPrefix : String} {entry : CardEntry} (hs : (system s).Step c (.call i e) c')
    (hcommit : committed e = some (ns, agentPrefix, entry)) :
    ∃ cur, c.world.getAgentByPath ns agentPrefix = some cur ∧ Delivered c' cur entry.raw := by
  rcases hs.caller rfl with ⟨_, _, _, _, hans, _⟩
  rcases card_of_committed hans hcommit with ⟨hcard, -, hagents⟩
  rcases committed_eq_some hcommit with ⟨agent, gwCA, host, rfl⟩
  have hcur : c.world.broker.stillCurrent (storeKey ns agentPrefix) agent gwCA host = true :=
    hans.2.1.symm
  obtain ⟨cur, hlookup⟩ := Option.isSome_iff_exists.1 (registered_of_stillCurrent hcur)
  have hg : InputsSettled c (.call i ⟨.storeIfCurrent ns agentPrefix agent gwCA host entry, true⟩) :=
    trivial
  have hreach : (system s).Reachable InputsSettled c' := .step h hg hs
  exact ⟨cur, hlookup, uses_delivered hreach _ _ (.inl ⟨entry, hcard, rfl⟩) cur (hagents ▸ hlookup)⟩

def inputsSettledAt (c : A2AState) (entry : String × A2AAgent) : Bool :=
  separable entry.2 &&
    ((c.world.broker.agents.lookup entry.1).any (fun cur => decide (SameInputs cur entry.2)) ||
      ((c.world.cards.lookup entry.1).isNone && idle Task.isRefresh c))

/-- `InputsSettled` as a check: no card of a key that changes is cached and no refresh is running. -/
def inputsSettledCheck (c : A2AState) : Label brokerSig Task → Bool
  | .call _ ⟨.swapAgents next, _⟩ => next.pairs.all (inputsSettledAt c)
  | _ => true

lemma inputsSettled_of_check (c : A2AState) (l : Label brokerSig Task)
    (h : inputsSettledCheck c l = true) : InputsSettled c l := by
  cases l with
  | env | start => exact trivial
  | call i e =>
    obtain ⟨o, r⟩ := e
    cases o with
    | swapAgents next =>
      intro key a ha
      have hat : inputsSettledAt c (key, a) = true :=
        all_eq_true.1 h (key, a) (mem_pairs_iff.2 ha)
      simp only [inputsSettledAt, and_eq_true, or_eq_true] at hat
      rcases hat with ⟨hsep, hsame | ⟨hnone, hidle⟩⟩
      · rcases (any_eq_true _ _).1 hsame with ⟨cur, hcur, hinputs⟩
        exact ⟨hsep, .inl ⟨cur, hcur, of_decide_eq_true hinputs⟩⟩
      · refine ⟨hsep, .inr fun raw huses => ?_⟩
        rcases huses with ⟨entry, hentry, -⟩ | ⟨t, ht, hrefresh, hrun, -⟩
        · rw [hentry] at hnone
          cases hnone
        · exact hrun (finished_of_idle hidle t ht hrefresh)
    | _ => exact trivial

def inputsPlayer (up : Upstream) : System.Player (system demoSetup) InputsSettled :=
  player demoSetup up inputsSettledCheck inputsSettled_of_check

theorem commits_delivered_weather :
    ∃ c e c' entry, (system demoSetup).Step c (.call 2 e) c' ∧
      committed e = some ("mcp-test", "weather", entry) ∧
      ∃ cur, c.world.getAgentByPath "mcp-test" "weather" = some cur ∧ Delivered c' cur entry.raw := by
  generalize hc : (inputsPlayer demoUpstream).play started firstFetch = c
  have hreach : (system demoSetup).Reachable InputsSettled c :=
    hc ▸ System.Player.reachable_play _ reachable_started _
  have hnext : (((inputsPlayer demoUpstream).next c 2).bind committed).map (fun x => (x.1, x.2.1)) =
      some ("mcp-test", "weather") := by
    rw [← hc]
    decide +kernel
  rcases Option.map_eq_some_iff.1 hnext with ⟨⟨ns, agentPrefix, entry⟩, hbind, hkey⟩
  rcases Option.bind_eq_some_iff.1 hbind with ⟨e, he, hcommit⟩
  cases hkey
  have hstep := (System.Player.step_of_next _ he).2
  exact ⟨c, e, _, entry, hstep, hcommit, commits_delivered hreach hstep hcommit⟩

/-! ## A card of an earlier agent -/

def stormAgent : A2AAgent := { weatherAgent with url := "http://storm:8080" }

/-- The weather card was fetched and the agent has been re-pointed.  The new one has answered 304. -/
def repointed : A2AState :=
  (freePlayer demoSetup demoUpstream).play started <|
    fetchMoves (demoConfig "gw.example" [weatherAgent]) weatherAgent ++
      reloadMoves 3 (demoConfig "gw.example" [stormAgent]) ++ (refreshMoves 5 stormAgent).dropLast

def deliveredCheck (c : A2AState) (agent : A2AAgent) (raw : Bytes) : Bool :=
  c.threads.any fun t => t.trace.any fun e =>
    delivery e = some ⟨cardURL agent, agent.credential, agent.caCert, raw⟩

lemma deliveredCheck_of_delivered (h : Delivered c agent raw) :
    deliveredCheck c agent raw = true := by
  rcases h with ⟨e, ⟨t, ht, -, he⟩, hdel⟩
  exact List.any_eq_true.2 ⟨t, ht, List.any_eq_true.2 ⟨e, he, decide_eq_true hdel⟩⟩

/-- The refresh commits the card of the old agent for the new one, which never delivered it. -/
theorem repointed_commits :
    (system demoSetup).Reachable System.Free repointed ∧
      repointed.world.getAgentByPath "mcp-test" "weather" = some stormAgent ∧
      ∃ e entry, committed e = some ("mcp-test", "weather", entry) ∧
        (system demoSetup).Step repointed (.call 5 e)
          ((freePlayer demoSetup demoUpstream).call repointed 5) ∧
        ¬ Delivered ((freePlayer demoSetup demoUpstream).call repointed 5) stormAgent entry.raw := by
  refine ⟨System.Player.reachable_play _ reachable_started _, by decide +kernel, ?_⟩
  have hnext : (((freePlayer demoSetup demoUpstream).next repointed 5).bind committed) =
      some ("mcp-test", "weather", ⟨weatherCard, "v1", "", text weatherCard, 0⟩) := by
    decide +kernel
  rcases Option.bind_eq_some_iff.1 hnext with ⟨e, he, hcommit⟩
  refine ⟨e, _, hcommit, (System.Player.step_of_next _ he).2, fun hdel => ?_⟩
  have hno : deliveredCheck ((freePlayer demoSetup demoUpstream).call repointed 5) stormAgent
      weatherCard = false := by
    decide +kernel
  rw [deliveredCheck_of_delivered hdel] at hno
  cases hno

end McpGateway.A2A
