import McpGateway.A2A.Play
import McpGateway.A2A.Protocol

/-!
# The state behind discovery

The index, the validation state and the card store are kept in step by four operations behind two
locks.
-/

namespace McpGateway.A2A

open Go Effect Config Session

variable {s : Setup} {G : A2AState → Label brokerSig Task → Prop} {c c' : A2AState}

/-! ## The validation state -/

variable {key : String} {w w' : World} {e : BrokerEv}

lemma registered_of_stillCurrent {b : Broker} {gwCA host : String} {agent : A2AAgent}
    (h : b.stillCurrent key agent gwCA host = true) : (b.agents.lookup key).isSome := by
  unfold Broker.stillCurrent at h
  cases hcur : b.agents.lookup key with
  | none => simp [hcur] at h
  | some cur => rfl

/-- What a call does to the entries of a key: nothing, a new index, the loss of the card, or a new
card. -/
lemma entries_of_change (h : World.Change w e w') (key : String) :
    (w'.cards.lookup key = w.cards.lookup key ∧ w'.broker.agents = w.broker.agents ∧
      w'.broker.invalid.lookup key = w.broker.invalid.lookup key) ∨
    (∃ next, w'.cards = w.cards ∧ w'.broker.agents = next ∧ w'.broker.invalid.lookup key =
      if (next.lookup key).isSome then w.broker.invalid.lookup key else none) ∨
    (w'.cards.lookup key = none ∧ w'.broker.agents = w.broker.agents ∧
      (w'.broker.invalid.lookup key = w.broker.invalid.lookup key ∨
        (w.broker.agents.lookup key).isSome)) ∨
    '/' ∈ key.toList ∧ (w.broker.agents.lookup key).isSome ∧ w'.broker.agents = w.broker.agents ∧
      w'.broker.invalid.lookup key = none := by
  cases h with
  | idle | configure | notify | lock | unlock | client | spawn => exact .inl ⟨rfl, rfl, rfl⟩
  | swap next => exact .inr (.inl ⟨next, rfl, rfl, lookup_dropUnregistered ..⟩)
  | @store ns agentPrefix _ _ _ entry hcur =>
    by_cases hkey : key = storeKey ns agentPrefix
    · subst hkey
      exact .inr (.inr (.inr ⟨slash_mem_storeKey ns agentPrefix, registered_of_stillCurrent hcur, rfl,
        AList.lookup_erase _ _⟩))
    · exact .inl ⟨AList.lookup_insert_ne hkey, rfl, AList.lookup_erase_ne hkey⟩
  | @fail ns agentPrefix _ _ _ reason hcur =>
    by_cases hkey : key = storeKey ns agentPrefix
    · subst hkey
      exact .inr (.inr (.inl ⟨AList.lookup_erase _ _, rfl, .inr (registered_of_stillCurrent hcur)⟩))
    · exact .inl ⟨AList.lookup_erase_ne hkey, rfl, AList.lookup_insert_ne hkey⟩
  | delete ns agentPrefix =>
    by_cases hkey : key = storeKey ns agentPrefix
    · subst hkey
      exact .inr (.inr (.inl ⟨AList.lookup_erase _ _, rfl, .inl rfl⟩))
    · exact .inl ⟨AList.lookup_erase_ne hkey, rfl, rfl⟩

/-- A card has a key with a slash and is not of an agent whose card was found invalid; the agents with an
invalid card are registered. -/
structure EntriesMatch (w : World) (key : String) : Prop where
  slash : (w.cards.lookup key).isSome → '/' ∈ key.toList
  disjoint : (w.cards.lookup key).isSome → w.broker.invalid.lookup key = none
  registered : (w.broker.invalid.lookup key).isSome → (w.broker.agents.lookup key).isSome

lemma entriesMatch (h : (system s).Reachable G c) (key : String) : EntriesMatch c.world key := by
  refine world_invariant (I := fun w => EntriesMatch w key) ⟨nofun, nofun, nofun⟩
    (fun _ _ ih => ⟨ih.slash, ih.disjoint, ih.registered⟩) ?_ h
  intro w e w' ih hchg
  rcases entries_of_change hchg key with ⟨hcard, hagents, hbad⟩ | ⟨next, hcard, hagents, hbad⟩ |
    ⟨hcard, hagents, hbad⟩ | ⟨hslash, hreg, hagents, hbad⟩
  · constructor
    · exact hcard ▸ ih.slash
    · exact hcard ▸ hbad ▸ ih.disjoint
    · exact hagents ▸ hbad ▸ ih.registered
  · refine ⟨hcard ▸ ih.slash, fun h => ?_, fun h => ?_⟩
    · rw [hbad, ih.disjoint (hcard ▸ h)]
      exact ite_self none
    · rw [hbad] at h
      split_ifs at h with hnext
      · exact hagents ▸ hnext
      · cases h
  · refine ⟨by simp [hcard], by simp [hcard], fun h => ?_⟩
    rw [hagents]
    rcases hbad with hsame | hreg
    · exact ih.registered (hsame ▸ h)
    · exact hreg
  · exact ⟨fun _ => hslash, fun _ => hbad, fun _ => hagents ▸ hreg⟩

/-! ## Evictions that are still to come -/

/-- The task has taken the key out of the index, and has not listed the store since or has found the
card and not deleted it yet. -/
def Owes (t : A2AThread) (key : String) : Prop :=
  t.task.isSet = true ∧ ∃ next prev, swaps next prev ∈ t.trace ∧ next.lookup key = none ∧
    ((∀ keys, lists keys ∉ t.trace) ∨
      (∃ keys, lists keys ∈ t.trace ∧ key ∈ keys) ∧ deletes key ∉ t.trace)

lemma Task.swap_first {task : Task} {tr : List BrokerEv} {next : GoMap A2AAgent}
    (h : task.Protocol s tr (.swapAgents next)) : task.isSet = true ∧ ∀ keys, lists keys ∉ tr := by
  cases task with
  | load conf => exact False.elim h
  | onConfigChange =>
    cases h with
    | set htr hset =>
      refine ⟨rfl, fun keys => ?_⟩
      rw [htr, hset.2]
      simp [callTrace]
  | setAgents agents =>
    refine ⟨rfl, fun keys => ?_⟩
    rw [h.2]
    exact not_mem_nil
  | refreshAll | refreshCards =>
    cases h with
    | read hread => cases hread

lemma Task.list_first {task : Task} {tr : List BrokerEv} (hset : task.isSet = true)
    (h : task.Protocol s tr .storeList) (key : String) : deletes key ∉ tr := by
  cases task with
  | load conf => exact False.elim h
  | onConfigChange =>
    cases h with
    | set htr hset =>
      rw [htr, mem_append, not_or]
      exact ⟨by simp [callTrace], hset key⟩
  | setAgents agents => exact h key
  | refreshAll | refreshCards => cases hset

variable {t : A2AThread}

lemma Owes.snoc {rest : BrokerProg Unit} (h : Owes t key) (hproto : t.task.Protocol s t.trace e.op)
    (hlist : ∀ keys, e = lists keys → key ∈ keys) (hdelete : e ≠ deletes key) : Owes ⟨t.task,
    t.trace ++ [e], rest⟩ key := by
  rcases h with ⟨hset, next, prev, hswap, hnone, hstill⟩
  refine ⟨hset, next, prev, mem_append_left _ hswap, hnone, ?_⟩
  by_cases hnow : ∃ keys, e = lists keys
  · rcases hnow with ⟨keys, rfl⟩
    have hbefore : deletes key ∉ t.trace := Task.list_first hset hproto key
    refine .inr ⟨⟨keys, by simp, hlist keys rfl⟩, ?_⟩
    simpa using hbefore
  · rcases hstill with hnot | ⟨⟨keys, hkeys, hmem⟩, hundeleted⟩
    · refine .inl fun keys hkeys => ?_
      rcases mem_append.1 hkeys with hold | hnew
      · exact hnot keys hold
      · exact hnow ⟨keys, (mem_singleton.1 hnew).symm⟩
    · refine .inr ⟨⟨keys, mem_append_left _ hkeys, hmem⟩, fun hdel => ?_⟩
      rcases mem_append.1 hdel with hold | hnew
      · exact hundeleted hold
      · exact hdelete (mem_singleton.1 hnew).symm

/-- A stored card of an agent that is gone will be deleted by some thread. -/
def Owed (c : A2AState) : Prop :=
  ∀ key, (c.world.cards.lookup key).isSome → c.world.broker.agents.lookup key = none →
    ∃ t ∈ c.threads, Owes t key

lemma owes_step {i : Nat} (hc : (system s).Reachable G c) (hs : (system s).Step c (.call i e) c')
    (howes : ∃ t ∈ c.threads, Owes t key) (hlist : ∀ keys, e = lists keys → key ∈ keys)
    (hdelete : e ≠ deletes key) : ∃ t ∈ c'.threads, Owes t key := by
  rcases howes with ⟨t, ht, howes⟩
  rcases mem_iff_getElem?.1 ht with ⟨j, hj⟩
  rcases hs.caller rfl with ⟨u, k, hi, hrest, -, hnew⟩
  by_cases hij : j = i
  · subst hij
    obtain rfl := mem_unique hi hj
    have hproto : u.task.Protocol s u.trace e.op :=
      protocol_of hc ht hrest
    exact ⟨_, mem_of_getElem? hnew, howes.snoc hproto hlist hdelete⟩
  · exact ⟨t, mem_of_getElem? ((hs.others hij).trans hj), howes⟩

lemma card_of_change (h : World.Change w e w') (hcard : (w'.cards.lookup key).isSome)
    (hnone : w.broker.agents.lookup key = none) : (w.cards.lookup key).isSome := by
  rcases entries_of_change h key with ⟨hsame, -⟩ | ⟨_, hsame, -⟩ | ⟨hgone, -⟩ | ⟨-, hreg, -⟩
  · exact hsame ▸ hcard
  · exact hsame ▸ hcard
  · rw [hgone] at hcard
    cases hcard
  · rw [hnone] at hreg
    cases hreg

lemma swap_of_change {w w' : World} (h : World.Change w e w')
    (hreg : w.broker.agents.lookup key ≠ none) (hnone : w'.broker.agents.lookup key = none) :
    ∃ next prev, e = swaps next prev ∧ next.lookup key = none := by
  cases h with
  | idle | configure | notify | lock | unlock | client | spawn | store | fail | delete =>
    exact absurd hnone hreg
  | swap next => exact ⟨next, w.broker.agents, rfl, hnone⟩

lemma owed_of_call {i : Nat} (hc : (system s).Reachable G c) (ih : Owed c)
    (hs : (system s).Step c (.call i e) c') : Owed c' := by
  intro key hcard hnone
  rcases hs.caller rfl with ⟨t, k, hi, hrest, hans, hnew⟩
  have hchg : World.Change c.world e c'.world := World.Answers.change hans
  by_cases hreg : c.world.broker.agents.lookup key = none
  · have hold : (c.world.cards.lookup key).isSome := card_of_change hchg hcard hreg
    refine owes_step hc hs (ih key hold hreg) ?_ ?_
    · -- a listing shows every cached key
      rintro keys rfl
      have hperm : keys.Perm c.world.cards.keys := hans.1
      exact hperm.mem_iff.2 (AList.lookup_isSome.1 hold)
    · -- the card is still there, so it was not deleted
      rintro rfl
      have hslash : '/' ∈ key.toList := (entriesMatch hc key).slash hold
      have hdeleted : c'.world = { c.world with
          cards := AList.erase (storeKey (splitKey key).1 (splitKey key).2) c.world.cards } := hans
      rw [hdeleted, storeKey_splitKey hslash, AList.lookup_erase] at hcard
      cases hcard
  · -- the task that swaps the index now owes the deletion
    rcases swap_of_change hchg hreg hnone with ⟨next, prev, rfl, hnext⟩
    have hproto : t.task.Protocol s t.trace (.swapAgents next) :=
      protocol_of hc (mem_of_getElem? hi) hrest
    rcases Task.swap_first hproto with ⟨hset, hnot⟩
    refine ⟨_, mem_of_getElem? hnew, hset, next, prev, by simp, hnext, .inl fun keys => ?_⟩
    simpa using hnot keys

lemma owed_of_reachable (h : (system s).Reachable G c) : Owed c := by
  refine h.invariant ?_ ?_
  · intro w hw key hcard
    rw [show w = {} from hw] at hcard
    cases hcard
  · intro c l c' hc ih _ hs
    cases l with
    | call i e => exact owed_of_call hc ih hs
    | env =>
      cases hs with
      | env henv =>
        cases henv with
        | tick ht => exact ih
    | start task =>
      cases hs with
      | start _ =>
        intro key hcard hnone
        rcases ih key hcard hnone with ⟨t, ht, howes⟩
        exact ⟨t, mem_append_left _ ht, howes⟩

lemma Owes.not_finished (h : (system s).Reachable G c) (ht : t ∈ c.threads) (howes : Owes t key) : ¬ finished t := by
  intro hfin
  rcases howes with ⟨hset, next, prev, hswap, hnone, hstill⟩
  have hdone : t.task.Done t.trace := System.Reachable.returned (Task.code_obeys s) h ht hfin
  have hevicted : Evicted t.trace := by
    generalize t.task = task at hset hdone
    cases task with
    | onConfigChange | setAgents => exact hdone
    | load | refreshAll | refreshCards => cases hset
  rcases hevicted.2 next prev hswap with ⟨⟨keys, hkeys⟩, hall⟩
  rcases hstill with hnot | ⟨⟨keys', hkeys', hmem⟩, hundeleted⟩
  · exact hnot keys hkeys
  · exact hundeleted (hall keys' hkeys' key hmem hnone)

/-! ## Refreshes -/

/-- A fetch that can change something: it gave a card of a size that is read, or confirmed the cached
one. -/
def Attempt.Answered (a : Attempt) : Prop :=
  a.resp.status = 200 ∧ (cardBody a.resp).isSome ∨ a.resp.status = 304 ∧ a.prev.isSome

lemma Attempt.Commits.answered {a : Attempt} {now : Time} {entry : CardEntry}
    (h : a.Commits s now entry) : a.Answered := by
  cases h with
  | notModified hprev hstatus =>
    rw [Attempt.Answered, hprev]
    exact .inr ⟨hstatus, rfl⟩
  | unchanged _ hstatus hbody _ | fresh hstatus hbody _ =>
    rw [Attempt.Answered, hbody]
    exact .inl ⟨hstatus, rfl⟩

lemma Attempt.Rejects.answered {a : Attempt} {reason : String} (h : a.Rejects reason) : a.Answered := by
  rcases h with ⟨hstatus, body, hbody, -⟩
  rw [Attempt.Answered, hbody]
  exact .inl ⟨hstatus, rfl⟩

/-- The trace ends with the attempt, perhaps followed by a look at the clock. -/
def Concludes (tr : List BrokerEv) (a : Attempt) : Prop :=
  ∃ pre, tr = pre ++ a.trace ∨ ∃ now, tr = pre ++ a.trace ++ [⟨.now, now⟩]

lemma refresh_changes (hc : (system s).Reachable G c) {i : Nat}
    (hs : (system s).Step c (.call i e) c') (hi : c.threads[i]? = some t)
    (hrefresh : t.task.isRefresh = true)
    (hchanged : c'.world.cards ≠ c.world.cards ∨
      c'.world.broker.invalid ≠ c.world.broker.invalid) :
    ∃ a : Attempt, Concludes t.trace a ∧ a.Answered ∧
      c.world.broker.stillCurrent a.key a.agent a.gwCA a.host = true := by
  rcases hs.caller rfl with ⟨u, k, hi', hrest, hans, -⟩
  obtain rfl := mem_unique hi' hi
  have hproto : RefreshProtocol s u.trace e.op := by
    have hall := protocol_of hc (mem_of_getElem? hi) hrest
    generalize u.task = task at hrefresh hall
    cases task with
    | refreshAll | refreshCards => exact hall
    | load | onConfigChange | setAgents => cases hrefresh
  obtain ⟨o, r⟩ := e
  have hchg : World.Change c.world ⟨o, r⟩ c'.world := World.Answers.change hans
  generalize c'.world = w' at hchg hchanged
  cases hchg with
  | idle | configure | notify | lock | unlock | client | spawn => simp at hchanged
  | swap | delete =>
    cases hproto with
    | read hread => cases hread
  | store entry hcur =>
    cases hproto with
    | read hread => cases hread
    | commit htr hcommits => exact ⟨_, ⟨_, .inr ⟨_, htr⟩⟩, hcommits.answered, hcur⟩
  | fail reason hcur =>
    cases hproto with
    | read hread => cases hread
    | reject htr hrejects => exact ⟨_, ⟨_, .inl htr⟩, hrejects.answered, hcur⟩

/-! ## The discovery state -/

/-- In every state a rejected card is not cached and only registered agents are rejected; when no task
is replacing the agents, every cached card has its agent; and a refresh leaves the store and the
validation state alone unless its fetch gave a readable card, or confirmed the cached one, and is still
current. -/
theorem discovery_state (h : (system s).Reachable System.Free c) :
    (∀ key, (c.world.broker.invalid.lookup key).isSome → c.world.cards.lookup key = none) ∧
    (∀ key, (c.world.broker.invalid.lookup key).isSome →
      (c.world.broker.agents.lookup key).isSome) ∧
    ((∀ t ∈ c.threads, t.task.isSet = true → finished t) →
      ∀ key, (c.world.cards.lookup key).isSome → (c.world.broker.agents.lookup key).isSome) ∧
    ∀ i e c' t, (system s).Step c (.call i e) c' → c.threads[i]? = some t →
      t.task.isRefresh = true →
      (¬ ∃ a : Attempt, Concludes t.trace a ∧ a.Answered ∧
        c.world.broker.stillCurrent a.key a.agent a.gwCA a.host = true) →
      c'.world.cards = c.world.cards ∧ c'.world.broker.invalid = c.world.broker.invalid := by
  refine ⟨?_, fun key => (entriesMatch h key).registered, ?_, ?_⟩
  · intro key hbad
    by_contra hcard
    have hnone := (entriesMatch h key).disjoint (Option.isSome_iff_ne_none.2 hcard)
    rw [hnone] at hbad
    cases hbad
  · intro hfin key hcard
    by_contra hnone
    have hnone : c.world.broker.agents.lookup key = none := by simpa using hnone
    rcases owed_of_reachable h key hcard hnone with ⟨t, ht, howes⟩
    exact howes.not_finished h ht (hfin t ht howes.1)
  · intro i e c' t hs hi hrefresh hnot
    by_contra hchanged
    refine hnot (refresh_changes h hs hi hrefresh ?_)
    by_contra hsame
    push Not at hsame
    exact hchanged hsame

/-- Both agents are loaded and their cards are fetched; only the weather card can be served. -/
def bothFetched : A2AState :=
  (freePlayer demoSetup demoUpstream).play started <|
    reloadMoves 0 (demoConfig "gw.example" [weatherAgent, mailAgent]) ++
      .start .refreshAll :: System.calls 2 12

theorem discovery_state_weather :
    (bothFetched.world.broker.invalid.lookup "mcp-test/mail").isSome ∧
      bothFetched.world.cards.lookup "mcp-test/mail" = none ∧
      (bothFetched.world.cards.lookup "mcp-test/weather").isSome ∧
      (bothFetched.world.broker.agents.lookup "mcp-test/weather").isSome := by
  have hstate := discovery_state (s := demoSetup) (c := bothFetched)
    (System.Player.reachable_play _ reachable_started _)
  have hidle : idle Task.isSet bothFetched = true := by decide +kernel
  have hmail : (bothFetched.world.broker.invalid.lookup "mcp-test/mail").isSome := by decide +kernel
  have hweather : (bothFetched.world.cards.lookup "mcp-test/weather").isSome := by decide +kernel
  exact ⟨hmail, hstate.1 _ hmail, hweather, hstate.2.2.1 (finished_of_idle hidle) _ hweather⟩

end McpGateway.A2A
