import McpGateway.A2A.Broker
import McpGateway.Foundation.Threads

/-!
# The A2A broker as a system of tasks

The loader, the calls of `OnConfigChange` and `SetAgents`, the refreshes of a tick and the goroutines
that fetch new cards run at once over one `World`.  `Answers` says how the shared objects answer a call;
what an upstream answers to a fetch is left open.
-/

namespace McpGateway.A2A

open Go Effect Config Session

/-! ## The shared objects -/

/-- The fields behind `b.mu`. -/
structure Broker where
  agents : GoMap A2AAgent := ∅
  /-- why the card of an agent failed validation -/
  invalid : GoMap String := ∅
  externalHost : String := ""
  caCertPEM : String := ""
  clients : GoMap AgentClient := ∅

structure World where
  now : Time := 0
  config : SharedConfig := {}
  broker : Broker := {}
  /-- `OnConfigChange` holds `b.mu` -/
  locked : Bool := false
  cards : GoMap CardEntry := ∅
  /-- the goroutines for new cards that were started -/
  spawned : List (List Target) := []
  /-- how many calls of `OnConfigChange` were started -/
  notified : Nat := 0

def dropUnregistered {α : Type} (next : GoMap A2AAgent) (m : GoMap α) : GoMap α :=
  m.keys.foldl (fun m key => if (next.lookup key).isSome then m else AList.erase key m) m

lemma lookup_dropUnregistered {α : Type} (next : GoMap A2AAgent) (m : GoMap α) (key : String) :
    (dropUnregistered next m).lookup key = if (next.lookup key).isSome then m.lookup key else none := by
  have hfold : ∀ (keys : List String) (m : GoMap α),
      (keys.foldl (fun m key => if (next.lookup key).isSome then m else AList.erase key m) m).lookup
        key = if key ∈ keys ∧ (next.lookup key).isSome = false then none else m.lookup key := by
    intro keys
    induction keys with
    | nil => simp
    | cons k rest ih =>
      intro m
      rw [foldl_cons, ih]
      by_cases hk : key = k
      · subst hk
        cases hreg : (next.lookup key).isSome with
        | true => simp
        | false => simp [AList.lookup_erase]
      · have hkeep : (if (next.lookup k).isSome then m else AList.erase k m).lookup key =
            m.lookup key := by
          split_ifs
          · rfl
          · exact AList.lookup_erase_ne hk
        rw [hkeep]
        simp [hk]
  unfold dropUnregistered
  rw [hfold]
  cases hreg : (next.lookup key).isSome with
  | true => simp
  | false =>
    -- a key that is not among the keys has no entry anyway
    by_cases hmem : key ∈ m.keys
    · simp [hmem]
    · have hnone : m.lookup key = none := AList.lookup_eq_none.2 hmem
      simp [hnone]

namespace Broker

variable (b : Broker)

def stillCurrent (key : String) (agent : A2AAgent) (gwCA host : String) : Bool :=
  match b.agents.lookup key with
  | some cur =>
    agentFingerprint cur = agentFingerprint agent && b.caCertPEM = gwCA && b.externalHost = host
  | none => false

/-- Replace the index and forget the validation state and the clients of agents that are gone. -/
def swap (next : GoMap A2AAgent) : Broker :=
  { b with
    agents := next
    invalid := dropUnregistered next b.invalid
    clients := dropUnregistered next b.clients }

/-- The client for an agent's card fetches; it is built anew when a trust input has changed. -/
def clientFor (s : Setup) (key : String) (agent : A2AAgent) : Except String AgentClient × Broker :=
  let client : AgentClient := ⟨b.caCertPEM, agent.caCert⟩
  if b.caCertPEM = "" ∧ agent.caCert = "" then (.ok client, b)
  else if b.clients.lookup key = some client then (.ok client, b)
  else if b.caCertPEM ≠ "" ∧ s.validPEM b.caCertPEM = false then
    (.error "failed to parse gateway CA certificate bundle PEM", b)
  else if agent.caCert ≠ "" ∧ s.validPEM agent.caCert = false then
    (.error "failed to parse agent CA certificate PEM", b)
  else (.ok client, { b with clients := AList.insert key client b.clients })

end Broker

namespace World

variable (w : World)

/-- The card of an agent, as `memoryStore.Get` finds it. -/
def card (ns agentPrefix : String) : Option CardEntry := w.cards.lookup (storeKey ns agentPrefix)

/-- How the shared objects answer a call.  A call that needs `b.mu` waits while it is held. -/
def Answers (s : Setup) (w : World) : (o : BrokerOp) → o.Resp → World → Prop
  | .setExternalHostname host, _, w' =>
    w' = { w with config := { w.config with externalHostname := host } }
  | .setA2AAgents agents, _, w' => w' = { w with config := { w.config with a2aAgents := agents } }
  | .setGatewayCACertPEM pem, _, w' =>
    w' = { w with config := { w.config with gatewayCACertPEM := pem } }
  | .notify, _, w' => w' = { w with notified := w.notified + 1 }
  | .getExternalHostname, r, w' => r = w.config.externalHostname ∧ w' = w
  | .getGatewayCACertPEM, r, w' => r = w.config.gatewayCACertPEM ∧ w' = w
  | .listA2AAgents, r, w' => r = w.config.a2aAgents ∧ w' = w
  | .lock, _, w' => w.locked = false ∧ w' = { w with locked := true }
  | .unlock host ca, _, w' =>
    w' = { w with locked := false, broker := { w.broker with externalHost := host, caCertPEM := ca } }
  | .trust, r, w' =>
    w.locked = false ∧ r = (w.broker.caCertPEM, w.broker.externalHost) ∧ w' = w
  | .snapshot, r, w' => w.locked = false ∧ r.Perm w.broker.agents.pairs ∧ w' = w
  | .swapAgents next, r, w' =>
    w.locked = false ∧ r = w.broker.agents ∧ w' = { w with broker := w.broker.swap next }
  | .clientFor key agent, r, w' =>
    w.locked = false ∧ r = (w.broker.clientFor s key agent).1 ∧
      w' = { w with broker := (w.broker.clientFor s key agent).2 }
  | .storeIfCurrent ns agentPrefix agent gwCA host entry, r, w' =>
    w.locked = false ∧ r = w.broker.stillCurrent (storeKey ns agentPrefix) agent gwCA host ∧
      w' = if r = true then
        { w with
          broker :=
            { w.broker with invalid := AList.erase (storeKey ns agentPrefix) w.broker.invalid }
          cards := AList.insert (storeKey ns agentPrefix) entry w.cards }
      else w
  | .failCardValidation ns agentPrefix agent gwCA host reason, r, w' =>
    w.locked = false ∧ r = w.broker.stillCurrent (storeKey ns agentPrefix) agent gwCA host ∧
      w' = if r = true then
        { w with
          broker :=
            { w.broker with invalid := AList.insert (storeKey ns agentPrefix) reason w.broker.invalid }
          cards := AList.erase (storeKey ns agentPrefix) w.cards }
      else w
  | .storeGet ns agentPrefix, r, w' => r = w.card ns agentPrefix ∧ w' = w
  | .storeDelete ns agentPrefix, _, w' =>
    w' = { w with cards := AList.erase (storeKey ns agentPrefix) w.cards }
  | .storeList, r, w' => r.Perm w.cards.keys ∧ w' = w
  | .range m, r, w' => r.Perm m.pairs ∧ w' = w
  | .fetch .., _, w' => w' = w
  | .now, r, w' => r = w.now ∧ w' = w
  | .spawn targets, _, w' => w' = { w with spawned := targets :: w.spawned }

inductive Env (w : World) : World → Prop where
  | tick {t : Time} (h : w.now ≤ t) : Env w { w with now := t }

inductive Change (w : World) : BrokerEv → World → Prop where
  | idle (e : BrokerEv) : Change w e w
  /-- a piece of the configuration is replaced -/
  | configure {o : BrokerOp} {r : o.Resp} (conf : SharedConfig)
      (h : (∃ host, o = .setExternalHostname host ∧
          conf = { w.config with externalHostname := host }) ∨
        (∃ agents, o = .setA2AAgents agents ∧ conf = { w.config with a2aAgents := agents }) ∨
        ∃ pem, o = .setGatewayCACertPEM pem ∧ conf = { w.config with gatewayCACertPEM := pem }) :
      Change w ⟨o, r⟩ { w with config := conf }
  | notify : Change w ⟨.notify, ()⟩ { w with notified := w.notified + 1 }
  | lock (hfree : w.locked = false) : Change w ⟨.lock, ()⟩ { w with locked := true }
  | unlock (host ca : String) :
      Change w ⟨.unlock host ca, ()⟩
        { w with
          locked := false, broker := { w.broker with externalHost := host, caCertPEM := ca } }
  | swap (next : GoMap A2AAgent) :
      Change w ⟨.swapAgents next, w.broker.agents⟩ { w with broker := w.broker.swap next }
  | client {key : String} {agent : A2AAgent} (r : Except String AgentClient)
      (clients : GoMap AgentClient) :
      Change w ⟨.clientFor key agent, r⟩ { w with broker := { w.broker with clients := clients } }
  | store {ns agentPrefix : String} {agent : A2AAgent} {gwCA host : String} (entry : CardEntry)
      (hcur : w.broker.stillCurrent (storeKey ns agentPrefix) agent gwCA host = true) :
      Change w ⟨.storeIfCurrent ns agentPrefix agent gwCA host entry, true⟩
        { w with
          broker :=
            { w.broker with invalid := AList.erase (storeKey ns agentPrefix) w.broker.invalid }
          cards := AList.insert (storeKey ns agentPrefix) entry w.cards }
  | fail {ns agentPrefix : String} {agent : A2AAgent} {gwCA host : String} (reason : String)
      (hcur : w.broker.stillCurrent (storeKey ns agentPrefix) agent gwCA host = true) :
      Change w ⟨.failCardValidation ns agentPrefix agent gwCA host reason, true⟩
        { w with
          broker :=
            { w.broker with invalid := AList.insert (storeKey ns agentPrefix) reason w.broker.invalid }
          cards := AList.erase (storeKey ns agentPrefix) w.cards }
  | delete (ns agentPrefix : String) :
      Change w ⟨.storeDelete ns agentPrefix, ()⟩
        { w with cards := AList.erase (storeKey ns agentPrefix) w.cards }
  | spawn (targets : List Target) :
      Change w ⟨.spawn targets, ()⟩ { w with spawned := targets :: w.spawned }

lemma clientFor_snd (b : Broker) (s : Setup) (key : String) (agent : A2AAgent) :
    ∃ clients, (b.clientFor s key agent).2 = { b with clients := clients } := by
  unfold Broker.clientFor
  dsimp only
  split_ifs
  all_goals first
    | exact ⟨b.clients, rfl⟩
    | exact ⟨AList.insert key ⟨b.caCertPEM, agent.caCert⟩ b.clients, rfl⟩

lemma clientFor_fst {b : Broker} {s : Setup} {key : String} {agent : A2AAgent} {client : AgentClient}
    (h : (b.clientFor s key agent).1 = .ok client) : client.agentPEM = agent.caCert := by
  unfold Broker.clientFor at h
  dsimp only at h
  split_ifs at h
  all_goals
    cases h
    rfl

variable {s : Setup} {w w' : World} {e : BrokerEv}

lemma Answers.change (h : w.Answers s e.op e.resp w') : Change w e w' := by
  obtain ⟨o, r⟩ := e
  cases o with
  | setExternalHostname host =>
    cases h
    exact .configure _ (.inl ⟨host, rfl, rfl⟩)
  | setA2AAgents agents =>
    cases h
    exact .configure _ (.inr (.inl ⟨agents, rfl, rfl⟩))
  | setGatewayCACertPEM pem =>
    cases h
    exact .configure _ (.inr (.inr ⟨pem, rfl, rfl⟩))
  | notify =>
    cases h
    exact .notify
  | getExternalHostname | getGatewayCACertPEM | listA2AAgents | storeGet _ _ | storeList | range _
  | now =>
    rcases h with ⟨-, rfl⟩
    exact .idle _
  | lock =>
    rcases h with ⟨hfree, rfl⟩
    exact .lock hfree
  | unlock host ca =>
    cases h
    exact .unlock host ca
  | trust | snapshot =>
    rcases h with ⟨-, -, rfl⟩
    exact .idle _
  | swapAgents next =>
    rcases h with ⟨-, rfl, rfl⟩
    exact .swap next
  | clientFor key agent =>
    rcases h with ⟨-, -, rfl⟩
    rcases clientFor_snd w.broker s key agent with ⟨clients, hclients⟩
    rw [hclients]
    exact .client r clients
  | storeIfCurrent ns agentPrefix agent gwCA host entry =>
    rcases h with ⟨-, hr, rfl⟩
    cases r with
    | false => exact .idle _
    | true => exact .store entry hr.symm
  | failCardValidation ns agentPrefix agent gwCA host reason =>
    rcases h with ⟨-, hr, rfl⟩
    cases r with
    | false => exact .idle _
    | true => exact .fail reason hr.symm
  | storeDelete ns agentPrefix =>
    cases h
    exact .delete ns agentPrefix
  | fetch _ _ =>
    cases h
    exact .idle _
  | spawn targets =>
    cases h
    exact .spawn targets

end World

/-! ## Tasks -/

inductive Task where
  | load (conf : SharedConfig)
  | onConfigChange
  | setAgents (agents : List (Option A2AAgent))
  | refreshAll
  | refreshCards (targets : List Target)

namespace Task

def code (s : Setup) : Task → BrokerProg Unit
  | .load conf => A2A.load conf
  | .onConfigChange => A2A.onConfigChange
  | .setAgents agents => A2A.setAgents agents
  | .refreshAll => A2A.refreshAll s
  | .refreshCards targets => refreshEach s targets

def isSet : Task → Bool
  | .onConfigChange | .setAgents _ => true
  | _ => false

def isRefresh : Task → Bool
  | .refreshAll | .refreshCards _ => true
  | _ => false

def isLoad : Task → Bool
  | .load _ => true
  | _ => false

def isCall : Task → Bool
  | .onConfigChange => true
  | _ => false

end Task

abbrev A2AState := Effect.Config brokerSig Task World

abbrev A2AThread := Thread brokerSig Task

def finished (t : A2AThread) : Prop := t.rest = .ret ()

/-- How many calls of `OnConfigChange` are running or have returned. -/
def callsBegun (c : A2AState) : Nat := c.threads.countP fun t => t.task.isCall

/-- Which tasks can be started.  Loads come one after the other, a call runs for each notification, and
cards are fetched by the goroutines that were started for them. -/
def Starts (c : A2AState) : Task → Prop
  | .load _ => ∀ t ∈ c.threads, t.task.isLoad = true → finished t
  | .onConfigChange => callsBegun c < c.world.notified
  | .refreshCards targets => targets ∈ c.world.spawned
  | .setAgents _ | .refreshAll => True

def system (s : Setup) : System brokerSig Task World where
  code := Task.code s
  Init := fun w => w = {}
  Answers := World.Answers s
  Env := World.Env
  Starts := Starts

variable {s : Setup} {G : A2AState → Label brokerSig Task → Prop} {c c' : A2AState}

lemma change_of_step {i : Nat} {e : BrokerEv} (hs : (system s).Step c (.call i e) c') :
    ∃ t k, c.threads[i]? = some t ∧ t.rest = .vis e.op k ∧ World.Change c.world e c'.world := by
  rcases hs.caller rfl with ⟨t, k, hi, hrest, hans, -⟩
  exact ⟨t, k, hi, hrest, World.Answers.change hans⟩

lemma world_invariant {I : World → Prop} (hinit : I {}) (htick : ∀ w t, I w → I { w with now := t })
    (hchange : ∀ w e w', I w → World.Change w e w' → I w') (h : (system s).Reachable G c) :
    I c.world := by
  refine h.invariant ?_ ?_
  · intro w hw
    have hw : w = {} := hw
    rw [hw]
    exact hinit
  · intro c l c' _ ih _ hs
    cases l with
    | call i e =>
      rcases change_of_step hs with ⟨_, _, _, _, hchg⟩
      exact hchange _ _ _ ih hchg
    | env =>
      cases hs with
      | env henv =>
        cases henv with
        | tick ht => exact htick _ _ ih
    | start task =>
      cases hs with
      | start _ => exact ih

end McpGateway.A2A
