import McpGateway.A2A.World
import McpGateway.Foundation.Replay

/-!
# Playing runs of the A2A broker

`World.answer` gives one of the answers that `World.Answers` allows: maps are iterated in their own
order, and the upstreams answer as a function of the client and the request.
-/

namespace McpGateway.A2A

open Go Effect Config

abbrev Upstream := AgentClient → CardRequest → Except String CardResponse

namespace World

/-- The answer to a call that waits for `b.mu`. -/
def behindLock {α : Type} (w : World) (a : α) : Option α :=
  if w.locked then none else some a

lemma behindLock_eq_some {α : Type} {w : World} {a b : α} (h : w.behindLock a = some b) :
    w.locked = false ∧ a = b := by
  unfold behindLock at h
  split_ifs at h with hlocked
  cases h
  exact ⟨by simpa using hlocked, rfl⟩

def answer (s : Setup) (up : Upstream) (w : World) : (o : BrokerOp) → Option (o.Resp × World)
  | .setExternalHostname host =>
    some ((), { w with config := { w.config with externalHostname := host } })
  | .setA2AAgents agents => some ((), { w with config := { w.config with a2aAgents := agents } })
  | .setGatewayCACertPEM pem =>
    some ((), { w with config := { w.config with gatewayCACertPEM := pem } })
  | .notify => some ((), { w with notified := w.notified + 1 })
  | .getExternalHostname => some (w.config.externalHostname, w)
  | .getGatewayCACertPEM => some (w.config.gatewayCACertPEM, w)
  | .listA2AAgents => some (w.config.a2aAgents, w)
  | .lock => w.behindLock ((), { w with locked := true })
  | .unlock host ca =>
    some ((), { w with
      locked := false, broker := { w.broker with externalHost := host, caCertPEM := ca } })
  | .trust => w.behindLock ((w.broker.caCertPEM, w.broker.externalHost), w)
  | .snapshot => w.behindLock (w.broker.agents.pairs, w)
  | .swapAgents next => w.behindLock (w.broker.agents, { w with broker := w.broker.swap next })
  | .clientFor key agent =>
    w.behindLock ((w.broker.clientFor s key agent).1,
      { w with broker := (w.broker.clientFor s key agent).2 })
  | .storeIfCurrent ns agentPrefix agent gwCA host entry =>
    let r := w.broker.stillCurrent (storeKey ns agentPrefix) agent gwCA host
    w.behindLock (r, if r = true then
      { w with
        broker := { w.broker with invalid := AList.erase (storeKey ns agentPrefix) w.broker.invalid }
        cards := AList.insert (storeKey ns agentPrefix) entry w.cards }
      else w)
  | .failCardValidation ns agentPrefix agent gwCA host reason =>
    let r := w.broker.stillCurrent (storeKey ns agentPrefix) agent gwCA host
    w.behindLock (r, if r = true then
      { w with
        broker :=
          { w.broker with invalid := AList.insert (storeKey ns agentPrefix) reason w.broker.invalid }
        cards := AList.erase (storeKey ns agentPrefix) w.cards }
      else w)
  | .storeGet ns agentPrefix => some (w.card ns agentPrefix, w)
  | .storeDelete ns agentPrefix =>
    some ((), { w with cards := AList.erase (storeKey ns agentPrefix) w.cards })
  | .storeList => some (w.cards.keys, w)
  | .range m => some (m.pairs, w)
  | .fetch client req => some (up client req, w)
  | .now => some (w.now, w)
  | .spawn targets => some ((), { w with spawned := targets :: w.spawned })

lemma answers_of_answer {s : Setup} {up : Upstream} {w w' : World} {o : BrokerOp} {r : o.Resp}
    (h : w.answer s up o = some (r, w')) : w.Answers s o r w' := by
  cases o with
  | setExternalHostname | setA2AAgents | setGatewayCACertPEM | notify | unlock | storeDelete | fetch
  | spawn =>
    cases h
    rfl
  | getExternalHostname | getGatewayCACertPEM | listA2AAgents | storeGet | now =>
    cases h
    exact ⟨rfl, rfl⟩
  | storeList | range =>
    cases h
    exact ⟨List.Perm.refl _, rfl⟩
  | lock =>
    rcases behindLock_eq_some h with ⟨hfree, heq⟩
    cases heq
    exact ⟨hfree, rfl⟩
  | snapshot =>
    rcases behindLock_eq_some h with ⟨hfree, heq⟩
    cases heq
    exact ⟨hfree, List.Perm.refl _, rfl⟩
  | trust | swapAgents | clientFor | storeIfCurrent | failCardValidation =>
    rcases behindLock_eq_some h with ⟨hfree, heq⟩
    cases heq
    exact ⟨hfree, rfl, rfl⟩

end World

def idle (kind : Task → Bool) (c : A2AState) : Bool :=
  c.threads.all fun t => !kind t.task || System.isRet t.rest

lemma finished_of_idle {kind : Task → Bool} {c : A2AState} (h : idle kind c = true) :
    ∀ t ∈ c.threads, kind t.task = true → finished t := by
  intro t ht hkind
  have hall := all_eq_true.1 h t ht
  rw [hkind] at hall
  exact System.eq_ret_of_isRet (by simpa using hall)

/-- `Starts` as a check. -/
def startsCheck (c : A2AState) : Task → Bool
  | .load _ => idle Task.isLoad c
  | .onConfigChange => callsBegun c < c.world.notified
  | .refreshCards targets => targets ∈ c.world.spawned
  | .setAgents _ | .refreshAll => true

lemma starts_of_check {c : A2AState} {task : Task} (h : startsCheck c task = true) : Starts c task := by
  cases task with
  | load conf => exact finished_of_idle h
  | onConfigChange =>
    show callsBegun c < c.world.notified
    simpa [startsCheck] using h
  | refreshCards targets =>
    show targets ∈ c.world.spawned
    simpa [startsCheck] using h
  | setAgents | refreshAll => exact trivial

variable {s : Setup} {G : A2AState → Label brokerSig Task → Prop}

/-- A player of the A2A broker, for runs whose steps meet a condition that can be checked. -/
def player (s : Setup) (up : Upstream) (allows : A2AState → Label brokerSig Task → Bool)
    (hallows : ∀ c l, allows c l = true → G c l) : System.Player (system s) G where
  answer := World.answer s up
  answers := fun _ _ _ _ => World.answers_of_answer
  starts := startsCheck
  starts_sound := fun _ _ => starts_of_check
  allows := allows
  allows_sound := hallows

abbrev freePlayer (s : Setup) (up : Upstream) : System.Player (system s) System.Free :=
  player s up (fun _ _ => true) fun _ _ _ => trivial

def started : A2AState := ⟨{}, []⟩

lemma reachable_started : (system s).Reachable G started := .init rfl

/-! ## A gateway with two agents -/

def demoSetup : Setup := ⟨text, fun _ => true⟩

def weatherAgent : A2AAgent :=
  { name := "mcp-test/weather-agent", url := "http://weather:8080", agentPrefix := "weather" }

def mailAgent : A2AAgent :=
  { name := "mcp-test/mail-agent", url := "http://mail:8080", agentPrefix := "mail" }

def demoConfig (host : String) (agents : List A2AAgent) : SharedConfig :=
  { externalHostname := host, a2aAgents := agents.map some }

def demoCard (url : String) : Bytes := bytes ("\x7b\"url\":\"" ++ url ++ "\"\x7d")

def weatherCard : Bytes := demoCard "https://gw.example/a2a/mcp-test/weather"

/-- Every agent has a card with the tag `v1`: the mail agent one that leads past the gateway, the others
the weather card.  Conditional requests are answered 304. -/
def demoUpstream : Upstream := fun _ req =>
  if req.ifNoneMatch = "v1" then .ok { status := 304 }
  else if req.url = cardURL mailAgent then
    .ok { status := 200, etag := "v1", body := demoCard "https://mail.example/" }
  else .ok { status := 200, etag := "v1", body := weatherCard }

/-- A load and the call it starts, as the threads `i` and `i + 1`. -/
def reloadMoves (i : Nat) (conf : SharedConfig) : List (System.Move Task) :=
  .start (.load conf) :: System.calls i 4 ++ .start .onConfigChange :: System.calls (i + 1) 16

/-- The refresh of a card as the thread `i`. -/
def refreshMoves (i : Nat) (agent : A2AAgent) : List (System.Move Task) :=
  .start (.refreshCards [targetOf (pathKey agent, agent)]) :: System.calls i 6

def fetchMoves (conf : SharedConfig) (agent : A2AAgent) : List (System.Move Task) :=
  reloadMoves 0 conf ++ refreshMoves 2 agent

end McpGateway.A2A
