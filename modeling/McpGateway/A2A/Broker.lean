import McpGateway.A2A.Validate
import McpGateway.Foundation.Effect
import McpGateway.Session.Token

/-!
# The code of the A2A broker

`OnConfigChange`, `SetAgents` with its eviction and the fetches it starts, and the refresh of a card.
The code reaches its shared objects through calls: the configuration, the fields behind `b.mu`, the card
store and the upstreams.  Each critical section that takes `b.mu` at once with what it does is one call,
since it makes at most one call on the store; `OnConfigChange` reads the configuration while it holds
`b.mu`, so there the lock has calls of its own.
-/

namespace McpGateway.A2A

open Go Effect Config Session

/-! ## Data -/

structure CardEntry where
  raw : Bytes
  etag : String
  lastModified : String
  sha256 : String
  fetchedAt : Time
  deriving DecidableEq, Repr

structure AgentClient where
  gatewayPEM : String
  agentPEM : String
  deriving DecidableEq, Repr

structure CardRequest where
  url : String
  authorization : String
  ifNoneMatch : String
  ifModifiedSince : String
  deriving DecidableEq, Repr

/-- The answer to a card fetch.  `readErr` is set when the body breaks off after `body`. -/
structure CardResponse where
  status : Nat
  etag : String := ""
  lastModified : String := ""
  body : Bytes := []
  readErr : Bool := false
  deriving DecidableEq, Repr

structure Target where
  ns : String
  agentPrefix : String
  agent : A2AAgent
  deriving DecidableEq, Repr

structure SharedConfig where
  externalHostname : String := ""
  gatewayCACertPEM : String := ""
  a2aAgents : List (Option A2AAgent) := []
  deriving DecidableEq, Repr

/-- What the broker relies on from libraries: the hexadecimal digest, and whether a bundle holds a
certificate. -/
structure Setup where
  sha256 : Bytes → String
  validPEM : String → Bool

/-! ## Calls -/

inductive BrokerOp where
  | setExternalHostname (host : String)
  | setA2AAgents (agents : List (Option A2AAgent))
  | setGatewayCACertPEM (pem : String)
  /-- start a goroutine for the call of the observer -/
  | notify
  | getExternalHostname
  | getGatewayCACertPEM
  | listA2AAgents
  /-- `b.mu.Lock()` in `OnConfigChange`, and the matching `b.mu.Unlock()` after both fields were set -/
  | lock
  | unlock (externalHost caCertPEM : String)
  /-- the gateway CA and the host that a refresh runs against -/
  | trust
  /-- the agents in the order of an iteration -/
  | snapshot
  /-- replace the index, and give the old one back -/
  | swapAgents (next : GoMap A2AAgent)
  | clientFor (key : String) (agent : A2AAgent)
  | storeIfCurrent (ns agentPrefix : String) (agent : A2AAgent) (gwCA host : String)
      (entry : CardEntry)
  | failCardValidation (ns agentPrefix : String) (agent : A2AAgent) (gwCA host reason : String)
  | storeGet (ns agentPrefix : String)
  | storeDelete (ns agentPrefix : String)
  /-- the keys of the store in the order of an iteration -/
  | storeList
  /-- the entries of a map in the order of an iteration -/
  | range (m : GoMap A2AAgent)
  | fetch (client : AgentClient) (req : CardRequest)
  | now
  /-- start a goroutine that fetches the cards -/
  | spawn (targets : List Target)

@[reducible] def BrokerOp.Resp : BrokerOp → Type
  | .setExternalHostname _ | .setA2AAgents _ | .setGatewayCACertPEM _ | .notify => Unit
  | .getExternalHostname | .getGatewayCACertPEM => String
  | .listA2AAgents => List (Option A2AAgent)
  | .lock | .unlock .. => Unit
  | .trust => String × String
  | .snapshot => List (String × A2AAgent)
  | .swapAgents _ => GoMap A2AAgent
  | .clientFor .. => Except String AgentClient
  | .storeIfCurrent .. | .failCardValidation .. => Bool
  | .storeGet .. => Option CardEntry
  | .storeDelete .. => Unit
  | .storeList => List String
  | .range _ => List (String × A2AAgent)
  | .fetch .. => Except String CardResponse
  | .now => Time
  | .spawn _ => Unit

@[reducible] def brokerSig : Sig := ⟨BrokerOp, BrokerOp.Resp⟩

abbrev BrokerProg := Prog brokerSig

abbrev BrokerEv := Ev brokerSig

def ask (o : BrokerOp) : BrokerProg o.Resp := Prog.call (S := brokerSig) o

lemma obeys_ask {α : Type} {A : List BrokerEv → BrokerOp → Prop} {Q : α → List BrokerEv → Prop}
    {o : BrokerOp} {f : o.Resp → BrokerProg α} {tr : List BrokerEv} :
    Prog.Obeys A Q (ask o >>= f) tr ↔ A tr o ∧ ∀ r, Prog.Obeys A Q (f r) (tr ++ [⟨o, r⟩]) :=
  Iff.rfl

/-! ## Refreshing a card -/

/-- `maxCardBytes`: one MiB. -/
def maxCardBytes : Nat := 1048576

/-- `io.ReadAll(io.LimitReader(resp.Body, limit))`: an error behind the limit is not seen. -/
def readLimited (limit : Nat) (resp : CardResponse) : Option Bytes :=
  if limit ≤ resp.body.length then some (resp.body.take limit)
  else if resp.readErr then none else some resp.body

def cardBody (resp : CardResponse) : Option Bytes :=
  (readLimited (maxCardBytes + 1) resp).filter fun body => body.length ≤ maxCardBytes

def cardRequest (agent : A2AAgent) (prev : Option CardEntry) : CardRequest where
  url := cardURL agent
  authorization := agent.credential
  ifNoneMatch := (prev.map CardEntry.etag).getD ""
  ifModifiedSince := (prev.map CardEntry.lastModified).getD ""

def unchangedEntry (sha : String) (prev : Option CardEntry) : Option CardEntry :=
  prev.filter fun entry => sha = entry.sha256

section Refresh

variable (s : Setup) (ns agentPrefix : String) (agent : A2AAgent)

def commit (gwCA host : String) (entry : Time → CardEntry) : BrokerProg Unit := do
  let now ← ask .now
  let _ ← ask (.storeIfCurrent ns agentPrefix agent gwCA host (entry now))
  pure ()

def acceptBody (gwCA host : String) (prev : Option CardEntry) (resp : CardResponse) (body : Bytes) :
    BrokerProg Unit :=
  match unchangedEntry (s.sha256 body) prev with
  | some entry =>
    commit ns agentPrefix agent gwCA host fun now =>
      { entry with fetchedAt := now, etag := resp.etag, lastModified := resp.lastModified }
  | none =>
    if validateCard body host ns agentPrefix ≠ "" then do
      let _ ← ask (.failCardValidation ns agentPrefix agent gwCA host
        (validateCard body host ns agentPrefix))
      pure ()
    else
      commit ns agentPrefix agent gwCA host fun now =>
        ⟨body, resp.etag, resp.lastModified, s.sha256 body, now⟩

def handleAnswer (gwCA host : String) (prev : Option CardEntry) (resp : CardResponse) :
    BrokerProg Unit :=
  match prev with
  | some entry =>
    if resp.status = 304 then
      commit ns agentPrefix agent gwCA host fun now => { entry with fetchedAt := now }
    else accept
  | none => accept
where
  /-- The cases that do not depend on a cached entry. -/
  accept : BrokerProg Unit :=
    if resp.status = 200 then
      match cardBody resp with
      | some body => acceptBody s ns agentPrefix agent gwCA host prev resp body
      | none => pure ()
    else pure ()

def refreshCard : BrokerProg Unit := do
  let (gwCA, host) ← ask .trust
  let prev ← ask (.storeGet ns agentPrefix)
  -- a request cannot be built for a URL that does not parse
  if (Url.parse (cardURL agent)).isNone then pure ()
  else do
    match ← ask (.clientFor (storeKey ns agentPrefix) agent) with
    | .error _ => pure ()
    | .ok client => do
      match ← ask (.fetch client (cardRequest agent prev)) with
      | .error _ => pure ()
      | .ok resp => handleAnswer s ns agentPrefix agent gwCA host prev resp

end Refresh

def refreshEach (s : Setup) : List Target → BrokerProg Unit
  | [] => pure ()
  | t :: rest => do
    refreshCard s t.ns t.agentPrefix t.agent
    refreshEach s rest

def targetOf (entry : String × A2AAgent) : Target :=
  ⟨(splitKey entry.1).1, (splitKey entry.1).2, entry.2⟩

def refreshAll (s : Setup) : BrokerProg Unit := do
  let agents ← ask .snapshot
  refreshEach s (agents.map targetOf)

/-! ## Replacing the agents -/

def deleteStale (current : GoMap A2AAgent) : List String → BrokerProg Unit
  | [] => pure ()
  | key :: rest =>
    if (current.lookup key).isSome then deleteStale current rest
    else do
      ask (.storeDelete (splitKey key).1 (splitKey key).2)
      deleteStale current rest

def evictStaleCards (current : GoMap A2AAgent) : BrokerProg Unit := do
  let keys ← ask .storeList
  deleteStale current keys

def needsFetch (prev : GoMap A2AAgent) (entry : String × A2AAgent) (cached : Option CardEntry) : Bool :=
  cached.isNone ||
    match prev.lookup entry.1 with
    | some old => fetchInputsChanged old entry.2
    | none => false

def pendingCards (prev : GoMap A2AAgent) : List (String × A2AAgent) → BrokerProg (List Target)
  | [] => pure []
  | entry :: rest => do
    let cached ← ask (.storeGet (splitKey entry.1).1 (splitKey entry.1).2)
    let more ← pendingCards prev rest
    pure (if needsFetch prev entry cached then targetOf entry :: more else more)

def refreshNewCards (prev agents : GoMap A2AAgent) : BrokerProg Unit := do
  let entries ← ask (.range agents)
  let pending ← pendingCards prev entries
  if pending = [] then pure () else ask (.spawn pending)

def setAgents (agents : List (Option A2AAgent)) : BrokerProg Unit := do
  let next := agentIndex agents
  let prev ← ask (.swapAgents next)
  evictStaleCards next
  refreshNewCards prev next

def onConfigChange : BrokerProg Unit := do
  ask .lock
  let host ← ask .getExternalHostname
  let ca ← ask .getGatewayCACertPEM
  ask (.unlock host ca)
  let agents ← ask .listA2AAgents
  setAgents agents

/-- What a reload of the config leads to.  The external hostname is set on every load here; the program sets it
once, in `main`, to the value that does not change between loads. -/
def load (conf : SharedConfig) : BrokerProg Unit := do
  ask (.setExternalHostname conf.externalHostname)
  ask (.setA2AAgents conf.a2aAgents)
  ask (.setGatewayCACertPEM conf.gatewayCACertPEM)
  ask .notify

end McpGateway.A2A
