import McpGateway.Controller.Extension
import McpGateway.Foundation.Runs

/-!
# The cluster

A cluster whose API server answers every call at once and up to date.  A `List` call returns the
objects in the order in which they are stored; no order is preferred, as every cluster is allowed.

Nobody else writes while a reconcile runs, so an update stores the whole object; an object that is
marked for deletion goes with its last finalizer.  Every config secret is one that the writer created
and labelled.
-/

namespace McpGateway.Controller

open Go Effect Kubernetes

/-- `config.BrokerConfig`, the content of a config secret. -/
structure BrokerConfig where
  servers : List Config.MCPServer := []
  virtualServers : List Config.VirtualServer := []
  gatewayCACertPEM : String := ""
  a2aAgents : List Config.A2AAgent := []

/-- What the API server holds, and the configurations written for the brokers. -/
structure Cluster where
  objects : (k : Kind) → List (Obj k)
  configs : NamespacedName → Option BrokerConfig
  clock : Nat := 1
  /-- The entries the writer was asked for, with their secrets. -/
  servers : List (NamespacedName × Config.MCPServer) := []
  agents : List (NamespacedName × Config.A2AAgent) := []

/-- `upsertNamedEntry` on a section: the first entry of the name is replaced if it changed. -/
def upsertNamedEntry {T : Type} (getName : T → String) (configChanged : T → T → Bool) (entry : T) :
    List T → List T
  | [] => [entry]
  | e :: rest =>
    if getName e = getName entry then (if configChanged entry e then entry else e) :: rest
    else e :: upsertNamedEntry getName configChanged entry rest

/-- `A2AAgent.ConfigChanged`: all fields count, the state up to its default. -/
def agentChanged (agent existing : Config.A2AAgent) : Bool :=
  { agent with state := Config.MCPServer.normalizeState agent.state } ≠
    { existing with state := Config.MCPServer.normalizeState existing.state }

namespace Cluster

/-- The config of a secret, which is created empty if it is missing. -/
def readOrCreate (w : Cluster) (secret : NamespacedName) : BrokerConfig := (w.configs secret).getD {}

def setConfig (w : Cluster) (secret : NamespacedName) (c : BrokerConfig) : Cluster :=
  { w with configs := fun s => if s = secret then some c else w.configs s }

def setObjects (w : Cluster) (k : Kind) (os : List (Obj k)) : Cluster :=
  { w with objects := fun k' => if h : k' = k then h ▸ os else w.objects k' }

/-- The object with the key. -/
def find (w : Cluster) (k : Kind) (key : NamespacedName) : Option (Obj k) :=
  (w.objects k).find? fun o => (Obj.metadata k o).key = key

/-- Put the object in the place of the one with its key. -/
def store (w : Cluster) (k : Kind) (o : Obj k) : Cluster :=
  w.setObjects k <| (w.objects k).map fun o' =>
    if (Obj.metadata k o').key = (Obj.metadata k o).key then o else o'

def remove (w : Cluster) (k : Kind) (key : NamespacedName) : Cluster :=
  w.setObjects k ((w.objects k).filter fun o => (Obj.metadata k o).key ≠ key)

/-- The answer to a `Get`. -/
def got (w : Cluster) (k : Kind) (key : NamespacedName) : Except Err (Obj k) :=
  match w.find k key with
  | some o => .ok o
  | none => .error ⟨key.name ++ " not found", some .notFound⟩

def answer (w : Cluster) : (o : Op) → Resp o × Cluster
  | .get k key => (w.got k key, w)
  | .list k opt => (.ok ((w.objects k).filter (opt.selects k)), w)
  | .update k o =>
    let metadata := Obj.metadata k o
    (.ok (), if metadata.deletionTimestamp.isSome ∧ metadata.finalizers = [] then
      w.remove k metadata.key else w.store k o)
  | .updateStatus k o => (.ok (), w.store k o)
  | .delete k o => (.ok (), w.remove k (Obj.metadata k o).key)
  | .now => (w.clock, w)
  | .upsertMCPServer server secret =>
    let c := w.readOrCreate secret
    (.ok (), { w.setConfig secret { c with
        servers := upsertNamedEntry (·.name) Config.MCPServer.configChanged server c.servers } with
      servers := w.servers ++ [(secret, server)] })
  | .upsertA2AAgent agent secret =>
    let c := w.readOrCreate secret
    (.ok (), { w.setConfig secret { c with
        a2aAgents := upsertNamedEntry (·.name) agentChanged agent c.a2aAgents } with
      agents := w.agents ++ [(secret, agent)] })
  | .removeMCPServer name =>
    (.ok (), { w with configs := fun s => (w.configs s).map fun c =>
      { c with servers := c.servers.filter fun e => e.name ≠ name } })
  | .removeA2AAgent name =>
    (.ok (), { w with configs := fun s => (w.configs s).map fun c =>
      { c with a2aAgents := c.a2aAgents.filter fun e => e.name ≠ name } })
  | .ensureConfigExists secret => (.ok (), w.setConfig secret (w.readOrCreate secret))
  | .writeEmptyConfig secret => (.ok (), w.setConfig secret {})

/-- Run a controller's program. -/
abbrev run {α : Type} (w : Cluster) (p : Ctl α) : α × Cluster := p.eval answer w

variable {w : Cluster} {k : Kind} {α : Type}

@[simp] lemma run_get {key : NamespacedName} {f : Except Err (Obj k) → Ctl α} :
    w.run (Controller.call (.get k key) >>= f) = w.run (f (w.got k key)) := rfl

@[simp] lemma run_list {opt : ListOption} {f : Except Err (List (Obj k)) → Ctl α} :
    w.run (Controller.call (.list k opt) >>= f) =
      w.run (f (.ok ((w.objects k).filter (opt.selects k)))) := rfl

@[simp] lemma run_now {f : Nat → Ctl α} :
    w.run (Controller.call .now >>= f) = w.run (f w.clock) := rfl

lemma run_bind {β : Type} {p : Ctl α} {f : α → Ctl β} :
    w.run (p >>= f) = (w.run p).2.run (f (w.run p).1) := Prog.eval_bind

@[simp] lemma run_pure {a : α} : w.run (pure a) = (a, w) := rfl

/-! ## What a write leaves alone -/

@[simp] lemma setObjects_self {os : List (Obj k)} : (w.setObjects k os).objects k = os := by
  simp [setObjects]

lemma setObjects_other {k' : Kind} {os : List (Obj k)} (h : k' ≠ k) :
    (w.setObjects k os).objects k' = w.objects k' := by
  simp [setObjects, h]

end Cluster

end McpGateway.Controller
