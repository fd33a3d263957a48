import McpGateway.Foundation.Transition
import McpGateway.Gateway.Resolution
import McpGateway.Upstream.Acts

/-!
# Managers at work side by side

The broker runs one goroutine per manager.  They share the registry of the gateway server and the
cached routing table, and a reload takes managers out and puts others in.  `Fleet.step` takes one
step of one of them at a time; between two steps of a manager any of the others may take some.
-/

namespace McpGateway.Gateway

open Go Config Routing Upstream Broker Transition

/-! ## One goroutine per manager -/

/-- Where a manager's goroutine is.  `before` are the hints from before the upstream's answer. -/
inductive Stage where
  /-- the calls still to be made on the gateway server; with none the goroutine waits -/
  | calling (calls : List ManagerCall)
  /-- the upstream has listed its tools -/
  | fetched (tools : List Tool) (before : GoMap ToolAnnotation)
  /-- and the gateway has listed the ones it serves -/
  | checked (kept : List Tool) (before : GoMap ToolAnnotation) (registered : List Tool)
  | checkedPrompts (prompts registered : List Prompt)
  /-- a call has changed something, and the callback for that is to run before the next call -/
  | changed (calls : List ManagerCall)

def Stage.calls : Stage → List ManagerCall
  | .calling calls | .changed calls => calls
  | _ => []

structure Worker where
  server : ActiveMCPServer
  /-- the broker's map of servers has it -/
  registered : Bool := true
  stage : Stage := .calling []

namespace Worker

variable (w : Worker)

def manager : MCPManager := w.server.manager

/-- The names that an update would add to those served and the ones it would take away: what
`diffTools` finds, unless `findToolConflicts` refuses the update. -/
def updateDiff : List String × List String :=
  match w.stage with
  | .checked kept _ registered =>
    let (toAdd, toRemove) := w.manager.diffTools w.manager.tools kept
    if (w.manager.findToolConflicts registered toAdd).isSome then ([], [])
    else (toAdd.map Tool.name, toRemove)
  | _ => ([], [])

def act (a : Act) : Worker :=
  { w with
    server := { w.server with manager := (a.apply w.manager).1 }
    stage := .calling (a.apply w.manager).2 }

end Worker

inductive WorkerStep where
  | harvest (tools : List Tool) (hints : GoMap ToolAnnotation)
  /-- the answer fails to decode after its hints were read from it -/
  | undecoded
  | reject
  | listTools
  | update
  | listPrompts (prompts : List Prompt)
  | updatePrompts
  /-- the server is disabled, cannot be reached, or is stopped -/
  | dropTools
  | dropPrompts

def Worker.take (w : Worker) (g : GatewayServer) (st : WorkerStep) : Option Worker :=
  match st, w.stage with
  | .harvest tools hints, .calling [] =>
    some { w with
      server := { w.server with toolHints := hints }
      stage := .fetched tools w.server.toolHints }
  | .undecoded, .fetched _ _ => some { w with stage := .calling [] }
  | .reject, .fetched tools _ =>
    if (w.manager.applyPolicy tools).isNone then some (w.act .dropTools) else none
  | .listTools, .fetched tools before =>
    (w.manager.applyPolicy tools).map fun kept =>
      { w with stage := .checked kept before g.listTools }
  | .update, .checked kept _ registered => some (w.act (.updateTools registered kept))
  | .listPrompts prompts, .calling [] =>
    some { w with stage := .checkedPrompts (validatePrompts prompts).1 g.listPrompts }
  | .updatePrompts, .checkedPrompts prompts registered =>
    some (w.act (.updatePrompts registered prompts))
  | .dropTools, .calling [] => some (w.act .dropTools)
  | .dropPrompts, .calling [] => some (w.act .dropPrompts)
  | _, _ => none

def changesTable : ManagerCall → Bool
  | .addTools tools => !tools.isEmpty
  | .deleteTools names => !names.isEmpty
  | .addPrompts prompts => !prompts.isEmpty
  | .deletePrompts names => !names.isEmpty
  | .disconnect | .resetBackoff | .applyBackoff => false

/-! ## The whole fleet -/

/-- Who refreshes the routing table: a manager after a call, the last phase of a reload, or a request
that found no table. -/
inductive Refresher where
  | worker (id : String)
  | reload
  | reader (n : Nat)
  deriving DecidableEq, Repr

structure Progress where
  todo : List String
  table : Table

inductive Reload where
  | idle
  | stopping
  | starting
  deriving DecidableEq, Repr

structure Fleet where
  registry : GatewayServer := {}
  workers : GoMap Worker := ∅
  discoveryEnabled : Bool := false
  tagsToolsRegistered : Bool := false
  /-- the refreshes under way, in the order in which they began, the last one first -/
  refreshes : AList (fun _ : Refresher => Progress) := ∅
  reload : Reload := .idle
  cachedTable : Option Table := none
  invalidToolPolicy : InvalidToolPolicy := .filterOut

namespace Fleet

variable (s : Fleet)

def new (policy : InvalidToolPolicy) (discoveryEnabled : Bool) : Fleet where
  registry := GatewayServer.addTools {} (if discoveryEnabled then discoveryTools else [])
  discoveryEnabled := discoveryEnabled
  invalidToolPolicy := policy

def ownTools : List Tool :=
  (if s.discoveryEnabled then discoveryTools else []) ++
    (if s.tagsToolsRegistered then tagsTools else [])

def registeredIDs : List String :=
  (s.workers.pairs.filter fun e => e.2.registered).map Prod.fst

def setWorker (id : String) (w : Worker) : Fleet :=
  { s with workers := AList.insert id w s.workers }

/-- No refresh is under way, so `mcpLock` is free. -/
def unlocked : Bool := s.refreshes.keys.isEmpty

/-- `mcpLock` can be had for reading, and the refresher has a reason to refresh. -/
def mayRefresh (r : Refresher) : Bool :=
  (s.refreshes.lookup .reload).isNone && (s.refreshes.lookup r).isNone &&
    match r with
    | .worker id =>
      match (s.workers.lookup id).map Worker.stage with
      | some (.changed _) => true
      | _ => false
    | .reload => false
    | .reader _ => true

def beginRefresh (r : Refresher) (order : List String) : Fleet :=
  { s with refreshes := AList.insert r ⟨order, tableOf []⟩ s.refreshes }

def deregister (id : String) : Fleet :=
  match s.workers.lookup id with
  | some w => s.setWorker id { w with registered := false }
  | none => s

def start (config : MCPServer) : Fleet :=
  match s.workers.lookup config.id with
  | some _ => s
  | none =>
    s.setWorker config.id ⟨ActiveMCPServer.start config s.invalidToolPolicy "" 0, true, .calling []⟩

def resume : Refresher → Fleet
  | .worker id =>
    match s.workers.lookup id with
    | some w => s.setWorker id { w with stage := .calling w.stage.calls }
    | none => s
  | .reload => { s with reload := .idle }
  | .reader _ => s

end Fleet

inductive Label where
  | worker (id : String) (st : WorkerStep)
  /-- the next call of a manager on the gateway server -/
  | call (id : String)
  /-- a refresh takes `mcpLock` and visits the servers in some order -/
  | begin (r : Refresher) (order : List String)
  | read (r : Refresher)
  | store (r : Refresher)
  /-- the first phase of a reload, with the servers that were removed or changed -/
  | deregister (gone : List String)
  /-- the goroutine of a manager that was stopped ends -/
  | retire (id : String)
  /-- the last phase of a reload -/
  | startManagers (servers : List MCPServer) (order : List String)
  | registerTagsTools
  | deregisterTagsTools

/-- One step.  A reload that registers or deregisters the tag tools blocks itself in the callback; what
it does to the registry before that is a step of its own here. -/
def Fleet.step (l : Label) (s : Fleet) : Option Fleet :=
  match l with
  | .worker id st => do
    let w ← s.workers.lookup id
    let w' ← w.take s.registry st
    some (s.setWorker id w')
  | .call id => do
    let w ← s.workers.lookup id
    match w.stage with
    | .calling (c :: rest) =>
      let stage := if changesTable c then .changed rest else .calling rest
      some { s.setWorker id { w with stage := stage } with registry := c.apply s.registry }
    | _ => none
  | .begin r order =>
    if s.mayRefresh r && order.isPerm s.registeredIDs then some (s.beginRefresh r order) else none
  | .read r => do
    let p ← s.refreshes.lookup r
    match p.todo with
    | id :: rest =>
      let w ← s.workers.lookup id
      let p' := { todo := rest, table := addManager p.table (id, w.server) }
      some { s with refreshes := AList.replace r p' s.refreshes }
    | [] => none
  | .store r => do
    let p ← s.refreshes.lookup r
    match p.todo with
    | [] =>
      let s' := { s with cachedTable := some p.table, refreshes := AList.erase r s.refreshes }
      some (s'.resume r)
    | _ :: _ => none
  | .deregister gone =>
    if s.reload = .idle && s.unlocked then
      some { gone.foldl Fleet.deregister s with reload := .stopping }
    else none
  | .retire id => do
    let w ← s.workers.lookup id
    match w.stage with
    | .calling [] =>
      if !w.registered && w.manager.serverTools.isEmpty && w.manager.serverPrompts.isEmpty then
        some { s with workers := AList.erase id s.workers }
      else none
    | _ => none
  | .startManagers servers order =>
    let s' := { servers.foldl Fleet.start s with reload := .starting }
    if s.reload = .stopping && s.unlocked && s.workers.values.all Worker.registered &&
        order.isPerm s'.registeredIDs then
      some (s'.beginRefresh .reload order)
    else none
  | .registerTagsTools =>
    if s.tagsToolsRegistered then none
    else some { s with registry := s.registry.addTools tagsTools, tagsToolsRegistered := true }
  | .deregisterTagsTools =>
    if s.tagsToolsRegistered then
      some { s with
        registry := s.registry.deleteTools [listTagsName, filterToolsByTagsName]
        tagsToolsRegistered := false }
    else none

inductive Fleet.StepsTo (s : Fleet) : Label → Fleet → Prop where
  | worker {id : String} {st : WorkerStep} {w w' : Worker} (hw : s.workers.lookup id = some w)
      (htake : w.take s.registry st = some w') : StepsTo s (.worker id st) (s.setWorker id w')
  | call {id : String} {w : Worker} {c : ManagerCall} {rest : List ManagerCall}
      (hw : s.workers.lookup id = some w) (hstage : w.stage = .calling (c :: rest)) :
      StepsTo s (.call id)
        { s.setWorker id
            { w with stage := if changesTable c then .changed rest else .calling rest } with
          registry := c.apply s.registry }
  | begin {r : Refresher} {order : List String} (hmay : s.mayRefresh r = true)
      (horder : order.Perm s.registeredIDs) : StepsTo s (.begin r order) (s.beginRefresh r order)
  | read {r : Refresher} {p : Progress} {id : String} {rest : List String} {w : Worker}
      (hp : s.refreshes.lookup r = some p) (htodo : p.todo = id :: rest)
      (hw : s.workers.lookup id = some w) :
      StepsTo s (.read r)
        { s with refreshes := AList.replace r ⟨rest, addManager p.table (id, w.server)⟩ s.refreshes }
  | store {r : Refresher} {p : Progress} (hp : s.refreshes.lookup r = some p) (htodo : p.todo = []) :
      StepsTo s (.store r)
        (resume { s with cachedTable := some p.table, refreshes := AList.erase r s.refreshes } r)
  | deregister {gone : List String} (hreload : s.reload = .idle) (hunlocked : s.unlocked = true) :
      StepsTo s (.deregister gone) { gone.foldl Fleet.deregister s with reload := .stopping }
  | retire {id : String} {w : Worker} (hw : s.workers.lookup id = some w)
      (hstage : w.stage = .calling []) (hgone : w.registered = false)
      (htools : w.manager.serverTools = []) (hprompts : w.manager.serverPrompts = []) :
      StepsTo s (.retire id) { s with workers := AList.erase id s.workers }
  | startManagers {servers : List MCPServer} {order : List String} (hreload : s.reload = .stopping)
      (hunlocked : s.unlocked = true) (hall : ∀ w ∈ s.workers.values, w.registered = true)
      (horder : order.Perm (servers.foldl Fleet.start s).registeredIDs) :
      StepsTo s (.startManagers servers order)
        (beginRefresh { servers.foldl Fleet.start s with reload := .starting } .reload order)
  | registerTagsTools (hflag : s.tagsToolsRegistered = false) :
      StepsTo s .registerTagsTools
        { s with registry := s.registry.addTools tagsTools, tagsToolsRegistered := true }
  | deregisterTagsTools (hflag : s.tagsToolsRegistered = true) :
      StepsTo s .deregisterTagsTools
        { s with
          registry := s.registry.deleteTools [listTagsName, filterToolsByTagsName]
          tagsToolsRegistered := false }

lemma Fleet.stepsTo {s s' : Fleet} {l : Label} (h : s.step l = some s') : s.StepsTo l s' := by
  cases l with
  | worker id st =>
    obtain ⟨w, hw, hrest⟩ := bind_eq_some_iff.1 h
    obtain ⟨w', hw', hsome⟩ := bind_eq_some_iff.1 hrest
    cases hsome
    exact .worker hw hw'
  | call id =>
    obtain ⟨w, hw, hrest⟩ := bind_eq_some_iff.1 h
    split at hrest
    next c rest hstage =>
      cases hrest
      exact .call hw hstage
    next => cases hrest
  | begin r order =>
    simp only [step] at h
    split_ifs at h with hcond
    rw [and_eq_true, List.isPerm_iff] at hcond
    cases h
    exact .begin hcond.1 hcond.2
  | read r =>
    obtain ⟨p, hp, hrest⟩ := bind_eq_some_iff.1 h
    split at hrest
    next id rest htodo =>
      obtain ⟨w, hw, hsome⟩ := bind_eq_some_iff.1 hrest
      cases hsome
      exact .read hp htodo hw
    next => cases hrest
  | store r =>
    obtain ⟨p, hp, hrest⟩ := bind_eq_some_iff.1 h
    split at hrest
    next htodo =>
      cases hrest
      exact .store hp htodo
    next => cases hrest
  | deregister gone =>
    simp only [step] at h
    split_ifs at h with hcond
    rw [and_eq_true, decide_eq_true_eq] at hcond
    cases h
    exact .deregister hcond.1 hcond.2
  | retire id =>
    obtain ⟨w, hw, hrest⟩ := bind_eq_some_iff.1 h
    split at hrest
    next hstage =>
      split_ifs at hrest with hcond
      simp only [and_eq_true, not_eq_true', List.isEmpty_iff] at hcond
      cases hrest
      exact .retire hw hstage hcond.1.1 hcond.1.2 hcond.2
    next => cases hrest
  | startManagers servers order =>
    simp only [step] at h
    split_ifs at h with hcond
    simp only [and_eq_true, decide_eq_true_eq, all_eq_true, List.isPerm_iff] at hcond
    obtain ⟨⟨⟨hreload, hunlocked⟩, hall⟩, horder⟩ := hcond
    cases h
    exact .startManagers hreload hunlocked hall horder
  | registerTagsTools =>
    simp only [step] at h
    split_ifs at h with hflag
    cases h
    exact .registerTagsTools (by simpa using hflag)
  | deregisterTagsTools =>
    simp only [step] at h
    split_ifs at h with hflag
    cases h
    exact .deregisterTagsTools hflag

/-! ## What holds of every worker -/

/-- A worker is known by its manager's id, its lists agree, and the calls it has still to make
register only tools that it serves. -/
structure Worker.Sound (id : String) (w : Worker) : Prop where
  known : w.manager.id = id
  coherent : Coherent w.manager
  owned : Owned w.manager
  adds : ∀ c ∈ w.stage.calls, ∀ t ∈ Kind.tool.added c, t ∈ w.manager.serverTools

variable {id : String} {w : Worker}

lemma Worker.Sound.act (h : w.Sound id) (a : Act) :
    (w.act a).Sound id where
  known := (a.move w.manager).setup.id.trans h.known
  coherent := h.coherent.apply a
  owned := (a.move w.manager).owned h.owned
  adds _ hc _ ht := Act.added_served hc ht

variable {w' : Worker}

lemma Worker.Sound.of_manager (h : w.Sound id)
    (hman : w'.manager = w.manager) (hcalls : ∀ c ∈ w'.stage.calls, c ∈ w.stage.calls) :
    w'.Sound id where
  known := hman ▸ h.known
  coherent := hman ▸ h.coherent
  owned := hman ▸ h.owned
  adds c hc t ht := hman ▸ h.adds c (hcalls c hc) t ht

lemma Worker.updateDiff_eq {kept registered : List Tool} {before : GoMap ToolAnnotation}
    (hstage : w.stage = .checked kept before registered) : w.updateDiff =
    if (w.manager.findToolConflicts registered (Kind.tool.newEntries w.manager kept)).isSome then ([],
    []) else ((Kind.tool.newEntries w.manager kept).map Tool.name, Kind.tool.goneNames w.manager kept) := by
  rw [Worker.updateDiff, hstage]
  rfl

inductive Worker.Takes (w : Worker) (g : GatewayServer) : WorkerStep → Worker → Prop where
  | harvest {tools : List Tool} {hints : GoMap ToolAnnotation} (hstage : w.stage = .calling []) :
      Takes w g (.harvest tools hints)
        { w with
          server := { w.server with toolHints := hints }
          stage := .fetched tools w.server.toolHints }
  | undecoded {tools : List Tool} {before : GoMap ToolAnnotation}
      (hstage : w.stage = .fetched tools before) : Takes w g .undecoded { w with stage := .calling [] }
  | reject {tools : List Tool} {before : GoMap ToolAnnotation}
      (hstage : w.stage = .fetched tools before) : Takes w g .reject (w.act .dropTools)
  | listTools {tools kept : List Tool} {before : GoMap ToolAnnotation}
      (hstage : w.stage = .fetched tools before) :
      Takes w g .listTools { w with stage := .checked kept before g.listTools }
  | update {kept registered : List Tool} {before : GoMap ToolAnnotation}
      (hstage : w.stage = .checked kept before registered) :
      Takes w g .update (w.act (.updateTools registered kept))
  | listPrompts {prompts kept : List Prompt} (hstage : w.stage = .calling []) :
      Takes w g (.listPrompts prompts) { w with stage := .checkedPrompts kept g.listPrompts }
  | updatePrompts {prompts registered : List Prompt}
      (hstage : w.stage = .checkedPrompts prompts registered) :
      Takes w g .updatePrompts (w.act (.updatePrompts registered prompts))
  | dropTools (hstage : w.stage = .calling []) : Takes w g .dropTools (w.act .dropTools)
  | dropPrompts (hstage : w.stage = .calling []) : Takes w g .dropPrompts (w.act .dropPrompts)

variable {g : GatewayServer} {st : WorkerStep}

lemma Worker.takes (h : w.take g st = some w') : w.Takes g st w' := by
  unfold Worker.take at h
  split at h
  next hstage =>
    cases h
    exact .harvest hstage
  next hstage =>
    cases h
    exact .undecoded hstage
  next hstage =>
    split_ifs at h
    cases h
    exact .reject hstage
  next hstage =>
    rcases map_eq_some_iff.1 h with ⟨kept, -, rfl⟩
    exact .listTools hstage
  next hstage =>
    cases h
    exact .update hstage
  next hstage =>
    cases h
    exact .listPrompts hstage
  next hstage =>
    cases h
    exact .updatePrompts hstage
  next hstage =>
    cases h
    exact .dropTools hstage
  next hstage =>
    cases h
    exact .dropPrompts hstage
  next => cases h

lemma Worker.take_cases (h : w.take g st = some w') : w.stage.calls = [] ∧ w'.registered = w.registered ∧
    ((w'.manager = w.manager ∧ w'.stage.calls = []) ∨ ∃ a, w' = w.act a) := by
  cases Worker.takes h with
  | harvest hstage | undecoded hstage | listTools hstage | listPrompts hstage =>
    exact ⟨by rw [hstage]; rfl, rfl, .inl ⟨rfl, rfl⟩⟩
  | reject hstage | update hstage | updatePrompts hstage | dropTools hstage | dropPrompts hstage =>
    exact ⟨by rw [hstage]; rfl, rfl, .inr ⟨_, rfl⟩⟩

lemma Worker.Sound.take (h : w.Sound id) (htake : w.take g st = some w') : w'.Sound id := by
  obtain ⟨-, -, ⟨hman, hcalls⟩ | ⟨a, rfl⟩⟩ := Worker.take_cases htake
  · refine h.of_manager hman ?_
    intro c hc
    rw [hcalls] at hc
    cases hc
  · exact h.act a

def Fleet.Orderly (s : Fleet) : Prop :=
  ∀ id w, s.workers.lookup id = some w → w.Sound id

namespace Fleet

variable {s s' : Fleet}

lemma Orderly.setWorker (h : s.Orderly) (hw : w.Sound id) : (s.setWorker id w).Orderly := by
  intro id' w' hlookup
  rw [Fleet.setWorker, lookup_insert] at hlookup
  split_ifs at hlookup with hid
  · cases hlookup
    exact hid ▸ hw
  · exact h id' w' hlookup

lemma orderly_new (policy : InvalidToolPolicy) (enabled : Bool) : (new policy enabled).Orderly := by
  intro id w h
  cases h

lemma sound_start (config : MCPServer) (policy : InvalidToolPolicy) :
    Worker.Sound config.id ⟨ActiveMCPServer.start config policy "" 0, true, .calling []⟩ where
  known := rfl
  coherent := by
    have hconsistent : Consistent (newManager config policy true) {} := by
      refine consistent_newManager ?_
      intro K n x hview
      cases K <;> cases hview.1
    exact ⟨{}, hconsistent⟩
  owned := owned_newManager config policy true
  adds _ hc := by cases hc

lemma Orderly.deregister (h : s.Orderly) (gone : List String) :
    (gone.foldl Fleet.deregister s).Orderly := by
  induction gone generalizing s with
  | nil => exact h
  | cons id gone ih =>
    refine ih ?_
    unfold Fleet.deregister
    cases hw : s.workers.lookup id with
    | none => exact h
    | some w => exact h.setWorker ((h id w hw).of_manager rfl fun c hc => hc)

lemma Orderly.start (h : s.Orderly) (servers : List MCPServer) :
    (servers.foldl Fleet.start s).Orderly := by
  induction servers generalizing s with
  | nil => exact h
  | cons config servers ih =>
    refine ih ?_
    unfold Fleet.start
    cases hw : s.workers.lookup config.id with
    | some w => exact h
    | none => exact h.setWorker (sound_start config _)

lemma Orderly.resume (h : s.Orderly) (r : Refresher) : (s.resume r).Orderly := by
  cases r with
  | worker id =>
    unfold Fleet.resume
    dsimp only
    cases hw : s.workers.lookup id with
    | none => exact h
    | some w => exact h.setWorker ((h id w hw).of_manager rfl fun c hc => hc)
  | reload => exact h
  | reader n => exact h

lemma Orderly.step {l : Label} (h : s.Orderly) (hstep : s.step l = some s') : s'.Orderly := by
  cases stepsTo hstep with
  | @worker id st w w' hw htake => exact h.setWorker ((h id w hw).take htake)
  | @call id w c rest hw hstage =>
    have hsound : Worker.Sound id
        { w with stage := if changesTable c then .changed rest else .calling rest } := by
      refine (h id w hw).of_manager rfl ?_
      intro c' hc'
      rw [hstage]
      dsimp only at hc'
      split_ifs at hc' <;> exact mem_cons_of_mem c hc'
    exact h.setWorker hsound
  | begin => exact h
  | read => exact h
  | store =>
    refine Orderly.resume ?_ _
    exact h
  | @deregister gone => exact h.deregister gone
  | @retire id =>
    intro id' w' hlookup
    rw [lookup_erase] at hlookup
    split_ifs at hlookup
    exact h id' w' hlookup
  | @startManagers servers => exact h.start servers
  | registerTagsTools => exact h
  | deregisterTagsTools => exact h

/-! ## Pieces of runs of two managers -/

def east : MCPServer := { name := "east" }

def west : MCPServer := { name := "west" }

def forecast : Tool :=
  { name := "forecast", inputSchema := MCPManager.objectSchema }

def bothStarted : List Label :=
  [.deregister [], .startManagers [east, west] [east.id, west.id], .read .reload, .read .reload,
    .store .reload]

/-- The upstream lists its tools, and the manager asks the gateway for the registered ones. -/
def checks (config : MCPServer) (tools : List Tool) : List Label :=
  [.worker config.id (.harvest tools ∅), .worker config.id .listTools]

def takesOver (config : MCPServer) : List Label := [.worker config.id .update, .call config.id]

def rebuilt (config : MCPServer) : List Label :=
  [.begin (.worker config.id) [east.id, west.id], .read (.worker config.id), .read (.worker config.id)]

def refreshed (config : MCPServer) : List Label :=
  rebuilt config ++ [.store (.worker config.id)]

end Fleet

end McpGateway.Gateway
