import McpGateway.Config.Types
import McpGateway.Foundation.Keyed
import McpGateway.Upstream.Validate

/-!
# The manager of one upstream server

One pass of `MCPManager.manage` as a function of the manager's state and of everything the pass
reads from outside: the answers of the upstream and what the gateway server has registered.  The
calls it makes on the gateway server come out in order.  `MCPManager.run` is a whole history of
passes.
-/

namespace McpGateway.Upstream

open Go Keyed Config

def gatewayServerID : String := "kuadrant/id"
def maxConsecutiveFailures : Nat := 3

inductive EventType where
  | timer
  | toolNotification
  | promptNotification
  deriving DecidableEq, Repr

structure ServerValidationStatus where
  id : String := ""
  name : String := ""
  message : String := ""
  ready : Bool := false
  totalTools : Nat := 0
  totalPrompts : Nat := 0
  invalidToolList : List InvalidInfo := []
  invalidPromptList : List InvalidInfo := []
  supportedVersion : Option String := none
  deriving DecidableEq, Repr

/-- The state of a manager.  `tools` and `prompts` are as the upstream listed them, `serverTools` and
`serverPrompts` as the gateway serves them; the served maps find what the upstream listed by the name
under which the gateway serves it. -/
structure MCPManager where
  config : MCPServer
  invalidToolPolicy : InvalidToolPolicy
  promptsServer : Bool := true
  tools : List Tool := []
  serverTools : List Tool := []
  servedToolsMap : GoMap Tool := ∅
  prompts : List Prompt := []
  serverPrompts : List Prompt := []
  servedPromptsMap : GoMap Prompt := ∅
  consecutiveFailures : Nat := 0
  status : ServerValidationStatus := {}

inductive ManagerCall where
  | addTools (tools : List Tool)
  | deleteTools (names : List String)
  | addPrompts (prompts : List Prompt)
  | deletePrompts (names : List String)
  | disconnect
  | resetBackoff
  | applyBackoff

/-- The tools a call hands to `AddTools`. -/
@[simp] def ManagerCall.tools : ManagerCall → List Tool
  | .addTools tools => tools
  | _ => []

/-- The tools a run of calls hands to `AddTools`, in order. -/
def addedTools (calls : List ManagerCall) : List Tool :=
  calls.flatMap ManagerCall.tools

@[simp] lemma addedTools_nil : addedTools [] = [] := rfl

@[simp] lemma addedTools_cons (c : ManagerCall) (cs : List ManagerCall) :
    addedTools (c :: cs) = c.tools ++ addedTools cs := rfl

@[simp] lemma addedTools_append (a b : List ManagerCall) :
    addedTools (a ++ b) = addedTools a ++ addedTools b := by
  simp [addedTools]

/-- Everything one pass reads from outside the manager.  Entries of a list result may be nil. -/
structure PassInput where
  event : EventType
  connect : Except String Unit
  ping : Except String Unit
  listTools : Except String (List (Option Tool))
  registeredTools : List Tool
  supportsPrompts : Bool
  listPrompts : Except String (List (Option Prompt))
  registeredPrompts : List Prompt
  protocolVersion : Option String

def PassInput.listed (inp : PassInput) : List Tool :=
  match inp.listTools with
  | .ok listed => listed.filterMap fun t => t
  | .error _ => []

def prefixedName (namePrefix tool : String) : String :=
  if namePrefix = "" then tool else namePrefix ++ tool

def ownerID (metadata : Option (List (String × Any))) : Option String :=
  (metadata.bind (·.lookup gatewayServerID)).bind Any.asString

/-- A Go slice of strings under `%v`. -/
def sprintNames (names : List String) : String :=
  "[" ++ " ".intercalate names ++ "]"

namespace MCPManager

variable (man : MCPManager)

def id : String := man.config.id

def isEnabled : Bool :=
  man.config.state = "" || man.config.state = "Enabled"

def toolToServerTool (newTool : Tool) : Tool :=
  { newTool with
    name := prefixedName man.config.namePrefix newTool.name
    metadata := some [(gatewayServerID, .string man.id)] }

def promptToServerPrompt (newPrompt : Prompt) : Prompt :=
  { newPrompt with
    name := prefixedName man.config.namePrefix newPrompt.name
    metadata := some [(gatewayServerID, .string man.id)] }

def diffTools (oldTools newTools : List Tool) : List Tool × List String :=
  ((addedEntries Tool.name oldTools newTools).map man.toolToServerTool,
    (addedEntries Tool.name newTools oldTools).map fun t =>
      prefixedName man.config.namePrefix t.name)

def diffPrompts (oldPrompts newPrompts : List Prompt) : List Prompt × List String :=
  ((addedEntries Prompt.name oldPrompts newPrompts).map man.promptToServerPrompt,
    (addedEntries Prompt.name newPrompts oldPrompts).map fun p =>
      prefixedName man.config.namePrefix p.name)

def conflictingNames (registered : List (String × Option (List (String × Any))))
    (names : List String) : List String :=
  names.flatMap fun n => registered.filterMap fun e =>
    match ownerID e.2 with
    | some owner => if e.1 = n ∧ owner ≠ man.id then some n else none
    | none => none

def findToolConflicts (registered toAdd : List Tool) : Option String :=
  match man.conflictingNames (registered.map fun t => (t.name, t.metadata)) (toAdd.map Tool.name) with
  | [] => none
  | names => some ("conflicting tools discovered. conflicting tool names " ++ sprintNames names)

def findPromptConflicts (registered toAdd : List Prompt) : Option String :=
  if man.promptsServer = false then none
  else
    match man.conflictingNames (registered.map fun p => (p.name, p.metadata))
        (toAdd.map Prompt.name) with
    | [] => none
    | names =>
      some ("conflicting prompts discovered. conflicting prompt names " ++ sprintNames names)

def removeAllTools : MCPManager × List ManagerCall :=
  ({ man with tools := [], serverTools := [], servedToolsMap := ∅ },
    [.deleteTools (man.serverTools.map Tool.name)])

def removeAllPrompts : MCPManager × List ManagerCall :=
  if man.promptsServer then
    ({ man with prompts := [], serverPrompts := [], servedPromptsMap := ∅ },
      [.deletePrompts (man.serverPrompts.map Prompt.name)])
  else (man, [])

def setStatus (err : Option String) (toolCount promptCount : Nat)
    (invalidTools invalidPrompts : List InvalidInfo) (protocol : Option String) : MCPManager :=
  let base := { man.status with
    id := man.id
    name := man.config.name
    invalidToolList := invalidTools
    invalidPromptList := invalidPrompts }
  match err with
  | some e => { man with status := { base with message := e, ready := false } }
  | none =>
    { man with status := { base with
        totalTools := toolCount
        totalPrompts := promptCount
        ready := true
        message := "server added successfully. Total tools added " ++ itoa toolCount ++
          ". Total prompts added " ++ itoa promptCount
        supportedVersion := protocol } }

def handleConnectionFailure (err : String) (numberOfTools numberOfPrompts : Nat) :
    MCPManager × List ManagerCall :=
  let man := { man with consecutiveFailures := man.consecutiveFailures + 1 }
  let (man, calls) :=
    if maxConsecutiveFailures ≤ man.consecutiveFailures then
      let (man, dropTools) := man.removeAllTools
      let (man, dropPrompts) := man.removeAllPrompts
      (man, dropTools ++ dropPrompts)
    else (man, [])
  (man.setStatus (some err) numberOfTools numberOfPrompts [] [] none,
    calls ++ [.disconnect, .applyBackoff])

structure PartResult where
  man : MCPManager
  calls : List ManagerCall := []
  err : Option String := none
  invalid : List InvalidInfo := []

def shouldFetchTools (event : EventType) : Bool :=
  event = .timer || event = .toolNotification

def shouldFetchPrompts (event : EventType) : Bool :=
  event = .timer || event = .promptNotification

/-- The fetched tools that go on to the comparison, or `none` when the server is rejected. -/
def applyPolicy (fetched : List Tool) : Option (List Tool) :=
  if (validateTools fetched).2 = [] then some fetched
  else
    match man.invalidToolPolicy with
    | .rejectServer => none
    | .filterOut => some (validateTools fetched).1

/-- Register what is new and unregister what is gone, unless a name belongs to another upstream. -/
def updateTools (registered fetched : List Tool) (invalid : List InvalidInfo) : PartResult :=
  let (toAdd, toRemove) := man.diffTools man.tools fetched
  match man.findToolConflicts registered toAdd with
  | some e =>
    { man := man, invalid := invalid,
      err := some ("upstream mcp failed to add tools to gateway " ++ man.id ++ " : " ++ e) }
  | none =>
    { man := { man with
        tools := fetched
        serverTools := (man.serverTools.filter fun t => !toRemove.contains t.name) ++ toAdd
        servedToolsMap := byName (fun t => prefixedName man.config.namePrefix t.name) fetched }
      invalid := invalid
      calls := (if toRemove = [] then [] else [.deleteTools toRemove]) ++
        (if toAdd.isEmpty then [] else [.addTools toAdd]) }

def manageTools (inp : PassInput) : PartResult :=
  if shouldFetchTools inp.event = false then { man := man }
  else
    match inp.listTools with
    | .error e =>
      { man := man,
        err := some ("upstream mcp failed to list tools server " ++ man.id ++
          " : failed to get tools: " ++ e) }
    | .ok listed =>
      let fetched := listed.filterMap fun t => t
      let invalids := (validateTools fetched).2
      match man.applyPolicy fetched with
      | none =>
        let (man', calls) := man.removeAllTools
        { man := man', calls := calls, invalid := invalids,
          err := some ("upstream mcp " ++ man.id ++ " rejected: " ++ itoa invalids.length ++
            " invalid tools found") }
      | some kept => man.updateTools inp.registeredTools kept invalids

def updatePrompts (registered fetched : List Prompt) (invalid : List InvalidInfo) : PartResult :=
  let (toAdd, toRemove) := man.diffPrompts man.prompts fetched
  match man.findPromptConflicts registered toAdd with
  | some e =>
    { man := man, invalid := invalid,
      err := some ("upstream mcp failed to add prompts to gateway " ++ man.id ++ " : " ++ e) }
  | none =>
    { man := { man with
        prompts := fetched
        serverPrompts := (man.serverPrompts.filter fun p => !toRemove.contains p.name) ++ toAdd
        servedPromptsMap := byName (fun p => prefixedName man.config.namePrefix p.name) fetched }
      invalid := invalid
      calls := (if toRemove = [] then [] else [.deletePrompts toRemove]) ++
        (if toAdd.isEmpty then [] else [.addPrompts toAdd]) }

def managePrompts (inp : PassInput) : PartResult :=
  if (man.promptsServer && inp.supportsPrompts && shouldFetchPrompts inp.event) = false then
    { man := man }
  else
    match inp.listPrompts with
    | .error e =>
      { man := man,
        err := some ("upstream mcp failed to list prompts server " ++ man.id ++
          " : failed to get prompts: " ++ e) }
    | .ok listed =>
      let (valid, invalids) := validatePrompts (listed.filterMap fun p => p)
      man.updatePrompts inp.registeredPrompts valid invalids

/-- `errors.Join`. -/
def joinErrors : Option String → Option String → Option String
  | some a, some b => some (a ++ "\n" ++ b)
  | some a, none => some a
  | none, b => b

def refresh (inp : PassInput) : MCPManager × List ManagerCall :=
  let t := man.manageTools inp
  let p := t.man.managePrompts inp
  let err := joinErrors t.err p.err
  (p.man.setStatus err p.man.tools.length p.man.prompts.length t.invalid p.invalid inp.protocolVersion,
    t.calls ++ p.calls ++ [if err.isSome then .applyBackoff else .resetBackoff])

def manage (inp : PassInput) : MCPManager × List ManagerCall :=
  if man.isEnabled = false then
    let (man, dropTools) := man.removeAllTools
    let (man, dropPrompts) := man.removeAllPrompts
    let man := { man with consecutiveFailures := 0 }
    (man.setStatus (some "server is disabled") 0 0 [] [] none,
      dropTools ++ dropPrompts ++ [.disconnect])
  else
    match inp.connect, inp.ping with
    | .error e, _ =>
      man.handleConnectionFailure ("failed to connect to upstream mcp " ++ man.id ++ " : " ++ e)
        man.tools.length man.prompts.length
    | .ok _, .error e =>
      man.handleConnectionFailure ("upstream mcp failed to ping server " ++ man.id ++ " : " ++ e)
        man.tools.length man.prompts.length
    | .ok _, .ok _ =>
      let man := { man with consecutiveFailures := 0 }
      if man.config.userSpecificList then
        ({ man with status := { man.status with
            id := man.id
            name := man.config.name
            ready := true
            message := "userSpecificList server healthy, tools fetched per-user" } },
          [.resetBackoff])
      else man.refresh inp

def run : MCPManager → List PassInput → MCPManager × List ManagerCall
  | man, [] => (man, [])
  | man, inp :: rest =>
    let (man', calls) := man.manage inp
    let (last, later) := run man' rest
    (last, calls ++ later)

/-! ## What is registered was validated -/

@[simp] lemma addToolAccepts_toolToServerTool (man : MCPManager) (tool : Tool) :
    addToolAccepts (man.toolToServerTool tool) = addToolAccepts tool := rfl

variable {man : MCPManager} {tool : Tool}

lemma mem_applyPolicy {fetched kept : List Tool} (h : man.applyPolicy fetched = some kept)
    (ht : tool ∈ kept) : tool ∈ fetched ∧ (validateTool tool).errors = [] := by
  unfold applyPolicy at h
  split at h
  next hnone =>
    obtain rfl : fetched = kept := by simpa using h
    exact ⟨ht, partitionValid_of_no_invalid hnone ht⟩
  next =>
    cases hp : man.invalidToolPolicy with
    | rejectServer => simp [hp] at h
    | filterOut =>
      obtain rfl : (validateTools fetched).1 = kept := by simpa [hp] using h
      exact mem_partitionValid ht

lemma updateTools_added {registered fetched : List Tool} {invalid : List InvalidInfo}
    (h : tool ∈ addedTools (man.updateTools registered fetched invalid).calls) : ∃ t ∈ fetched, tool =
    man.toolToServerTool t := by
  simp only [updateTools] at h
  split at h
  next => simp at h
  next =>
    have hadd : tool ∈ (man.diffTools man.tools fetched).1 := by
      rw [addedTools_append, mem_append] at h
      rcases h with hdel | hadd
      · split at hdel <;> simp at hdel
      · split at hadd <;> simp_all
    obtain ⟨t, ht, rfl⟩ := mem_map.1 hadd
    exact ⟨t, (of_mem_addedEntries ht).1, rfl⟩

lemma manageTools_added {inp : PassInput} (h : tool ∈ addedTools (man.manageTools inp).calls) :
    ∃ t ∈ inp.listed, (validateTool t).errors = [] ∧ tool = man.toolToServerTool t := by
  unfold manageTools at h
  split at h
  next => simp at h
  next =>
    cases hl : inp.listTools with
    | error e => simp [hl] at h
    | ok listed =>
      simp only [hl] at h
      split at h
      next => simp [removeAllTools] at h
      next kept hkept =>
        obtain ⟨t, ht, rfl⟩ := updateTools_added h
        obtain ⟨hlisted, hvalid⟩ := mem_applyPolicy hkept ht
        exact ⟨t, by simpa [PassInput.listed, hl] using hlisted, hvalid, rfl⟩

lemma managePrompts_added (man : MCPManager) (inp : PassInput) :
    addedTools (man.managePrompts inp).calls = [] := by
  unfold managePrompts
  split
  · rfl
  · cases inp.listPrompts with
    | error e => rfl
    | ok listed =>
      simp only [updatePrompts]
      split
      · rfl
      · rw [addedTools_append]
        split <;> split <;> rfl

lemma removeAll_added (man : MCPManager) :
    addedTools man.removeAllTools.2 = [] ∧ addedTools man.removeAllPrompts.2 = [] := by
  refine ⟨rfl, ?_⟩
  unfold removeAllPrompts
  split <;> rfl

lemma handleConnectionFailure_added (man : MCPManager) (err : String) (nt np : Nat) :
    addedTools (man.handleConnectionFailure err nt np).2 = [] := by
  simp only [handleConnectionFailure]
  split
  · simp [removeAll_added]
  · rfl

lemma manage_added {inp : PassInput} (h : tool ∈ addedTools (man.manage inp).2) : ∃ t ∈ inp.listed,
    (validateTool t).errors = [] ∧ addToolAccepts tool = addToolAccepts t := by
  unfold manage at h
  split at h
  next =>
    -- a disabled server only unregisters
    simp [removeAll_added] at h
  next =>
    split at h
    next => simp [handleConnectionFailure_added] at h
    next => simp [handleConnectionFailure_added] at h
    next =>
      simp only at h
      split at h
      next => simp at h
      next =>
        simp only [refresh, addedTools_append, managePrompts_added, append_nil] at h
        have htools : tool ∈ addedTools (manageTools { man with consecutiveFailures := 0 } inp).calls := by
          rcases mem_append.1 h with ht | hb
          · exact ht
          · split at hb <;> simp at hb
        obtain ⟨t, ht, hvalid, rfl⟩ := manageTools_added htools
        exact ⟨t, ht, hvalid, addToolAccepts_toolToServerTool _ _⟩

lemma run_added {inputs : List PassInput} (h : tool ∈ addedTools (man.run inputs).2) : ∃ inp ∈ inputs,
    ∃ t ∈ inp.listed, (validateTool t).errors = [] ∧ addToolAccepts tool = addToolAccepts t := by
  induction inputs generalizing man with
  | nil => simp [run] at h
  | cons inp rest ih =>
    simp only [run, addedTools_append] at h
    rcases mem_append.1 h with hnow | hlater
    · obtain ⟨t, ht, hvalid, hacc⟩ := manage_added hnow
      exact ⟨inp, mem_cons_self, t, ht, hvalid, hacc⟩
    · obtain ⟨inp', hin, t, ht, hvalid, hacc⟩ := ih hlater
      exact ⟨inp', mem_cons_of_mem _ hin, t, ht, hvalid, hacc⟩

/-- In every history of passes over answers whose valid tools all have an output schema that the
validator looks at, every tool handed to `AddTools` meets the SDK's precondition. -/
theorem run_addTools_accepted (man : MCPManager) (inputs : List PassInput) (h : ∀ inp ∈ inputs,
    ∀ t ∈ inp.listed, (validateTool t).errors = [] → uncheckedOutput t = false) :
    ∀ tool ∈ addedTools (man.run inputs).2, addToolAccepts tool = true := by
  intro tool htool
  obtain ⟨inp, hin, t, ht, hvalid, hacc⟩ := run_added htool
  rw [hacc, addToolAccepts_of_valid hvalid, h inp hin t ht hvalid, Bool.not_false]

def healthyPass (tools : List (Option Tool)) : PassInput where
  event := .timer
  connect := .ok ()
  ping := .ok ()
  listTools := .ok tools
  registeredTools := []
  supportsPrompts := false
  listPrompts := .ok []
  registeredPrompts := []
  protocolVersion := none

def freshManager : MCPManager where
  config := { name := "mcp-test/weather", namePrefix := "w_" }
  invalidToolPolicy := .rejectServer

def objectSchema : Any := .map [("type", .string "object")]

def mixedAnswer : List (Option Tool) :=
  [some { name := "forecast", inputSchema := objectSchema, outputSchema := objectSchema }, none,
    some { name := "broken", inputSchema := .string "object" }]

theorem run_addTools_accepted_mixed :
    (∀ tool ∈ addedTools (({ freshManager with invalidToolPolicy := .filterOut } : MCPManager).run
      [healthyPass mixedAnswer, healthyPass []]).2, addToolAccepts tool = true) ∧
    (addedTools (({ freshManager with invalidToolPolicy := .filterOut } : MCPManager).run
      [healthyPass mixedAnswer, healthyPass []]).2).map Tool.name = ["w_forecast"] := by
  refine ⟨run_addTools_accepted _ _ ?_, by decide⟩
  decide

/-- A tool whose output schema is the JSON text `true`. -/
def booleanOutputAnswer : List (Option Tool) :=
  [some { name := "forecast", inputSchema := objectSchema, outputSchema := .bool true }]

/-- Even under the strict policy, a tool whose output schema is no object reaches `AddTools`. -/
theorem booleanOutput_reaches_addTools :
    ¬ ∀ tool ∈ addedTools (freshManager.run [healthyPass booleanOutputAnswer]).2,
      addToolAccepts tool = true := by
  decide

end MCPManager

end McpGateway.Upstream
