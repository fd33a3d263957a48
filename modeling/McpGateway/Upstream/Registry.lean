import McpGateway.Upstream.Manager

/-!
# The gateway's registry and the managers that write to it

`GatewayServer` is the registry of tools and prompts by served name.  A manager's pass writes to it
through its calls, while other writers may write to it in between (`Drives`).
-/

namespace McpGateway.Upstream

open Go Keyed Config ManagerCall

/-! ## The registry -/

/-- `gatewayServer`: what is registered, by name.  The handlers and the state of notifications are
left out. -/
structure GatewayServer where
  tools : GoMap Tool := ∅
  prompts : GoMap Prompt := ∅

namespace GatewayServer

variable (g : GatewayServer)

def addTools (tools : List Tool) : GatewayServer :=
  { g with tools := register Tool.name tools g.tools }

def deleteTools (names : List String) : GatewayServer :=
  { g with tools := unregister names g.tools }

def listTools : List Tool := g.tools.values

def addPrompts (prompts : List Prompt) : GatewayServer :=
  { g with prompts := register Prompt.name prompts g.prompts }

def deletePrompts (names : List String) : GatewayServer :=
  { g with prompts := unregister names g.prompts }

def listPrompts : List Prompt := g.prompts.values

end GatewayServer

def ManagerCall.apply (g : GatewayServer) : ManagerCall → GatewayServer
  | .addTools tools => g.addTools tools
  | .deleteTools names => g.deleteTools names
  | .addPrompts prompts => g.addPrompts prompts
  | .deletePrompts names => g.deletePrompts names
  | .disconnect | .resetBackoff | .applyBackoff => g

def ManagerCall.isQuiet : ManagerCall → Bool
  | .disconnect | .resetBackoff | .applyBackoff => true
  | _ => false

/-! ## Tools and prompts alike -/

inductive Kind where
  | tool
  | prompt
  deriving DecidableEq, Repr

namespace Kind

@[reducible] def Entry : Kind → Type
  | .tool => Tool
  | .prompt => Prompt

def name : (K : Kind) → K.Entry → String
  | .tool => Tool.name
  | .prompt => Prompt.name

def metadata : (K : Kind) → K.Entry → Option (List (String × Any))
  | .tool => Tool.metadata
  | .prompt => Prompt.metadata

def entries : (K : Kind) → GatewayServer → GoMap K.Entry
  | .tool => GatewayServer.tools
  | .prompt => GatewayServer.prompts

def added : (K : Kind) → ManagerCall → List K.Entry
  | .tool, .addTools tools => tools
  | .prompt, .addPrompts prompts => prompts
  | _, _ => []

def deleted : (K : Kind) → ManagerCall → List String
  | .tool, .deleteTools names => names
  | .prompt, .deletePrompts names => names
  | _, _ => []

def listed : (K : Kind) → MCPManager → List K.Entry
  | .tool => MCPManager.tools
  | .prompt => MCPManager.prompts

def served : (K : Kind) → MCPManager → List K.Entry
  | .tool => MCPManager.serverTools
  | .prompt => MCPManager.serverPrompts

def index : (K : Kind) → MCPManager → GoMap K.Entry
  | .tool => MCPManager.servedToolsMap
  | .prompt => MCPManager.servedPromptsMap

def serve : (K : Kind) → MCPManager → K.Entry → K.Entry
  | .tool => MCPManager.toolToServerTool
  | .prompt => MCPManager.promptToServerPrompt

variable (K : Kind)

lemma name_serve (man : MCPManager) (x : K.Entry) :
    K.name (K.serve man x) = prefixedName man.config.namePrefix (K.name x) := by
  cases K <;> rfl

lemma owner_serve (man : MCPManager) (x : K.Entry) :
    ownerID (K.metadata (K.serve man x)) = some man.id := by
  cases K <;> simp [metadata, serve, MCPManager.toolToServerTool, MCPManager.promptToServerPrompt,
    ownerID, Any.asString]

lemma entries_apply (g : GatewayServer) (c : ManagerCall) :
    K.entries (c.apply g) = register K.name (K.added c) (unregister (K.deleted c) (K.entries g)) := by
  cases K <;> cases c <;> rfl

variable {c : ManagerCall}

lemma untouched_of_isQuiet (h : c.isQuiet = true) :
    K.added c = [] ∧ K.deleted c = [] := by
  cases c <;> simp_all [isQuiet] <;> cases K <;> exact ⟨rfl, rfl⟩

def view (id : String) (g : GatewayServer) : View K.Entry :=
  Keyed.view (fun x => ownerID (K.metadata x) = some id) (K.entries g)

def after (calls : List ManagerCall) (v : View K.Entry) : View K.Entry :=
  calls.foldl (fun v c => exchanged K.name (K.deleted c) (K.added c) v) v

@[simp] lemma after_nil (v : View K.Entry) : K.after [] v = v := rfl

@[simp] lemma after_append (calls calls' : List ManagerCall) (v : View K.Entry) :
    K.after (calls ++ calls') v = K.after calls' (K.after calls v) := by
  simp [after]

lemma after_untouched {calls : List ManagerCall} (h : ∀ c ∈ calls, K.added c = [] ∧ K.deleted c = [])
    (v : View K.Entry) : K.after calls v = v := by
  induction calls with
  | nil => rfl
  | cons c rest ih =>
    obtain ⟨hadded, hdeleted⟩ := h c mem_cons_self
    have hc : K.after [c] v = v := by simp [after, hadded, hdeleted]
    rw [← List.singleton_append, after_append, hc]
    exact ih fun c' hc' => h c' (mem_cons_of_mem _ hc')

def exchange : (K : Kind) → List String → List K.Entry → List ManagerCall
  | .tool, gone, new =>
    (if gone = [] then [] else [.deleteTools gone]) ++ (if new.isEmpty then [] else [.addTools new])
  | .prompt, gone, new =>
    (if gone = [] then [] else [.deletePrompts gone]) ++ (if new.isEmpty then [] else [.addPrompts new])

lemma mem_exchange {gone : List String} {new : List K.Entry}
    (hc : c ∈ K.exchange gone new) :
    (∀ x ∈ K.added c, x ∈ new) ∧ ∀ K' ≠ K, K'.added c = [] ∧ K'.deleted c = [] := by
  cases K <;> simp only [exchange, mem_append] at hc <;> rcases hc with hc | hc <;>
    split_ifs at hc <;> simp only [mem_singleton, not_mem_nil] at hc <;> subst hc <;>
    refine ⟨by simp [added], fun K' hK' => ?_⟩ <;> cases K' <;> simp_all [added, deleted]

lemma after_exchange (gone : List String) (new : List K.Entry) (v : View K.Entry) :
    K.after (K.exchange gone new) v = exchanged K.name gone new v := by
  -- an empty part makes no call, which is what a call with nothing in it would do
  funext n x
  by_cases hgone : gone = [] <;> by_cases hnew : new = [] <;> cases K <;>
    simp [exchange, after, added, deleted, exchanged, hgone, hnew]

lemma view_apply {id : String}
    (hown : ∀ x ∈ K.added c, ownerID (K.metadata x) = some id) (g : GatewayServer) :
    K.view id (c.apply g) = K.after [c] (K.view id g) := by
  unfold view
  rw [entries_apply, view_exchange hown]
  rfl

def goneNames (man : MCPManager) (new : List K.Entry) : List String :=
  (addedEntries K.name new (K.listed man)).map (prefixedName man.config.namePrefix ∘ K.name)

def newEntries (man : MCPManager) (new : List K.Entry) : List K.Entry :=
  (addedEntries K.name (K.listed man) new).map (K.serve man)

end Kind

lemma prefixedName_eq (namePrefix n : String) : prefixedName namePrefix n = namePrefix ++ n := by
  unfold prefixedName
  split_ifs with h
  · simp [h]
  · rfl

lemma prefixedName_injective (namePrefix : String) : Function.Injective (prefixedName namePrefix) := by
  intro a b h
  rw [prefixedName_eq, prefixedName_eq] at h
  simpa [String.ext_iff] using h

/-! ## Calls among those of other writers -/

def SameView (id : String) (g g' : GatewayServer) : Prop :=
  ∀ K : Kind, K.view id g' = K.view id g

/-- The calls are made one after the other, while other writers leave the entries that carry the id
alone. -/
inductive Drives (id : String) : GatewayServer → List ManagerCall → GatewayServer → Prop where
  | done (g : GatewayServer) : Drives id g [] g
  | call {g g' : GatewayServer} {c : ManagerCall} {calls : List ManagerCall}
      (h : Drives id (c.apply g) calls g') : Drives id g (c :: calls) g'
  | elsewhere {g g₁ g' : GatewayServer} {calls : List ManagerCall} (hsame : SameView id g g₁)
      (h : Drives id g₁ calls g') : Drives id g calls g'

lemma Drives.append {id : String} {g g' : GatewayServer} {calls calls' : List ManagerCall}
    (h : Drives id g (calls ++ calls') g') : ∃ m, Drives id g calls m ∧ Drives id m calls' g' := by
  generalize hall : calls ++ calls' = all at h
  induction h generalizing calls with
  | done g =>
    obtain ⟨rfl, rfl⟩ := List.append_eq_nil_iff.1 hall
    exact ⟨g, .done g, .done g⟩
  | @call g g' c rest hrest ih =>
    cases calls with
    | nil =>
      subst hall
      exact ⟨g, .done g, .call hrest⟩
    | cons c' calls =>
      obtain ⟨rfl, hrest'⟩ := List.cons_eq_cons.1 hall
      obtain ⟨m, hm, hm'⟩ := ih hrest'
      exact ⟨m, .call hm, hm'⟩
  | elsewhere hsame hrest ih =>
    obtain ⟨m, hm, hm'⟩ := ih hall
    exact ⟨m, .elsewhere hsame hm, hm'⟩

variable {calls : List ManagerCall} {man man' man₀ : MCPManager} {g g' g₀ : GatewayServer}
  {inputs : List PassInput}

lemma Drives.view {id : String} (h : Drives id g calls g') (K : Kind) (hown : ∀ c ∈ calls,
    ∀ x ∈ K.added c, ownerID (K.metadata x) = some id) : K.view id g' = K.after calls (K.view id g) := by
  induction h with
  | done g => rfl
  | @call g g' c calls hrest ih =>
    have hlater := ih fun c' hc' => hown c' (mem_cons_of_mem _ hc')
    rw [hlater, K.view_apply (hown c mem_cons_self)]
    rfl
  | elsewhere hsame hrest ih => rw [ih hown, hsame K]

/-! ## What a pass is made of -/

/-- The manager has taken over the list, and its calls exchange what differs. -/
structure Takes (K : Kind) (man : MCPManager) (calls : List ManagerCall) (man' : MCPManager)
    (new : List K.Entry) : Prop where
  listed : K.listed man' = new
  served : K.served man' = reserve K.name (K.served man) (K.goneNames man new) (K.newEntries man new)
  index : K.index man' = byName (prefixedName man.config.namePrefix ∘ K.name) new
  calls_eq : calls = K.exchange (K.goneNames man new) (K.newEntries man new)

/-- What a stretch of a pass does to one kind: nothing, or it drops everything, or it takes over a
new list. -/
inductive Part (K : Kind) (man : MCPManager) (calls : List ManagerCall) (man' : MCPManager) : Prop where
  | keep (hlisted : K.listed man' = K.listed man) (hserved : K.served man' = K.served man)
      (hindex : K.index man' = K.index man)
      (hcalls : ∀ c ∈ calls, K.added c = [] ∧ K.deleted c = [])
  | clear (hlisted : K.listed man' = []) (hserved : K.served man' = []) (hindex : K.index man' = ∅)
      (hview : ∀ v, K.after calls v = exchanged K.name ((K.served man).map K.name) [] v)
  | take (new : List K.Entry) (h : Takes K man calls man' new)

/-- Nothing of the manager has changed that comes from its configuration. -/
structure SameSetup (man man' : MCPManager) : Prop where
  config : man'.config = man.config
  promptsServer : man'.promptsServer = man.promptsServer

lemma SameSetup.id (h : SameSetup man man') : man'.id = man.id :=
  congrArg MCPServer.id h.config

/-- What a part of a pass does: it keeps the setup, adds only its own, and keeps, clears or
replaces each list. -/
structure Move (man : MCPManager) (calls : List ManagerCall) (man' : MCPManager) : Prop where
  setup : SameSetup man man'
  own : ∀ (K : Kind), ∀ c ∈ calls, ∀ x ∈ K.added c, ownerID (K.metadata x) = some man.id
  part : ∀ K, Part K man calls man'

lemma move_note (hsetup : SameSetup man man')
    (hkept : ∀ K : Kind, K.listed man' = K.listed man ∧ K.served man' = K.served man ∧
      K.index man' = K.index man)
    (hcalls : ∀ c ∈ calls, c.isQuiet = true) : Move man calls man' where
  setup := hsetup
  own := by
    intro K c hc x hx
    rw [(K.untouched_of_isQuiet (hcalls c hc)).1] at hx
    cases hx
  part K := .keep (hkept K).1 (hkept K).2.1 (hkept K).2.2 fun c hc =>
    K.untouched_of_isQuiet (hcalls c hc)

lemma move_silent (hsetup : SameSetup man man') (hkept : ∀ K : Kind, K.listed man' = K.listed man ∧
    K.served man' = K.served man ∧ K.index man' = K.index man) : Move man [] man' :=
  move_note hsetup hkept fun _ hc => absurd hc not_mem_nil

lemma move_refl (man : MCPManager) : Move man [] man :=
  move_silent ⟨rfl, rfl⟩ fun _ => ⟨rfl, rfl, rfl⟩

lemma move_removeAllTools (man : MCPManager) : Move man man.removeAllTools.2 man.removeAllTools.1 where
  setup := ⟨rfl, rfl⟩
  own := by
    intro K c hc x hx
    obtain rfl : c = .deleteTools _ := mem_singleton.1 hc
    cases K <;> cases hx
  part
    | .tool => .clear rfl rfl rfl fun _ => rfl
    | .prompt => .keep rfl rfl rfl fun c hc => by
      obtain rfl : c = .deleteTools _ := mem_singleton.1 hc
      exact ⟨rfl, rfl⟩

lemma move_removeAllPrompts (man : MCPManager) :
    Move man man.removeAllPrompts.2 man.removeAllPrompts.1 := by
  unfold MCPManager.removeAllPrompts
  split_ifs with hserver
  · refine ⟨⟨rfl, rfl⟩, ?_, ?_⟩
    · intro K c hc x hx
      obtain rfl : c = .deletePrompts _ := mem_singleton.1 hc
      cases K <;> cases hx
    · rintro (_ | _)
      · refine .keep rfl rfl rfl ?_
        intro c hc
        obtain rfl : c = .deletePrompts _ := mem_singleton.1 hc
        exact ⟨rfl, rfl⟩
      · exact .clear rfl rfl rfl fun _ => rfl
  · exact move_refl man

lemma Takes.after {K : Kind} {new : List K.Entry} (h : Takes K man calls man' new) (v : View K.Entry) :
    K.after calls v = exchanged K.name (K.goneNames man new) (K.newEntries man new) v := by
  rw [h.calls_eq, K.after_exchange]

lemma Takes.untouched {K K' : Kind} {new : List K.Entry} (h : Takes K man calls man' new) (hK : K' ≠ K) :
    ∀ c ∈ calls, K'.added c = [] ∧ K'.deleted c = [] := by
  intro c hc
  rw [h.calls_eq] at hc
  exact (K.mem_exchange hc).2 K' hK

lemma Takes.own {K : Kind} {new : List K.Entry} (h : Takes K man calls man' new) :
    ∀ c ∈ calls, ∀ x ∈ K.added c, ownerID (K.metadata x) = some man.id := by
  intro c hc x hx
  rw [h.calls_eq] at hc
  obtain ⟨y, -, rfl⟩ := mem_map.1 ((K.mem_exchange hc).1 x hx)
  exact K.owner_serve man y

lemma Takes.move {K : Kind} {new : List K.Entry} (h : Takes K man calls man' new)
    (hsetup : SameSetup man man')
    (hother : ∀ K' ≠ K, K'.listed man' = K'.listed man ∧ K'.served man' = K'.served man ∧
      K'.index man' = K'.index man) : Move man calls man' where
  setup := hsetup
  own := by
    intro K' c hc x hx
    by_cases hK : K' = K
    · subst hK
      exact h.own c hc x hx
    · rw [(h.untouched hK c hc).1] at hx
      cases hx
  part := by
    intro K'
    by_cases hK : K' = K
    · subst hK
      exact .take new h
    · obtain ⟨hl, hs, hi⟩ := hother K' hK
      exact .keep hl hs hi (h.untouched hK)

variable {invalid : List InvalidInfo}

lemma takes_updateTools {man : MCPManager} {registered fetched : List Tool} (h : (man.updateTools registered fetched invalid).err = none) :
    Takes .tool man (man.updateTools registered fetched invalid).calls
      (man.updateTools registered fetched invalid).man fetched := by
  simp only [MCPManager.updateTools] at h ⊢
  split at h
  · cases h
  · exact ⟨rfl, rfl, rfl, rfl⟩

lemma takes_updatePrompts {man : MCPManager} {registered fetched : List Prompt} (h : (man.updatePrompts registered fetched invalid).err = none) :
    Takes .prompt man (man.updatePrompts registered fetched invalid).calls
      (man.updatePrompts registered fetched invalid).man fetched := by
  simp only [MCPManager.updatePrompts] at h ⊢
  split at h
  · cases h
  · exact ⟨rfl, rfl, rfl, rfl⟩

lemma move_updateTools (man : MCPManager) (registered fetched : List Tool)
    (invalid : List InvalidInfo) : Move man (man.updateTools registered fetched invalid).calls
      (man.updateTools registered fetched invalid).man := by
  simp only [MCPManager.updateTools]
  split
  · exact move_refl man
  · refine Takes.move (K := .tool) ⟨rfl, rfl, rfl, rfl⟩ ⟨rfl, rfl⟩ ?_
    rintro (_ | _) hK
    · exact absurd rfl hK
    · exact ⟨rfl, rfl, rfl⟩

lemma move_updatePrompts (man : MCPManager) (registered fetched : List Prompt)
    (invalid : List InvalidInfo) : Move man (man.updatePrompts registered fetched invalid).calls
      (man.updatePrompts registered fetched invalid).man := by
  simp only [MCPManager.updatePrompts]
  split
  · exact move_refl man
  · refine Takes.move (K := .prompt) ⟨rfl, rfl, rfl, rfl⟩ ⟨rfl, rfl⟩ ?_
    rintro (_ | _) hK
    · exact ⟨rfl, rfl, rfl⟩
    · exact absurd rfl hK

inductive Moves : MCPManager → List ManagerCall → MCPManager → Prop where
  | done (man : MCPManager) : Moves man [] man
  | move {man man₁ man' : MCPManager} {calls calls' : List ManagerCall} (h : Move man calls man₁)
      (hrest : Moves man₁ calls' man') : Moves man (calls ++ calls') man'

lemma Move.moves (h : Move man calls man') : Moves man calls man' := by
  simpa using Moves.move h (.done man')

lemma Moves.trans {man man₁ man' : MCPManager} {calls calls' : List ManagerCall}
    (h : Moves man calls man₁) (h' : Moves man₁ calls' man') : Moves man (calls ++ calls') man' := by
  induction h with
  | done man => exact h'
  | move hmove _ ih =>
    rw [append_assoc]
    exact .move hmove (ih h')

lemma Moves.setup (h : Moves man calls man') : SameSetup man man' := by
  induction h with
  | done man => exact ⟨rfl, rfl⟩
  | move hmove _ ih =>
    exact ⟨ih.config.trans hmove.setup.config, ih.promptsServer.trans hmove.setup.promptsServer⟩

lemma Moves.note {man man₁ man' : MCPManager} {calls calls' : List ManagerCall} (h : Moves man calls man₁)
    (hsetup : SameSetup man₁ man') (hkept : ∀ K : Kind, K.listed man' = K.listed man₁ ∧
    K.served man' = K.served man₁ ∧ K.index man' = K.index man₁) (hcalls : ∀ c ∈ calls', c.isQuiet = true) :
    Moves man (calls ++ calls') man' :=
  h.trans (move_note hsetup hkept hcalls).moves

lemma setStatus_eq (man : MCPManager) (err : Option String) (toolCount promptCount : Nat)
    (invalidTools invalidPrompts : List InvalidInfo) (protocol : Option String) :
    ∃ status, man.setStatus err toolCount promptCount invalidTools invalidPrompts protocol =
      { man with status := status } := by
  unfold MCPManager.setStatus
  cases err with
  | none => exact ⟨_, rfl⟩
  | some e => exact ⟨_, rfl⟩

lemma moves_removeAll (man : MCPManager) :
    Moves man (man.removeAllTools.2 ++ man.removeAllTools.1.removeAllPrompts.2)
      man.removeAllTools.1.removeAllPrompts.1 :=
  (move_removeAllTools man).moves.trans (move_removeAllPrompts _).moves

lemma moves_count (man : MCPManager) (n : Nat) : Moves man [] { man with consecutiveFailures := n } := by
  refine Move.moves (move_silent ⟨rfl, rfl⟩ ?_)
  intro K
  cases K <;> exact ⟨rfl, rfl, rfl⟩

lemma moves_handleConnectionFailure (man : MCPManager) (err : String) (nt np : Nat) :
    Moves man (man.handleConnectionFailure err nt np).2 (man.handleConnectionFailure err nt np).1 := by
  have hcount := moves_count man (man.consecutiveFailures + 1)
  unfold MCPManager.handleConnectionFailure
  dsimp only
  split_ifs with hmax
  · have hdrop := hcount.trans (moves_removeAll _)
    obtain ⟨status, hstatus⟩ := setStatus_eq
      (MCPManager.removeAllTools { man with consecutiveFailures := man.consecutiveFailures + 1 }
        |>.1.removeAllPrompts.1) (some err) nt np [] [] none
    rw [hstatus]
    exact hdrop.note ⟨rfl, rfl⟩ (fun K => by cases K <;> exact ⟨rfl, rfl, rfl⟩)
      (by simp [isQuiet])
  · obtain ⟨status, hstatus⟩ := setStatus_eq
      { man with consecutiveFailures := man.consecutiveFailures + 1 } (some err) nt np [] [] none
    rw [hstatus]
    exact hcount.note ⟨rfl, rfl⟩ (fun K => by cases K <;> exact ⟨rfl, rfl, rfl⟩)
      (by simp [isQuiet])

lemma move_manageTools (man : MCPManager) (inp : PassInput) :
    Move man (man.manageTools inp).calls (man.manageTools inp).man := by
  unfold MCPManager.manageTools
  split_ifs with hfetch
  · exact move_refl man
  · cases inp.listTools with
    | error e => exact move_refl man
    | ok listed =>
      dsimp only
      cases man.applyPolicy (listed.filterMap fun t => t) with
      | none => exact move_removeAllTools man
      | some kept => exact move_updateTools man _ kept _

lemma move_managePrompts (man : MCPManager) (inp : PassInput) :
    Move man (man.managePrompts inp).calls (man.managePrompts inp).man := by
  unfold MCPManager.managePrompts
  split_ifs with hfetch
  · exact move_refl man
  · cases inp.listPrompts with
    | error e => exact move_refl man
    | ok listed => exact move_updatePrompts man _ _ _

lemma moves_refresh (man : MCPManager) (inp : PassInput) :
    Moves man (man.refresh inp).2 (man.refresh inp).1 := by
  have hparts := (move_manageTools man inp).moves.trans (move_managePrompts _ inp).moves
  unfold MCPManager.refresh
  dsimp only
  generalize MCPManager.joinErrors _ _ = err
  obtain ⟨status, hstatus⟩ := setStatus_eq ((man.manageTools inp).man.managePrompts inp).man err
    ((man.manageTools inp).man.managePrompts inp).man.tools.length
    ((man.manageTools inp).man.managePrompts inp).man.prompts.length
    (man.manageTools inp).invalid ((man.manageTools inp).man.managePrompts inp).invalid
    inp.protocolVersion
  rw [hstatus]
  refine hparts.note ⟨rfl, rfl⟩ (fun K => by cases K <;> exact ⟨rfl, rfl, rfl⟩) ?_
  intro c hc
  rw [mem_singleton.1 hc]
  split <;> rfl

lemma manage_moves (man : MCPManager) (inp : PassInput) :
    Moves man (man.manage inp).2 (man.manage inp).1 := by
  unfold MCPManager.manage
  split
  next =>
    -- a disabled server is dropped
    obtain ⟨status, hstatus⟩ := setStatus_eq
      { man.removeAllTools.1.removeAllPrompts.1 with consecutiveFailures := 0 }
      (some "server is disabled") 0 0 [] [] none
    dsimp only
    rw [hstatus]
    exact (moves_removeAll man).note ⟨rfl, rfl⟩ (fun K => by cases K <;> exact ⟨rfl, rfl, rfl⟩)
      (by simp [isQuiet])
  next =>
    split
    next => exact moves_handleConnectionFailure man _ _ _
    next => exact moves_handleConnectionFailure man _ _ _
    next =>
      dsimp only
      split
      next =>
        exact (moves_count man 0).note ⟨rfl, rfl⟩ (fun K => by cases K <;> exact ⟨rfl, rfl, rfl⟩)
          (by simp [isQuiet])
      next => exact (moves_count man 0).trans (moves_refresh _ inp)

/-! ## Consistency over whole histories -/

/-- For tools and for prompts alike: what the upstream listed under its served names, what the manager
serves, without repetition, its map of served names, and the registered entries that carry its id all
have the same names. -/
def Consistent (man : MCPManager) (g : GatewayServer) : Prop :=
  ∀ K : Kind, Mirrored K.name (prefixedName man.config.namePrefix) (K.listed man) (K.served man)
    (K.index man) (K.view man.id g)

lemma Move.consistent (h : Move man calls man') (hg : Drives man.id g calls g') (hcons : Consistent man g) :
    Consistent man' g' := by
  intro K
  have hview := hg.view K (h.own K)
  rw [h.setup.config, h.setup.id, hview]
  cases h.part K with
  | keep hlisted hserved hindex hcalls =>
    rw [hlisted, hserved, hindex, K.after_untouched hcalls]
    exact hcons K
  | clear hlisted hserved hindex hafter =>
    rw [hlisted, hserved, hindex, hafter]
    exact (hcons K).clear
  | take new htakes =>
    rw [htakes.listed, htakes.served, htakes.index, htakes.after]
    exact (hcons K).update (K.name_serve man) (prefixedName_injective _)

lemma Moves.consistent (h : Moves man calls man') (hg : Drives man.id g calls g') (hcons : Consistent man g) :
    Consistent man' g' := by
  induction h generalizing g with
  | done man =>
    intro K
    rw [hg.view K fun _ hc => absurd hc not_mem_nil]
    exact hcons K
  | @move man man₁ man' calls calls' hmove _ ih =>
    obtain ⟨m, hfirst, hrest⟩ := hg.append
    exact ih (hmove.setup.id ▸ hrest) (hmove.consistent hfirst hcons)

/-- The passes of a manager so far.  Between two passes the state of the server in the configuration
may change. -/
inductive History (man₀ : MCPManager) (g₀ : GatewayServer) :
    List PassInput → MCPManager → GatewayServer → Prop where
  | start : History man₀ g₀ [] man₀ g₀
  | state {inputs : List PassInput} {man : MCPManager} {g : GatewayServer} (s : String)
      (h : History man₀ g₀ inputs man g) :
      History man₀ g₀ inputs { man with config := { man.config with state := s } } g
  | pass {inputs : List PassInput} {man : MCPManager} {g g' : GatewayServer} {inp : PassInput}
      (h : History man₀ g₀ inputs man g) (hg : Drives man.id g (man.manage inp).2 g') :
      History man₀ g₀ (inputs ++ [inp]) (man.manage inp).1 g'

def newManager (config : MCPServer) (policy : InvalidToolPolicy) (promptsServer : Bool) :
    MCPManager where
  config := config
  invalidToolPolicy := policy
  promptsServer := promptsServer

lemma History.setup (h : History man₀ g₀ inputs man g) :
    (∃ s, man.config = { man₀.config with state := s }) ∧ man.promptsServer = man₀.promptsServer := by
  induction h with
  | start => exact ⟨⟨_, rfl⟩, rfl⟩
  | state s _ ih =>
    obtain ⟨⟨s', hconfig⟩, hserver⟩ := ih
    exact ⟨⟨s, by simp only [hconfig]⟩, hserver⟩
  | @pass _ man _ _ inp _ _ ih =>
    have hsetup := (manage_moves man inp).setup
    rw [hsetup.config, hsetup.promptsServer]
    exact ih

lemma History.consistent (h : History man₀ g₀ inputs man g) (hcons : Consistent man₀ g₀)
    : Consistent man g := by
  induction h with
  | start => exact hcons
  | state s _ ih =>
    intro K
    have hK := ih K
    cases K <;> exact hK
  | pass _ hg ih => exact (manage_moves _ _).consistent hg ih

lemma consistent_newManager {config : MCPServer} {policy : InvalidToolPolicy} {promptsServer : Bool}
    {g : GatewayServer} (hfresh : ∀ (K : Kind) n x, ¬ K.view config.id g n x) :
    Consistent (newManager config policy promptsServer) g := by
  intro K
  cases K with
  | tool => exact Mirrored.empty (hfresh .tool)
  | prompt => exact Mirrored.empty (hfresh .prompt)

/-- After every pass of every history the names agree. -/
theorem history_consistent {config : MCPServer} {policy : InvalidToolPolicy} {promptsServer : Bool}
    {g₀ g : GatewayServer} {inputs : List PassInput} {man : MCPManager}
    (hfresh : ∀ (K : Kind) n x, ¬ K.view config.id g₀ n x)
    (h : History (newManager config policy promptsServer) g₀ inputs man g) : Consistent man g :=
  h.consistent (consistent_newManager hfresh)

/-! ## Whose entries a manager serves -/

/-- What is served carries the id of its manager. -/
def Owned (man : MCPManager) : Prop :=
  ∀ K : Kind, ∀ x ∈ K.served man, ownerID (K.metadata x) = some man.id

lemma Move.owned (h : Move man calls man') (howned : Owned man) : Owned man' := by
  intro K x hx
  rw [h.setup.id]
  cases h.part K with
  | keep _ hserved => exact howned K x (hserved ▸ hx)
  | clear _ hserved =>
    rw [hserved] at hx
    cases hx
  | take new htakes =>
    rw [htakes.served] at hx
    rcases mem_append.1 hx with hkept | hadded
    · exact howned K x (mem_filter.1 hkept).1
    · rcases mem_map.1 hadded with ⟨y, -, rfl⟩
      exact K.owner_serve man y

lemma Moves.owned (h : Moves man calls man') (howned : Owned man) : Owned man' := by
  induction h with
  | done man => exact howned
  | move hmove _ ih => exact ih (hmove.owned howned)

lemma History.owned (h : History man₀ g₀ inputs man g) (howned : Owned man₀) : Owned man := by
  induction h with
  | start => exact howned
  | state s _ ih =>
    intro K
    have hK := ih K
    cases K <;> exact hK
  | pass _ _ ih => exact (manage_moves _ _).owned ih

lemma owned_newManager (config : MCPServer) (policy : InvalidToolPolicy) (promptsServer : Bool) :
    Owned (newManager config policy promptsServer) := by
  intro K x hx
  cases K <;> cases hx

lemma tools_removeAllPrompts (man : MCPManager) : man.removeAllPrompts.1.tools = man.tools := by
  unfold MCPManager.removeAllPrompts
  split_ifs <;> rfl

lemma manage_unlisted {man : MCPManager} {inp : PassInput} (huser : man.config.userSpecificList = true)
    (htools : man.tools = []) : (man.manage inp).1.tools = [] := by
  unfold MCPManager.manage
  split
  next => exact tools_removeAllPrompts man.removeAllTools.1
  next =>
    have hfailure : ∀ err nt np, (man.handleConnectionFailure err nt np).1.tools = [] := by
      intro err nt np
      simp only [MCPManager.handleConnectionFailure]
      split_ifs with hmax
      · exact tools_removeAllPrompts _
      · exact htools
    split
    next => exact hfailure _ _ _
    next => exact hfailure _ _ _
    next =>
      simp only [huser, if_true]
      exact htools

lemma History.unlisted (h : History man₀ g₀ inputs man g) (huser : man₀.config.userSpecificList = true)
    (htools : man₀.tools = []) : man.tools = [] := by
  induction h with
  | start => exact htools
  | state s _ ih => exact ih
  | @pass _ man _ _ inp hrun _ ih =>
    rcases hrun.setup with ⟨⟨s, hconfig⟩, -⟩
    exact manage_unlisted (by rw [hconfig]; exact huser) ih

lemma drives_foldl (id : String) (g : GatewayServer) (calls : List ManagerCall) :
    Drives id g calls (calls.foldl apply g) := by
  induction calls generalizing g with
  | nil => exact .done g
  | cons c rest ih => exact .call (ih (c.apply g))

/-- The registry after a manager was started on it and made some passes as its only writer. -/
def afterPasses (man : MCPManager) (g : GatewayServer) (inputs : List PassInput) :
    MCPManager × GatewayServer :=
  inputs.foldl (fun s inp => ((s.1.manage inp).1, (s.1.manage inp).2.foldl ManagerCall.apply s.2))
    (man, g)

lemma history_afterPasses (man : MCPManager) (g : GatewayServer) (inputs : List PassInput) :
    History man g inputs (afterPasses man g inputs).1 (afterPasses man g inputs).2 := by
  induction inputs using List.reverseRecOn with
  | nil => exact .start
  | append_singleton inputs inp ih =>
    have hstep : afterPasses man g (inputs ++ [inp]) = (((afterPasses man g inputs).1.manage inp).1,
          ((afterPasses man g inputs).1.manage inp).2.foldl apply
            (afterPasses man g inputs).2) := by
      unfold afterPasses
      rw [foldl_append]
      rfl
    rw [hstep]
    exact .pass ih (drives_foldl _ _ _)

def mailRegistry : GatewayServer where
  tools := GoMap.ofPairs [("m_send",
    { name := "m_send", metadata := some [(gatewayServerID, .string "mail:m_:")] })]

def weatherRun : MCPManager × GatewayServer :=
  afterPasses (newManager MCPManager.freshManager.config .filterOut true) mailRegistry
    [MCPManager.healthyPass MCPManager.mixedAnswer,
      MCPManager.healthyPass [some { name := "alerts", inputSchema := MCPManager.objectSchema }]]

theorem history_consistent_weather : Consistent weatherRun.1 weatherRun.2 ∧
    weatherRun.2.listTools.map Tool.name = ["w_alerts", "m_send"] := by
  refine ⟨history_consistent ?_ (history_afterPasses _ _ _), by decide⟩
  rintro (_ | _) n x ⟨hx, hown⟩
  · obtain ⟨rfl, rfl⟩ := Prod.mk.inj (List.mem_singleton.1 (mem_of_lookup_ofPairs hx))
    revert hown
    decide
  · cases hx

end McpGateway.Upstream
