import McpGateway.Upstream.Acts

/-!
# What a pass asks for, and managers of disabled servers

A pass talks to its upstream in a few requests, and which ones it makes depends on the answers to the
earlier ones.  The manager of a server that is not enabled makes none and keeps nothing.
-/

namespace McpGateway.Upstream

open Go Keyed

/-! ## Requests -/

/-- A request of a pass to its upstream.  `connect` makes none when there is a connection already. -/
inductive Request where
  | connect
  | ping
  | toolsList
  | promptsList
  deriving DecidableEq, Repr

def MCPManager.listRequests (man : MCPManager) (inp : PassInput) : List Request :=
  if man.config.userSpecificList then []
  else
    (if shouldFetchTools inp.event then [.toolsList] else []) ++
      (if man.promptsServer && inp.supportsPrompts && shouldFetchPrompts inp.event then [.promptsList]
        else [])

def MCPManager.requests (man : MCPManager) (inp : PassInput) : List Request :=
  if man.isEnabled = false then []
  else
    match inp.connect, inp.ping with
    | .error _, _ => [.connect]
    | .ok _, .error _ => [.connect, .ping]
    | .ok _, .ok _ => [.connect, .ping] ++ man.listRequests inp

/-- Two passes that find the same things and get the same answers to these requests. -/
structure SameAnswers (rs : List Request) (inp inp' : PassInput) : Prop where
  found : inp' = { inp with connect := inp'.connect, ping := inp'.ping, listTools := inp'.listTools,
                            listPrompts := inp'.listPrompts }
  connect : .connect ∈ rs → inp'.connect = inp.connect
  ping : .ping ∈ rs → inp'.ping = inp.ping
  tools : .toolsList ∈ rs → inp'.listTools = inp.listTools
  prompts : .promptsList ∈ rs → inp'.listPrompts = inp.listPrompts

lemma SameAnswers.mono {rs rs' : List Request} {inp inp' : PassInput} (h : SameAnswers rs inp inp')
    (hsub : rs' ⊆ rs) : SameAnswers rs' inp inp' where
  found := h.found
  connect hmem := h.connect (hsub hmem)
  ping hmem := h.ping (hsub hmem)
  tools hmem := h.tools (hsub hmem)
  prompts hmem := h.prompts (hsub hmem)

section Answers

variable {man man' : MCPManager} {inp inp' : PassInput}

lemma manageTools_of_requests (h : SameAnswers (man.listRequests inp) inp inp')
    (huser : ¬ man.config.userSpecificList = true) : man.manageTools inp' = man.manageTools inp := by
  have hevent : inp'.event = inp.event := by rw [h.found]
  have hreg : inp'.registeredTools = inp.registeredTools := by rw [h.found]
  unfold MCPManager.manageTools
  rw [hevent, hreg]
  split_ifs with hfetch
  · rfl
  have hlist : inp'.listTools = inp.listTools :=
    h.tools (by simp [MCPManager.listRequests, huser, hfetch])
  rw [hlist]

-- The prompts are managed after the tools, by a manager that has changed but for its setup.
lemma managePrompts_of_requests (h : SameAnswers (man.listRequests inp) inp inp')
    (huser : ¬ man.config.userSpecificList = true) (hsetup : SameSetup man man') : man'.managePrompts inp' = man'.managePrompts inp := by
  have hevent : inp'.event = inp.event := by rw [h.found]
  have hsupports : inp'.supportsPrompts = inp.supportsPrompts := by rw [h.found]
  have hreg : inp'.registeredPrompts = inp.registeredPrompts := by rw [h.found]
  unfold MCPManager.managePrompts
  rw [hevent, hsupports, hreg, hsetup.promptsServer]
  split_ifs with hfetch
  · rfl
  have hlist : inp'.listPrompts = inp.listPrompts :=
    h.prompts (by simp [MCPManager.listRequests, huser, hfetch])
  rw [hlist]

lemma refresh_of_requests (h : SameAnswers (man.listRequests inp) inp inp')
    (huser : ¬ man.config.userSpecificList = true) : man.refresh inp' = man.refresh inp := by
  have hversion : inp'.protocolVersion = inp.protocolVersion := by rw [h.found]
  unfold MCPManager.refresh
  have hprompts := managePrompts_of_requests h huser (move_manageTools man inp).setup
  simp only [manageTools_of_requests h huser, hversion, hprompts]

/-- `manage` depends on the answers to these requests and on no others. -/
lemma manage_of_requests (h : SameAnswers (man.requests inp) inp inp') :
    man.manage inp' = man.manage inp := by
  unfold MCPManager.requests at h
  unfold MCPManager.manage
  split_ifs at h ⊢ with hdisabled
  · rfl
  -- every pass connects, and then each answer decides what is asked next
  have hsame : inp'.connect = inp.connect :=
    h.connect (by cases inp.connect <;> cases inp.ping <;> simp)
  cases hconnect : inp.connect with
  | error e => simp only [hsame, hconnect]
  | ok =>
    have hsame' : inp'.ping = inp.ping := h.ping (by cases hping : inp.ping <;> simp [hconnect])
    cases hping : inp.ping with
    | error e => simp only [hsame, hconnect, hsame', hping]
    | ok =>
      simp only [hsame, hconnect, hsame', hping]
      split_ifs with huser
      · rfl
      have hlists : SameAnswers (man.listRequests inp) inp inp' :=
        h.mono (by simp [hconnect, hping])
      exact @refresh_of_requests { man with consecutiveFailures := 0 } inp inp' hlists huser

end Answers

/-! ## Managers that have nothing -/

/-- Nothing is listed or served. -/
def Blank (man : MCPManager) : Prop :=
  ∀ K : Kind, K.listed man = [] ∧ K.served man = []

variable {man : MCPManager}

lemma Blank.removeAll (h : Blank man) : Blank man.removeAllTools.1.removeAllPrompts.1 := by
  intro K
  unfold MCPManager.removeAllPrompts
  split_ifs with hserver
  · cases K <;> exact ⟨rfl, rfl⟩
  · cases K with
    | tool => exact ⟨rfl, rfl⟩
    | prompt => exact h .prompt

lemma manage_blank (hdisabled : man.isEnabled = false) (h : Blank man)
    (inp : PassInput) : man.requests inp = [] ∧ Blank (man.manage inp).1 := by
  constructor
  · simp [MCPManager.requests, hdisabled]
  · intro K
    have hdropped := h.removeAll K
    rcases setStatus_eq { man.removeAllTools.1.removeAllPrompts.1 with consecutiveFailures := 0 }
      (some "server is disabled") 0 0 [] [] none with ⟨status, hstatus⟩
    have hmanage : (man.manage inp).1 =
        { man.removeAllTools.1.removeAllPrompts.1 with consecutiveFailures := 0, status := status } := by
      unfold MCPManager.manage
      rw [if_pos hdisabled]
      exact hstatus
    rw [hmanage]
    cases K <;> exact hdropped

/-! ## Entries among other writers -/

/-- Whatever of the registry carries the manager's id has a name that the manager serves. -/
def Covered (man : MCPManager) (g : GatewayServer) : Prop :=
  ∀ (K : Kind) n x, K.view man.id g n x → n ∈ (K.served man).map K.name

variable {man' : MCPManager} {calls : List ManagerCall} {g g' : GatewayServer}

lemma Move.covered (h : Move man calls man') (hg : Drives man.id g calls g') (hcov : Covered man g) :
    Covered man' g' := by
  intro K n x hx
  rw [h.setup.id, hg.view K (h.own K)] at hx
  cases h.part K with
  | keep hlisted hserved hindex hcalls =>
    rw [K.after_untouched hcalls] at hx
    rw [hserved]
    exact hcov K n x hx
  | clear hlisted hserved hindex hafter =>
    -- what was served is unregistered, and nothing else was there
    rw [hafter] at hx
    rcases exists_exchanged.1 ⟨x, hx⟩ with hnew | ⟨hgone, y, hy⟩
    · cases hnew
    · exact absurd (hcov K n y hy) hgone
  | take new htakes =>
    rw [htakes.after] at hx
    rw [htakes.served, reserve, map_append, mem_append]
    rcases exists_exchanged.1 ⟨x, hx⟩ with hnew | ⟨hgone, y, hy⟩
    · exact .inr hnew
    · refine .inl ?_
      rcases mem_map.1 (hcov K n y hy) with ⟨z, hz, rfl⟩
      exact mem_map_of_mem (mem_filter.2 ⟨hz, by simpa using hgone⟩)

lemma Moves.covered (h : Moves man calls man') (hg : Drives man.id g calls g') (hcov : Covered man g) :
    Covered man' g' := by
  induction h generalizing g with
  | done man =>
    intro K n x hx
    rw [hg.view K fun _ hc => absurd hc not_mem_nil] at hx
    exact hcov K n x hx
  | @move man man₁ man' calls calls' hmove _ ih =>
    rcases hg.append with ⟨m, hfirst, hrest⟩
    exact ih (hmove.setup.id ▸ hrest) (hmove.covered hfirst hcov)

def Shrinks (id : String) (g g' : GatewayServer) : Prop :=
  ∀ (K : Kind) n x, K.view id g' n x → K.view id g n x

variable {id : String}

lemma Shrinks.trans {g'' : GatewayServer} (h : Shrinks id g g')
    (h' : Shrinks id g' g'') : Shrinks id g g'' :=
  fun K n x hx => h K n x (h' K n x hx)

lemma shrinks_exchange {gone : Kind → List String} {new : (K : Kind) → List K.Entry} (hg : ∀ K,
    K.entries g' = register K.name (new K) (unregister (gone K) (K.entries g))) (hother : ∀ K, ∀ x ∈ new K,
    ownerID (K.metadata x) ≠ some id) : Shrinks id g g' := by
  rintro K n x ⟨hlookup, hown⟩
  rw [hg, lookup_register, lookup_unregister] at hlookup
  rcases Option.or_eq_some_iff.1 hlookup with hnew | ⟨-, hold⟩
  · exact absurd hown (hother K x (of_lookup_byName hnew).1)
  · split_ifs at hold
    exact ⟨hold, hown⟩

lemma shrinks_calls (calls : List ManagerCall)
    (hother : ∀ c ∈ calls, ∀ (K : Kind), ∀ x ∈ K.added c, ownerID (K.metadata x) ≠ some id)
    (g : GatewayServer) : Shrinks id g (calls.foldl ManagerCall.apply g) := by
  induction calls generalizing g with
  | nil => exact fun _ _ _ hx => hx
  | cons c rest ih =>
    have hfirst : Shrinks id g (c.apply g) :=
      shrinks_exchange (fun K => K.entries_apply g c) (hother c mem_cons_self)
    exact hfirst.trans (ih (fun c' hc' => hother c' (mem_cons_of_mem _ hc')) _)

lemma Moves.own (h : Moves man calls man') :
    ∀ c ∈ calls, ∀ (K : Kind), ∀ x ∈ K.added c, ownerID (K.metadata x) = some man.id := by
  induction h with
  | done man => exact fun c hc => absurd hc not_mem_nil
  | move hmove _ ih =>
    intro c hc K x hx
    rcases mem_append.1 hc with hnow | hlater
    · exact hmove.own K c hnow x hx
    · rw [← hmove.setup.id]
      exact ih c hlater K x hx

lemma Moves.shrinks (h : Moves man calls man') (hid : id ≠ man.id) (g : GatewayServer) :
    Shrinks id g (calls.foldl ManagerCall.apply g) := by
  refine shrinks_calls calls ?_ g
  intro c hc K x hx hown
  rw [h.own c hc K x hx] at hown
  exact hid (Option.some.inj hown).symm

lemma Covered.of_shrinks (h : Covered man g) (hg : Shrinks man.id g g') : Covered man g' :=
  fun K n x hx => h K n x (hg K n x hx)

lemma Covered.blank (h : Covered man g) (hblank : Blank man)
    (K : Kind) (n : String) (x : K.Entry) : ¬ K.view man.id g n x := by
  intro hx
  have hserved := h K n x hx
  rw [(hblank K).2] at hserved
  cases hserved

end McpGateway.Upstream
