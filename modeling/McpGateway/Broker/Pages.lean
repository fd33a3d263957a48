import McpGateway.Broker.UserTools
import McpGateway.Foundation.Paging
import McpGateway.Upstream.Freshness

/-!
# Upstreams that answer in pages

The managers and the per-user fetch ask for a list once, without a cursor, and never look at the
cursor of the answer.
-/

namespace McpGateway.Broker

open Go Effect Session Upstream Paging

def ValidTool (tool : Tool) : Prop := (validateTool tool).errors = []

def ValidPrompt (prompt : Prompt) : Prop := (validatePrompt prompt).errors = []

/-- `session.ListTools(ctx, nil)` over an upstream that answers in pages. -/
def listTools (upstream : Listing (Option Tool)) : Except String (List (Option Tool)) :=
  upstream.single

/-- `session.ListPrompts(ctx, nil)` over an upstream that answers in pages. -/
def listPrompts (upstream : Listing (Option Prompt)) : Except String (List (Option Prompt)) :=
  upstream.single

/-! ## What an error-free pass adopts -/

lemma tools_managePrompts (man : MCPManager) (inp : PassInput) :
    (man.managePrompts inp).man.tools = man.tools := by
  unfold MCPManager.managePrompts
  split_ifs with hfetch
  · rfl
  · cases inp.listPrompts with
    | error e => rfl
    | ok listed =>
      simp only [MCPManager.updatePrompts]
      split <;> rfl

lemma lists_setStatus (man : MCPManager) (err : Option String) (nt np : Nat) (it ip : List InvalidInfo)
    (protocol : Option String) : (man.setStatus err nt np it ip protocol).tools = man.tools ∧
    (man.setStatus err nt np it ip protocol).prompts = man.prompts := by
  cases err <;> exact ⟨rfl, rfl⟩

section Manager

variable {man : MCPManager} {inp : PassInput} (huser : man.config.userSpecificList = false)
  (hready : (man.manage inp).1.status.ready = true)

include huser hready

lemma manage_tools_eq (hevent : MCPManager.shouldFetchTools inp.event = true) :
    (man.manage inp).1.tools = Kind.tool.latest inp := by
  rcases manage_ready huser hready with ⟨hmanage, htools, -⟩
  rw [hmanage, MCPManager.refresh]
  dsimp only
  rw [(lists_setStatus _ _ _ _ _ _ _).1, tools_managePrompts]
  exact (takes_manageTools hevent htools).listed

lemma manage_prompts_eq (hevent : MCPManager.shouldFetchPrompts inp.event = true)
    (hserver : man.promptsServer = true) (hsupports : inp.supportsPrompts = true) :
    (man.manage inp).1.prompts = Kind.prompt.latest inp := by
  rcases manage_ready huser hready with ⟨hmanage, -, hprompts⟩
  have hserver' := (move_manageTools { man with consecutiveFailures := 0 } inp).setup.promptsServer
  rw [hmanage, MCPManager.refresh]
  dsimp only
  rw [(lists_setStatus _ _ _ _ _ _ _).2]
  exact (takes_managePrompts hevent (hserver'.trans hserver) hsupports hprompts).listed

end Manager

variable {inp : PassInput} {listed : List (Option Tool)}

lemma mem_latest_tools (h : inp.listTools = .ok listed) (t : Tool) : t ∈ Kind.tool.latest inp ↔ ∃ y,
    some y ∈ listed ∧ ValidTool y ∧ id y = t := by
  simp [Kind.latest, PassInput.listed, h, validateTools, partitionValid, ValidTool]

lemma mem_latest_prompts {listed : List (Option Prompt)}
    (hsupports : inp.supportsPrompts = true) (h : inp.listPrompts = .ok listed) (p : Prompt) :
    p ∈ Kind.prompt.latest inp ↔ ∃ y, some y ∈ listed ∧ ValidPrompt y ∧ id y = p := by
  simp [Kind.latest, PassInput.listedPrompts, h, hsupports, validatePrompts, partitionValid,
    ValidPrompt]

lemma listTools_of_ready {man : MCPManager}
    (huser : man.config.userSpecificList = false) (hready : (man.manage inp).1.status.ready = true)
    (hevent : MCPManager.shouldFetchTools inp.event = true) :
    ∃ listed, inp.listTools = .ok listed := by
  rcases manage_ready huser hready with ⟨-, htools, -⟩
  cases hl : inp.listTools with
  | ok listed => exact ⟨listed, rfl⟩
  | error e => simp [MCPManager.manageTools, hevent, hl] at htools

lemma listPrompts_of_ready {man : MCPManager}
    (huser : man.config.userSpecificList = false) (hready : (man.manage inp).1.status.ready = true)
    (hevent : MCPManager.shouldFetchPrompts inp.event = true) (hserver : man.promptsServer = true)
    (hsupports : inp.supportsPrompts = true) : ∃ listed, inp.listPrompts = .ok listed := by
  rcases manage_ready huser hready with ⟨-, -, hprompts⟩
  have hserver' := (move_manageTools { man with consecutiveFailures := 0 } inp).setup.promptsServer
  cases hl : inp.listPrompts with
  | ok listed => exact ⟨listed, rfl⟩
  | error e =>
    simp [MCPManager.managePrompts, hevent, hl, hserver'.trans hserver, hsupports] at hprompts

/-! ## What the per-user fetch returns -/

/-- Every list request of a run was answered with the first page of the upstream, or failed. -/
def AnswersFrom (upstream : Listing (Option Tool)) (tr : List GwEv) : Prop :=
  ∀ session answer, Answered tr (.listTools session) answer →
    ∀ listed, answer = .ok listed → listTools upstream = .ok listed

section Fetch

variable {srv : UserSpecificServer} {userHeaders : GoMap String} {G : String} {tr : List GwEv}
  {session : ClientSession}

lemma answered_relistTools
    (h : (relistTools srv userHeaders G).Outcome tr (.ok (session, listed))) :
    Answered tr (.listTools session) (.ok listed) := by
  rcases outcome_bind_iff.1 h with ⟨-, tr₁, tr₂, rfl, -, h₂⟩
  rcases outcome_bind_iff.1 h₂ with ⟨connected, tr₃, tr₄, rfl, -, h₄⟩
  cases connected with
  | error e => cases (outcome_ret_iff.1 h₄).2
  | ok session' =>
    rcases outcome_op_iff.1 h₄ with ⟨answer, tr₅, rfl, h₅⟩
    cases answer with
    | ok tools =>
      -- this answer is what is returned
      cases (outcome_ret_iff.1 h₅).2
      simp [Answered]
    | error e =>
      rcases outcome_bind_iff.1 h₅ with ⟨_, _, _, _, _, h₆⟩
      cases (outcome_ret_iff.1 h₆).2

lemma answered_listUserTools
    (h : (listUserTools srv userHeaders G).Outcome tr (.ok (session, listed))) :
    Answered tr (.listTools session) (.ok listed) := by
  rcases outcome_bind_iff.1 h with ⟨connected, tr₁, tr₂, rfl, -, h₂⟩
  cases connected with
  | error e => cases (outcome_ret_iff.1 h₂).2
  | ok session' =>
    rcases outcome_op_iff.1 h₂ with ⟨answer, tr₃, rfl, h₃⟩
    cases answer with
    | ok tools =>
      cases (outcome_ret_iff.1 h₃).2
      simp [Answered]
    | error e =>
      -- the first connection failed, so the answer is that of the second one
      have hlater := answered_relistTools h₃
      simp only [Answered, mem_append, mem_cons] at hlater ⊢
      exact .inr (.inr hlater)

lemma doFetchTools_tools_eq {policy : InvalidToolPolicy} {tools : List Tool} {sid : String}
    (h : (doFetchTools srv userHeaders G policy).Outcome tr (.ok (tools, sid))) :
    ∃ session listed, Answered tr (.listTools session) (.ok listed) ∧
      tools = (validateTools (listed.filterMap id)).1.map (serveUserTool srv) := by
  rcases outcome_bind_iff.1 h with ⟨res, tr₁, tr₂, rfl, h₁, h₂⟩
  rcases res with e | ⟨session, listed⟩
  · cases (outcome_ret_iff.1 h₂).2
  · refine ⟨session, listed, ?_, ?_⟩
    · exact (answered_listUserTools h₁).mono (prefix_append _ _)
    · dsimp only at h₂
      split_ifs at h₂ with hreject
      · cases (outcome_ret_iff.1 h₂).2
      · cases (outcome_ret_iff.1 h₂).2
        rfl

lemma mem_fetched {tools : List Tool}
    (h : tools = (validateTools (listed.filterMap id)).1.map (serveUserTool srv)) (t : Tool) :
    t ∈ tools ↔ ∃ y, some y ∈ listed ∧ ValidTool y ∧ serveUserTool srv y = t := by
  rw [h]
  simp [validateTools, partitionValid, ValidTool, and_assoc]

end Fetch

/-! ## Every page -/

/-- For every upstream: what a manager adopts in an error-free pass and what is fetched per user
covers all pages just when the first page does. -/
theorem pages_covered_iff (toolPages : Listing (Option Tool)) (promptPages : Listing (Option Prompt)) :
    (∀ (man : MCPManager) (inp : PassInput), man.config.userSpecificList = false →
      (man.manage inp).1.status.ready = true → inp.listTools = listTools toolPages →
      MCPManager.shouldFetchTools inp.event = true →
      (Covered id ValidTool toolPages (man.manage inp).1.tools ↔
        OnFirstPage id ValidTool toolPages)) ∧
    (∀ (man : MCPManager) (inp : PassInput), man.config.userSpecificList = false →
      (man.manage inp).1.status.ready = true → inp.listPrompts = listPrompts promptPages →
      MCPManager.shouldFetchPrompts inp.event = true → man.promptsServer = true →
      inp.supportsPrompts = true →
      (Covered id ValidPrompt promptPages (man.manage inp).1.prompts ↔
        OnFirstPage id ValidPrompt promptPages)) ∧
    (∀ (srv : UserSpecificServer) (userHeaders : GoMap String) (G : String)
      (policy : InvalidToolPolicy) (tr : List GwEv) (tools : List Tool) (sid : String),
      AnswersFrom toolPages tr →
      (doFetchTools srv userHeaders G policy).Outcome tr (.ok (tools, sid)) →
      (Covered (serveUserTool srv) ValidTool toolPages tools ↔
        OnFirstPage (serveUserTool srv) ValidTool toolPages)) := by
  refine ⟨?_, ?_, ?_⟩
  · intro man inp huser hready hpages hevent
    rcases listTools_of_ready huser hready hevent with ⟨listed, hlisted⟩
    rw [manage_tools_eq huser hready hevent]
    exact covered_iff_onFirstPage (hpages.symm.trans hlisted) (mem_latest_tools hlisted)
  · intro man inp huser hready hpages hevent hserver hsupports
    rcases listPrompts_of_ready huser hready hevent hserver hsupports with ⟨listed, hlisted⟩
    rw [manage_prompts_eq huser hready hevent hserver hsupports]
    exact covered_iff_onFirstPage (hpages.symm.trans hlisted) (mem_latest_prompts hsupports hlisted)
  · intro srv userHeaders G policy tr tools sid hanswers hout
    rcases doFetchTools_tools_eq hout with ⟨session, listed, hanswered, htools⟩
    exact covered_iff_onFirstPage (hanswers session _ hanswered listed rfl) (mem_fetched htools)

def alertsTool : Tool := { name := "alerts", inputSchema := MCPManager.objectSchema }

def pagedPass (toolPages : Listing (Option Tool)) (promptPages : Listing (Option Prompt)) : PassInput :=
  { MCPManager.healthyPass [] with
    listTools := listTools toolPages
    supportsPrompts := true
    listPrompts := listPrompts promptPages }

def weatherServer : UserSpecificServer := { id := "w", name := "weather", url := "", namePrefix := "w_" }

def pooledFetch (toolPages : Listing (Option Tool)) : List GwEv :=
  [⟨.poolLoad (userSessionKey "s" "weather") ∅, some ⟨1, "u1"⟩⟩,
    ⟨.listTools ⟨1, "u1"⟩, listTools toolPages⟩]

lemma answersFrom_pooledFetch (toolPages : Listing (Option Tool)) :
    AnswersFrom toolPages (pooledFetch toolPages) := by
  intro session answer hanswered listed hok
  rcases mem_cons.1 hanswered with heq | hrest
  · cases heq
  · cases mem_singleton.1 hrest
    exact hok

/-- Two pages, of which the second repeats a tool of the first. -/
def repeatedPages : Listing (Option Tool) := fun cursor =>
  if cursor = "" then
    .ok { entries := [some (forecastTool "In Celsius"), some alertsTool], nextCursor := "2" }
  else .ok { entries := [some alertsTool] }

def repeatedPromptPages : Listing (Option Prompt) := fun cursor =>
  if cursor = "" then .ok { entries := [some { name := "plan" }, some { name := "pack" }], nextCursor := "2" }
  else .ok { entries := [some { name := "pack" }] }

lemma onFirstPage_repeatedPages {f : Tool → Tool} : OnFirstPage f ValidTool repeatedPages := by
  refine onFirstPage_of_repeats rfl fun cursor p hp => ?_
  unfold repeatedPages at hp
  split_ifs at hp <;> cases hp <;> simp

lemma onFirstPage_repeatedPromptPages : OnFirstPage id ValidPrompt repeatedPromptPages := by
  refine onFirstPage_of_repeats rfl fun cursor p hp => ?_
  unfold repeatedPromptPages at hp
  split_ifs at hp <;> cases hp <;> simp

theorem pages_covered_iff_repeated :
    Covered id ValidTool repeatedPages
        (MCPManager.freshManager.manage (pagedPass repeatedPages repeatedPromptPages)).1.tools ∧
      Covered id ValidPrompt repeatedPromptPages
        (MCPManager.freshManager.manage (pagedPass repeatedPages repeatedPromptPages)).1.prompts ∧
      Covered (serveUserTool weatherServer) ValidTool repeatedPages
        [serveUserTool weatherServer (forecastTool "In Celsius"),
          serveUserTool weatherServer alertsTool] := by
  obtain ⟨htools, hprompts, huser⟩ := pages_covered_iff repeatedPages repeatedPromptPages
  refine ⟨?_, ?_, ?_⟩
  · exact (htools _ _ rfl (by decide) rfl rfl).2 onFirstPage_repeatedPages
  · exact (hprompts _ _ rfl (by decide) rfl rfl rfl rfl).2 onFirstPage_repeatedPromptPages
  · refine (huser weatherServer ∅ "s" .filterOut (pooledFetch repeatedPages) _ "u1"
      (answersFrom_pooledFetch repeatedPages) ?_).2 onFirstPage_repeatedPages
    exact .vis _ (.vis _ (.ret _))

def twoPages : Listing (Option Tool) := fun cursor =>
  if cursor = "" then .ok { entries := [some (forecastTool "In Celsius")], nextCursor := "2" }
  else .ok { entries := [some alertsTool] }

def twoPromptPages : Listing (Option Prompt) := fun cursor =>
  if cursor = "" then .ok { entries := [some { name := "plan" }], nextCursor := "2" }
  else .ok { entries := [some { name := "pack" }] }

/-- What is only on the second page is adopted by no manager and fetched for no user. -/
theorem secondPage_missing :
    ((MCPManager.freshManager.manage (pagedPass twoPages twoPromptPages)).1.status.ready = true ∧
      ¬ Covered id ValidTool twoPages
        (MCPManager.freshManager.manage (pagedPass twoPages twoPromptPages)).1.tools ∧
      ¬ Covered id ValidPrompt twoPromptPages
        (MCPManager.freshManager.manage (pagedPass twoPages twoPromptPages)).1.prompts) ∧
    ∃ tools, AnswersFrom twoPages (pooledFetch twoPages) ∧
      (doFetchTools weatherServer ∅ "s" .filterOut).Outcome (pooledFetch twoPages)
        (.ok (tools, "u1")) ∧
      ¬ Covered (serveUserTool weatherServer) ValidTool twoPages tools := by
  -- the second page is reached by following the cursor of the first
  have hpage : PageOf twoPages { entries := [some alertsTool] } :=
    .next (.first rfl) (by decide) rfl
  refine ⟨⟨by decide, ?_, ?_⟩, [serveUserTool weatherServer (forecastTool "In Celsius")], ?_, ?_, ?_⟩
  · intro hcovered
    have hmem := List.mem_map_of_mem (f := Tool.name) (hcovered _ hpage alertsTool (by simp) rfl)
    revert hmem
    decide
  · intro hcovered
    have hmem := List.mem_map_of_mem (f := Prompt.name)
      (hcovered { entries := [some { name := "pack" }] } (.next (.first rfl) (by decide) rfl)
        { name := "pack" } (by simp) rfl)
    revert hmem
    decide
  · exact answersFrom_pooledFetch twoPages
  · exact .vis _ (.vis _ (.ret _))
  · intro hcovered
    have hmem := List.mem_map_of_mem (f := Tool.name) (hcovered _ hpage alertsTool (by simp) rfl)
    revert hmem
    decide

end McpGateway.Broker
