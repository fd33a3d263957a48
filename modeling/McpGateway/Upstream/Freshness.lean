import McpGateway.Upstream.Registry

/-!
# Whether the gateway serves what the upstream last listed

A pass compares the new lists with the old ones by name only, and it looks at the prompts only while
the upstream advertises them.
-/

namespace McpGateway.Upstream

open Go Keyed Config MCPManager Kind

def PassInput.listedPrompts (inp : PassInput) : List Prompt :=
  match inp.listPrompts with
  | .ok listed => listed.filterMap fun p => p
  | .error _ => []

/-- The valid entries of the latest list.  An upstream that does not advertise prompts has none. -/
def Kind.latest : (K : Kind) → PassInput → List K.Entry
  | .tool, inp => (validateTools inp.listed).1
  | .prompt, inp => if inp.supportsPrompts then (validatePrompts inp.listedPrompts).1 else []

/-- The gateway serves exactly the valid entries of the latest lists under the id of the server, up to
the name prefix and the gateway's metadata. -/
def Fresh (man : MCPManager) (inp : PassInput) (g : GatewayServer) : Prop :=
  ∀ K : Kind, Exact K.name (K.serve man) (K.latest inp) (K.view man.id g)

/-- Nothing registered under the id of the server is changed by the latest lists, which do not
contradict themselves, and there is no prompt left that is not advertised any more. -/
structure Undisturbed (man : MCPManager) (inp : PassInput) (g : GatewayServer) : Prop where
  settled : ∀ K : Kind, Settled K.name (K.serve man) (K.latest inp) (K.view man.id g)
  prompts : inp.supportsPrompts = false → ∀ n x, ¬ Kind.prompt.view man.id g n x

/-! ## What an error-free pass takes over -/

variable {man : MCPManager}

lemma applyPolicy_eq {fetched kept : List Tool}
    (h : man.applyPolicy fetched = some kept) : kept = (validateTools fetched).1 := by
  unfold applyPolicy at h
  split at h
  next hnone =>
    obtain rfl : fetched = kept := Option.some.inj h
    symm
    refine List.filter_eq_self.2 ?_
    intro t ht
    simpa using partitionValid_of_no_invalid hnone ht
  next =>
    cases hp : man.invalidToolPolicy with
    | rejectServer => simp [hp] at h
    | filterOut =>
      rw [hp] at h
      exact (Option.some.inj h).symm

variable {inp : PassInput}

lemma takes_manageTools (hevent : shouldFetchTools inp.event = true)
    (herr : (man.manageTools inp).err = none) :
    Takes .tool man (man.manageTools inp).calls (man.manageTools inp).man (tool.latest inp) := by
  have hfetch : ¬ shouldFetchTools inp.event = false := by simp [hevent]
  unfold manageTools at herr ⊢
  rw [if_neg hfetch] at herr ⊢
  cases hl : inp.listTools with
  | error e => simp [hl] at herr
  | ok listed =>
    have hlatest : tool.latest inp = (validateTools (listed.filterMap fun t => t)).1 := by
      simp [latest, PassInput.listed, hl]
    simp only [hl] at herr ⊢
    cases hkept : man.applyPolicy (listed.filterMap fun t => t) with
    | none => simp [hkept] at herr
    | some kept =>
      simp only [hkept] at herr ⊢
      rw [hlatest, ← applyPolicy_eq hkept]
      exact takes_updateTools herr

lemma takes_managePrompts (hevent : shouldFetchPrompts inp.event = true)
    (hserver : man.promptsServer = true) (hsupports : inp.supportsPrompts = true)
    (herr : (man.managePrompts inp).err = none) :
    Takes .prompt man (man.managePrompts inp).calls (man.managePrompts inp).man
      (prompt.latest inp) := by
  have hfetch : ¬ (man.promptsServer && inp.supportsPrompts &&
      shouldFetchPrompts inp.event) = false := by
    simp [hserver, hsupports, hevent]
  unfold managePrompts at herr ⊢
  rw [if_neg hfetch] at herr ⊢
  cases hl : inp.listPrompts with
  | error e => simp [hl] at herr
  | ok listed =>
    have hlatest : prompt.latest inp = (validatePrompts (listed.filterMap fun p => p)).1 := by
      simp [latest, PassInput.listedPrompts, hl, hsupports]
    simp only [hl] at herr ⊢
    rw [hlatest]
    exact takes_updatePrompts herr

lemma managePrompts_unsupported (hsupports : inp.supportsPrompts = false) :
    man.managePrompts inp = ({ man := man } : MCPManager.PartResult) := by
  unfold managePrompts
  rw [if_pos (by rw [hsupports, Bool.and_false, Bool.false_and])]

/-! ## What a pass leaves registered -/

variable {g g' : GatewayServer} {calls : List ManagerCall} {K : Kind}

lemma Drives.view_untouched {id : String} (h : Drives id g calls g')
    (hcalls : ∀ c ∈ calls, K.added c = [] ∧ K.deleted c = []) : K.view id g' = K.view id g := by
  rw [h.view K ?_, K.after_untouched hcalls]
  intro c hc x hx
  rw [(hcalls c hc).1] at hx
  cases hx

lemma view_unique {id : String} (n : String) (x y : K.Entry)
    (hx : K.view id g n x) (hy : K.view id g n y) : x = y :=
  mem_unique hx.1 hy.1

variable {man' : MCPManager}

lemma Takes.exact_iff
    {new : List K.Entry} (h : Takes K man calls man' new)
    (hcons : Consistent man g) (hg : Drives man.id g calls g') :
    Exact K.name (K.serve man) new (K.view man.id g') ↔
      Settled K.name (K.serve man) new (K.view man.id g) := by
  refine (hcons K).exact_update_iff (K.name_serve man) (prefixedName_injective _) view_unique ?_
  rw [hg.view K h.own, h.after]
  rfl

lemma serve_congr (K : Kind) (h : man'.config = man.config) : K.serve man' = K.serve man := by
  cases K <;> funext x <;>
    simp only [Kind.serve, MCPManager.toolToServerTool, MCPManager.promptToServerPrompt,
      MCPManager.id, h]

lemma fresh_congr (h : man'.config = man.config) : Fresh man' inp g ↔ Fresh man inp g := by
  have hid : man'.id = man.id := congrArg MCPServer.id h
  simp only [Fresh, serve_congr _ h, hid]

lemma undisturbed_congr (h : man'.config = man.config) : Undisturbed man' inp g ↔ Undisturbed man inp g := by
  have hid : man'.id = man.id := congrArg MCPServer.id h
  constructor <;> rintro ⟨hsettled, hprompts⟩ <;>
    exact ⟨by simpa only [serve_congr _ h, hid] using hsettled,
      by simpa only [hid] using hprompts⟩

lemma Drives.refresh (h : Drives man.id g (man.refresh inp).2 g') :
    ∃ g₁ g₂, Drives man.id g (man.manageTools inp).calls g₁ ∧
      Drives man.id g₁ ((man.manageTools inp).man.managePrompts inp).calls g₂ ∧
      ∀ K : Kind, K.view man.id g' = K.view man.id g₂ := by
  obtain ⟨g₂, hparts, hlast⟩ := h.append
  obtain ⟨g₁, htools, hprompts⟩ := hparts.append
  refine ⟨g₁, g₂, htools, hprompts, ?_⟩
  intro K
  refine hlast.view_untouched ?_
  intro c hc
  refine K.untouched_of_isQuiet ?_
  rw [mem_singleton.1 hc]
  split <;> rfl

lemma refresh_prompts_withdrawn (hevent : inp.event = .timer) (htools : (man.manageTools inp).err = none)
    (hg : Drives man.id g (man.refresh inp).2 g') (hsupports : inp.supportsPrompts = false) :
    prompt.view man.id g' = prompt.view man.id g := by
  obtain ⟨g₁, g₂, hg₁, hg₂, hlast⟩ := hg.refresh
  rw [managePrompts_unsupported hsupports] at hg₂
  rw [hlast, hg₂.view_untouched fun c hc => absurd hc not_mem_nil]
  exact hg₁.view_untouched ((takes_manageTools (by rw [hevent]; rfl) htools).untouched (by decide))

section Refresh

variable {man : MCPManager} {inp : PassInput} {g g' : GatewayServer}
  (hevent : inp.event = .timer) (hserver : man.promptsServer = true)
  (htools : (man.manageTools inp).err = none)
  (hprompts : ((man.manageTools inp).man.managePrompts inp).err = none)
  (hcons : Consistent man g) (hg : Drives man.id g (man.refresh inp).2 g')

include hevent hserver htools hprompts hcons hg

lemma refresh_tools_exact_iff : Exact tool.name (tool.serve man) (tool.latest inp)
    (tool.view man.id g') ↔ Settled tool.name (tool.serve man) (tool.latest inp)
    (tool.view man.id g) := by
  obtain ⟨g₁, g₂, hg₁, hg₂, hlast⟩ := hg.refresh
  have hserver' : (man.manageTools inp).man.promptsServer = true :=
    (move_manageTools man inp).setup.promptsServer.trans hserver
  have huntouched : ∀ c ∈ ((man.manageTools inp).man.managePrompts inp).calls,
      tool.added c = [] ∧ tool.deleted c = [] := by
    cases hsupports : inp.supportsPrompts with
    | true =>
      have htakes := takes_managePrompts (by rw [hevent]; rfl) hserver' hsupports hprompts
      exact htakes.untouched (by decide)
    | false =>
      rw [managePrompts_unsupported hsupports]
      exact fun c hc => absurd hc not_mem_nil
  rw [hlast, hg₂.view_untouched huntouched]
  exact (takes_manageTools (by rw [hevent]; rfl) htools).exact_iff hcons hg₁

lemma refresh_prompts_exact_iff (hsupports : inp.supportsPrompts = true) :
    Exact prompt.name (prompt.serve man) (prompt.latest inp) (prompt.view man.id g') ↔
    Settled prompt.name (prompt.serve man) (prompt.latest inp)
    (prompt.view man.id g) := by
  obtain ⟨g₁, g₂, hg₁, hg₂, hlast⟩ := hg.refresh
  have hmove := move_manageTools man inp
  have hbefore : prompt.view man.id g₁ = prompt.view man.id g :=
    hg₁.view_untouched ((takes_manageTools (by rw [hevent]; rfl) htools).untouched (by decide))
  have hserver' := hmove.setup.promptsServer.trans hserver
  have htakes := takes_managePrompts (by rw [hevent]; rfl) hserver' hsupports hprompts
  have hiff := htakes.exact_iff (hmove.consistent hg₁ hcons) (hmove.setup.id ▸ hg₂)
  rw [serve_congr .prompt hmove.setup.config, hmove.setup.id] at hiff
  rw [hlast, ← hbefore]
  exact hiff

lemma refresh_fresh_iff : Fresh man inp g' ↔ Undisturbed man inp g := by
  have htool := refresh_tools_exact_iff hevent hserver htools hprompts hcons hg
  cases hsupports : inp.supportsPrompts with
  | true =>
    have hprompt := refresh_prompts_exact_iff hevent hserver htools hprompts hcons hg hsupports
    constructor
    · intro hfresh
      refine ⟨?_, fun hnot => absurd (hsupports.symm.trans hnot) (by decide)⟩
      rintro (_ | _)
      · exact htool.1 (hfresh .tool)
      · exact hprompt.1 (hfresh .prompt)
    · rintro hun (_ | _)
      · exact htool.2 (hun.settled .tool)
      · exact hprompt.2 (hun.settled .prompt)
  | false =>
    have hview := refresh_prompts_withdrawn hevent htools hg hsupports
    have hnone : prompt.latest inp = [] := by simp [latest, hsupports]
    have hprompt : Exact prompt.name (prompt.serve man) [] (prompt.view man.id g') ↔
        ∀ n x, ¬ prompt.view man.id g n x := by
      rw [hview]
      simp [Exact]
    constructor
    · intro hfresh
      refine ⟨?_, fun _ => hprompt.1 (hnone ▸ hfresh .prompt)⟩
      rintro (_ | _)
      · exact htool.1 (hfresh .tool)
      · rw [hnone]
        intro x hx
        cases hx
    · rintro hun (_ | _)
      · exact htool.2 (hun.settled .tool)
      · rw [hnone]
        exact hprompt.2 (hun.prompts hsupports)

end Refresh

/-! ## Passes that end without error -/

lemma joinErrors_eq_none {a b : Option String} (h : joinErrors a b = none) :
    a = none ∧ b = none := by
  cases a <;> cases b <;> simp_all [joinErrors]

lemma ready_setStatus {err : Option String} {nt np : Nat}
    {it ip : List InvalidInfo} {protocol : Option String}
    (h : (man.setStatus err nt np it ip protocol).status.ready = true) : err = none := by
  cases err with
  | none => rfl
  | some e => cases h

lemma manage_ready (huser : man.config.userSpecificList = false)
    (hready : (man.manage inp).1.status.ready = true) :
    man.manage inp = refresh { man with consecutiveFailures := 0 } inp ∧
      (manageTools { man with consecutiveFailures := 0 } inp).err = none ∧
      ((manageTools { man with consecutiveFailures := 0 } inp).man.managePrompts inp).err =
        none := by
  unfold manage at hready ⊢
  split at hready
  next => cases ready_setStatus hready
  next =>
    split at hready
    next => cases ready_setStatus hready
    next => cases ready_setStatus hready
    next hconnect hping =>
      simp only [huser, false_eq_true, if_false] at hready ⊢
      have herrs := joinErrors_eq_none (ready_setStatus hready)
      simp_all

/-- After an error-free timer pass of any history the gateway serves what the upstream last listed just
when the pass found nothing that this changes. -/
theorem fresh_iff_undisturbed {config : MCPServer} {policy : InvalidToolPolicy} {g₀ g g' : GatewayServer}
    {inputs : List PassInput} {man : MCPManager} {inp : PassInput}
    (huser : config.userSpecificList = false) (hnew : ∀ (K : Kind) n x, ¬ K.view config.id g₀ n x)
    (h : History (newManager config policy true) g₀ inputs man g) (hevent : inp.event = .timer)
    (hg : Drives man.id g (man.manage inp).2 g') (hready : (man.manage inp).1.status.ready = true) :
    Fresh (man.manage inp).1 inp g' ↔ Undisturbed man inp g := by
  obtain ⟨⟨s, hconfig⟩, hserver⟩ := h.setup
  have huser' : man.config.userSpecificList = false := by rw [hconfig]; exact huser
  obtain ⟨hmanage, htools, hprompts⟩ := manage_ready huser' hready
  have hcount := moves_count man 0
  have hserver' := hcount.setup.promptsServer.trans hserver
  have hcons := hcount.consistent (.done g) (h.consistent (consistent_newManager hnew))
  rw [hmanage] at hg
  have hiff := refresh_fresh_iff hevent hserver' htools hprompts hcons hg
  rwa [fresh_congr hcount.setup.config, undisturbed_congr hcount.setup.config,
    ← fresh_congr (manage_moves man inp).setup.config] at hiff

/-- The first pass over an upstream meets nothing registered. -/
theorem fresh_iff_undisturbed_weather :
    Fresh ((newManager MCPManager.freshManager.config .filterOut true).manage
        (MCPManager.healthyPass MCPManager.mixedAnswer)).1
      (MCPManager.healthyPass MCPManager.mixedAnswer)
      (((newManager MCPManager.freshManager.config .filterOut true).manage
        (MCPManager.healthyPass MCPManager.mixedAnswer)).2.foldl ManagerCall.apply {}) := by
  have hempty : ∀ (K : Kind) n x, ¬ K.view MCPManager.freshManager.config.id {} n x := by
    rintro (_ | _) n x ⟨hx, -⟩ <;> cases hx
  refine (fresh_iff_undisturbed rfl hempty .start rfl (drives_foldl _ _ _) (by decide)).2 ⟨?_, ?_⟩
  · rintro (_ | _) x hx
    · refine ⟨fun y hy => absurd hy (hempty .tool _ _), ?_⟩
      intro y hy _
      rw [List.mem_singleton.1 hx, List.mem_singleton.1 hy]
    · cases hx
  · exact fun _ => hempty .prompt

def forecastTool (description : String) : Tool :=
  { name := "forecast", description := description, inputSchema := MCPManager.objectSchema }

def promptPass (supportsPrompts : Bool) : PassInput :=
  { MCPManager.healthyPass [] with
    supportsPrompts := supportsPrompts
    listPrompts := .ok [some { name := "plan" }] }

def afterTwo (first second : PassInput) : MCPManager × GatewayServer :=
  afterPasses (newManager MCPManager.freshManager.config .filterOut true) {} [first, second]

/-- A description that changes under an unchanged name is never taken over, and the prompts of an
upstream that stops advertising them stay; both passes end without error. -/
theorem changed_or_withdrawn_not_fresh :
    ((afterTwo (MCPManager.healthyPass [some (forecastTool "In Celsius")])
          (MCPManager.healthyPass [some (forecastTool "In Fahrenheit")])).1.status.ready = true ∧
      ¬ Fresh (afterTwo (MCPManager.healthyPass [some (forecastTool "In Celsius")])
            (MCPManager.healthyPass [some (forecastTool "In Fahrenheit")])).1
          (MCPManager.healthyPass [some (forecastTool "In Fahrenheit")])
          (afterTwo (MCPManager.healthyPass [some (forecastTool "In Celsius")])
            (MCPManager.healthyPass [some (forecastTool "In Fahrenheit")])).2) ∧
    ((afterTwo (promptPass true) (promptPass false)).1.status.ready = true ∧
      ¬ Fresh (afterTwo (promptPass true) (promptPass false)).1 (promptPass false)
          (afterTwo (promptPass true) (promptPass false)).2) := by
  refine ⟨⟨by decide, ?_⟩, ⟨by decide, ?_⟩⟩
  · intro hfresh
    have hserved := (hfresh .tool "w_forecast" _).2 ⟨rfl, List.mem_map_of_mem List.mem_cons_self⟩
    have hdescription := congrArg (Option.map Tool.description) hserved.1
    revert hdescription
    decide
  · intro hfresh
    obtain ⟨-, hlisted⟩ := (hfresh .prompt "w_plan" _).1 ⟨rfl, rfl⟩
    cases hlisted

end McpGateway.Upstream
