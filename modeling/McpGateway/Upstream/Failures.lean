import McpGateway.Upstream.Registry

/-!
# Failing passes

A pass that does not reach the upstream is only counted, until it is the third one in a row.
-/

namespace McpGateway.Upstream

open Go Config MCPManager

def PassInput.fails (inp : PassInput) : Bool :=
  match inp.connect, inp.ping with
  | .ok _, .ok _ => false
  | _, _ => true

/-- The passes of a manager, the latest first, each with whether the server was enabled. -/
inductive Passes (man₀ : MCPManager) : List (Bool × PassInput) → MCPManager → Prop where
  | start : Passes man₀ [] man₀
  | state {ps : List (Bool × PassInput)} {man : MCPManager} (s : String) (h : Passes man₀ ps man) :
      Passes man₀ ps { man with config := { man.config with state := s } }
  | pass {ps : List (Bool × PassInput)} {man : MCPManager} (inp : PassInput) (h : Passes man₀ ps man) :
      Passes man₀ ((man.isEnabled, inp) :: ps) (man.manage inp).1

/-- The failing passes since the last one that reached the upstream or found the server disabled. -/
def failingPasses (ps : List (Bool × PassInput)) : Nat :=
  (ps.takeWhile fun p => p.1 && p.2.fails).length

variable {man : MCPManager} {inp : PassInput} {ps : List (Bool × PassInput)}

lemma manage_failing (henabled : man.isEnabled = true) (hfails : inp.fails = true) :
    ∃ err, man.manage inp = man.handleConnectionFailure err man.tools.length man.prompts.length := by
  unfold manage
  rw [henabled, if_neg (by decide)]
  unfold PassInput.fails at hfails
  cases hconnect : inp.connect with
  | error e => exact ⟨_, rfl⟩
  | ok _ =>
    cases hping : inp.ping with
    | error e => exact ⟨_, rfl⟩
    | ok _ =>
      rw [hconnect, hping] at hfails
      cases hfails

lemma failures_setStatus {err : Option String} {nt np : Nat} {it ip : List InvalidInfo}
    {v : Option String} : (man.setStatus err nt np it ip v).consecutiveFailures = man.consecutiveFailures := by
  obtain ⟨status, hstatus⟩ := setStatus_eq man err nt np it ip v
  rw [hstatus]

lemma failures_removeAllPrompts :
    man.removeAllPrompts.1.consecutiveFailures = man.consecutiveFailures := by
  unfold removeAllPrompts
  split_ifs <;> rfl

lemma failures_manageTools : (man.manageTools inp).man.consecutiveFailures = man.consecutiveFailures := by
  unfold manageTools updateTools
  split_ifs
  · rfl
  · split
    · rfl
    · dsimp only
      split
      · rfl
      · split <;> rfl

lemma failures_managePrompts : (man.managePrompts inp).man.consecutiveFailures = man.consecutiveFailures := by
  unfold managePrompts updatePrompts
  split_ifs
  · rfl
  · split
    · rfl
    · dsimp only
      split <;> rfl

/-- The counter of a manager after a pass. -/
lemma failures_manage : (man.manage inp).1.consecutiveFailures =
    if man.isEnabled && inp.fails then man.consecutiveFailures + 1 else 0 := by
  by_cases henabled : man.isEnabled = true
  · by_cases hfails : inp.fails = true
    · obtain ⟨err, herr⟩ := manage_failing henabled hfails
      rw [herr, henabled, hfails, if_pos (by rfl), handleConnectionFailure]
      dsimp only
      rw [failures_setStatus]
      split_ifs
      · exact failures_removeAllPrompts
      · rfl
    · rw [if_neg (by simp [hfails])]
      unfold PassInput.fails at hfails
      unfold manage
      rw [henabled, if_neg (by decide)]
      split
      · next hconnect => simp [hconnect] at hfails
      · next hconnect hping => simp [hconnect, hping] at hfails
      · dsimp only
        split_ifs
        · rfl
        · exact failures_setStatus.trans (failures_managePrompts.trans failures_manageTools)
  · rw [Bool.not_eq_true] at henabled
    rw [henabled, if_neg (by simp), manage, if_pos henabled]
    exact failures_setStatus

lemma Passes.failures {man₀ : MCPManager} (h : Passes man₀ ps man) (hnew : man₀.consecutiveFailures = 0) :
    man.consecutiveFailures = failingPasses ps := by
  induction h with
  | start => exact hnew
  | state s _ ih => exact ih
  | @pass ps man inp _ ih =>
    rw [failures_manage, failingPasses, List.takeWhile_cons, ih]
    split_ifs <;> rfl

/-- A failing pass that is not yet the third one in a row counts itself and reports a status.  The
tools, the prompts and the registry are left as they were. -/
theorem failing_pass_keeps {config : MCPServer} {policy : InvalidToolPolicy} {promptsServer : Bool}
    (h : Passes (newManager config policy promptsServer) ps man) (henabled : man.isEnabled = true)
    (hfails : inp.fails = true) (hfew : failingPasses ((true, inp) :: ps) < 3) :
    (∃ status, (man.manage inp).1 =
      { man with consecutiveFailures := man.consecutiveFailures + 1, status := status }) ∧
    ∀ g, (man.manage inp).2.foldl ManagerCall.apply g = g := by
  have hcount : man.consecutiveFailures + 1 < maxConsecutiveFailures := by
    rw [failingPasses, List.takeWhile_cons, hfails, Bool.and_self, if_pos rfl] at hfew
    rw [h.failures rfl]
    exact hfew
  obtain ⟨err, herr⟩ := manage_failing henabled hfails
  rw [herr, MCPManager.handleConnectionFailure]
  dsimp only
  rw [if_neg (Nat.not_le.2 hcount)]
  exact ⟨setStatus_eq _ _ _ _ _ _ _, fun g => rfl⟩

def downPass : PassInput := { MCPManager.healthyPass [] with connect := .error "refused" }

def weatherManager : MCPManager := newManager { name := "weather" } .filterOut true

/-- A manager that has registered a tool, after its first failing pass. -/
def weatherDown : MCPManager :=
  ((weatherManager.manage (MCPManager.healthyPass MCPManager.mixedAnswer)).1.manage downPass).1

/-- The tool is served through the second one. -/
theorem failing_pass_keeps_forecast : weatherDown.tools.length = 1 ∧ ∃ status,
    (weatherDown.manage downPass).1 = { weatherDown with consecutiveFailures := 2, status := status } := by
  have hstart : Passes weatherManager [] weatherManager := .start
  have hpasses := (hstart.pass (MCPManager.healthyPass MCPManager.mixedAnswer)).pass downPass
  exact ⟨by decide +kernel,
    (failing_pass_keeps hpasses (by decide +kernel) rfl (by decide +kernel)).1⟩

end McpGateway.Upstream
