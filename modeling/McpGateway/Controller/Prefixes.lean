import Mathlib.Data.List.MinMax
import Mathlib.Data.Prod.Lex
import Mathlib.Data.String.Basic
import McpGateway.Controller.Registrations

/-!
# Who owns an agent prefix

Registrations of one namespace may claim the same prefix.  The check of a reconcile looks for an older
contender; age and name order the registrations, so the reconciles agree on one owner.
-/

namespace McpGateway.Controller.Agent

open Go Effect Kubernetes

variable {a b : A2AAgentRegistration} {items listed : List A2AAgentRegistration}

/-- The registration claims the prefix; one that is being deleted does not. -/
def Claims (agentPrefix : String) (a : A2AAgentRegistration) : Prop :=
  a.spec.agentPrefix = agentPrefix ∧ a.deletionTimestamp = none

/-- What orders the registrations. -/
def seniority (a : A2AAgentRegistration) : ℕ ×ₗ String := toLex (a.creationTimestamp, a.name)

lemma registrationOlder_iff : registrationOlder a b = true ↔ seniority a < seniority b := by
  rw [registrationOlder, seniority, seniority, Prod.Lex.toLex_lt_toLex]
  by_cases heq : a.creationTimestamp = b.creationTimestamp
  · simp [heq]
  · simp [heq]

/-- The check of the registration finds no older owner among those listed. -/
def Passes (a : A2AAgentRegistration) (listed : List A2AAgentRegistration) : Prop :=
  (olderPrefixOwner a).Outcome
    [⟨.list .a2aAgentRegistration (.inNamespace a.ns), .ok listed⟩] (.ok "")

variable {agentPrefix : String}

/-- A registration passes the check if no other one that claims the prefix comes before it. -/
lemma passes_iff (hnames : ∀ b ∈ listed, b.name ≠ "")
    (hself : ∀ b ∈ listed, b.name = a.name → b = a) (ha : Claims agentPrefix a) :
    Passes a listed ↔ ∀ b ∈ listed, Claims agentPrefix b → seniority a ≤ seniority b := by
  have hout : Passes a listed ↔ listed.find? (fun other =>
      other.name ≠ a.name && other.spec.agentPrefix = a.spec.agentPrefix &&
        other.deletionTimestamp.isNone && registrationOlder other a) = none := by
    set owner := listed.find? _ with howner
    have hret : Passes a listed ↔ (owner.map (·.name)).getD "" = "" := by
      unfold Passes
      constructor
      · rintro (_ | ⟨_, h⟩)
        exact Except.ok.inj (outcome_ret_iff.1 h).2.symm
      · intro h
        refine .vis _ ?_
        exact outcome_ret_iff.2 ⟨rfl, congrArg Except.ok h.symm⟩
    rw [hret]
    cases hfound : owner with
    | none => simp
    | some b => simpa using hnames b (mem_of_find?_eq_some (howner.symm.trans hfound))
  rw [hout, List.find?_eq_none]
  refine forall₂_congr fun b hb => ?_
  obtain ⟨rfl, -⟩ := ha
  rw [← not_lt, ← registrationOlder_iff]
  by_cases hname : b.name = a.name
  · -- a registration is not older than itself
    obtain rfl := hself b hb hname
    simp [registrationOlder]
  · simp [hname, Claims]

/-- Whatever the order in which they are listed, exactly one of the registrations that claim a prefix
passes the check. -/
theorem prefix_owned (hnames : ∀ a ∈ items, a.name ≠ "") (hnodup : (items.map (·.name)).Nodup)
    (hclaimed : ∃ a ∈ items, Claims agentPrefix a) :
    ∃ owner ∈ items, Claims agentPrefix owner ∧ ∀ a ∈ items, Claims agentPrefix a →
      ∀ listed, listed.Perm items → (Passes a listed ↔ a = owner) := by
  have hinj : ∀ a ∈ items, ∀ b ∈ items, a.name = b.name → a = b := fun a ha b hb =>
    List.inj_on_of_nodup_map hnodup ha hb
  classical
  obtain ⟨owner, howner⟩ : ∃ m, m ∈ (items.filter (Claims agentPrefix ·)).argmin seniority := by
    obtain ⟨a, ha, hclaims⟩ := hclaimed
    refine isSome_iff_exists.1 (Option.isSome_iff_ne_none.2 fun hnone => ?_)
    have hempty := List.argmin_eq_none.1 hnone
    exact List.ne_nil_of_mem (mem_filter.2 ⟨ha, decide_eq_true hclaims⟩) hempty
  have hmem := mem_filter.1 (List.argmin_mem howner)
  have hfirst : ∀ b ∈ items, Claims agentPrefix b → seniority owner ≤ seniority b := fun b hb hclaims =>
    List.le_of_mem_argmin (mem_filter.2 ⟨hb, decide_eq_true hclaims⟩) howner
  refine ⟨owner, hmem.1, of_decide_eq_true hmem.2, fun a ha hclaims listed hperm => ?_⟩
  rw [passes_iff (fun b hb => hnames b (hperm.subset hb))
    (fun b hb => hinj b (hperm.subset hb) a ha) hclaims]
  constructor
  · intro hle
    have heq := le_antisymm (hle owner (hperm.symm.subset hmem.1) (of_decide_eq_true hmem.2))
      (hfirst a ha hclaims)
    exact hinj a ha owner hmem.1 (congrArg (fun p => (ofLex p).2) heq)
  · rintro rfl b hb hclaims'
    exact hfirst b (hperm.subset hb) hclaims'

/-- Two registrations of the same age. -/
def contenders : List A2AAgentRegistration :=
  ["b", "a"].map fun name => { name, ns := "team", creationTimestamp := 7,
                               spec := { targetRef := { name := "route" }, agentPrefix := "p" } }

/-- One of them passes the check. -/
theorem prefix_owned_tie : ∃ owner ∈ contenders, Passes owner contenders := by
  obtain ⟨owner, hmem, hclaims, hiff⟩ := @prefix_owned contenders "p" (by simp [contenders])
    (by simp [contenders]) ⟨_, mem_cons_self, rfl, rfl⟩
  exact ⟨owner, hmem, (hiff owner hmem hclaims _ (.refl _)).2 rfl⟩

end McpGateway.Controller.Agent
