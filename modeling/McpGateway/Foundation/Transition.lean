import Mathlib.Data.Set.Basic
import Mathlib.Tactic.Common

/-!
# Steps, runs and exclusive claims

A system is a partial function `step` from a label and a state to the next state; a label carries
every choice that the step leaves open.  `guarded` keeps the steps that meet a condition, so that a
property of the guarded system is one of the runs all of whose steps meet it.

- `Reachable.invariant`: what every step keeps holds in every reachable state.
- `Exclusive`: each party claims some names, no two parties the same one, and a name is held only by
  a party that claims it; `Exclusive.step` is what one party may do.
-/

namespace Transition

section Runs

variable {ℓ σ : Type} {step : ℓ → σ → Option σ} {guard : ℓ → σ → Bool} {s₀ s s' : σ} {l : ℓ}

def run (step : ℓ → σ → Option σ) : σ → List ℓ → Option σ
  | s, [] => some s
  | s, l :: ls => (step l s).bind fun s' => run step s' ls

/-- Some run leads from `s₀` to `s`. -/
def Reachable (step : ℓ → σ → Option σ) (s₀ s : σ) : Prop :=
  ∃ ls, run step s₀ ls = some s

lemma run_append (s : σ) (ls ls' : List ℓ) :
    run step s (ls ++ ls') = (run step s ls).bind fun s' => run step s' ls' := by
  induction ls generalizing s with
  | nil => rfl
  | cons l ls ih =>
    rw [List.cons_append, run, run, Option.bind_assoc]
    exact congrArg _ (funext fun s' => ih s')

lemma Reachable.trans (h : Reachable step s₀ s) (h' : Reachable step s s') : Reachable step s₀ s' := by
  rcases h with ⟨ls, hrun⟩
  rcases h' with ⟨ls', hrun'⟩
  refine ⟨ls ++ ls', ?_⟩
  rw [run_append, hrun]
  exact hrun'

def guarded (guard : ℓ → σ → Bool) (step : ℓ → σ → Option σ) : ℓ → σ → Option σ :=
  fun l s => if guard l s then step l s else none

lemma guarded_eq_some : guarded guard step l s = some s' ↔ guard l s = true ∧ step l s = some s' := by
  unfold guarded
  split_ifs with h <;> simp [h]

lemma Reachable.invariant {P : σ → Prop} (h : Reachable step s₀ s) (h₀ : P s₀)
    (hstep : ∀ l s s', step l s = some s' → P s → P s') : P s := by
  obtain ⟨ls, hrun⟩ := h
  induction ls generalizing s₀ with
  | nil =>
    cases hrun
    exact h₀
  | cons l ls ih =>
    obtain ⟨s₁, hs₁, hrest⟩ := Option.bind_eq_some_iff.1 hrun
    exact ih (hstep l s₀ s₁ hs₁ h₀) hrest

lemma Reachable.of_guarded (h : Reachable (guarded guard step) s₀ s) : Reachable step s₀ s := by
  obtain ⟨ls, hrun⟩ := h
  refine ⟨ls, ?_⟩
  induction ls generalizing s₀ with
  | nil => exact hrun
  | cons l ls ih =>
    obtain ⟨s₁, hs₁, hrest⟩ := Option.bind_eq_some_iff.1 hrun
    exact Option.bind_eq_some_iff.2 ⟨s₁, (guarded_eq_some.1 hs₁).2, ih hrest⟩

end Runs

/-! ## Exclusive claims -/

section Claims

variable {P N : Type} {claims claims' : P → Set N} {holder holder' : N → Option P}

/-- No name has two claimants, and every holder has a claim. -/
structure Exclusive (claims : P → Set N) (holder : N → Option P) : Prop where
  disjoint : ∀ p q n, n ∈ claims p → n ∈ claims q → p = q
  held : ∀ n p, holder n = some p → n ∈ claims p

lemma Exclusive.step (h : Exclusive claims holder) (p : P) (hothers : ∀ q ≠ p, claims' q = claims q)
    (hfree : ∀ n ∈ claims' p, n ∈ claims p ∨ ∀ q ≠ p, n ∉ claims q)
    (hheld : ∀ n q, holder' n = some q → (q = p ∧ n ∈ claims' p) ∨ (q ≠ p ∧ holder n = some q)) :
    Exclusive claims' holder' where
  disjoint := by
    -- a name of `p` that another party claims was already claimed by `p`
    have hown : ∀ q n, n ∈ claims' p → n ∈ claims' q → p = q := by
      intro q n hp hq
      by_contra hne
      rw [hothers q (Ne.symm hne)] at hq
      rcases hfree n hp with hold | hfree
      · exact hne (h.disjoint p q n hold hq)
      · exact hfree q (Ne.symm hne) hq
    intro q r n hq hr
    by_cases hqp : q = p
    · subst hqp
      exact hown r n hq hr
    · by_cases hrp : r = p
      · subst hrp
        exact (hown q n hr hq).symm
      · rw [hothers q hqp] at hq
        rw [hothers r hrp] at hr
        exact h.disjoint q r n hq hr
  held := by
    intro n q hn
    rcases hheld n q hn with ⟨rfl, hclaimed⟩ | ⟨hne, hold⟩
    · exact hclaimed
    · rw [hothers q hne]
      exact h.held n q hold

end Claims

end Transition
