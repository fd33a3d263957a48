import Mathlib.Data.List.Basic
import Mathlib.Tactic.Common

/-!
# Effect programs

Code that talks to shared objects is embedded as a tree of calls: a node names an operation and
continues with the answer.  The tree fixes what the code does and leaves open what the answers are,
so one definition serves a run against an arbitrary environment and an interleaving with other
code.

- `Prog` is the tree and `Prog.bind` sequences two of them.
- `Prog.Outcome` relates a program to a list of answered calls and a result, `Prog.Follows` to what is
  left of it.
- `Prog.Obeys` says that every call is allowed by the calls answered before it and that every
  result satisfies a postcondition; `obeys_bind` and `obeys_mono` are its rules.
-/

namespace Effect

structure Sig where
  Op : Type
  Resp : Op → Type

structure Ev (S : Sig) where
  op : S.Op
  resp : S.Resp op

/-- A program over the signature `S`. -/
inductive Prog (S : Sig) (α : Type) where
  | ret (a : α)
  | vis (o : S.Op) (k : S.Resp o → Prog S α)

namespace Prog

variable {S : Sig} {α β γ σ : Type}

/-- Run `p`, then continue with `f` on its result. -/
def bind : Prog S α → (α → Prog S β) → Prog S β
  | ret a, f => f a
  | vis o k, f => vis o fun r => (k r).bind f

def call (o : S.Op) : Prog S (S.Resp o) :=
  vis o ret

instance : Monad (Prog S) where
  pure := ret
  bind := bind

@[simp] lemma pure_eq (a : α) : (pure a : Prog S α) = ret a := rfl

@[simp] lemma ret_bind (a : α) (f : α → Prog S β) : (ret a >>= f) = f a := rfl

@[simp] lemma vis_bind (o : S.Op) (k : S.Resp o → Prog S α) (f : α → Prog S β) :
    (vis o k >>= f) = vis o fun r => k r >>= f := rfl

@[simp] lemma call_bind (o : S.Op) (f : S.Resp o → Prog S β) :
    (call o >>= f) = vis o f := rfl

lemma bind_assoc (p : Prog S α) (f : α → Prog S β) (g : β → Prog S γ) :
    (p >>= f) >>= g = p >>= fun a => f a >>= g := by
  induction p with
  | ret a => rfl
  | vis o k ih =>
    simp only [vis_bind]
    exact congrArg (vis o) (funext ih)

lemma bind_pure (p : Prog S α) : p >>= pure = p := by
  induction p with
  | ret a => rfl
  | vis o k ih => exact congrArg (vis o) (funext ih)

/-! ## Outcomes -/

/-- `Outcome p tr a`: with the answers in `tr`, the program `p` makes exactly these calls and
returns `a`. -/
inductive Outcome : Prog S α → List (Ev S) → α → Prop where
  | ret (a : α) : Outcome (ret a) [] a
  | vis {o : S.Op} {k : S.Resp o → Prog S α} {tr : List (Ev S)} {a : α} (r : S.Resp o)
      (h : Outcome (k r) tr a) : Outcome (vis o k) (⟨o, r⟩ :: tr) a

variable {a : α} {tr : List (Ev S)}

lemma outcome_ret_iff {b : α} : Outcome (Prog.ret a) tr b ↔ tr = [] ∧ b = a := by
  constructor
  · intro h
    cases h
    exact ⟨rfl, rfl⟩
  · rintro ⟨rfl, rfl⟩
    exact .ret _

lemma outcome_vis_iff {o : S.Op} {k : S.Resp o → Prog S α} :
    Outcome (Prog.vis o k) tr a ↔ ∃ r tr', tr = ⟨o, r⟩ :: tr' ∧ Outcome (k r) tr' a := by
  constructor
  · intro h
    cases h with
    | vis r h => exact ⟨r, _, rfl, h⟩
  · rintro ⟨r, tr', rfl, h⟩
    exact .vis r h

variable {p : Prog S α}

lemma Outcome.unique {b : α} (ha : Outcome p tr a) (hb : Outcome p tr b) : a = b := by
  induction ha with
  | ret a => exact (outcome_ret_iff.1 hb).2.symm
  | vis r _ ih =>
    cases hb with
    | vis _ hb => exact ih hb

variable {f : α → Prog S β}

lemma outcome_bind_iff {b : β} : Outcome (p >>= f) tr b ↔ ∃ a tr₁ tr₂, tr = tr₁ ++ tr₂ ∧ Outcome p tr₁ a ∧
    Outcome (f a) tr₂ b := by
  induction p generalizing tr with
  | ret a =>
    rw [ret_bind]
    constructor
    · intro h
      exact ⟨a, [], tr, rfl, .ret a, h⟩
    · rintro ⟨a', tr₁, tr₂, rfl, h₁, h₂⟩
      obtain ⟨rfl, rfl⟩ := outcome_ret_iff.1 h₁
      exact h₂
  | vis o k ih =>
    rw [vis_bind, outcome_vis_iff]
    constructor
    · rintro ⟨r, tr', rfl, h⟩
      obtain ⟨a, tr₁, tr₂, rfl, h₁, h₂⟩ := (ih r).1 h
      exact ⟨a, ⟨o, r⟩ :: tr₁, tr₂, rfl, .vis r h₁, h₂⟩
    · rintro ⟨a, tr₁, tr₂, rfl, h₁, h₂⟩
      obtain ⟨r, tr', rfl, hk⟩ := outcome_vis_iff.1 h₁
      exact ⟨r, tr' ++ tr₂, rfl, (ih r).2 ⟨a, tr', tr₂, rfl, hk, h₂⟩⟩

/-- Run a program against a state that answers its calls. -/
def exec (answer : σ → (o : S.Op) → Option (S.Resp o × σ)) : Prog S α → σ → Option (List (Ev S) × α)
  | ret a, _ => some ([], a)
  | vis o k, s => (answer s o).bind fun r =>
    ((k r.1).exec answer r.2).map fun out => (⟨o, r.1⟩ :: out.1, out.2)

lemma outcome_exec {answer : σ → (o : S.Op) → Option (S.Resp o × σ)} {s : σ}
    (h : p.exec answer s = some (tr, a)) : Outcome p tr a := by
  induction p generalizing s tr with
  | ret b =>
    cases h
    exact .ret _
  | vis o k ih =>
    obtain ⟨r, -, h⟩ := Option.bind_eq_some_iff.1 h
    obtain ⟨out, hout, h⟩ := Option.map_eq_some_iff.1 h
    cases h
    exact .vis r.1 (ih r.1 hout)

/-- `Follows p tr q`: with the answers in `tr`, the program `p` makes exactly these calls and goes on
as `q`. -/
inductive Follows : Prog S α → List (Ev S) → Prog S α → Prop where
  | refl (p : Prog S α) : Follows p [] p
  | vis {o : S.Op} {k : S.Resp o → Prog S α} {tr : List (Ev S)} {q : Prog S α} (r : S.Resp o)
      (h : Follows (k r) tr q) : Follows (vis o k) (⟨o, r⟩ :: tr) q

variable {q : Prog S α} {tr' : List (Ev S)}

lemma Follows.trans {s : Prog S α} (h : Follows p tr q)
    (h' : Follows q tr' s) : Follows p (tr ++ tr') s := by
  induction h with
  | refl p => exact h'
  | vis r _ ih => exact .vis r (ih h')

lemma follows_ret_iff : Follows p tr (Prog.ret a) ↔ Outcome p tr a := by
  constructor
  · intro h
    generalize hq : Prog.ret a = q at h
    induction h with
    | refl p =>
      subst hq
      exact .ret a
    | vis r _ ih => exact .vis r (ih hq)
  · intro h
    induction h with
    | ret a => exact .refl _
    | vis r _ ih => exact .vis r ih

/-! ## Obedience

The protocol `A` looks at the answered calls so far and the next operation; the postcondition `Q`
looks at the result and all answered calls. -/

/-- Started after the answered calls `tr`, the program only makes calls that `A` allows, and its
result satisfies `Q`. -/
def Obeys (A : List (Ev S) → S.Op → Prop) (Q : α → List (Ev S) → Prop) : Prog S α → List (Ev S) → Prop
  | ret a, tr => Q a tr
  | vis o k, tr => A tr o ∧ ∀ r, Obeys A Q (k r) (tr ++ [⟨o, r⟩])

section Rules

variable {A A' : List (Ev S) → S.Op → Prop} {Q Q' : α → List (Ev S) → Prop}
  {tr : List (Ev S)}

@[simp] lemma obeys_ret : Obeys A Q (ret a) tr ↔ Q a tr := Iff.rfl

lemma obeys_vis {o : S.Op} {k : S.Resp o → Prog S α} :
    Obeys A Q (vis o k) tr ↔ A tr o ∧ ∀ r, Obeys A Q (k r) (tr ++ [⟨o, r⟩]) := Iff.rfl

lemma obeys_bind {Q : β → List (Ev S) → Prop} :
    Obeys A Q (p >>= f) tr ↔ Obeys A (fun a tr => Obeys A Q (f a) tr) p tr := by
  induction p generalizing tr with
  | ret a => exact Iff.rfl
  | vis o k ih =>
    rw [vis_bind, obeys_vis, obeys_vis]
    exact and_congr Iff.rfl (forall_congr' fun r => ih r)

variable (h : Obeys A Q p tr)

include h

lemma obeys_mono_trace (hA : ∀ tr' o, tr <+: tr' → A tr' o → A' tr' o) (hQ : ∀ a tr',
    tr <+: tr' → Q a tr' → Q' a tr') : Obeys A' Q' p tr := by
  induction p generalizing tr with
  | ret a => exact hQ a tr (List.prefix_refl tr) h
  | vis o k ih =>
    refine ⟨hA tr o (List.prefix_refl tr) h.1, fun r => ?_⟩
    have hp : tr <+: tr ++ [⟨o, r⟩] := List.prefix_append _ _
    exact ih r (h.2 r) (fun tr' o' hpre => hA tr' o' (hp.trans hpre))
      fun a tr' hpre => hQ a tr' (hp.trans hpre)

lemma obeys_mono (hA : ∀ tr' o, A tr' o → A' tr' o) (hQ : ∀ a tr', Q a tr' →
    Q' a tr') : Obeys A' Q' p tr :=
  obeys_mono_trace h (fun tr' o _ => hA tr' o) fun a tr' _ => hQ a tr'

omit h in
lemma obeys_seq {Q' : β → List (Ev S) → Prop} (hp : Obeys A Q p tr) (hf : ∀ a tr', tr <+: tr' → Q a tr' →
    Obeys A Q' (f a) tr') : Obeys A Q' (p >>= f) tr :=
  obeys_bind.2 (obeys_mono_trace hp (fun _ _ _ h => h) hf)

lemma obeys_invariant {I : List (Ev S) → Prop} (hI : I tr)
    (hstep : ∀ tr' o r, I tr' → A tr' o → I (tr' ++ [⟨o, r⟩])) :
    Obeys (fun tr' o => I tr' ∧ A tr' o) (fun a tr' => I tr' ∧ Q a tr') p tr := by
  induction p generalizing tr with
  | ret a => exact ⟨hI, h⟩
  | vis o k ih => exact ⟨⟨hI, h.1⟩, fun r => ih r (h.2 r) (hstep tr o r hI h.1)⟩

lemma obeys_outcome :
    Obeys A (fun a tr' => Q a tr' ∧ ∃ tr₁, tr' = tr ++ tr₁ ∧ Outcome p tr₁ a) p tr := by
  induction p generalizing tr with
  | ret a => exact ⟨h, [], (List.append_nil tr).symm, .ret a⟩
  | vis o k ih =>
    refine ⟨h.1, fun r => obeys_mono (ih r (h.2 r)) (fun _ _ hA => hA) ?_⟩
    rintro a tr' ⟨hQ, tr₁, rfl, hout⟩
    exact ⟨hQ, ⟨o, r⟩ :: tr₁, by simp, .vis r hout⟩

lemma Obeys.outcome (ho : Outcome p tr' a) : Q a (tr ++ tr') := by
  induction ho generalizing tr with
  | ret a => simpa using h
  | vis r _ ih => simpa using ih (h.2 r)

/-- A call of a run was allowed by the calls before it. -/
lemma Obeys.allowed (ho : Outcome p tr' a) {e : Ev S} (he : e ∈ tr') :
    ∃ before, before <+: tr ++ tr' ∧ A before e.op := by
  induction ho generalizing tr with
  | ret a => cases he
  | vis r _ ih =>
    rcases List.mem_cons.1 he with rfl | he
    · exact ⟨tr, List.prefix_append _ _, h.1⟩
    · obtain ⟨before, hbefore, hA⟩ := ih (h.2 r) he
      exact ⟨before, by simpa using hbefore, hA⟩

end Rules

end Prog

export Prog (outcome_ret_iff outcome_bind_iff obeys_seq obeys_mono ret_bind pure_eq)

end Effect
