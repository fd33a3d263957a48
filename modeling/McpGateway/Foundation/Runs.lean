import McpGateway.Foundation.Effect

/-!
# Undisturbed runs

A program that nobody interferes with, run against a world that answers each of its calls: `eval`
gives the result and the world it leaves.  `eval_bind` takes a run apart along the program.  `Ensures`
bounds the calls of a program and its result in every world, `Ensures.eval` is its use in a run.
-/

namespace Effect.Prog

variable {S : Sig} {α β ω : Type} {answer : ω → (o : S.Op) → S.Resp o × ω} {w : ω}

/-- Run a program from `w`. -/
def eval (answer : ω → (o : S.Op) → S.Resp o × ω) : Prog S α → ω → α × ω
  | ret a, w => (a, w)
  | vis o k, w => eval answer (k (answer w o).1) (answer w o).2

@[simp] lemma eval_ret {a : α} : (ret a).eval answer w = (a, w) := rfl

@[simp] lemma eval_call {o : S.Op} : (call o).eval answer w = answer w o := rfl

variable {f : α → Prog S β}

@[simp] lemma eval_bind {p : Prog S α} :
    (p >>= f).eval answer w = (f (p.eval answer w).1).eval answer (p.eval answer w).2 := by
  induction p generalizing w with
  | ret a => rfl
  | vis o k ih => exact ih _

/-- Every call is in `P` and every result in `Q`, whatever the answers are. -/
def Ensures (P : S.Op → Prop) (Q : α → Prop) : Prog S α → Prop
  | ret a => Q a
  | vis o k => P o ∧ ∀ r, Ensures P Q (k r)

variable {P : S.Op → Prop} {Q : α → Prop} {R : β → Prop} {p : Prog S α}

lemma Ensures.mono {R : α → Prop} (h : p.Ensures P Q) (hQ : ∀ a, Q a → R a) : p.Ensures P R := by
  induction p with
  | ret a => exact hQ a h
  | vis o k ih => exact ⟨h.1, fun r => ih r (h.2 r)⟩

lemma Ensures.bind (h : p.Ensures P Q) (hf : ∀ a, Q a → (f a).Ensures P R) :
    (p >>= f).Ensures P R := by
  induction p with
  | ret a => exact hf a h
  | vis o k ih => exact ⟨h.1, fun r => ih r (h.2 r)⟩

/-- A run makes a change that each of the calls makes. -/
lemma Ensures.eval {I : ω → ω → Prop} (h : p.Ensures P Q) (hrefl : ∀ w, I w w) (htrans : ∀ {a b c},
    I a b → I b c → I a c) (hstep : ∀ w o, P o → I w (answer w o).2) : I w (p.eval answer w).2 ∧
    Q (p.eval answer w).1 := by
  induction p generalizing w with
  | ret a => exact ⟨hrefl w, h⟩
  | vis o k ih =>
    obtain ⟨hrel, hq⟩ := ih (answer w o).1 (w := (answer w o).2) (h.2 _)
    exact ⟨htrans (hstep w o h.1) hrel, hq⟩

end Effect.Prog
