import Mathlib.Data.List.Basic
import Mathlib.Tactic.Common

/-!
# Code that leaves a trace

Sequential code over a state `σ` that also leaves a trace of events `ε`: the locks it takes, the
calls it makes on other components.  What the code computes and what it does in which order can then
be stated about the same definition.

The simp lemmas compute the trace, the result and the final state of a compound program from those
of its parts.
-/

/-- Code over the state `σ` with events `ε`. -/
def TraceM (σ ε α : Type) : Type := σ → α × σ × List ε

namespace TraceM

variable {σ ε α β : Type}

def result (p : TraceM σ ε α) (s : σ) : α := (p s).1

def final (p : TraceM σ ε α) (s : σ) : σ := (p s).2.1

def trace (p : TraceM σ ε α) (s : σ) : List ε := (p s).2.2

instance : Monad (TraceM σ ε) where
  pure a := fun s => (a, s, [])
  bind p f := fun s =>
    let (a, s₁, es₁) := p s
    let (b, s₂, es₂) := f a s₁
    (b, s₂, es₁ ++ es₂)

def emit (e : ε) : TraceM σ ε Unit := fun s => ((), s, [e])

def gets (f : σ → α) : TraceM σ ε α := fun s => (f s, s, [])

def modify (f : σ → σ) : TraceM σ ε Unit := fun s => ((), f s, [])

/-- Run the code between two events, as `defer` does. -/
def bracket (before after : ε) (p : TraceM σ ε α) : TraceM σ ε α := do
  emit before
  let a ← p
  emit after
  pure a

variable (p : TraceM σ ε α) (f : α → TraceM σ ε β) (s : σ)

@[simp] lemma trace_pure (a : α) : trace (pure a : TraceM σ ε α) s = [] := rfl
@[simp] lemma result_pure (a : α) : result (pure a : TraceM σ ε α) s = a := rfl
@[simp] lemma final_pure (a : α) : final (pure a : TraceM σ ε α) s = s := rfl

@[simp] lemma trace_bind :
    trace (p >>= f) s = trace p s ++ trace (f (result p s)) (final p s) := rfl
@[simp] lemma result_bind : result (p >>= f) s = result (f (result p s)) (final p s) := rfl
@[simp] lemma final_bind : final (p >>= f) s = final (f (result p s)) (final p s) := rfl

@[simp] lemma trace_emit (e : ε) : trace (emit e : TraceM σ ε Unit) s = [e] := rfl
@[simp] lemma final_emit (e : ε) : final (emit e : TraceM σ ε Unit) s = s := rfl

@[simp] lemma trace_gets (g : σ → α) : trace (gets g : TraceM σ ε α) s = [] := rfl
@[simp] lemma result_gets (g : σ → α) : result (gets g : TraceM σ ε α) s = g s := rfl
@[simp] lemma final_gets (g : σ → α) : final (gets g : TraceM σ ε α) s = s := rfl

@[simp] lemma trace_modify (g : σ → σ) : trace (modify g : TraceM σ ε Unit) s = [] := rfl
@[simp] lemma final_modify (g : σ → σ) : final (modify g : TraceM σ ε Unit) s = g s := rfl

@[simp] lemma trace_bracket (before after : ε) :
    trace (bracket before after p) s = before :: (trace p s ++ [after]) := by
  simp [bracket]

@[simp] lemma result_bracket (before after : ε) :
    result (bracket before after p) s = result p s := rfl

@[simp] lemma final_bracket (before after : ε) :
    final (bracket before after p) s = final p s := rfl

def each (xs : List β) (body : β → TraceM σ ε Unit) : TraceM σ ε Unit :=
  match xs with
  | [] => pure ()
  | x :: rest => do
    body x
    each rest body

end TraceM
