import McpGateway.Foundation.Traced

/-!
# Lock discipline

What a goroutine may do around one mutex that is not reentrant: it must not acquire the mutex, for
reading or writing, while it holds it, and it must not wait for another goroutine meanwhile.  The
discipline is a property of the trace of the goroutine; `act` says what an event does.

- `Quiet` events leave the question as it is.
-/

namespace Lock

inductive Act where
  | acquire
  | release
  /-- wait for another goroutine -/
  | wait
  deriving DecidableEq, Repr

variable {ε : Type} (act : ε → Option Act)

/-- No acquisition and no wait happens while the mutex is held; `d` counts how often it is held. -/
def disciplined (d : Nat) : List ε → Bool
  | [] => true
  | e :: es =>
    match act e with
    | some .acquire => d = 0 && disciplined (d + 1) es
    | some .release => disciplined (d - 1) es
    | some .wait => d = 0 && disciplined d es
    | none => disciplined d es

variable {act}

def Quiet (act : ε → Option Act) (es : List ε) : Prop :=
  ∀ e ∈ es, act e = none

lemma Quiet.disciplined {es : List ε} (h : Quiet act es) (d : Nat) :
    Lock.disciplined act d es = true := by
  induction es with
  | nil => rfl
  | cons e es ih =>
    rw [Lock.disciplined, h e List.mem_cons_self]
    exact ih fun e' he' => h e' (List.mem_cons_of_mem _ he')

lemma not_disciplined_acquire {e : ε} {es : List ε} {d : Nat} (he : act e = some .acquire)
    (hd : d ≠ 0) : disciplined act d (e :: es) = false := by
  simp [disciplined, he, hd]

end Lock
