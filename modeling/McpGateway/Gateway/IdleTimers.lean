import McpGateway.Gateway.Resurrection

/-!
# The idle timer of a resurrected session

The timer is paused while requests are in flight and armed again when the last of them ends. It fires
once for each arming, and is stopped for good when the session ends.
-/

namespace McpGateway.Resurrection.IdleState

open Session

def isArmed (e : IdleState) : Bool :=
  match e.timer with
  | .armed _ => true
  | _ => false

/-- A timer that has fired does not run any more; it closes the session. -/
def fire (e : IdleState) : IdleState := { e with timer := .paused }

/-- What happens to the timer, each request under its own number. -/
inductive Op where
  | start (r : ℕ)
  | finish (r : ℕ) (now : Time)
  | fire
  | stop
  deriving DecidableEq

def apply (e : IdleState) : Op → IdleState
  | .start _ => e.startRequest
  | .finish _ now => e.endRequest now
  | .fire => e.fire
  | .stop => e.stopTimer

/-- The state after a run, the latest operation first, from the timer that `resurrect` starts. -/
def run (now : Time) : List Op → IdleState
  | [] => ⟨0, .armed (now + sessionIdleTimeout)⟩
  | op :: ops => (run now ops).apply op

/-- The requests that have started and not yet ended. -/
def inFlight : List Op → List ℕ
  | [] => []
  | .start r :: ops => r :: inFlight ops
  | .finish r _ :: ops => (inFlight ops).erase r
  | _ :: ops => inFlight ops

/-- The runs in which a request starts once and ends after its own start, and only an armed timer
fires. -/
inductive Interleaving (now : Time) : List Op → Prop where
  | nil : Interleaving now []
  | start {ops : List Op} {r : ℕ} : Interleaving now ops → .start r ∉ ops →
      Interleaving now (.start r :: ops)
  | finish {ops : List Op} {r : ℕ} (t : Time) : Interleaving now ops → r ∈ inFlight ops →
      Interleaving now (.finish r t :: ops)
  | fire {ops : List Op} : Interleaving now ops → (run now ops).isArmed = true →
      Interleaving now (.fire :: ops)
  | stop {ops : List Op} : Interleaving now ops → Interleaving now (.stop :: ops)

variable {e : IdleState} {ops : List Op} {now : Time}

/-- The counter and the timer after a run that has not stopped it. -/
structure Follows (e : IdleState) (ops : List Op) : Prop where
  timer : e.timer ≠ .none
  refs : e.refs = (inFlight ops).length
  armed : e.isArmed = true ↔ inFlight ops = [] ∧ ops.head? ≠ some .fire

lemma Follows.start (h : Follows e ops) (r : ℕ) : Follows e.startRequest (.start r :: ops) := by
  obtain ⟨refs, timer⟩ := e
  obtain ⟨htimer, rfl, harmed⟩ := h
  cases timer with
  | none => exact absurd rfl htimer
  | paused => constructor <;> simp [startRequest, inFlight, isArmed]
  | armed due =>
    have hidle := (harmed.1 rfl).1
    constructor <;> simp [startRequest, inFlight, isArmed, hidle]

lemma Follows.finish (h : Follows e ops) {r : ℕ} (hr : r ∈ inFlight ops) (t : Time) :
    Follows (e.endRequest t) (.finish r t :: ops) := by
  obtain ⟨refs, timer⟩ := e
  obtain ⟨htimer, rfl, harmed⟩ := h
  have hlength := List.length_erase_of_mem hr
  have hpos := List.length_pos_of_mem hr
  have hlast : ((inFlight ops).length : Int) - 1 = 0 ↔ (inFlight ops).erase r = [] := by
    rw [← List.length_eq_zero_iff]
    omega
  cases timer with
  | none => exact absurd rfl htimer
  | paused =>
    simp only [endRequest, hlast]
    refine ⟨?_, ?_, ?_⟩
    · split_ifs <;> simp
    · simp only [inFlight]
      omega
    · by_cases hnil : (inFlight ops).erase r = [] <;> simp [inFlight, isArmed, hnil]
  | armed due => exact absurd (harmed.1 rfl).1 (List.ne_nil_of_mem hr)

lemma Interleaving.follows (h : Interleaving now ops) (hstop : .stop ∉ ops) :
    Follows (run now ops) ops := by
  induction h with
  | nil => constructor <;> simp [run, inFlight, isArmed]
  | start _ _ ih => exact (ih fun hmem => hstop (.tail _ hmem)).start _
  | finish t _ hr ih => exact (ih fun hmem => hstop (.tail _ hmem)).finish hr t
  | fire _ _ ih =>
    have hrefs := (ih fun hmem => hstop (.tail _ hmem)).refs
    constructor <;> simp [run, apply, IdleState.fire, inFlight, isArmed, hrefs]
  | stop _ _ => exact absurd List.mem_cons_self hstop

lemma Interleaving.stopped (h : Interleaving now ops) (hstop : .stop ∈ ops) :
    (run now ops).timer = .none := by
  induction h with
  | nil => cases hstop
  | start _ _ ih => simp [run, apply, startRequest, ih (by simpa using hstop)]
  | finish _ _ _ ih => simp [run, apply, endRequest, ih (by simpa using hstop)]
  | fire _ harmed ih =>
    -- a stopped timer does not fire
    simp [isArmed, ih (by simpa using hstop)] at harmed
  | stop _ _ => rfl

/-- Until it is stopped, the counter is the number of requests in flight, and the timer is armed exactly
when that number is zero and the timer has not fired since; once stopped, it is never armed again. -/
theorem timer_follows_requests (h : Interleaving now ops) :
    (.stop ∉ ops → (run now ops).refs = (inFlight ops).length ∧
      ((run now ops).isArmed = true ↔ inFlight ops = [] ∧ ops.head? ≠ some .fire)) ∧
    (.stop ∈ ops → (run now ops).isArmed = false) := by
  refine ⟨fun hstop => ⟨(h.follows hstop).refs, (h.follows hstop).armed⟩, fun hstop => ?_⟩
  rw [isArmed, h.stopped hstop]

/-- A request starts and ends, the timer fires, and the session ends. -/
theorem timer_follows_requests_fired :
    (run 0 [.fire, .finish 0 1, .start 0]).refs = 0 ∧
      (run 0 [.stop, .fire, .finish 0 1, .start 0]).isArmed = false := by
  have hfire : Interleaving 0 [.fire, .finish 0 1, .start 0] :=
    .fire (.finish 1 (.start .nil (by simp)) (by simp [inFlight])) (by decide)
  exact ⟨((timer_follows_requests hfire).1 (by decide)).1,
    (timer_follows_requests hfire.stop).2 (by decide)⟩

/-- No request is in flight and the timer has fired, so it is not armed. -/
theorem fired_not_armed : ¬ ∀ now ops, Interleaving now ops → .stop ∉ ops →
    ((run now ops).isArmed = true ↔ inFlight ops = []) := by
  intro h
  have hfire : Interleaving 0 [.fire] := .fire .nil (by decide)
  exact absurd ((h 0 _ hfire (by decide)).2 rfl) (by decide)

end McpGateway.Resurrection.IdleState
