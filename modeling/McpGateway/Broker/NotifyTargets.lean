import McpGateway.Foundation.Keyed
import McpGateway.Session.Token

/-!
# Who is told of a change

`gatewayServer` limits a `tools/list_changed` notification to the sessions that are owed one.  A mark
for one session or for all of them lasts for `notifyWindow`; expired marks are dropped by the way.
-/

namespace McpGateway.Broker

open Go Session

def notifyWindow : Time := 5 * second

/-- Which sessions are to be notified, and until when all of them are. -/
structure NotifyState where
  notifyTargets : GoMap Time := ∅
  broadcastUntil : Time := 0

inductive NotifyOp where
  | markBroadcast
  | markNotifyTarget (sessionID : String)
  | shouldDeliver (sessionID : String)

namespace NotifyState

variable (s : NotifyState)

/-- The targets whose claims have not expired. -/
def dropExpired (now : Time) : GoMap Time :=
  Keyed.unregister ((s.notifyTargets.pairs.filter fun p => p.2 < now).map Prod.fst) s.notifyTargets

def markBroadcast (now : Time) : NotifyState := { s with broadcastUntil := now + notifyWindow }

def markNotifyTarget (now : Time) (sessionID : String) : NotifyState :=
  { s with notifyTargets := AList.insert sessionID (now + notifyWindow) (s.dropExpired now) }

def shouldDeliver (now : Time) (sessionID : String) : Bool × NotifyState :=
  if now < s.broadcastUntil then (true, s)
  else
    let live := s.dropExpired now
    (live.pairs.isEmpty || (live.lookup sessionID).isSome, { s with notifyTargets := live })

def step (now : Time) : NotifyOp → NotifyState
  | .markBroadcast => s.markBroadcast now
  | .markNotifyTarget sessionID => s.markNotifyTarget now sessionID
  | .shouldDeliver sessionID => (s.shouldDeliver now sessionID).2

variable {s} {t now : Time} {id : String}

lemma lookup_dropExpired :
    (s.dropExpired now).lookup id = (s.notifyTargets.lookup id).filter (now ≤ ·) := by
  have hmem : id ∈ (s.notifyTargets.pairs.filter fun p => p.2 < now).map Prod.fst ↔
      ∃ e, s.notifyTargets.lookup id = some e ∧ e < now := by
    simp [mem_pairs_iff]
  rw [dropExpired, Keyed.lookup_unregister]
  cases hlook : s.notifyTargets.lookup id with
  | none => exact ite_self _
  | some e =>
    by_cases he : e < now
    · simp [hmem, hlook, he, Option.filter]
    · simp [hmem, hlook, he, Option.filter, Nat.le_of_not_lt he]

/-- The session has a claim that has not expired. -/
def Live (m : GoMap Time) (now : Time) (id : String) : Prop :=
  ∃ exp, m.lookup id = some exp ∧ now ≤ exp

/-- What is dropped at a time has no effect later. -/
lemma live_dropExpired (hle : t ≤ now) :
    Live (s.dropExpired t) now id ↔ Live s.notifyTargets now id := by
  simp only [Live, lookup_dropExpired, Option.filter_eq_some_iff, decide_eq_true_eq]
  constructor
  · rintro ⟨exp, ⟨hexp, -⟩, hnow⟩
    exact ⟨exp, hexp, hnow⟩
  · rintro ⟨exp, hexp, hnow⟩
    exact ⟨exp, ⟨hexp, hle.trans hnow⟩, hnow⟩

lemma isSome_dropExpired :
    ((s.dropExpired now).lookup id).isSome = true ↔ Live s.notifyTargets now id := by
  simp only [lookup_dropExpired, isSome_iff_exists, Option.filter_eq_some_iff,
    decide_eq_true_eq, Live]

end NotifyState

open NotifyState

/-- What happened, the latest first, at times that do not go back. -/
inductive NotifyRun : List (Time × NotifyOp) → NotifyState → Prop where
  | nil : NotifyRun [] {}
  | next {ops : List (Time × NotifyOp)} {s : NotifyState} {now : Time} (h : NotifyRun ops s)
      (hnow : ∀ p ∈ ops, p.1 ≤ now) (op : NotifyOp) : NotifyRun ((now, op) :: ops) (s.step now op)

namespace NotifyRun

variable {ops : List (Time × NotifyOp)} {s : NotifyState} {t now : Time} {id : String}

lemma lt_broadcastUntil_iff (h : NotifyRun ops s) :
    now < s.broadcastUntil ↔ ∃ t, (t, .markBroadcast) ∈ ops ∧ now < t + notifyWindow := by
  induction h with
  | nil => simp
  | @next ops s t h hle op ih =>
    cases op with
    | markBroadcast =>
      constructor
      · intro hlt
        exact ⟨t, mem_cons_self, hlt⟩
      · rintro ⟨t', hmem, hlt⟩
        rcases mem_cons.1 hmem with heq | hold
        · cases heq
          exact hlt
        · -- an earlier mark does not last longer
          exact hlt.trans_le (Nat.add_le_add_right (hle _ hold) _)
    | markNotifyTarget id => simpa [step, markNotifyTarget] using ih
    | shouldDeliver id =>
      rw [step, shouldDeliver]
      split_ifs <;> simpa using ih

/-- A mark is only forgotten once it has expired. -/
lemma live_iff (h : NotifyRun ops s) (hnow : ∀ p ∈ ops, p.1 ≤ now) :
    Live s.notifyTargets now id ↔
      ∃ t, (t, .markNotifyTarget id) ∈ ops ∧ now ≤ t + notifyWindow := by
  induction h with
  | nil => simp [Live]
  | @next ops s t h hle op ih =>
    obtain ⟨ht, hold⟩ := forall_mem_cons.1 hnow
    cases op with
    | markBroadcast => simpa [step, markBroadcast] using ih hold
    | markNotifyTarget id₀ =>
      by_cases hid : id = id₀
      · subst hid
        have hlive : Live (s.markNotifyTarget t id).notifyTargets now id ↔
            now ≤ t + notifyWindow := by
          simp [Live, markNotifyTarget]
        rw [step, hlive]
        constructor
        · intro hwithin
          exact ⟨t, mem_cons_self, hwithin⟩
        · rintro ⟨t', hmem, hwithin⟩
          rcases mem_cons.1 hmem with heq | hmem
          · cases heq
            exact hwithin
          · exact hwithin.trans (Nat.add_le_add_right (hle _ hmem) _)
      · -- the other claims are kept unless they have expired
        have hlive : Live (s.markNotifyTarget t id₀).notifyTargets now id ↔
            Live (s.dropExpired t) now id := by
          simp [Live, markNotifyTarget, hid]
        rw [step, hlive, live_dropExpired ht, ih hold]
        simp [hid]
    | shouldDeliver id₀ =>
      rw [step, shouldDeliver]
      split_ifs
      · simpa using ih hold
      · rw [live_dropExpired ht, ih hold]
        simp

end NotifyRun

/-- No broadcast is pending, another session is owed a notification and this one is not. -/
def NotOwed (ops : List (Time × NotifyOp)) (now : Time) (sid : String) : Prop :=
  (∀ t, (t, .markBroadcast) ∈ ops → t + notifyWindow ≤ now) ∧
    (∃ id t, (t, .markNotifyTarget id) ∈ ops ∧ now ≤ t + notifyWindow) ∧
      ∀ t, (t, .markNotifyTarget sid) ∈ ops → t + notifyWindow < now

/-- A notification is withheld exactly from the sessions that are not owed one. -/
theorem withheld_iff {ops : List (Time × NotifyOp)} {s : NotifyState} {now : Time} (h : NotifyRun ops s)
    (hnow : ∀ p ∈ ops, p.1 ≤ now) (sid : String) :
    (s.shouldDeliver now sid).1 = false ↔ NotOwed ops now sid := by
  have hwithheld : (s.shouldDeliver now sid).1 = false ↔ ¬ now < s.broadcastUntil ∧
      (∃ id, Live s.notifyTargets now id) ∧ ¬ Live s.notifyTargets now sid := by
    have hnonempty : (s.dropExpired now).pairs.isEmpty = false ↔
        ∃ id, Live s.notifyTargets now id := by
      simp only [← isSome_dropExpired, isSome_iff_exists,
        List.isEmpty_eq_false_iff_exists_mem, Prod.exists, mem_pairs_iff]
    rw [shouldDeliver]
    split_ifs with hpending
    · simp [hpending]
    · rw [Bool.or_eq_false_iff, hnonempty, ← isSome_dropExpired, Bool.not_eq_true]
      simp [hpending]
  rw [hwithheld, h.lt_broadcastUntil_iff, NotOwed]
  simp only [h.live_iff hnow, not_exists, not_and, Nat.not_lt, Nat.not_le]

/-- A change for the session `a` is not shown to `b`. -/
theorem withheld_iff_other : ∃ s, NotifyRun [(7, .markNotifyTarget "a")] s ∧
    (s.shouldDeliver 8 "b").1 = false := by
  have hrun : NotifyRun [(7, .markNotifyTarget "a")] (({} : NotifyState).step 7 (.markNotifyTarget "a")) :=
    .next .nil (by simp) _
  refine ⟨_, hrun, (withheld_iff hrun (by simp) "b").2 ⟨by simp, ⟨"a", 7, by simp, by decide⟩, by simp⟩⟩

end McpGateway.Broker
