import McpGateway.Foundation.Threads

/-!
# Playing runs

The steps of a system are relations, since its objects may answer a call in several ways.  A `Player`
fixes one answer to each call, checks what the steps require, and so plays a list of moves as a function;
a move that is not possible leaves the configuration as it is.  `leads_play` and `trail_play` say that whatever is
played is a run of the system, so that a fact about a played configuration can be evaluated, and
`step_of_next` gives the next step of a thread.
-/

namespace Effect.System

variable {S : Sig} {τ ω : Type}

structure Player (M : System S τ ω) (G : Config S τ ω → Label S τ → Prop) where
  answer : ω → (o : S.Op) → Option (S.Resp o × ω)
  answers : ∀ w o r w', answer w o = some (r, w') → M.Answers w o r w'
  starts : Config S τ ω → τ → Bool
  starts_sound : ∀ c task, starts c task = true → M.Starts c task
  allows : Config S τ ω → Label S τ → Bool
  allows_sound : ∀ c l, allows c l = true → G c l

def isRet {α : Type} : Prog S α → Bool
  | .ret _ => true
  | .vis _ _ => false

lemma eq_ret_of_isRet {p : Prog S Unit} (h : isRet p = true) : p = .ret () := by
  cases p with
  | ret a => rfl
  | vis o k => cases h

inductive Move (τ : Type) where
  | start (task : τ)
  | call (i : Nat)

def calls (i n : Nat) : List (Move τ) := List.replicate n (.call i)

namespace Player

variable {M : System S τ ω} {G : Config S τ ω → Label S τ → Prop} (P : Player M G)
  {c : Config S τ ω}

def start (c : Config S τ ω) (task : τ) : Config S τ ω :=
  if P.starts c task && P.allows c (.start task) then
    ⟨c.world, c.threads ++ [⟨task, [], M.code task⟩]⟩
  else c

def call (c : Config S τ ω) (i : Nat) : Config S τ ω :=
  match c.threads[i]? with
  | none => c
  | some t =>
    match t.rest with
    | .ret _ => c
    | .vis o k =>
      match P.answer c.world o with
      | none => c
      | some (r, w) =>
        if P.allows c (.call i ⟨o, r⟩) then
          ⟨w, c.threads.set i ⟨t.task, t.trace ++ [⟨o, r⟩], k r⟩⟩
        else c

def next (c : Config S τ ω) (i : Nat) : Option (Ev S) := do
  let t ← c.threads[i]?
  match t.rest with
  | .ret _ => none
  | .vis o _ => do
    let (r, _) ← P.answer c.world o
    if P.allows c (.call i ⟨o, r⟩) then some ⟨o, r⟩ else none

def move (c : Config S τ ω) : Move τ → Config S τ ω
  | .start task => P.start c task
  | .call i => P.call c i

def play (c : Config S τ ω) (moves : List (Move τ)) : Config S τ ω :=
  moves.foldl P.move c

variable {c₀ : Config S τ ω}

lemma leads_start (h : M.Leads G c₀ c) (task : τ) :
    M.Leads G c₀ (P.start c task) := by
  unfold start
  split_ifs with hok
  · rw [Bool.and_eq_true] at hok
    exact .step h (P.allows_sound _ _ hok.2) (.start (P.starts_sound _ _ hok.1))
  · exact h

lemma step_of_next {i : Nat} {e : Ev S} (h : P.next c i = some e) :
    G c (.call i e) ∧ M.Step c (.call i e) (P.call c i) := by
  obtain ⟨t, hi, ht⟩ := Option.bind_eq_some_iff.1 h
  cases hrest : t.rest with
  | ret a =>
    rw [hrest] at ht
    cases ht
  | vis o k =>
    rw [hrest] at ht
    obtain ⟨⟨r, w⟩, hans, hr⟩ := Option.bind_eq_some_iff.1 ht
    dsimp only at hr
    split_ifs at hr with hok
    cases hr
    have hcall : P.call c i = ⟨w, c.threads.set i ⟨t.task, t.trace ++ [⟨o, r⟩], k r⟩⟩ := by
      simp only [call, hi, hrest, hans, hok, if_true]
    rw [hcall]
    exact ⟨P.allows_sound _ _ hok, .call hi hrest (P.answers _ _ _ _ hans)⟩

lemma leads_call (h : M.Leads G c₀ c) (i : Nat) : M.Leads G c₀ (P.call c i) := by
  unfold call
  cases hi : c.threads[i]? with
  | none => exact h
  | some t =>
    dsimp only
    cases hrest : t.rest with
    | ret a => exact h
    | vis o k =>
      dsimp only
      cases hans : P.answer c.world o with
      | none => exact h
      | some ans =>
        dsimp only
        split_ifs with hok
        · exact .step h (P.allows_sound _ _ hok) (.call hi hrest (P.answers _ _ _ _ hans))
        · exact h

lemma leads_play (h : M.Leads G c₀ c) (moves : List (Move τ)) :
    M.Leads G c₀ (P.play c moves) := by
  induction moves generalizing c with
  | nil => exact h
  | cons m rest ih =>
    refine ih ?_
    cases m with
    | start task => exact P.leads_start h task
    | call i => exact P.leads_call h i

lemma reachable_play (h : M.Reachable G c) (moves : List (Move τ)) : M.Reachable G (P.play c moves) :=
  (P.leads_play .refl moves).reachable h

def label (c : Config S τ ω) : Move τ → Option (Label S τ)
  | .start task => if P.starts c task && P.allows c (.start task) then some (.start task) else none
  | .call i => (P.next c i).map (.call i)

def steps (c : Config S τ ω) : List (Move τ) → List (Config S τ ω × Label S τ)
  | [] => []
  | m :: rest => ((P.label c m).map fun l => (c, l)).toList ++ steps (P.move c m) rest

lemma call_of_next_none {i : Nat} (h : P.next c i = none) : P.call c i = c := by
  unfold call
  unfold next at h
  cases hi : c.threads[i]? with
  | none => rfl
  | some t =>
    rw [hi] at h
    dsimp only
    cases hrest : t.rest with
    | ret a => rfl
    | vis o k =>
      simp only [hrest, Option.bind_eq_bind, Option.bind_some] at h
      dsimp only
      cases hans : P.answer c.world o with
      | none => rfl
      | some ans =>
        simp only [hans, Option.bind_some] at h
        dsimp only
        split_ifs at h with hok
        rw [if_neg hok]

lemma trail_play {ls : List (Config S τ ω × Label S τ)} (h : M.Trail G ls c) (moves : List (Move τ)) :
    M.Trail G (ls ++ P.steps c moves) (P.play c moves) := by
  induction moves generalizing c ls with
  | nil =>
    rw [steps, List.append_nil]
    exact h
  | cons m rest ih =>
    rw [steps, ← List.append_assoc]
    refine ih ?_
    cases m with
    | start task =>
      simp only [label, move, start]
      split_ifs with hok
      · have hsound := Bool.and_eq_true .. ▸ hok
        exact .step h (P.allows_sound _ _ hsound.2) (.start (P.starts_sound _ _ hsound.1))
      · simpa using h
    | call i =>
      cases hnext : P.next c i with
      | none =>
        simp only [label, move, hnext, P.call_of_next_none hnext]
        simpa using h
      | some e =>
        obtain ⟨hg, hs⟩ := P.step_of_next hnext
        simp only [label, hnext]
        exact .step h hg hs

end Player

end Effect.System
