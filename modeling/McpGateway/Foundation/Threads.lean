import McpGateway.Foundation.Effect

/-!
# Threads over shared objects

Programs that run at once over one world of shared objects.  A configuration holds the world and
every thread started so far; a step lets one thread have its next call answered, changes the world
from outside, or starts a thread.  A finished thread stays in the configuration, so what has happened
can be read off the traces.

- `Reachable M G` are the configurations of the runs whose steps all meet the condition `G`, and
  `Reachable.invariant` is the induction over them.
- `Step.thread_cases` says where a thread of the next configuration comes from.
- `Reachable.allowed` and `Reachable.obeys` carry a protocol proved once about the code of a task over
  to every run: the next call is allowed, and every answered call was.
- `Mutex.exclusive`: at most one thread is in a section under a lock.
- `Trail` is a run with the list of its steps.
- `Leads M G c` are the configurations that a run leads to from `c` on; `Reachable.occurred` finds the step
  in which a call was answered, `Reachable.follows` says how far a thread has got in its code.
- `Reachable.answered`, `Reachable.explained` and `Reachable.started` are the inductions for what holds
  of every answered call, of what is found in the world, and of every task.
-/

namespace Effect

structure Thread (S : Sig) (τ : Type) where
  task : τ
  trace : List (Ev S)
  rest : Prog S Unit

/-- The shared objects and the threads started so far. -/
structure Config (S : Sig) (τ ω : Type) where
  world : ω
  threads : List (Thread S τ)

/-- Threads that run the code of their tasks and share a world. -/
structure System (S : Sig) (τ ω : Type) where
  code : τ → Prog S Unit
  Init : ω → Prop
  /-- how the shared objects answer a call -/
  Answers : ω → (o : S.Op) → S.Resp o → ω → Prop
  /-- what changes without a call -/
  Env : ω → ω → Prop
  /-- which tasks can be started -/
  Starts : Config S τ ω → τ → Prop

inductive Label (S : Sig) (τ : Type) where
  | call (i : Nat) (e : Ev S)
  | env
  | start (task : τ)

variable {S : Sig} {τ ω : Type}

namespace System

/-- A step: a thread makes its next call, the world changes, or a task is started. -/
inductive Step (M : System S τ ω) : Config S τ ω → Label S τ → Config S τ ω → Prop where
  | call {c : Config S τ ω} {i : Nat} {t : Thread S τ} {o : S.Op} {k : S.Resp o → Prog S Unit}
      {r : S.Resp o} {w : ω} (hi : c.threads[i]? = some t) (hrest : t.rest = .vis o k)
      (hans : M.Answers c.world o r w) :
      Step M c (.call i ⟨o, r⟩) ⟨w, c.threads.set i ⟨t.task, t.trace ++ [⟨o, r⟩], k r⟩⟩
  | env {c : Config S τ ω} {w : ω} (h : M.Env c.world w) : Step M c .env ⟨w, c.threads⟩
  | start {c : Config S τ ω} {task : τ} (h : M.Starts c task) :
      Step M c (.start task) ⟨c.world, c.threads ++ [⟨task, [], M.code task⟩]⟩

/-- The configurations of the runs whose steps all meet the condition `G`. -/
inductive Reachable (M : System S τ ω) (G : Config S τ ω → Label S τ → Prop) :
    Config S τ ω → Prop where
  | init {w : ω} (h : M.Init w) : Reachable M G ⟨w, []⟩
  | step {c c' : Config S τ ω} {l : Label S τ} (hc : Reachable M G c) (hg : G c l)
      (hs : M.Step c l c') : Reachable M G c'

/-- The condition that leaves every step free. -/
def Free (_ : Config S τ ω) (_ : Label S τ) : Prop := True

variable {M : System S τ ω} {G : Config S τ ω → Label S τ → Prop} {c c' : Config S τ ω}
  {l : Label S τ} {G' : Config S τ ω → Label S τ → Prop} {I : Config S τ ω → Prop}

lemma Reachable.mono (hG : ∀ c l, G c l → G' c l)
    (h : M.Reachable G c) : M.Reachable G' c := by
  induction h with
  | init hw => exact .init hw
  | step _ hg hs ih => exact .step ih (hG _ _ hg) hs

lemma Reachable.free (h : M.Reachable G c) : M.Reachable Free c :=
  h.mono fun _ _ _ => trivial

@[elab_as_elim]
lemma Reachable.invariant (hinit : ∀ w, M.Init w → I ⟨w, []⟩) (hstep : ∀ c l c',
    M.Reachable G c → I c → G c l → M.Step c l c' → I c') (h : M.Reachable G c) : I c := by
  induction h with
  | init hw => exact hinit _ hw
  | step hc hg hs ih => exact hstep _ _ _ hc ih hg hs

/-- The configurations that the run leads to from `c₀` on. -/
inductive Leads (M : System S τ ω) (G : Config S τ ω → Label S τ → Prop) (c₀ : Config S τ ω) :
    Config S τ ω → Prop where
  | refl : Leads M G c₀ c₀
  | step {c c' : Config S τ ω} {l : Label S τ} (hc : Leads M G c₀ c) (hg : G c l)
      (hs : M.Step c l c') : Leads M G c₀ c'

lemma Leads.mono (hG : ∀ c l, G c l → G' c l)
    (h : M.Leads G c c') : M.Leads G' c c' := by
  induction h with
  | refl => exact .refl
  | step _ hg hs ih => exact .step ih (hG _ _ hg) hs

lemma Leads.invariant (h : M.Leads G c c') (hc : I c)
    (hstep : ∀ c l c', I c → G c l → M.Step c l c' → I c') : I c' := by
  induction h with
  | refl => exact hc
  | step _ hg hs ih => exact hstep _ _ _ ih hg hs

lemma Leads.reachable (h : M.Leads G c c') (hc : M.Reachable G c) : M.Reachable G c' := by
  induction h with
  | refl => exact hc
  | step _ hg hs ih => exact .step ih hg hs

/-- The runs to a configuration, with the steps taken. -/
inductive Trail (M : System S τ ω) (G : Config S τ ω → Label S τ → Prop) :
    List (Config S τ ω × Label S τ) → Config S τ ω → Prop where
  | init {w : ω} (h : M.Init w) : Trail M G [] ⟨w, []⟩
  | step {ls : List (Config S τ ω × Label S τ)} {c c' : Config S τ ω} {l : Label S τ}
      (hc : Trail M G ls c) (hg : G c l) (hs : M.Step c l c') : Trail M G (ls ++ [(c, l)]) c'

variable {ls : List (Config S τ ω × Label S τ)}

lemma Trail.reachable (h : M.Trail G ls c) : M.Reachable G c := by
  induction h with
  | init hw => exact .init hw
  | step _ hg hs ih => exact .step ih hg hs

lemma Trail.split {l₁ l₂ : List (Config S τ ω × Label S τ)} {c₁ : Config S τ ω} (h : M.Trail G (l₁ ++ (c₁,
    l) :: l₂) c) : M.Trail G l₁ c₁ ∧ G c₁ l ∧ ∃ c₂, M.Step c₁ l c₂ ∧ M.Leads G c₂ c := by
  generalize hls : l₁ ++ (c₁, l) :: l₂ = ls at h
  induction h generalizing l₂ with
  | init _ => simp at hls
  | @step ls' c c' l' htrail hg hs ih =>
    rcases List.eq_nil_or_concat l₂ with rfl | ⟨l₂', x, rfl⟩
    · obtain ⟨rfl, hlast⟩ := List.append_inj' hls rfl
      cases hlast
      exact ⟨htrail, hg, c', hs, .refl⟩
    · rw [List.concat_eq_append, ← List.cons_append, ← List.append_assoc] at hls
      obtain ⟨hbefore, hg₁, c₂, hs₁, hleads⟩ := ih (List.append_inj' hls rfl).1
      exact ⟨hbefore, hg₁, c₂, hs₁, .step hleads hg hs⟩

/-! ## Threads along a step -/

variable {j : Nat}

lemma Step.thread_cases (h : M.Step c l c') {t' : Thread S τ} (hj : c'.threads[j]? = some t') :
    c.threads[j]? = some t' ∨ (∃ t o k r, l = .call j ⟨o, r⟩ ∧ c.threads[j]? = some t ∧ t.rest = .vis o k ∧
    M.Answers c.world o r c'.world ∧ t' = ⟨t.task, t.trace ++ [⟨o, r⟩], k r⟩) ∨ ∃ task, l = .start task ∧
    M.Starts c task ∧ j = c.threads.length ∧ t' = ⟨task, [], M.code task⟩ := by
  cases h with
  | @call i t o k r w hi hrest hans =>
    rw [List.getElem?_set] at hj
    split_ifs at hj with hij hlt
    · subst hij
      obtain rfl := Option.some.inj hj
      exact .inr (.inl ⟨t, o, k, r, rfl, hi, hrest, hans, rfl⟩)
    · exact .inl hj
  | env _ => exact .inl hj
  | @start task hstart =>
    rw [List.getElem?_append] at hj
    split_ifs at hj with hlt
    · exact .inl hj
    · obtain ⟨hzero, ht⟩ : j - c.threads.length = 0 ∧ _ = t' := by
        simpa [List.getElem?_eq_some_iff] using hj
      have hlen : j = c.threads.length := by omega
      exact .inr (.inr ⟨task, rfl, hstart, hlen, ht.symm⟩)

variable {t : Thread S τ}

lemma Step.thread_mono (h : M.Step c l c') (hj : c.threads[j]? = some t) : ∃ t', c'.threads[j]? =
    some t' ∧ t'.task = t.task ∧ t.trace <+: t'.trace := by
  have hlt : j < c.threads.length := (List.getElem?_eq_some_iff.1 hj).1
  cases h with
  | @call i u o k r w hi hrest hans =>
    by_cases hij : i = j
    · subst hij
      obtain rfl := Option.mem_unique hi hj
      exact ⟨⟨u.task, u.trace ++ [⟨o, r⟩], k r⟩, List.getElem?_set_self hlt, rfl,
        List.prefix_append _ _⟩
    · exact ⟨t, (List.getElem?_set_ne hij).trans hj, rfl, List.prefix_refl _⟩
  | env _ => exact ⟨t, hj, rfl, List.prefix_refl _⟩
  | start _ => exact ⟨t, (List.getElem?_append_left hlt).trans hj, rfl, List.prefix_refl _⟩

lemma Leads.thread_mono (h : M.Leads G c c') (hj : c.threads[j]? = some t) : ∃ t', c'.threads[j]? =
    some t' ∧ t'.task = t.task ∧ t.trace <+: t'.trace := by
  induction h with
  | refl => exact ⟨t, hj, rfl, List.prefix_refl _⟩
  | step _ _ hs ih =>
    obtain ⟨t₁, ht₁, htask₁, hpre₁⟩ := ih
    obtain ⟨t₂, ht₂, htask₂, hpre₂⟩ := hs.thread_mono ht₁
    exact ⟨t₂, ht₂, htask₂.trans htask₁, hpre₁.trans hpre₂⟩

variable {i : Nat} {e : Ev S}

lemma Step.caller (h : M.Step c l c') (hl : l = .call i e) : ∃ t k, c.threads[i]? = some t ∧ t.rest =
    .vis e.op k ∧ M.Answers c.world e.op e.resp c'.world ∧ c'.threads[i]? = some ⟨t.task, t.trace ++ [e],
    k e.resp⟩ := by
  cases h with
  | @call _ t o k r w hi hrest hans =>
    cases hl
    exact ⟨t, k, hi, hrest, hans, List.getElem?_set_self (List.getElem?_eq_some_iff.1 hi).1⟩
  | env _ => cases hl
  | start _ => cases hl

lemma Step.others (h : M.Step c (.call i e) c') (hij : j ≠ i) : c'.threads[j]? = c.threads[j]? := by
  cases h with
  | call _ _ _ => exact List.getElem?_set_ne (Ne.symm hij)

lemma Step.tasks (h : M.Step c (.call i e) c') :
    c'.threads.map Thread.task = c.threads.map Thread.task := by
  cases h with
  | @call _ t _ _ _ _ hi _ _ =>
    have htask : (c.threads.map Thread.task)[i]? = some t.task := by rw [List.getElem?_map, hi]; rfl
    rcases List.getElem?_eq_some_iff.1 htask with ⟨hlt, hget⟩
    show (c.threads.set i _).map Thread.task = _
    rw [List.map_set, ← hget, List.set_getElem_self]

lemma Step.mem_trace (h : M.Step c l c') {t' : Thread S τ}
    (hj : c'.threads[j]? = some t') (he : e ∈ t'.trace) :
    ∃ t, c.threads[j]? = some t ∧ t.task = t'.task ∧ (e ∈ t.trace ∨ l = .call j e) := by
  rcases h.thread_cases hj with hold | ⟨t, o, k, r, hl, ht, -, -, rfl⟩ | ⟨task, -, -, -, rfl⟩
  · exact ⟨t', hold, rfl, .inl he⟩
  · refine ⟨t, ht, rfl, ?_⟩
    rcases List.mem_append.1 he with hbefore | hnow
    · exact .inl hbefore
    · exact .inr (List.mem_singleton.1 hnow ▸ hl)
  · simp at he

/-! ## What has happened -/

/-- A thread of a task in `P` has had the call `e` answered. -/
def Happened (c : Config S τ ω) (P : τ → Prop) (e : Ev S) : Prop :=
  ∃ t ∈ c.threads, P t.task ∧ e ∈ t.trace

variable {P : τ → Prop}

lemma Happened.step (h : Happened c P e) (hs : M.Step c l c') : Happened c' P e := by
  obtain ⟨t, ht, hP, he⟩ := h
  obtain ⟨j, hj⟩ := List.mem_iff_getElem?.1 ht
  obtain ⟨t', hj', htask, hpre⟩ := hs.thread_mono hj
  exact ⟨t', List.mem_of_getElem? hj', htask ▸ hP, hpre.subset he⟩

lemma Step.happened (hs : M.Step c (.call i e) c') (hi : c.threads[i]? = some t) (hP : P t.task) :
    Happened c' P e := by
  obtain ⟨t', k, hi', -, -, hnew⟩ := hs.caller rfl
  obtain rfl := Option.mem_unique hi' hi
  exact ⟨_, List.mem_of_getElem? hnew, hP, by simp⟩

/-! ## Protocols -/

def Justified (A : List (Ev S) → S.Op → Prop) (tr : List (Ev S)) : Prop :=
  ∀ pre e, pre ++ [e] <+: tr → A pre e.op

variable {A : List (Ev S) → S.Op → Prop} {tr : List (Ev S)}

lemma Justified.snoc (h : Justified A tr) (he : A tr e.op) : Justified A (tr ++ [e]) := by
  intro pre e' hpre
  rcases List.prefix_concat_iff.1 hpre with heq | hpre
  · obtain ⟨rfl, he'⟩ := List.append_inj' heq rfl
    obtain rfl := List.head_eq_of_cons_eq he'
    exact he
  · exact h pre e' hpre

lemma Justified.mono {pre : List (Ev S)} (h : Justified A tr) (hpre : pre <+: tr) : Justified A pre :=
  fun p e hp => h p e (hp.trans hpre)

lemma Justified.of_mem (h : Justified A tr) (he : e ∈ tr) : ∃ pre, pre <+: tr ∧ A pre e.op := by
  obtain ⟨pre, post, rfl⟩ := List.append_of_mem he
  exact ⟨pre, List.prefix_append _ _, h pre e ⟨post, by simp⟩⟩

lemma Reachable.follows (h : M.Reachable G c) : ∀ t ∈ c.threads,
    (M.code t.task).Follows t.trace t.rest := by
  refine h.invariant (fun _ _ t ht => absurd ht List.not_mem_nil) ?_
  intro c l c' _ ih _ hs t' ht'
  obtain ⟨j, hj⟩ := List.mem_iff_getElem?.1 ht'
  rcases hs.thread_cases hj with hold | ⟨t, o, k, r, -, ht, hrest, -, rfl⟩ | ⟨task, -, -, -, rfl⟩
  · exact ih t' (List.mem_of_getElem? hold)
  · have hfollows := ih t (List.mem_of_getElem? ht)
    rw [hrest] at hfollows
    exact hfollows.trans (.vis r (.refl _))
  · exact .refl _

lemma Reachable.occurred (h : M.Reachable G c) (hi : c.threads[i]? = some t) (he : e ∈ t.trace) : ∃ c₀ c₁,
    M.Reachable G c₀ ∧ G c₀ (.call i e) ∧ M.Step c₀ (.call i e) c₁ ∧ M.Leads G c₁ c := by
  induction h generalizing t with
  | init _ => cases hi
  | step hc hg hs ih =>
    obtain ⟨t₀, ht, -, hbefore | rfl⟩ := hs.mem_trace hi he
    · obtain ⟨c₀, c₁, hc₀, hg₀, hs₀, hleads⟩ := ih ht hbefore
      exact ⟨c₀, c₁, hc₀, hg₀, hs₀, .step hleads hg hs⟩
    · exact ⟨_, _, hc, hg, hs, .refl⟩

lemma Trail.occurred (h : M.Trail G ls c) (hi : c.threads[i]? = some t) (he : e ∈ t.trace) :
    ∃ l₁ c₁ l₂, ls = l₁ ++ (c₁, .call i e) :: l₂ := by
  induction h generalizing t with
  | init _ => cases hi
  | @step ls c c' l _ _ hs ih =>
    obtain ⟨t₀, ht₀, -, hbefore | rfl⟩ := hs.mem_trace hi he
    · obtain ⟨l₁, c₁, l₂, rfl⟩ := ih ht₀ hbefore
      exact ⟨l₁, c₁, l₂ ++ [(c, l)], by simp⟩
    · exact ⟨ls, c, [], rfl⟩

section Protocol

variable {A : τ → List (Ev S) → S.Op → Prop} {Q : τ → List (Ev S) → Prop}

variable (hcode : ∀ task, (M.code task).Obeys (A task) (fun _ tr => Q task tr) [])

include hcode

lemma Reachable.obeysUntil
    (h : M.Reachable G c) : ∀ t ∈ c.threads,
    t.rest.Obeys (A t.task) (fun _ tr => Q t.task tr) t.trace ∧ Justified (A t.task) t.trace := by
  refine h.invariant (fun _ _ t ht => absurd ht List.not_mem_nil) ?_
  intro c l c' _ ih _ hs t' ht'
  obtain ⟨j, hj⟩ := List.mem_iff_getElem?.1 ht'
  rcases hs.thread_cases hj with hold | ⟨t, o, k, r, -, ht, hrest, -, rfl⟩ | ⟨task, -, -, -, rfl⟩
  · exact ih t' (List.mem_of_getElem? hold)
  · obtain ⟨hobeys, hjust⟩ := ih t (List.mem_of_getElem? ht)
    rw [hrest] at hobeys
    exact ⟨hobeys.2 r, hjust.snoc hobeys.1⟩
  · refine ⟨hcode task, fun pre e hpre => ?_⟩
    have hlen := hpre.length_le
    simp at hlen

lemma Reachable.returned
    (h : M.Reachable G c) (ht : t ∈ c.threads) (hrest : t.rest = .ret ()) : Q t.task t.trace := by
  have hobeys := (h.obeysUntil hcode t ht).1
  rw [hrest] at hobeys
  exact hobeys

lemma Reachable.allowed
    (h : M.Reachable G c) (ht : t ∈ c.threads) {o : S.Op}
    {k : S.Resp o → Prog S Unit} (hrest : t.rest = .vis o k) : A t.task t.trace o := by
  have hobeys := (h.obeysUntil hcode t ht).1
  rw [hrest] at hobeys
  exact hobeys.1

omit hcode

lemma Reachable.obeys (hcode : ∀ task, (M.code task).Obeys (A task) (fun _ _ => True) [])
    (h : M.Reachable G c) : ∀ t ∈ c.threads,
    t.rest.Obeys (A t.task) (fun _ _ => True) t.trace ∧ Justified (A t.task) t.trace :=
  h.obeysUntil (Q := fun _ _ => True) hcode

end Protocol

/-- What a call establishes and every step keeps holds from the answer of the call on. -/
@[elab_as_elim]
lemma Reachable.answered (h : M.Reachable G c) (ht : t ∈ c.threads) (he : e ∈ t.trace)
    (hstep : ∀ c l c', M.Step c l c' → I c → I c') (hcall : ∀ c i c', M.Reachable G c →
    G c (.call i e) → M.Step c (.call i e) c' → I c') : I c := by
  obtain ⟨i, hi⟩ := List.mem_iff_getElem?.1 ht
  obtain ⟨c₀, c₁, hc₀, hg, hs, hleads⟩ := h.occurred hi he
  exact hleads.invariant (hcall c₀ i c₁ hc₀ hg hs) fun c l c' ih _ hs => hstep c l c' hs ih

/-- Whatever is found in the world has a reason, when reasons persist and every call that puts
something there gives one. -/
lemma Reachable.explained {α : Type} {W : α → ω → Prop} {H : α → Config S τ ω → Prop} (hinit : ∀ w x,
    M.Init w → ¬ W x w) (henv : ∀ w w' x, M.Env w w' → W x w' → W x w) (hpersist : ∀ c l c' x,
    M.Step c l c' → H x c → H x c') (hcall : ∀ c i e c' x, M.Reachable G c → G c (.call i e) →
    M.Step c (.call i e) c' → W x c'.world → W x c.world ∨ H x c') (h : M.Reachable G c) : ∀ x,
    W x c.world → H x c := by
  refine h.invariant (fun w hw x hx => absurd hx (hinit w x hw)) ?_
  intro c l c' hc ih hg hs x hx
  have hold : W x c.world ∨ H x c' := by
    cases l with
    | call i e => exact hcall _ _ _ _ _ hc hg hs hx
    | env =>
      cases hs with
      | env hw => exact .inl (henv _ _ _ hw hx)
    | start task =>
      cases hs with
      | start => exact .inl hx
  rcases hold with hold | hnew
  · exact hpersist _ _ _ _ hs (ih x hold)
  · exact hnew

lemma Reachable.started {P : Config S τ ω → τ → Prop} (hstart : ∀ c task, G c (.start task) →
    M.Starts c task → P c task) (hstep : ∀ c l c' task, M.Step c l c' → P c task → P c' task)
    (h : M.Reachable G c) : ∀ t ∈ c.threads, P c t.task := by
  refine h.invariant (fun _ _ t ht => absurd ht List.not_mem_nil) ?_
  intro c l c' _ ih hg hs t' ht'
  obtain ⟨j, hj⟩ := List.mem_iff_getElem?.1 ht'
  rcases hs.thread_cases hj with hold | ⟨t, o, k, r, -, ht, -, -, rfl⟩ |
    ⟨task, rfl, hstarts, -, rfl⟩
  · exact hstep _ _ _ _ hs (ih t' (List.mem_of_getElem? hold))
  · exact hstep _ _ _ _ hs (ih t (List.mem_of_getElem? ht))
  · exact hstep _ _ _ _ hs (hstart _ _ hg hstarts)

/-! ## Sections under a lock -/

/-- A lock.  `holds` says of the answered calls of a thread that it is inside, `locked` of the world that
some thread is. -/
structure Mutex (M : System S τ ω) (A : τ → List (Ev S) → S.Op → Prop) (holds : List (Ev S) → Prop)
    (locked : ω → Prop) : Prop where
  outside : ¬ holds []
  env : ∀ {w w' : ω}, M.Env w w' → locked w → locked w'
  /-- whoever enters finds the lock free and takes it -/
  enter : ∀ {w w' : ω} {task : τ} {tr : List (Ev S)} {e : Ev S}, A task tr e.op →
    M.Answers w e.op e.resp w' → ¬ holds tr → holds (tr ++ [e]) → ¬ locked w ∧ locked w'
  /-- only whoever leaves frees it -/
  stay : ∀ {w w' : ω} {task : τ} {tr : List (Ev S)} {e : Ev S}, A task tr e.op →
    M.Answers w e.op e.resp w' → (holds (tr ++ [e]) ↔ holds tr) → locked w → locked w'

section Mutex

variable {A : τ → List (Ev S) → S.Op → Prop} {holds : List (Ev S) → Prop} {locked : ω → Prop}

structure Alone (holds : List (Ev S) → Prop) (locked : ω → Prop) (c : Config S τ ω) : Prop where
  taken : ∀ t ∈ c.threads, holds t.trace → locked c.world
  unique : ∀ (i j : Nat) (t u : Thread S τ), c.threads[i]? = some t → c.threads[j]? = some u →
    holds t.trace → holds u.trace → i = j

lemma Mutex.exclusive (hM : Mutex M A holds locked) (hcode : ∀ task,
    (M.code task).Obeys (A task) (fun _ _ => True) []) (h : M.Reachable G c) : Alone holds locked c := by
  refine h.invariant ?_ ?_
  · intro w _
    exact ⟨(fun t ht => absurd ht List.not_mem_nil), fun i j t u hi => by cases hi⟩
  · rintro c l c' hc ⟨hlocked, hunique⟩ hg hs
    have hallowed {i : Nat} {t : Thread S τ} {o : S.Op} {k} (hi : c.threads[i]? = some t)
        (hrest : t.rest = .vis o k) : A t.task t.trace o :=
      hc.allowed hcode (List.mem_of_getElem? hi) hrest
    -- a thread that is inside after the step was inside before, or is the caller and has entered
    have hbefore : ∀ {j : Nat} {u : Thread S τ}, c'.threads[j]? = some u → holds u.trace →
        (∃ t, c.threads[j]? = some t ∧ holds t.trace) ∨
          ¬ locked c.world ∧ locked c'.world ∧ ∃ e, l = .call j e := by
      intro j u hj hu
      rcases hs.thread_cases hj with hold | ⟨t, o, k, r, hl, ht, hrest, hans, rfl⟩ | ⟨_, _, _, _, rfl⟩
      · exact .inl ⟨u, hold, hu⟩
      · by_cases hin : holds t.trace
        · exact .inl ⟨t, ht, hin⟩
        · obtain ⟨hfree, hw⟩ := hM.enter (hallowed ht hrest) hans hin hu
          exact .inr ⟨hfree, hw, _, hl⟩
      · exact absurd hu hM.outside
    constructor
    · intro u hu hholds
      obtain ⟨j, hj⟩ := List.mem_iff_getElem?.1 hu
      rcases hbefore hj hholds with ⟨t, ht, hin⟩ | ⟨-, hw, -⟩
      · have hw := hlocked t (List.mem_of_getElem? ht) hin
        cases hs with
        | env henv => exact hM.env henv hw
        | start => exact hw
        | @call i t' o k r w hi hrest hans =>
          refine hM.stay (e := ⟨o, r⟩) (hallowed hi hrest) hans ⟨fun hnow => ?_, fun hwas => ?_⟩ hw
          · by_contra hout
            exact (hM.enter (e := ⟨o, r⟩) (hallowed hi hrest) hans hout hnow).1 hw
          · -- a caller that was inside is the only one, and it still is
            obtain rfl := hunique j i t t' ht hi hin hwas
            have hself := (List.getElem?_set_self (List.getElem?_eq_some_iff.1 hi).1).symm.trans hj
            rw [← Option.some.inj hself] at hholds
            exact hholds
      · exact hw
    · intro i j t u hi hj ht hu
      rcases hbefore hi ht with ⟨t₀, hi₀, ht₀⟩ | ⟨hfree, -, e, hl⟩ <;>
        rcases hbefore hj hu with ⟨u₀, hj₀, hu₀⟩ | ⟨hfree', -, e', hl'⟩
      · exact hunique i j t₀ u₀ hi₀ hj₀ ht₀ hu₀
      · exact absurd (hlocked t₀ (List.mem_of_getElem? hi₀) ht₀) hfree'
      · exact absurd (hlocked u₀ (List.mem_of_getElem? hj₀) hu₀) hfree
      · cases hl.symm.trans hl'
        rfl

end Mutex

/-! ## Building runs -/

/-- With the world going from `w` to `w'`, its objects give exactly the answers in `tr`. -/
inductive Serves (M : System S τ ω) : ω → List (Ev S) → ω → Prop where
  | refl (w : ω) : Serves M w [] w
  | call {w w₁ w₂ : ω} {o : S.Op} {r : S.Resp o} {tr : List (Ev S)} (h : M.Answers w o r w₁)
      (hs : Serves M w₁ tr w₂) : Serves M w (⟨o, r⟩ :: tr) w₂

end System

end Effect
