import McpGateway.Foundation.Replay
import McpGateway.Foundation.WriteOnce
import McpGateway.Session.Cache

/-!
# Task records

An agent assigns ids to tasks and contexts; the gateway records which principal an id belongs to, in the
memory of the process or in Redis.  A record is only inserted and never overwritten.  The calls run at once;
in Redis a store is two commands, so that other calls can come between them.
-/

namespace McpGateway.Session.TaskRecords

open Go Effect

inductive Backend where
  | inMemory
  | redis
  deriving DecidableEq, Repr

inductive Report where
  /-- the owner, and whether this call has created the record -/
  | stored (owner : Bytes) (created : Bool)
  | found (owner : Bytes) (ok : Bool)
  | deleted
  | failed (err : String)
  deriving DecidableEq, Repr

inductive RecordOp where
  /-- the commands of a `sync.Map` -/
  | loadOrStore (key value : Bytes)
  | load (key : Bytes)
  | delete (key : Bytes)
  /-- the commands of Redis -/
  | setNX (key value : Bytes)
  | get (key : Bytes)
  | del (key : Bytes)
  | report (r : Report)

@[reducible] def RecordOp.Resp : RecordOp → Type
  | .loadOrStore .. => Bytes × Bool
  | .load _ => Option Bytes
  | .setNX .. => Except String Bool
  | .get _ => Except String (Option Bytes)
  | .del _ => Except String Unit
  | .delete _ | .report _ => Unit

@[reducible] def recordSig : Sig := ⟨RecordOp, RecordOp.Resp⟩

abbrev Rec := Prog recordSig

abbrev RecEv := Ev recordSig

def op (o : RecordOp) : Rec o.Resp := Prog.call (S := recordSig) o

/-! ## The calls -/

/-- The byte of `:`. -/
def colon : UInt8 := 0x3A

def taskRecordKey (agent id : Bytes) : Bytes :=
  bytes taskRecordPrefix ++ agent ++ colon :: id

def storeTaskRecord (b : Backend) (agent id principal : Bytes) : Rec Report :=
  let key := taskRecordKey agent id
  match b with
  | .inMemory => do
    let (actual, loaded) ← op (.loadOrStore key principal)
    pure (.stored actual !loaded)
  | .redis => do
    match ← op (.setNX key principal) with
    | .ok true => pure (.stored principal true)
    | .error e => pure (.failed e)
    | .ok false => do
      match ← op (.get key) with
      -- gone between the two commands
      | .ok none => pure (.stored [] false)
      | .error e => pure (.failed e)
      | .ok (some owner) => pure (.stored owner false)

def lookupTaskRecord (b : Backend) (agent id : Bytes) : Rec Report :=
  let key := taskRecordKey agent id
  match b with
  | .inMemory => do
    match ← op (.load key) with
    | none => pure (.found [] false)
    | some owner => pure (.found owner true)
  | .redis => do
    match ← op (.get key) with
    | .ok none => pure (.found [] false)
    | .error e => pure (.failed e)
    | .ok (some owner) => pure (.found owner true)

def deleteTaskRecord (b : Backend) (agent id : Bytes) : Rec Report :=
  let key := taskRecordKey agent id
  match b with
  | .inMemory => do
    op (.delete key)
    pure .deleted
  | .redis => do
    match ← op (.del key) with
    | .ok () => pure .deleted
    | .error e => pure (.failed e)

inductive RecordTask where
  | store (agent id principal : Bytes)
  | lookup (agent id : Bytes)
  | delete (agent id : Bytes)
  deriving DecidableEq, Repr

namespace RecordTask

def pair : RecordTask → Bytes × Bytes
  | .store agent id _ | .lookup agent id | .delete agent id => (agent, id)

def call (b : Backend) : RecordTask → Rec Report
  | .store agent id principal => storeTaskRecord b agent id principal
  | .lookup agent id => lookupTaskRecord b agent id
  | .delete agent id => deleteTaskRecord b agent id

def code (b : Backend) (task : RecordTask) : Rec Unit := do
  let r ← task.call b
  op (.report r)

end RecordTask

/-! ## The backends -/

abbrev Records := Bytes → Option Bytes

/-- How the backends answer.  Each command is atomic, records do not expire, and a command of Redis that
fails has done nothing. -/
def Records.Answers (w : Records) : (o : RecordOp) → o.Resp → Records → Prop
  | .loadOrStore key value, r, w' =>
    match w key with
    | some owner => r = (owner, true) ∧ w' = w
    | none => r = (value, false) ∧ w' = Function.update w key (some value)
  | .load key, r, w' => r = w key ∧ w' = w
  | .delete key, _, w' => w' = Function.update w key none
  | .setNX key value, r, w' => (∃ e, r = .error e) ∧ w' = w ∨
      match w key with
      | some _ => r = .ok false ∧ w' = w
      | none => r = .ok true ∧ w' = Function.update w key (some value)
  | .get key, r, w' => ((∃ e, r = .error e) ∨ r = .ok (w key)) ∧ w' = w
  | .del key, r, w' => (∃ e, r = .error e) ∧ w' = w ∨ r = .ok () ∧ w' = Function.update w key none
  | .report _, _, w' => w' = w

abbrev RecConfig := Config recordSig RecordTask Records

abbrev RecThread := Thread recordSig RecordTask

def system (b : Backend) : System recordSig RecordTask Records where
  code := RecordTask.code b
  Init w := w = fun _ => none
  Answers := Records.Answers
  Env _ _ := False
  Starts _ task := colon ∉ task.pair.1

/-! ## Keys -/

lemma taskRecordKey_injective {p q : Bytes × Bytes} (hp : colon ∉ p.1) (hq : colon ∉ q.1)
    (h : taskRecordKey p.1 p.2 = taskRecordKey q.1 q.2) : p = q := by
  simp only [taskRecordKey, append_assoc] at h
  obtain ⟨hagent, hid⟩ := append_cons_inj hp hq (List.append_cancel_left h)
  exact Prod.ext hagent hid

/-! ## When a call takes effect -/

open WriteOnce (Act Legal ownerAfter Era)

def act (task : RecordTask) : RecEv → Option (Act Bytes)
  | ⟨.loadOrStore _ value, r⟩ => some (.claim value r.1 !r.2)
  | ⟨.setNX _ value, .ok true⟩ => some (.claim value value true)
  | ⟨.get _, .ok r⟩ =>
    match task, r with
    | .store _ _ principal, some owner => some (.claim principal owner false)
    | .store .., none => some .giveUp
    | _, r => some (.read r)
  | ⟨.load _, r⟩ => some (.read r)
  | ⟨.delete _, _⟩ | ⟨.del _, .ok ()⟩ => some .release
  | _ => none

lemma act_giveUp {task : RecordTask} {e : RecEv} (h : act task e = some .giveUp) :
    ∃ key, e = ⟨.get key, .ok none⟩ := by
  obtain ⟨o, r⟩ := e
  cases o with
  | get key =>
    rcases r with err | _ | owner
    · cases h
    · exact ⟨key, rfl⟩
    · cases task <;> cases h
  | setNX key value => rcases r with err | _ | _ <;> cases h
  | del key => cases r <;> cases h
  | _ => cases h

def acts (task : RecordTask) (tr : List RecEv) : List (Act Bytes) := tr.filterMap (act task)

lemma acts_snoc (task : RecordTask) (tr : List RecEv) (e : RecEv) :
    acts task (tr ++ [e]) = acts task tr ++ (act task e).toList := by
  rw [acts, List.filterMap_append]
  cases h : act task e <;> simp [acts, h]

def Says (task : RecordTask) (as : List (Act Bytes)) : Report → Prop
  | .stored owner created => (∃ agent id principal, task = .store agent id principal ∧
      as = [.claim principal owner created]) ∨ as = [.giveUp] ∧ owner = [] ∧ created = false
  | .found owner ok => as = [.read (if ok then some owner else none)] ∧ (ok = false → owner = [])
  | .deleted => as = [.release]
  | .failed _ => as = []

def returned (tr : List RecEv) : List Report :=
  tr.filterMap fun e =>
    match e with
    | ⟨.report r, _⟩ => some r
    | _ => none

lemma mem_of_returned {tr : List RecEv} {r : Report} (h : r ∈ returned tr) :
    (⟨.report r, ()⟩ : RecEv) ∈ tr := by
  obtain ⟨e, he, heq⟩ := List.mem_filterMap.1 h
  split at heq
  · cases heq
    exact he
  · cases heq

/-- What a call may do: it uses the key of its pair only, takes effect once and returns what it has been
told. -/
def Allowed (b : Backend) (task : RecordTask) (tr : List RecEv) : RecordOp → Prop
  | .loadOrStore key value => acts task tr = [] ∧ b = .inMemory ∧ ∃ agent id,
      task = .store agent id value ∧ key = taskRecordKey agent id
  | .setNX key value => acts task tr = [] ∧ b = .redis ∧ ∃ agent id,
      task = .store agent id value ∧ key = taskRecordKey agent id
  | .load key => acts task tr = [] ∧ ∃ agent id, task = .lookup agent id ∧ key = taskRecordKey agent id
  | .get key => acts task tr = [] ∧ b = .redis ∧ key = taskRecordKey task.pair.1 task.pair.2 ∧
      ((∃ agent id, task = .lookup agent id) ∨ ∃ agent id value, task = .store agent id value ∧
        (⟨.setNX key value, .ok false⟩ : RecEv) ∈ tr)
  | .delete key | .del key => acts task tr = [] ∧ ∃ agent id,
      task = .delete agent id ∧ key = taskRecordKey agent id
  | .report r => Says task (acts task tr) r

def Protocol (b : Backend) (task : RecordTask) (tr : List RecEv) (o : RecordOp) : Prop :=
  returned tr = [] ∧ Allowed b task tr o

lemma code_obeys (b : Backend) (task : RecordTask) :
    (task.code b).Obeys (Protocol b task) (fun _ _ => True) [] := by
  -- a call that has been told something returns it
  have hreport : ∀ (r : Report) (tr : List RecEv), returned tr = [] → Says task (acts task tr) r →
      Prog.Obeys (Protocol b task) (fun _ _ => True) (op (.report r)) tr :=
    fun r tr hopen hsays => ⟨⟨hopen, hsays⟩, fun _ => trivial⟩
  cases task with
  | store agent id principal =>
    cases b with
    | inMemory =>
      refine ⟨⟨rfl, rfl, rfl, agent, id, rfl, rfl⟩, fun r => ?_⟩
      exact hreport _ _ rfl (.inl ⟨agent, id, principal, rfl, rfl⟩)
    | redis =>
      refine ⟨⟨rfl, rfl, rfl, agent, id, rfl, rfl⟩, fun r => ?_⟩
      rcases r with e | _ | _
      · exact hreport _ _ rfl rfl
      · refine ⟨⟨rfl, rfl, rfl, rfl, .inr ⟨agent, id, principal, rfl, mem_cons_self⟩⟩, fun r => ?_⟩
        rcases r with e | _ | owner
        · exact hreport _ _ rfl rfl
        · exact hreport _ _ rfl (.inr ⟨rfl, rfl, rfl⟩)
        · exact hreport _ _ rfl (.inl ⟨agent, id, principal, rfl, rfl⟩)
      · exact hreport _ _ rfl (.inl ⟨agent, id, principal, rfl, rfl⟩)
  | lookup agent id =>
    cases b with
    | inMemory =>
      refine ⟨⟨rfl, rfl, agent, id, rfl, rfl⟩, fun r => ?_⟩
      cases r with
      | none => exact hreport _ _ rfl ⟨rfl, fun _ => rfl⟩
      | some owner => exact hreport _ _ rfl ⟨rfl, by simp⟩
    | redis =>
      refine ⟨⟨rfl, rfl, rfl, rfl, .inl ⟨agent, id, rfl⟩⟩, fun r => ?_⟩
      rcases r with e | _ | owner
      · exact hreport _ _ rfl rfl
      · exact hreport _ _ rfl ⟨rfl, fun _ => rfl⟩
      · exact hreport _ _ rfl ⟨rfl, by simp⟩
  | delete agent id =>
    cases b with
    | inMemory =>
      refine ⟨⟨rfl, rfl, agent, id, rfl, rfl⟩, fun r => ?_⟩
      exact hreport _ _ rfl rfl
    | redis =>
      refine ⟨⟨rfl, rfl, agent, id, rfl, rfl⟩, fun r => ?_⟩
      cases r with
      | error e => exact hreport _ _ rfl rfl
      | ok u => exact hreport _ _ rfl rfl

lemma answers_act {b : Backend} {task : RecordTask} {tr : List RecEv} {w w' : Records} {e : RecEv}
    (hA : Protocol b task tr e.op) (hans : w.Answers e.op e.resp w') :
    (act task e = none ∧ w' = w) ∨ ∃ a, act task e = some a ∧
      a.Fits (w (taskRecordKey task.pair.1 task.pair.2)) ∧
      w' = Function.update w (taskRecordKey task.pair.1 task.pair.2)
        (a.next (w (taskRecordKey task.pair.1 task.pair.2))) := by
  obtain ⟨o, r⟩ := e
  cases o with
  | loadOrStore key value =>
    obtain ⟨-, -, -, agent, id, rfl, rfl⟩ := hA
    refine .inr ⟨_, rfl, ?_⟩
    simp only [Records.Answers] at hans
    split at hans
    next owner hkey =>
      obtain ⟨rfl, rfl⟩ := hans
      simp only [RecordTask.pair, hkey]
      exact ⟨⟨rfl, rfl⟩, (Function.update_eq_self_iff.2 hkey.symm).symm⟩
    next hkey =>
      obtain ⟨rfl, rfl⟩ := hans
      simp only [RecordTask.pair, hkey]
      exact ⟨⟨rfl, rfl⟩, rfl⟩
  | setNX key value =>
    -- a SETNX that fails or finds the key tells the caller nothing yet
    obtain ⟨-, -, -, agent, id, rfl, rfl⟩ := hA
    simp only [Records.Answers] at hans
    rcases hans with ⟨⟨e, rfl⟩, rfl⟩ | hans
    · exact .inl ⟨rfl, rfl⟩
    · split at hans
      next owner hkey =>
        obtain ⟨rfl, rfl⟩ := hans
        exact .inl ⟨rfl, rfl⟩
      next hkey =>
        obtain ⟨rfl, rfl⟩ := hans
        refine .inr ⟨_, rfl, ?_⟩
        simp only [RecordTask.pair, hkey]
        exact ⟨⟨rfl, rfl⟩, rfl⟩
  | load key =>
    obtain ⟨-, -, agent, id, rfl, rfl⟩ := hA
    obtain ⟨rfl, rfl⟩ := hans
    exact .inr ⟨_, rfl, rfl, (Function.update_eq_self _ _).symm⟩
  | get key =>
    obtain ⟨-, -, -, rfl, hcaller⟩ := hA
    obtain ⟨⟨e, rfl⟩ | rfl, rfl⟩ := hans
    · exact .inl ⟨rfl, rfl⟩
    · -- a store reads the owner after its SETNX has found the key
      refine .inr ?_
      cases task with
      | store agent id principal =>
        simp only [act, RecordTask.pair]
        cases hkey : w' (taskRecordKey agent id) with
        | none => exact ⟨_, rfl, rfl, (Function.update_eq_self_iff.2 hkey.symm).symm⟩
        | some owner => exact ⟨_, rfl, ⟨rfl, rfl⟩, (Function.update_eq_self_iff.2 hkey.symm).symm⟩
      | lookup agent id => exact ⟨_, rfl, rfl, (Function.update_eq_self _ _).symm⟩
      | delete agent id => simp at hcaller
  | delete key =>
    obtain ⟨-, -, agent, id, rfl, rfl⟩ := hA
    cases hans
    exact .inr ⟨_, rfl, trivial, rfl⟩
  | del key =>
    obtain ⟨-, -, agent, id, rfl, rfl⟩ := hA
    rcases hans with ⟨⟨e, rfl⟩, rfl⟩ | ⟨rfl, rfl⟩
    · exact .inl ⟨rfl, rfl⟩
    · exact .inr ⟨_, rfl, trivial, rfl⟩
  | report rep =>
    cases hans
    exact .inl ⟨rfl, rfl⟩

/-! ## The history of a pair -/

abbrev Steps := List (RecConfig × Label recordSig RecordTask)

def effect (p : Bytes × Bytes) : RecConfig × Label recordSig RecordTask → Option (Nat × Act Bytes)
  | (c, .call i e) =>
    match c.threads[i]? with
    | some t => if t.task.pair = p then (act t.task e).map fun a => (i, a) else none
    | none => none
  | _ => none

def history (p : Bytes × Bytes) (ls : Steps) : List (Nat × Act Bytes) := ls.filterMap (effect p)

def told (p : Bytes × Bytes) (ls : Steps) : List (Act Bytes) := (history p ls).map Prod.snd

variable {b : Backend} {G : RecConfig → Label recordSig RecordTask → Prop} {ls : Steps}
  {c c' : RecConfig} {l : Label recordSig RecordTask} {p : Bytes × Bytes}

lemma history_snoc (p : Bytes × Bytes) (ls : Steps) (x : RecConfig × Label recordSig RecordTask) :
    history p (ls ++ [x]) = history p ls ++ (effect p x).toList := by
  rw [history, List.filterMap_append]
  cases h : effect p x <;> simp [history, h]

lemma told_snoc (p : Bytes × Bytes) (ls : Steps) (x : RecConfig × Label recordSig RecordTask) :
    told p (ls ++ [x]) = told p ls ++ ((effect p x).map Prod.snd).toList := by
  rw [told, history_snoc, map_append]
  cases effect p x <;> rfl

lemma step_effect (hc : (system b).Reachable G c) (hs : (system b).Step c l c') (hp : colon ∉ p.1) :
    (effect p (c, l) = none ∧ c'.world (taskRecordKey p.1 p.2) = c.world (taskRecordKey p.1 p.2)) ∨ ∃ i a,
    effect p (c, l) = some (i, a) ∧ a.Fits (c.world (taskRecordKey p.1 p.2)) ∧
    c'.world (taskRecordKey p.1 p.2) = a.next (c.world (taskRecordKey p.1 p.2)) := by
  cases hs with
  | env henv => exact henv.elim
  | start hstart => exact .inl ⟨rfl, rfl⟩
  | @call i t o k r w hi hrest hans =>
    have hmem := mem_of_getElem? hi
    have hallowed := hc.allowed (code_obeys b) hmem hrest
    -- the name of an agent has no colon
    have hcolon : colon ∉ t.task.pair.1 :=
      hc.started (P := fun _ task => colon ∉ task.pair.1) (fun _ _ _ h => h) (fun _ _ _ _ _ h => h) t hmem
    by_cases hpair : t.task.pair = p
    · subst hpair
      rcases answers_act (e := ⟨o, r⟩) hallowed hans with ⟨hnone, rfl⟩ | ⟨a, ha, hfits, rfl⟩
      · exact .inl ⟨by simp [effect, hi, hnone], rfl⟩
      · exact .inr ⟨i, a, by simp [effect, hi, ha], hfits, update_self ..⟩
    · refine .inl ⟨by simp [effect, hi, hpair], ?_⟩
      rcases answers_act (e := ⟨o, r⟩) hallowed hans with ⟨-, rfl⟩ | ⟨a, -, -, rfl⟩
      · rfl
      · exact update_of_ne (fun h => hpair (taskRecordKey_injective hcolon hp h.symm)) ..

lemma history_legal (h : (system b).Trail G ls c) (hp : colon ∉ p.1) :
    Legal none (told p ls) ∧ ownerAfter none (told p ls) = c.world (taskRecordKey p.1 p.2) := by
  induction h with
  | init hw =>
    rw [show _ = fun _ => none from hw]
    exact ⟨trivial, rfl⟩
  | @step ls c c' l htrail hg hs ih =>
    rw [told_snoc]
    rcases step_effect htrail.reachable hs hp with ⟨hnone, hsame⟩ | ⟨i, a, ha, hfits, hnext⟩
    · rw [hnone, hsame]
      simpa using ih
    · rw [ha]
      refine ⟨WriteOnce.legal_concat.2 ⟨ih.1, ?_⟩, WriteOnce.ownerAfter_concat.trans ?_⟩
      · rw [← ih.2] at hfits
        exact hfits
      · rw [hnext, ← ih.2]

lemma effect_eq_some {i : Nat} {a : Act Bytes} (h : effect p (c, l) = some (i, a)) :
    ∃ e t, l = .call i e ∧ c.threads[i]? = some t ∧ t.task.pair = p ∧ act t.task e = some a := by
  cases l with
  | env => cases h
  | start task => cases h
  | call j e =>
    simp only [effect] at h
    split at h
    next t ht =>
      split_ifs at h with hpair
      obtain ⟨a', ha', heq⟩ := map_eq_some_iff.1 h
      cases heq
      exact ⟨e, t, rfl, ht, hpair, ha'⟩
    next => cases h

lemma history_lt (h : (system b).Trail G ls c) : ∀ x ∈ history p ls, x.1 < c.threads.length := by
  induction h with
  | init hw => exact fun x hx => absurd hx not_mem_nil
  | @step ls c c' l htrail hg hs ih =>
    intro x hx
    rw [history_snoc] at hx
    have hlt : x.1 < c.threads.length := by
      rcases mem_append.1 hx with hold | hnew
      · exact ih x hold
      · obtain ⟨e, t, -, ht, -⟩ := effect_eq_some (i := x.1) (a := x.2) (Option.mem_toList.1 hnew)
        exact (List.getElem?_eq_some_iff.1 ht).1
    obtain ⟨t', ht', -⟩ := hs.thread_mono (List.getElem?_eq_getElem hlt)
    exact (List.getElem?_eq_some_iff.1 ht').1

def part (i : Nat) (h : List (Nat × Act Bytes)) : List (Act Bytes) :=
  (h.filter fun x => x.1 = i).map Prod.snd

lemma part_append (i : Nat) (h h' : List (Nat × Act Bytes)) :
    part i (h ++ h') = part i h ++ part i h' := by
  simp [part]

lemma history_part (h : (system b).Trail G ls c) : ∀ i t, c.threads[i]? = some t →
    part i (history t.task.pair ls) = acts t.task t.trace := by
  induction h with
  | init hw =>
    intro i t ht
    cases ht
  | @step ls c c' l htrail hg hs ih =>
    intro j t' hj
    rw [history_snoc, part_append]
    -- a step that is not a call of the thread tells it nothing
    have hother : (∀ e, l ≠ .call j e) → part j (effect t'.task.pair (c, l)).toList = [] := by
      intro hl
      cases heff : effect t'.task.pair (c, l) with
      | none => rfl
      | some x =>
        obtain ⟨e, t, rfl, -⟩ := effect_eq_some (i := x.1) (a := x.2) heff
        have hne : x.1 ≠ j := fun heq => hl e (heq ▸ rfl)
        simp [part, hne]
    cases hs with
    | env henv => exact henv.elim
    | @start task hstart =>
      rw [hother (by simp), append_nil]
      rw [List.getElem?_append] at hj
      split_ifs at hj with hlt
      · exact ih j t' hj
      · -- the new call has been told nothing
        have hnone : part j (history t'.task.pair ls) = [] := by
          rw [part, List.map_eq_nil_iff, List.filter_eq_nil_iff]
          intro x hx heq
          have hx' := history_lt htrail x hx
          have heq' := of_decide_eq_true heq
          omega
        obtain ⟨-, rfl⟩ : j - c.threads.length = 0 ∧ _ = t' := by
          simpa [List.getElem?_eq_some_iff] using hj
        exact hnone
    | @call i t o k r w hi hrest hans =>
      by_cases hij : i = j
      · subst hij
        have hlt := (List.getElem?_eq_some_iff.1 hi).1
        obtain rfl := Option.some.inj ((List.getElem?_set_self hlt).symm.trans hj)
        rw [acts_snoc, ih i t hi]
        congr 1
        simp only [effect, hi, if_true]
        cases act t.task ⟨o, r⟩ <;> simp [part]
      · rw [hother (by simpa using hij), append_nil]
        exact ih j t' ((List.getElem?_set_ne hij).symm.trans hj)

/-! ## Insert-only -/

/-- A task record is created once and never overwritten. -/
structure InsertOnly (b : Backend) (ls : Steps) (c : RecConfig) : Prop where
  /-- between two deletes exactly one store creates the record, and whoever comes after it is told so -/
  eras : ∀ p, colon ∉ p.1 → ∀ pre block post, told p ls = pre ++ block ++ post →
    (pre = [] ∨ ∃ pre', pre = pre' ++ [.release]) → .release ∉ block → Era block
  /-- a call takes effect once, and it returns what it was told -/
  reports : ∀ i t, c.threads[i]? = some t → ∀ r ∈ returned t.trace,
    Says t.task (part i (history t.task.pair ls)) r
  /-- a store gives up only in Redis, when a delete of its pair has come between its two commands -/
  overtaken : ∀ p, colon ∉ p.1 → ∀ i, (i, .giveUp) ∈ history p ls → b = .redis ∧
    ∃ l₁ c₁ key value l₂ c₂ l₃, ls = (l₁ ++ (c₁, .call i ⟨.setNX key value, .ok false⟩) :: l₂) ++
      (c₂, .call i ⟨.get key, .ok none⟩) :: l₃ ∧ .release ∈ told p l₂
  /-- a call on one pair leaves the record of every other as it is -/
  apart : ∀ i t e c', c.threads[i]? = some t → (system b).Step c (.call i e) c' →
    ∀ p, colon ∉ p.1 → p ≠ t.task.pair → c'.world (taskRecordKey p.1 p.2) = c.world (taskRecordKey p.1 p.2)

lemma told_append (p : Bytes × Bytes) (l₁ l₂ : Steps) : told p (l₁ ++ l₂) = told p l₁ ++ told p l₂ := by
  simp [told, history]

lemma released_between {l₁ l₂ : Steps} {c₁ : RecConfig} {i : Nat} {t : RecThread} {key value : Bytes}
    (h : (system b).Trail G (l₁ ++ (c₁, .call i ⟨.setNX key value, .ok false⟩) :: l₂) c)
    (ht : c₁.threads[i]? = some t) (hp : colon ∉ t.task.pair.1)
    (hnone : c.world (taskRecordKey t.task.pair.1 t.task.pair.2) = none) :
    .release ∈ told t.task.pair l₂ := by
  obtain ⟨hbefore, -, c₂, hs, -⟩ := h.split
  -- the record is there when the insertion fails
  obtain ⟨t', k, ht', hrest, hans, -⟩ := hs.caller rfl
  obtain rfl := mem_unique ht' ht
  have hallowed := hbefore.reachable.allowed (code_obeys b) (mem_of_getElem? ht') hrest
  obtain ⟨-, -, -, agent, id, htask, hkey⟩ := hallowed
  have hkey' : taskRecordKey t'.task.pair.1 t'.task.pair.2 = key := by rw [htask, hkey]; rfl
  have hthere : ∃ q, c₁.world key = some q := by
    simp only [system, Records.Answers] at hans
    rcases hans with ⟨⟨e, he⟩, -⟩ | hans
    · cases he
    · split at hans
      next q hq => exact ⟨q, hq⟩
      next => cases hans.1
  obtain ⟨q, hq⟩ := hthere
  have hfirst := history_legal hbefore hp
  have hall := history_legal h hp
  have htold : told t'.task.pair (l₁ ++ (c₁, .call i ⟨.setNX key value, .ok false⟩) :: l₂) =
      told t'.task.pair l₁ ++ told t'.task.pair l₂ := by
    rw [told_append, told, told, told, history, history, history, List.filterMap_cons_none]
    simp [effect, ht, act]
  rw [htold, WriteOnce.legal_append, hfirst.2, hkey', hq] at hall
  by_contra hrelease
  have howner := WriteOnce.ownerAfter_some hall.1.2 hrelease
  have hafter : ownerAfter none (told t'.task.pair l₁ ++ told t'.task.pair l₂) =
      ownerAfter (ownerAfter none (told t'.task.pair l₁)) (told t'.task.pair l₂) := foldl_append
  rw [hafter, hfirst.2, hkey', hq, howner] at hall
  rw [hkey'] at hnone
  cases hall.2.trans hnone

lemma returned_snoc (tr : List RecEv) (r : Report) :
    returned (tr ++ [⟨.report r, ()⟩]) = returned tr ++ [r] := by
  simp [returned]

lemma says_of_returned (hc : (system b).Reachable G c) {t : RecThread} (ht : t ∈ c.threads) {r : Report}
    (hr : r ∈ returned t.trace) : Says t.task (acts t.task t.trace) r := by
  have hjust := (hc.obeys (code_obeys b) t ht).2
  obtain ⟨pre, post, htrace⟩ := append_of_mem (mem_of_returned hr)
  have hsays : Says t.task (acts t.task pre) r :=
    (hjust pre ⟨.report r, ()⟩ ⟨post, by simp [htrace]⟩).2
  cases post with
  | nil =>
    rw [htrace, acts_snoc]
    simpa [act] using hsays
  | cons e post =>
    have hopen := (hjust (pre ++ [⟨.report r, ()⟩]) e ⟨post, by simp [htrace]⟩).1
    rw [returned_snoc] at hopen
    simp at hopen

/-- For every interleaving of the calls, in memory and in Redis. -/
theorem records_insert_only (h : (system b).Trail System.Free ls c) : InsertOnly b ls c where
  eras p hp pre block post htold hpre hblock :=
    (htold ▸ (history_legal h hp).1).stretch hpre hblock
  reports i t ht r hr := by
    rw [history_part h i t ht]
    exact says_of_returned h.reachable (List.mem_of_getElem? ht) hr
  overtaken p hp i hi := by
    obtain ⟨⟨c₂, l⟩, hmem, heff⟩ := List.mem_filterMap.1 hi
    obtain ⟨m₁, l₃, rfl⟩ := List.append_of_mem hmem
    obtain ⟨hbefore, -, c₃, hs, -⟩ := h.split
    obtain ⟨e, t, rfl, ht, rfl, hact⟩ := effect_eq_some heff
    obtain ⟨t', k, ht', hrest, hans, -⟩ := hs.caller rfl
    obtain rfl := Option.mem_unique ht' ht
    have hallowed := hbefore.reachable.allowed (code_obeys b) (List.mem_of_getElem? ht) hrest
    obtain ⟨key, rfl⟩ := act_giveUp hact
    obtain ⟨-, -, hb, hkey, ⟨agent, id, htask⟩ | ⟨agent, id, value, htask, hfailed⟩⟩ := hallowed
    · rw [htask] at hact
      cases hact
    · obtain ⟨l₁, c₁, l₂, rfl⟩ := hbefore.occurred ht hfailed
      obtain ⟨-, -, c₄, hs₁, hleads⟩ := hbefore.split
      obtain ⟨t₁, _, ht₁, -, -, hnew⟩ := hs₁.caller rfl
      obtain ⟨t₂, ht₂, htask₂, -⟩ := hleads.thread_mono hnew
      obtain rfl := Option.mem_unique ht₂ ht
      have htask₁ : t₁.task = t₂.task := htask₂.symm
      have hnone : c₂.world (taskRecordKey t₁.task.pair.1 t₁.task.pair.2) = none := by
        rw [htask₁, ← hkey]
        rcases hans.1 with ⟨e, he⟩ | he
        · cases he
        · exact (Except.ok.inj he).symm
      have hreleased := released_between hbefore ht₁ (htask₁ ▸ hp) hnone
      rw [htask₁] at hreleased
      exact ⟨hb, l₁, c₁, key, value, l₂, c₂, l₃, rfl, hreleased⟩
  apart i t e c' ht hs p hp hne := by
    rcases step_effect h.reachable hs hp with ⟨-, hsame⟩ | ⟨j, a, ha, -⟩
    · exact hsame
    · obtain ⟨e', t', hl, ht', hpair, -⟩ := effect_eq_some ha
      cases hl
      obtain rfl := Option.mem_unique ht' ht
      exact absurd hpair.symm hne

/-! ### Two runs -/

def Records.answer (w : Records) : (o : RecordOp) → Option (o.Resp × Records)
  | .loadOrStore key value =>
    match w key with
    | some owner => some ((owner, true), w)
    | none => some ((value, false), Function.update w key (some value))
  | .load key => some (w key, w)
  | .delete key => some ((), Function.update w key none)
  | .setNX key value =>
    match w key with
    | some _ => some (.ok false, w)
    | none => some (.ok true, Function.update w key (some value))
  | .get key => some (.ok (w key), w)
  | .del key => some (.ok (), Function.update w key none)
  | .report _ => some ((), w)

lemma Records.answer_sound {w w' : Records} {o : RecordOp} {r : o.Resp}
    (h : w.answer o = some (r, w')) : w.Answers o r w' := by
  cases o with
  | loadOrStore key value =>
    simp only [Records.answer, Records.Answers] at h ⊢
    split at h <;> cases h <;> exact ⟨rfl, rfl⟩
  | setNX key value =>
    simp only [Records.answer, Records.Answers] at h ⊢
    refine .inr ?_
    split at h <;> cases h <;> exact ⟨rfl, rfl⟩
  | load key =>
    cases h
    exact ⟨rfl, rfl⟩
  | get key =>
    cases h
    exact ⟨.inr rfl, rfl⟩
  | del key =>
    cases h
    exact .inr ⟨rfl, rfl⟩
  | delete key =>
    cases h
    rfl
  | report rep =>
    cases h
    rfl

def player (b : Backend) : System.Player (system b) System.Free where
  answer := Records.answer
  answers _ _ _ _ := Records.answer_sound
  starts _ task := decide (colon ∉ task.pair.1)
  starts_sound _ task h := of_decide_eq_true (p := colon ∉ task.pair.1) h
  allows _ _ := true
  allows_sound _ _ _ := trivial

def empty : RecConfig := ⟨fun _ => none, []⟩

def alice : Bytes := [0x61]

def bob : Bytes := [0x62]

def travelTask : Bytes × Bytes := ([0x74], [0x31, colon, 0x32])

/-- The owner's store, another's that finds the record, and a delete which comes between the commands that
the other's store makes in Redis; then a lookup and a second delete. -/
def overtaking : List (System.Move RecordTask) :=
  [.start (.store travelTask.1 travelTask.2 alice), .start (.store travelTask.1 travelTask.2 bob),
    .start (.delete travelTask.1 travelTask.2), .start (.lookup travelTask.1 travelTask.2),
    .start (.delete travelTask.1 travelTask.2)] ++
  System.calls 0 2 ++ System.calls 1 1 ++ System.calls 2 2 ++ System.calls 1 2 ++ System.calls 3 2 ++
  System.calls 4 2

def overtakingSteps (b : Backend) : Steps := (player b).steps empty overtaking

def overtaken (b : Backend) : RecConfig := (player b).play empty overtaking

lemma overtaking_trail (b : Backend) : (system b).Trail System.Free (overtakingSteps b) (overtaken b) :=
  (player b).trail_play (.init rfl) overtaking

/-- In memory a store is one command, and both stores come before the delete. -/
theorem records_insert_only_inMemory :
    (system .inMemory).Trail System.Free (overtakingSteps .inMemory) (overtaken .inMemory) ∧
    told travelTask (overtakingSteps .inMemory) =
      [.claim alice alice true, .claim bob alice false, .release, .read none, .release] ∧
    InsertOnly .inMemory (overtakingSteps .inMemory) (overtaken .inMemory) :=
  ⟨overtaking_trail .inMemory, by decide +kernel, records_insert_only (overtaking_trail .inMemory)⟩

/-- In Redis the store that finds the record returns after the delete, with no owner; no store between the
two deletes reports that it created the record. -/
theorem overtaken_names_none :
    (system .redis).Trail System.Free (overtakingSteps .redis) (overtaken .redis) ∧
    told travelTask (overtakingSteps .redis) =
      [.claim alice alice true, .release, .giveUp, .read none, .release] ∧
    (overtaken .redis).threads[1]?.map (fun t => returned t.trace) = some [.stored [] false] :=
  ⟨overtaking_trail .redis, by decide +kernel, by decide +kernel⟩

end McpGateway.Session.TaskRecords
