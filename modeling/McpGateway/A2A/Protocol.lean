import McpGateway.A2A.World

/-!
# What the tasks of the A2A broker call

For each task a protocol that says which call may follow the answered ones, proved once about its code
and then at hand in every run.
-/

namespace McpGateway.A2A

open Go Effect Config Session

/-! ## Refreshes -/

/-- One attempt of `refreshCard` to fetch and validate the card of an agent. -/
structure Attempt where
  ns : String
  agentPrefix : String
  agent : A2AAgent
  gwCA : String
  host : String
  prev : Option CardEntry
  client : AgentClient
  resp : CardResponse

namespace Attempt

variable (a : Attempt)

def key : String := storeKey a.ns a.agentPrefix

def trace : List BrokerEv :=
  [⟨.trust, (a.gwCA, a.host)⟩, ⟨.storeGet a.ns a.agentPrefix, a.prev⟩,
    ⟨.clientFor a.key a.agent, .ok a.client⟩,
    ⟨.fetch a.client (cardRequest a.agent a.prev), .ok a.resp⟩]

inductive Commits (s : Setup) (now : Time) : CardEntry → Prop where
  | notModified {prev : CardEntry} (hprev : a.prev = some prev) (hstatus : a.resp.status = 304) :
      Commits s now { prev with fetchedAt := now }
  | unchanged {prev : CardEntry} {body : Bytes} (hprev : a.prev = some prev)
      (hstatus : a.resp.status = 200) (hbody : cardBody a.resp = some body)
      (hsha : s.sha256 body = prev.sha256) :
      Commits s now
        { prev with fetchedAt := now, etag := a.resp.etag, lastModified := a.resp.lastModified }
  | fresh {body : Bytes} (hstatus : a.resp.status = 200) (hbody : cardBody a.resp = some body)
      (hvalid : validateCard body a.host a.ns a.agentPrefix = "") :
      Commits s now ⟨body, a.resp.etag, a.resp.lastModified, s.sha256 body, now⟩

def Rejects (reason : String) : Prop :=
  a.resp.status = 200 ∧ ∃ body, cardBody a.resp = some body ∧
    validateCard body a.host a.ns a.agentPrefix = reason ∧ reason ≠ ""

end Attempt

/-- The calls that only read, as far as the index, the validation state and the store go. -/
def BrokerOp.isRead : BrokerOp → Bool
  | .trust | .snapshot | .storeGet .. | .clientFor .. | .fetch .. | .now => true
  | _ => false

/-- Whether a refresh may make a call after the answered calls `tr`. -/
inductive RefreshProtocol (s : Setup) (tr : List BrokerEv) : BrokerOp → Prop where
  | read {o : BrokerOp} (h : o.isRead = true) : RefreshProtocol s tr o
  | commit {pre : List BrokerEv} {a : Attempt} {now : Time} {entry : CardEntry}
      (htr : tr = pre ++ a.trace ++ [⟨.now, now⟩]) (h : a.Commits s now entry) :
      RefreshProtocol s tr (.storeIfCurrent a.ns a.agentPrefix a.agent a.gwCA a.host entry)
  | reject {pre : List BrokerEv} {a : Attempt} {reason : String} (htr : tr = pre ++ a.trace)
      (h : a.Rejects reason) :
      RefreshProtocol s tr (.failCardValidation a.ns a.agentPrefix a.agent a.gwCA a.host reason)

section Refresh

variable {s : Setup} {tr pre : List BrokerEv} {a : Attempt} (htr : tr = pre ++ a.trace)

include htr

lemma commit_obeys {entry : Time → CardEntry}
    (h : ∀ now, a.Commits s now (entry now)) :
    (commit a.ns a.agentPrefix a.agent a.gwCA a.host entry).Obeys (RefreshProtocol s)
      (fun _ _ => True) tr := by
  refine obeys_ask.2 ⟨.read rfl, fun now => ?_⟩
  exact obeys_ask.2 ⟨.commit (by rw [htr]) (h now), fun _ => trivial⟩

lemma acceptBody_obeys {body : Bytes} (hstatus : a.resp.status = 200)
    (hbody : cardBody a.resp = some body) :
    (acceptBody s a.ns a.agentPrefix a.agent a.gwCA a.host a.prev a.resp body).Obeys
      (RefreshProtocol s) (fun _ _ => True) tr := by
  unfold acceptBody
  cases hentry : unchangedEntry (s.sha256 body) a.prev with
  | some prev =>
    obtain ⟨hprev, hsha⟩ := Option.filter_eq_some_iff.1 hentry
    exact commit_obeys htr fun now => .unchanged hprev hstatus hbody (by simpa using hsha)
  | none =>
    dsimp only
    split_ifs with hreason
    · exact obeys_ask.2 ⟨.reject htr ⟨hstatus, body, hbody, rfl, hreason⟩, fun _ => trivial⟩
    · exact commit_obeys htr fun now => .fresh hstatus hbody (not_not.1 hreason)

lemma accept_obeys :
    (handleAnswer.accept s a.ns a.agentPrefix a.agent a.gwCA a.host a.prev a.resp).Obeys
      (RefreshProtocol s) (fun _ _ => True) tr := by
  unfold handleAnswer.accept
  split_ifs with hstatus
  · cases hbody : cardBody a.resp with
    | some body => exact acceptBody_obeys htr hstatus hbody
    | none => exact trivial
  · exact trivial

lemma handleAnswer_obeys :
    (handleAnswer s a.ns a.agentPrefix a.agent a.gwCA a.host a.prev a.resp).Obeys
      (RefreshProtocol s) (fun _ _ => True) tr := by
  have haccept := accept_obeys (s := s) htr
  unfold handleAnswer
  cases hprev : a.prev with
  | none =>
    rw [hprev] at haccept
    exact haccept
  | some prev =>
    rw [hprev] at haccept
    dsimp only
    split_ifs with hstatus
    · exact commit_obeys htr fun now => .notModified hprev hstatus
    · exact haccept

omit htr

lemma refreshCard_obeys (ns agentPrefix : String) (agent : A2AAgent) :
    (refreshCard s ns agentPrefix agent).Obeys (RefreshProtocol s) (fun _ _ => True) tr := by
  refine obeys_ask.2 ⟨.read rfl, fun trust => obeys_ask.2 ⟨.read rfl, fun prev => ?_⟩⟩
  split_ifs with hurl
  · exact trivial
  · refine obeys_ask.2 ⟨.read rfl, fun built => ?_⟩
    cases built with
    | error e => exact trivial
    | ok client =>
      refine obeys_ask.2 ⟨.read rfl, fun answer => ?_⟩
      cases answer with
      | error e => exact trivial
      | ok resp =>
        have htr : tr ++ [⟨.trust, trust⟩] ++ [⟨.storeGet ns agentPrefix, prev⟩] ++
            [⟨.clientFor (storeKey ns agentPrefix) agent, .ok client⟩] ++
            [⟨.fetch client (cardRequest agent prev), .ok resp⟩] = tr ++
              (Attempt.mk ns agentPrefix agent trust.1 trust.2 prev client resp).trace := by
          simp [Attempt.trace, Attempt.key]
        exact handleAnswer_obeys htr

lemma refreshEach_obeys (targets : List Target) :
    (refreshEach s targets).Obeys (RefreshProtocol s) (fun _ _ => True) tr := by
  induction targets generalizing tr with
  | nil => exact trivial
  | cons t rest ih =>
    exact obeys_seq (refreshCard_obeys t.ns t.agentPrefix t.agent) fun _ _ _ _ => ih

lemma refreshAll_obeys : (refreshAll s).Obeys (RefreshProtocol s) (fun _ _ => True) tr :=
  obeys_ask.2 ⟨.read rfl, fun _ => refreshEach_obeys _⟩

end Refresh

/-! ## Replacing the agents -/

abbrev swaps (next prev : GoMap A2AAgent) : BrokerEv := ⟨.swapAgents next, prev⟩

abbrev lists (keys : List String) : BrokerEv := ⟨.storeList, keys⟩

abbrev deletes (key : String) : BrokerEv := ⟨.storeDelete (splitKey key).1 (splitKey key).2, ()⟩

/-- Whether `SetAgents` may make a call after the answered calls `tr`; `next` is the new index. -/
def SetProtocol (next : GoMap A2AAgent) (tr : List BrokerEv) : BrokerOp → Prop
  | .swapAgents m => m = next ∧ tr = []
  | .storeList => ∀ key, deletes key ∉ tr
  | .storeDelete ns agentPrefix => ∃ prev keys key, swaps next prev ∈ tr ∧
      lists keys ∈ tr ∧ key ∈ keys ∧ next.lookup key = none ∧
      splitKey key = (ns, agentPrefix)
  | .range m => m = next
  | .storeGet .. => True
  | .spawn _ => True
  | _ => False

/-- The index was swapped, and since then every stale card that was listed has been deleted. -/
def Evicted (tr : List BrokerEv) : Prop :=
  (∃ next prev, swaps next prev ∈ tr) ∧ ∀ next prev, swaps next prev ∈ tr → (∃ keys, lists keys ∈ tr) ∧
        ∀ keys, lists keys ∈ tr → ∀ key ∈ keys, next.lookup key = none → deletes key ∈ tr

def BrokerOp.isQuiet : BrokerOp → Bool
  | .swapAgents _ | .storeList => false
  | _ => true

lemma Evicted.append {tr tr' : List BrokerEv} (h : Evicted tr)
    (hquiet : ∀ e ∈ tr', e.op.isQuiet = true) : Evicted (tr ++ tr') := by
  have hold : ∀ e : BrokerEv, e.op.isQuiet = false → e ∈ tr ++ tr' → e ∈ tr := by
    intro e he hmem
    rcases mem_append.1 hmem with hmem | hmem
    · exact hmem
    · rw [hquiet e hmem] at he
      cases he
  rcases h with ⟨⟨next, prev, hswap⟩, hall⟩
  refine ⟨⟨next, prev, mem_append_left _ hswap⟩, fun m prev' hm => ?_⟩
  rcases hall m prev' (hold _ rfl hm) with ⟨⟨keys, hkeys⟩, hdeleted⟩
  refine ⟨⟨keys, mem_append_left _ hkeys⟩, fun keys' hkeys' key hkey hnone => ?_⟩
  exact mem_append_left _ (hdeleted keys' (hold _ rfl hkeys') key hkey hnone)

section Set

variable {next : GoMap A2AAgent} {tr : List BrokerEv}

lemma deleteStale_obeys (prev : GoMap A2AAgent) {keys : List String} (rest : List String)
    (hswap : swaps next prev ∈ tr) (hlist : lists keys ∈ tr) (hrest : ∀ key ∈ rest, key ∈ keys) :
    (deleteStale next rest).Obeys (SetProtocol next) (fun _ tr' => ∃ dels, tr' = tr ++ dels ∧ (∀ e ∈ dels,
    e.op.isQuiet = true) ∧ ∀ key ∈ rest, next.lookup key = none → deletes key ∈ tr') tr := by
  induction rest generalizing tr with
  | nil => exact ⟨[], (append_nil tr).symm, by simp, by simp⟩
  | cons key rest ih =>
    have hrest' : ∀ k ∈ rest, k ∈ keys := fun k hk => hrest k (mem_cons_of_mem _ hk)
    unfold deleteStale
    split_ifs with hreg
    · refine obeys_mono (ih hswap hlist hrest') (fun _ _ h => h) ?_
      rintro _ tr' ⟨dels, htr', hquiet, hdeleted⟩
      refine ⟨dels, htr', hquiet, fun k hk hnone => ?_⟩
      rcases mem_cons.1 hk with rfl | hk
      · simp [hnone] at hreg
      · exact hdeleted k hk hnone
    · have hnone : next.lookup key = none := by simpa using hreg
      refine obeys_ask.2 ⟨⟨prev, keys, key, hswap, hlist, hrest key mem_cons_self, hnone, rfl⟩,
        fun _ => ?_⟩
      refine obeys_mono (ih (mem_append_left _ hswap) (mem_append_left _ hlist) hrest')
        (fun _ _ h => h) ?_
      rintro _ tr' ⟨dels, rfl, hquiet, hdeleted⟩
      refine ⟨deletes key :: dels, by simp, ?_, fun k hk hnone => ?_⟩
      · intro e he
        rcases mem_cons.1 he with rfl | he
        · rfl
        · exact hquiet e he
      · rcases mem_cons.1 hk with rfl | hk
        · simp
        · exact hdeleted k hk hnone

lemma pendingCards_obeys (prev : GoMap A2AAgent) (entries : List (String × A2AAgent)) :
    (pendingCards prev entries).Obeys (SetProtocol next) (fun _ tr' => ∃ gets, tr' = tr ++ gets ∧
    ∀ e ∈ gets, e.op.isQuiet = true) tr := by
  induction entries generalizing tr with
  | nil => exact ⟨[], (append_nil tr).symm, by simp⟩
  | cons entry rest ih =>
    refine obeys_ask.2 ⟨trivial, fun cached => obeys_seq ih ?_⟩
    rintro more tr' - ⟨gets, rfl, hquiet⟩
    refine ⟨⟨.storeGet (splitKey entry.1).1 (splitKey entry.1).2, cached⟩ :: gets, by simp, ?_⟩
    intro e he
    rcases mem_cons.1 he with rfl | he
    · rfl
    · exact hquiet e he

lemma refreshNewCards_obeys (prev : GoMap A2AAgent) (hev : Evicted tr) :
    (refreshNewCards prev next).Obeys (SetProtocol next) (fun _ tr' => Evicted tr') tr := by
  refine obeys_ask.2 ⟨rfl, fun entries => obeys_seq (pendingCards_obeys prev entries) ?_⟩
  rintro pending tr' - ⟨gets, rfl, hquiet⟩
  have hev' : Evicted (tr ++ [⟨.range next, entries⟩] ++ gets) := by
    rw [append_assoc]
    refine hev.append fun e he => ?_
    rcases mem_append.1 he with he | he
    · rw [mem_singleton.1 he]
      rfl
    · exact hquiet e he
  split_ifs with hpending
  · exact hev'
  · refine ⟨trivial, fun _ => hev'.append fun e he => ?_⟩
    rw [mem_singleton.1 he]
    rfl

lemma setAgents_obeys (agents : List (Option A2AAgent)) :
    (setAgents agents).Obeys (SetProtocol (agentIndex agents)) (fun _ tr => Evicted tr) [] := by
  refine obeys_ask.2 ⟨⟨rfl, rfl⟩, fun prev => obeys_ask.2 ⟨fun key => by simp, fun keys => ?_⟩⟩
  have hswap : swaps (agentIndex agents) prev ∈
      [] ++ [swaps (agentIndex agents) prev] ++ [lists keys] := by simp
  refine obeys_seq (deleteStale_obeys prev keys hswap (by simp) fun key hkey => hkey) ?_
  rintro _ tr' - ⟨dels, rfl, hquiet, hdeleted⟩
  refine refreshNewCards_obeys prev ⟨⟨agentIndex agents, prev, by simp⟩, fun m prev' hm => ?_⟩
  -- the swap and the listing are the first two calls, and the deletions are neither
  have hone : ∀ e : BrokerEv, e.op.isQuiet = false →
      e ∈ [] ++ [swaps (agentIndex agents) prev] ++ [lists keys] ++ dels →
      e = swaps (agentIndex agents) prev ∨ e = lists keys := by
    intro e he hmem
    simp only [nil_append, cons_append, mem_cons] at hmem
    rcases hmem with hmem | hmem | hmem
    · exact .inl hmem
    · exact .inr hmem
    · rw [hquiet e hmem] at he
      cases he
  refine ⟨⟨keys, by simp⟩, fun keys' hkeys' key hkey hnone => ?_⟩
  have hm' : m = agentIndex agents := by
    rcases hone _ rfl hm with heq | heq
    · cases heq
      rfl
    · cases heq
  have hkeys : keys' = keys := by
    rcases hone _ rfl hkeys' with heq | heq
    · cases heq
    · cases heq
      rfl
  subst hm' hkeys
  exact hdeleted key hkey hnone

end Set

/-! ## Calls of the observer and loads -/

/-- The calls of `OnConfigChange` up to the new index. -/
def callTrace (host ca : String) (agents : List (Option A2AAgent)) : List BrokerEv :=
  [⟨.lock, ()⟩, ⟨.getExternalHostname, host⟩, ⟨.getGatewayCACertPEM, ca⟩, ⟨.unlock host ca, ()⟩,
    ⟨.listA2AAgents, agents⟩]

/-- Whether `OnConfigChange` may make a call after the answered calls `tr`. -/
inductive CallProtocol (tr : List BrokerEv) : BrokerOp → Prop where
  | lock (htr : tr = []) : CallProtocol tr .lock
  | host (htr : tr = [⟨.lock, ()⟩]) : CallProtocol tr .getExternalHostname
  | ca {host : String} (htr : tr = [⟨.lock, ()⟩, ⟨.getExternalHostname, host⟩]) :
      CallProtocol tr .getGatewayCACertPEM
  | unlock {host ca : String}
      (htr : tr = [⟨.lock, ()⟩, ⟨.getExternalHostname, host⟩, ⟨.getGatewayCACertPEM, ca⟩]) :
      CallProtocol tr (.unlock host ca)
  | list {host ca : String} (htr : tr = (callTrace host ca []).dropLast) :
      CallProtocol tr .listA2AAgents
  | set {host ca : String} {agents : List (Option A2AAgent)} {tr' : List BrokerEv} {o : BrokerOp}
      (htr : tr = callTrace host ca agents ++ tr') (h : SetProtocol (agentIndex agents) tr' o) :
      CallProtocol tr o

def LoadProtocol (tr : List BrokerEv) : BrokerOp → Prop
  | .setExternalHostname _ | .setA2AAgents _ | .setGatewayCACertPEM _ | .notify =>
    (⟨.notify, ()⟩ : BrokerEv) ∉ tr
  | _ => False

lemma obeys_after {α : Type} {A A' : List BrokerEv → BrokerOp → Prop} {Q Q' : α → List BrokerEv → Prop}
    {p : BrokerProg α} (pre : List BrokerEv) {tr : List BrokerEv} (h : p.Obeys A Q tr) (hA : ∀ tr o,
    A tr o → A' (pre ++ tr) o) (hQ : ∀ a tr, Q a tr → Q' a (pre ++ tr)) : p.Obeys A' Q' (pre ++ tr) := by
  induction p generalizing tr with
  | ret a => exact hQ a tr h
  | vis o k ih =>
    refine ⟨hA tr o h.1, fun r => ?_⟩
    have hk := ih r (h.2 r)
    rwa [← append_assoc] at hk

lemma evicted_after {host ca : String} {agents : List (Option A2AAgent)} {tr : List BrokerEv}
    (h : Evicted tr) : Evicted (callTrace host ca agents ++ tr) := by
  have hnew : ∀ e : BrokerEv, e.op.isQuiet = false → e ∈ callTrace host ca agents ++ tr → e ∈ tr := by
    intro e he hmem
    rcases mem_append.1 hmem with hmem | hmem
    · simp only [callTrace, mem_cons, not_mem_nil, or_false] at hmem
      rcases hmem with rfl | rfl | rfl | rfl | rfl <;> cases he
    · exact hmem
  rcases h with ⟨⟨next, prev, hswap⟩, hall⟩
  refine ⟨⟨next, prev, mem_append_right _ hswap⟩, fun m prev' hm => ?_⟩
  rcases hall m prev' (hnew _ rfl hm) with ⟨⟨keys, hkeys⟩, hdeleted⟩
  refine ⟨⟨keys, mem_append_right _ hkeys⟩, fun keys' hkeys' key hkey hnone => ?_⟩
  exact mem_append_right _ (hdeleted keys' (hnew _ rfl hkeys') key hkey hnone)

lemma onConfigChange_obeys : onConfigChange.Obeys CallProtocol (fun _ tr => Evicted tr) [] := by
  refine obeys_ask.2 ⟨.lock rfl, fun _ => obeys_ask.2 ⟨.host rfl, fun host => ?_⟩⟩
  refine obeys_ask.2 ⟨.ca rfl, fun ca => obeys_ask.2 ⟨.unlock rfl, fun _ => ?_⟩⟩
  refine obeys_ask.2 ⟨.list rfl, fun agents => ?_⟩
  exact obeys_after (callTrace host ca agents) (setAgents_obeys agents)
    (fun tr o h => .set rfl h) fun _ tr h => evicted_after h

lemma load_obeys (conf : SharedConfig) :
    (load conf).Obeys LoadProtocol (fun _ tr => (⟨.notify, ()⟩ : BrokerEv) ∈ tr) [] :=
  ⟨by simp [LoadProtocol], fun _ => ⟨by simp [LoadProtocol], fun _ => ⟨by simp [LoadProtocol],
    fun _ => ⟨by simp [LoadProtocol], fun _ => by simp⟩⟩⟩⟩

/-! ## All tasks -/

namespace Task

def Protocol (s : Setup) : Task → List BrokerEv → BrokerOp → Prop
  | .load _ => LoadProtocol
  | .onConfigChange => CallProtocol
  | .setAgents agents => SetProtocol (agentIndex agents)
  | .refreshAll | .refreshCards _ => RefreshProtocol s

def Done : Task → List BrokerEv → Prop
  | .load _ => fun tr => (⟨.notify, ()⟩ : BrokerEv) ∈ tr
  | .onConfigChange | .setAgents _ => Evicted
  | .refreshAll | .refreshCards _ => fun _ => True

lemma code_obeys (s : Setup) (task : Task) :
    (task.code s).Obeys (task.Protocol s) (fun _ tr => task.Done tr) [] := by
  cases task with
  | load conf => exact load_obeys conf
  | onConfigChange => exact onConfigChange_obeys
  | setAgents agents => exact setAgents_obeys agents
  | refreshAll => exact refreshAll_obeys
  | refreshCards targets => exact refreshEach_obeys targets

end Task

lemma protocol_of {s : Setup} {G : A2AState → Label brokerSig Task → Prop} {c : A2AState} {t : A2AThread}
    {o : BrokerOp} {k : o.Resp → BrokerProg Unit} (h : (system s).Reachable G c) (ht : t ∈ c.threads)
    (hrest : t.rest = .vis o k) : t.task.Protocol s t.trace o :=
  h.allowed (Task.code_obeys s) ht hrest

end McpGateway.A2A
