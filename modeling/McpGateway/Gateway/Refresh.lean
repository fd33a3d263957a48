import McpGateway.Foundation.Ages
import McpGateway.Gateway.TableEntries

/-!
# Whether the published table is the latest one

Every change of the registry is followed by a refresh of the routing table.  Several refreshes may read
the managers at the same time, and each stores its table whenever it gets there.
-/

namespace McpGateway.Gateway

open Go Ages Keyed Config Routing Upstream Broker Transition Fleet Worker

/-! ## What a build may have read of a worker -/

/-- The hints from before the upstream's latest answer, while that answer is being taken over. -/
def Stage.before : Stage → Option (GoMap ToolAnnotation)
  | .fetched _ before | .checked _ before _ => some before
  | _ => none

def Stage.isChanged : Stage → Bool
  | .changed _ => true
  | _ => false

def Stage.isIdle : Stage → Bool
  | .calling [] => true
  | _ => false

namespace Worker

variable {w w' : Worker} {id : String} {e : ActiveMCPServer}

/-- What was read reads as the worker is now or, while an answer is being taken over, as it was. -/
def Fresh (w : Worker) (e : ActiveMCPServer) : Prop :=
  SameEntry e w.server ∨
    ∃ before, w.stage.before = some before ∧ SameEntry e { w.server with toolHints := before }

def sameHints (w : Worker) (before : GoMap ToolAnnotation) : Bool :=
  (servedNames w.server).all fun n => w.server.toolHints.lookup n = before.lookup n

/-- An update that finds no difference in the names finds none in the hints of the served tools, and
neither does an answer that fails to decode. -/
def hintsKept (w : Worker) : Bool :=
  match w.stage with
  | .checked _ before _ => w.updateDiff != ([], []) || w.sameHints before
  | .fetched _ before => w.sameHints before
  | _ => true

lemma sameEntry_of_sameHints {before : GoMap ToolAnnotation} (h : w.sameHints before = true) :
    SameEntry { w.server with toolHints := before } w.server := by
  simp only [sameHints, all_eq_true, decide_eq_true_eq] at h
  exact sameEntry_hints h

lemma Fresh.same (h : w.Fresh e) (hbefore : w.stage.before = none) : SameEntry e w.server := by
  rcases h with hnow | ⟨before, hsome, -⟩
  · exact hnow
  · rw [hbefore] at hsome
    cases hsome

lemma Fresh.settle {before : GoMap ToolAnnotation} (h : w.Fresh e)
    (hbefore : w.stage.before = some before) (hsame : w.sameHints before = true) :
    SameEntry e w.server := by
  rcases h with hnow | ⟨before', hsome, hthen⟩
  · exact hnow
  · rw [hbefore] at hsome
    cases hsome
    exact hthen.trans (sameEntry_of_sameHints hsame)

lemma Fresh.of_stage {stage : Stage} (h : w.Fresh e) (hbefore : stage.before = w.stage.before) :
    Fresh { w with stage := stage } e := by
  refine h.imp_right ?_
  rintro ⟨before, hsome, hsame⟩
  exact ⟨before, hbefore.trans hsome, hsame⟩

lemma Fresh.act (h : SameEntry e w.server) (hsound : w.Sound id) (a : Act) :
    (w.act a).Fresh e ∨ (w.act a).stage.calls.any changesTable = true := by
  cases hcalls : (w.act a).stage.calls.any changesTable with
  | true => exact .inr rfl
  | false => exact .inl (.inl (h.trans (sameEntry_act hsound hcalls)))

lemma updateDiff_of_silent {kept registered : List Tool} {before : GoMap ToolAnnotation}
    (hstage : w.stage = .checked kept before registered)
    (hcalls : (w.act (.updateTools registered kept)).stage.calls.any changesTable = false) :
    w.updateDiff = ([], []) := by
  have heq : (w.act (.updateTools registered kept)).stage.calls =
      ((w.manager.updateTools registered kept []).man,
        (w.manager.updateTools registered kept []).calls).2 := rfl
  rw [heq, updateTools_eq] at hcalls
  rw [updateDiff_eq hstage]
  split_ifs at hcalls ⊢ with hconflict
  · rfl
  · have hgone : Kind.tool.goneNames w.manager kept = [] := by
      by_contra hne
      simp [Kind.exchange, hne, changesTable] at hcalls
    have hnew : Kind.tool.newEntries w.manager kept = [] := by
      by_contra hne
      simp [Kind.exchange, hne, changesTable] at hcalls
    rw [hgone, hnew]
    rfl

variable {st : WorkerStep}

lemma take_fresh {g : GatewayServer} (hsound : w.Sound id)
    (htake : w.take g st = some w') (hkept : st = .update ∨ st = .undecoded → w.hintsKept = true)
    (h : w.Fresh e) :
    w'.Fresh e ∨ w'.stage.calls.any changesTable = true := by
  cases takes htake with
  | harvest hstage =>
    -- what was read so far has the hints from before the answer
    have hsame := h.same (by rw [hstage]; rfl)
    exact .inl (.inr ⟨w.server.toolHints, rfl, hsame⟩)
  | undecoded hstage =>
    have hk := hkept (.inr rfl)
    rw [hintsKept, hstage] at hk
    exact .inl (.inl (h.settle (by rw [hstage]; rfl) hk))
  | reject hstage =>
    cases hcalls : (w.act .dropTools).stage.calls.any changesTable with
    | true => exact .inr rfl
    | false =>
      -- nothing was served, so the hints do not matter
      have hact := sameEntry_act hsound hcalls
      have hnone : ∀ n, n ∉ servedNames w.server := fun n hn => by
        cases (hact.tools n).2 hn
      rcases h with hnow | ⟨before', -, hthen⟩
      · exact .inl (.inl (hnow.trans hact))
      · have hhints : SameEntry { w.server with toolHints := before' } w.server :=
          sameEntry_hints fun n hn => absurd hn (hnone n)
        exact .inl (.inl ((hthen.trans hhints).trans hact))
  | listTools hstage => exact .inl (h.of_stage (by rw [hstage]; rfl))
  | @update kept registered before hstage =>
    cases hcalls : (w.act (.updateTools registered kept)).stage.calls.any changesTable with
    | true => exact .inr rfl
    | false =>
      have hact := sameEntry_act hsound hcalls
      have hagree : w.sameHints before = true := by
        have hk := hkept (.inl rfl)
        simp only [hintsKept, hstage, updateDiff_of_silent hstage hcalls, bne_self_eq_false,
          Bool.false_or] at hk
        exact hk
      exact .inl (.inl ((h.settle (by rw [hstage]; rfl) hagree).trans hact))
  | listPrompts hstage => exact .inl (h.of_stage (by rw [hstage]; rfl))
  | updatePrompts hstage | dropTools hstage | dropPrompts hstage =>
    exact Fresh.act (h.same (by rw [hstage]; rfl)) hsound _

lemma isChanged_of_take {g : GatewayServer} (htake : w.take g st = some w') :
    w.stage.isChanged = false := by
  cases takes htake with
  | harvest hstage | undecoded hstage | reject hstage | listTools hstage | update hstage
  | listPrompts hstage | updatePrompts hstage | dropTools hstage | dropPrompts hstage =>
    rw [hstage]
    rfl

end Worker

namespace Fleet

variable (s : Fleet)

def mcpServers : List (String × ActiveMCPServer) :=
  (s.workers.pairs.filter fun e => e.2.registered).map fun e => (e.1, e.2.server)

/-- The table is what `buildRoutingTable` makes of the servers in some order. -/
def BuildsTable (t : Table) : Prop :=
  ∃ order : List (String × ActiveMCPServer), order.Perm s.mcpServers ∧ Alike t (tableOf order)

def quiescent : Bool :=
  (s.workers.values.all fun w => w.stage.isIdle) && s.unlocked && s.reload = .idle

/-- A refresh stores its table only when no other one that began before it is still under way. -/
def inOrder : Label → Bool
  | .store r => oldest s.refreshes = some r
  | _ => true

def hintsKept : Label → Bool
  | .worker id .update | .worker id .undecoded =>
    match s.workers.lookup id with
    | some w => w.hintsKept
    | none => true
  | _ => true

structure Enumerates (ids : List String) : Prop where
  nodup : ids.Nodup
  mem_iff : ∀ id, id ∈ ids ↔ ∃ w, s.workers.lookup id = some w ∧ w.registered = true

/-- A refresh has read some managers and found them as they are now, and has still to read the rest. -/
def Current (p : Progress) : Prop :=
  ∃ done : List (String × ActiveMCPServer), s.Enumerates (done.map Prod.fst ++ p.todo) ∧
    Alike p.table (tableOf done) ∧ ∀ e ∈ done, ∀ w, s.workers.lookup e.1 = some w → w.Fresh e.2

def latest : Option Progress :=
  (newest s.refreshes).or (s.cachedTable.map fun t => ⟨[], t⟩)

/-- No refresh is still to begin: the reload is past its last phase, and every manager that has changed
something is refreshing the table. -/
structure Settled : Prop where
  reload : s.reload ≠ .stopping
  calls : ∀ id w, s.workers.lookup id = some w → w.stage.calls.any changesTable = false
  changed : ∀ id w, s.workers.lookup id = some w → w.stage.isChanged = true →
    (s.refreshes.lookup (.worker id)).isSome

/-- In a settled state the latest table, finished or not, is built from what is served. -/
structure Tracked : Prop where
  worker : ∀ id, (s.refreshes.lookup (.worker id)).isSome →
    ∃ w, s.workers.lookup id = some w ∧ w.stage.isChanged = true
  reload : (s.refreshes.lookup .reload).isSome → s.reload ≠ .stopping
  current : s.Settled → ∀ p, s.latest = some p → s.Current p

variable {s} {s' : Fleet} {id : String} {w w' : Worker} {p : Progress} {r : Refresher}

lemma enumerates_registeredIDs (s : Fleet) : s.Enumerates s.registeredIDs where
  nodup := by
    refine List.Nodup.sublist ?_ (GoMap.nodup_keys s.workers)
    exact List.Sublist.map _ List.filter_sublist
  mem_iff id := by
    rw [registeredIDs, mem_map]
    constructor
    · rintro ⟨⟨id', w⟩, he, rfl⟩
      have hfilter := mem_filter.1 he
      exact ⟨w, mem_pairs_iff.1 hfilter.1, hfilter.2⟩
    · rintro ⟨w, hw, hreg⟩
      exact ⟨(id, w), mem_filter.2 ⟨mem_pairs_iff.2 hw, hreg⟩, rfl⟩

lemma Enumerates.perm {ids ids' : List String} (h : s.Enumerates ids) (hperm : ids'.Perm ids) :
    s.Enumerates ids' where
  nodup := hperm.nodup_iff.2 h.nodup
  mem_iff id := hperm.mem_iff.trans (h.mem_iff id)

variable {order : List String}

lemma current_begin (h : order.Perm s.registeredIDs) : s.Current ⟨order, tableOf []⟩ := by
  refine ⟨[], ?_, Alike.refl _, ?_⟩
  · exact (enumerates_registeredIDs s).perm h
  · intro e he
    cases he

lemma Current.read {rest : List String} (h : s.Current p) (htodo : p.todo = id :: rest)
    (hw : s.workers.lookup id = some w) : s.Current ⟨rest, addManager p.table (id, w.server)⟩ := by
  rcases h with ⟨done, hids, halike, hfresh⟩
  refine ⟨done ++ [(id, w.server)], ?_, ?_, ?_⟩
  · rw [htodo] at hids
    simpa using hids
  · rw [tableOf_append]
    exact halike.addManager (SameEntry.refl _) id
  · intro e he w₁ hw₁
    rcases mem_append.1 he with hold | hnew
    · exact hfresh e hold w₁ hw₁
    · rw [mem_singleton.1 hnew] at hw₁ ⊢
      rw [hw] at hw₁
      cases hw₁
      exact .inl (SameEntry.refl _)

lemma Current.frame (h : s.Current p) (hids : ∀ id, (∃ w, s'.workers.lookup id = some w ∧
    w.registered = true) ↔ ∃ w, s.workers.lookup id = some w ∧ w.registered = true) (hfresh : ∀ id w',
    s'.workers.lookup id = some w' → ∃ w, s.workers.lookup id = some w ∧ ∀ e, w.Fresh e → w'.Fresh e) :
    s'.Current p := by
  rcases h with ⟨done, henum, halike, hgood⟩
  refine ⟨done, ⟨henum.nodup, fun id => (henum.mem_iff id).trans (hids id).symm⟩, halike, ?_⟩
  intro e he w' hw'
  rcases hfresh e.1 w' hw' with ⟨w, hw, hkeeps⟩
  exact hkeeps e.2 (hgood e he w hw)

lemma Current.of_workers (h : s.Current p) (hworkers : s'.workers = s.workers) : s'.Current p := by
  refine h.frame ?_ ?_
  · intro id
    rw [hworkers]
  · intro id w hw
    rw [hworkers] at hw
    exact ⟨w, hw, fun e he => he⟩

lemma lookup_setWorker (s : Fleet) (id id' : String) (w : Worker) :
    (s.setWorker id w).workers.lookup id' = if id' = id then some w else s.workers.lookup id' :=
  lookup_insert _ _ _ _

lemma Current.setWorker (h : s.Current p) (hw : s.workers.lookup id = some w)
    (hregistered : w'.registered = w.registered) (hfresh : ∀ e, w.Fresh e → w'.Fresh e) :
    (s.setWorker id w').Current p := by
  refine h.frame ?_ ?_
  · intro id'
    rw [lookup_setWorker]
    split_ifs with hid
    · subst hid
      simp [hw, hregistered]
    · exact Iff.rfl
  · intro id' w₁ hw₁
    rw [lookup_setWorker] at hw₁
    split_ifs at hw₁ with hid
    · cases hw₁
      exact ⟨w, hid ▸ hw, hfresh⟩
    · exact ⟨w₁, hw₁, fun e he => he⟩

/-! ## What each step keeps -/

variable (h : s.Tracked)

include h

lemma Tracked.of_workers (hrefreshes : s'.refreshes = s.refreshes)
    (hcached : s'.cachedTable = s.cachedTable) (hreload : s'.reload = s.reload)
    (hworker : ∀ id, (s.refreshes.lookup (.worker id)).isSome →
      ∃ w, s'.workers.lookup id = some w ∧ w.stage.isChanged = true)
    (hsettled : s'.Settled → s.Settled)
    (hcurrent : s'.Settled → ∀ p, s.Current p → s'.Current p) : s'.Tracked where
  worker id hid := hworker id (by rwa [hrefreshes] at hid)
  reload hid := by
    rw [hrefreshes] at hid
    rw [hreload]
    exact h.reload hid
  current hs p hp := by
    refine hcurrent hs p (h.current (hsettled hs) p ?_)
    rw [latest, hrefreshes, hcached] at hp
    exact hp

lemma Tracked.setWorker (hw : s.workers.lookup id = some w)
    (hregistered : w'.registered = w.registered) (hidle : (s.refreshes.lookup (.worker id)).isSome →
    w'.stage.isChanged = true) (hsettled : w'.stage.calls.any changesTable = false →
    (w'.stage.isChanged = true → (s.refreshes.lookup (.worker id)).isSome) →
    w.stage.calls.any changesTable = false ∧ (w.stage.isChanged = true →
    (s.refreshes.lookup (.worker id)).isSome) ∧ ∀ e, w.Fresh e → w'.Fresh e) :
    (s.setWorker id w').Tracked := by
  have hself : (s.setWorker id w').workers.lookup id = some w' := by
    rw [lookup_setWorker, if_pos rfl]
  have hother : ∀ id' ≠ id, (s.setWorker id w').workers.lookup id' = s.workers.lookup id' := by
    intro id' hid
    rw [lookup_setWorker, if_neg hid]
  have hback : (s.setWorker id w').Settled → w.stage.calls.any changesTable = false ∧
      (w.stage.isChanged = true → (s.refreshes.lookup (.worker id)).isSome) ∧
        ∀ e, w.Fresh e → w'.Fresh e :=
    fun hs => hsettled (hs.calls id w' hself) (hs.changed id w' hself)
  refine h.of_workers rfl rfl rfl ?_ ?_ ?_
  · intro id' hid'
    by_cases hid : id' = id
    · subst hid
      exact ⟨w', hself, hidle hid'⟩
    · rw [hother id' hid]
      exact h.worker id' hid'
  · intro hs
    refine ⟨hs.reload, ?_, ?_⟩
    · intro id' w₁ hw₁
      by_cases hid : id' = id
      · subst hid
        rw [hw] at hw₁
        cases hw₁
        exact (hback hs).1
      · exact hs.calls id' w₁ (by rwa [hother id' hid])
    · intro id' w₁ hw₁ hchanged
      by_cases hid : id' = id
      · subst hid
        rw [hw] at hw₁
        cases hw₁
        exact (hback hs).2.1 hchanged
      · exact hs.changed id' w₁ (by rwa [hother id' hid]) hchanged
  · intro hs p hp
    exact hp.setWorker hw hregistered (hback hs).2.2

lemma Tracked.take (hsound : w.Sound id)
    (hw : s.workers.lookup id = some w) (htake : w.take s.registry st = some w')
    (hkept : s.hintsKept (.worker id st) = true) : (s.setWorker id w').Tracked := by
  have hchanged := isChanged_of_take htake
  rcases take_cases htake with ⟨hcalls, hregistered, -⟩
  refine h.setWorker hw hregistered ?_ ?_
  · -- a manager whose refresh is under way takes no step
    intro hrefresh
    rcases h.worker id hrefresh with ⟨w₁, hw₁, hstage⟩
    rw [hw] at hw₁
    cases hw₁
    rw [hchanged] at hstage
    cases hstage
  · intro hsilent _
    refine ⟨by rw [hcalls]; rfl, ?_, ?_⟩
    · rw [hchanged]
      intro hfalse
      cases hfalse
    · intro e he
      have hupdate : st = .update ∨ st = .undecoded → w.hintsKept = true := by
        rintro (rfl | rfl) <;> simpa only [hintsKept, hw] using hkept
      rcases take_fresh hsound htake hupdate he with hfresh | hloud
      · exact hfresh
      · rw [hsilent] at hloud
        cases hloud

lemma Tracked.call {c : ManagerCall} {rest : List ManagerCall}
    (hw : s.workers.lookup id = some w) (hstage : w.stage = .calling (c :: rest)) :
    (s.setWorker id
      { w with stage := if changesTable c then .changed rest else .calling rest }).Tracked := by
  have hnone : ¬ (s.refreshes.lookup (.worker id)).isSome := by
    intro hrefresh
    rcases h.worker id hrefresh with ⟨w₁, hw₁, hchanged⟩
    rw [hw] at hw₁
    cases hw₁
    rw [hstage] at hchanged
    cases hchanged
  refine h.setWorker hw rfl (fun hrefresh => absurd hrefresh hnone) ?_
  dsimp only
  intro hsilent hbegun
  -- a call that changes the table owes a refresh from here on
  have hquiet : changesTable c = false := by
    by_contra hloud
    rw [Bool.not_eq_false] at hloud
    rw [if_pos hloud] at hbegun
    exact hnone (hbegun rfl)
  simp only [hquiet, false_eq_true, if_false] at hsilent ⊢
  refine ⟨?_, ?_, ?_⟩
  · rw [hstage]
    simpa [Stage.calls, hquiet] using hsilent
  · rw [hstage]
    intro hfalse
    cases hfalse
  · intro e he
    exact he.of_stage (by rw [hstage]; rfl)

lemma Tracked.begin (hmay : s.mayRefresh r = true)
    (horder : order.Perm s.registeredIDs) : (s.beginRefresh r order).Tracked := by
  have hlookup : ∀ r', (s.beginRefresh r order).refreshes.lookup r' =
      if r' = r then some ⟨order, tableOf []⟩ else s.refreshes.lookup r' := by
    intro r'
    unfold beginRefresh
    dsimp only
    by_cases hr : r' = r
    · subst hr
      rw [AList.lookup_insert, if_pos rfl]
    · rw [AList.lookup_insert_ne hr, if_neg hr]
  refine ⟨?_, ?_, ?_⟩
  · intro id hid
    rw [hlookup] at hid
    split_ifs at hid with hr
    · subst hr
      simp only [mayRefresh, and_eq_true] at hmay
      have hstage := hmay.2
      split at hstage
      next calls heq =>
        rcases map_eq_some_iff.1 heq with ⟨w, hw, hstage⟩
        exact ⟨w, hw, by rw [hstage]; rfl⟩
      next => cases hstage
    · exact h.worker id hid
  · intro hreload
    rw [hlookup] at hreload
    split_ifs at hreload with hr
    · -- a reload begins its refresh in its own last phase
      subst hr
      simp [mayRefresh] at hmay
    · exact h.reload hreload
  · intro _ p hp
    have hnew : newest (s.beginRefresh r order).refreshes = some ⟨order, tableOf []⟩ :=
      newest_insert _ _ _
    rw [latest, hnew] at hp
    cases hp
    exact current_begin horder

lemma Tracked.read {rest : List String} (hp : s.refreshes.lookup r = some p)
    (htodo : p.todo = id :: rest) (hw : s.workers.lookup id = some w) :
    Tracked { s with
      refreshes := AList.replace r ⟨rest, addManager p.table (id, w.server)⟩ s.refreshes } := by
  have hsome : ∀ r', ((AList.replace r ⟨rest, addManager p.table (id, w.server)⟩
      s.refreshes).lookup r').isSome = (s.refreshes.lookup r').isSome := by
    intro r'
    rw [lookup_replace]
    split_ifs with hr
    · subst hr
      rw [hp]
      rfl
    · rfl
  refine ⟨?_, ?_, ?_⟩
  · intro id' hid'
    exact h.worker id' ((hsome _).symm.trans hid')
  · intro hreload
    exact h.reload ((hsome _).symm.trans hreload)
  · intro hs p' hp'
    have hsettled : s.Settled := by
      refine ⟨hs.reload, hs.calls, ?_⟩
      intro id' w' hw' hchanged
      exact (hsome _).symm.trans (hs.changed id' w' hw' hchanged)
    have hcurrent := h.current hsettled
    suffices s.Current p' from this.of_workers rfl
    rcases Option.or_eq_some_iff.1 hp' with hnew | ⟨hnone, hcached⟩
    · rcases newest_replace hnew with ⟨rfl, hnewest⟩ | hnewest
      · -- the refresh that began last is the one that reads
        refine Current.read (hcurrent p ?_) htodo hw
        rw [latest, hnewest, hp]
        rfl
      · refine hcurrent p' ?_
        rw [latest, hnewest]
        rfl
    · rw [newest_eq_none, AList.keys_replace, ← newest_eq_none] at hnone
      refine hcurrent p' ?_
      rw [latest, hnone]
      exact hcached

omit h

lemma lookup_resume (s : Fleet) (r : Refresher) (id : String) :
    (s.resume r).workers.lookup id = (s.workers.lookup id).map fun w =>
      if r = .worker id then { w with stage := .calling w.stage.calls } else w := by
  have hsame : ∀ o : Option Worker, r ≠ .worker id → o.map (fun w =>
      if r = .worker id then { w with stage := .calling w.stage.calls } else w) = o := by
    intro o hr
    cases o <;> simp [hr]
  cases r with
  | worker id' =>
    by_cases hid : id = id'
    · subst hid
      unfold resume
      dsimp only
      cases hw : s.workers.lookup id with
      | none => simp [hw]
      | some w => simp [lookup_setWorker]
    · have hne : Refresher.worker id' ≠ .worker id := by simpa using Ne.symm hid
      rw [hsame _ hne]
      unfold resume
      dsimp only
      cases s.workers.lookup id' with
      | none => rfl
      | some w => exact (lookup_setWorker _ _ _ _).trans (if_neg hid)
  | reload => exact (hsame _ (by simp)).symm
  | reader n => exact (hsame _ (by simp)).symm

lemma resume_eq (s : Fleet) (r : Refresher) : (s.resume r).refreshes = s.refreshes ∧
    (s.resume r).cachedTable = s.cachedTable ∧
      (s.resume r).reload = if r = .reload then .idle else s.reload := by
  cases r with
  | worker id =>
    unfold resume
    dsimp only
    cases s.workers.lookup id <;> exact ⟨rfl, rfl, rfl⟩
  | reload => exact ⟨rfl, rfl, rfl⟩
  | reader n => exact ⟨rfl, rfl, rfl⟩

lemma Current.resume (h : s.Current p) (r : Refresher) (hw : ∀ id w, r = .worker id →
    s.workers.lookup id = some w → w.stage.isChanged = true) : (s.resume r).Current p := by
  refine h.frame ?_ ?_
  · intro id
    rw [lookup_resume]
    cases s.workers.lookup id with
    | none => simp
    | some w =>
      simp only [Option.map_some, Option.some.injEq, exists_eq_left']
      split_ifs <;> exact Iff.rfl
  · intro id w' hw'
    rw [lookup_resume] at hw'
    rcases map_eq_some_iff.1 hw' with ⟨w, hlookup, rfl⟩
    refine ⟨w, hlookup, ?_⟩
    intro e he
    split_ifs with hr
    · refine he.of_stage ?_
      have hchanged := hw id w hr hlookup
      cases hstage : w.stage <;> rw [hstage] at hchanged <;> first | rfl | cases hchanged
    · exact he

lemma Tracked.store (h : s.Tracked) (hp : s.refreshes.lookup r = some p) (htodo : p.todo = [])
    (horder : oldest s.refreshes = some r) :
    (resume { s with
      cachedTable := some p.table
      refreshes := AList.erase r s.refreshes } r).Tracked := by
  set s₁ : Fleet := { s with cachedTable := some p.table, refreshes := AList.erase r s.refreshes }
    with hs₁
  rcases resume_eq s₁ r with ⟨hrefreshes, hcached, hreload⟩
  have hin : (s.refreshes.lookup r).isSome := by rw [hp]; rfl
  have herase : ∀ r', (s₁.refreshes.lookup r').isSome → r' ≠ r ∧ (s.refreshes.lookup r').isSome := by
    intro r' hr'
    by_cases hr : r' = r
    · subst hr
      rw [hs₁, AList.lookup_erase] at hr'
      cases hr'
    · rw [hs₁, AList.lookup_erase_ne hr] at hr'
      exact ⟨hr, hr'⟩
  refine ⟨?_, ?_, ?_⟩
  · intro id hid
    rw [hrefreshes] at hid
    rcases herase _ hid with ⟨hne, hsome⟩
    rcases h.worker id hsome with ⟨w, hw, hchanged⟩
    refine ⟨w, ?_, hchanged⟩
    rw [lookup_resume]
    simp [hs₁, hw, Ne.symm hne]
  · intro hid
    rw [hrefreshes] at hid
    rcases herase _ hid with ⟨hne, hsome⟩
    rw [hreload, if_neg (Ne.symm hne)]
    exact h.reload hsome
  · intro hs p' hp'
    -- whatever was still to begin before the store is still to begin after it
    have hsettled : s.Settled := by
      refine ⟨?_, ?_, ?_⟩
      · by_cases hr : r = .reload
        · exact h.reload (hr ▸ hin)
        · have hnot := hs.reload
          rw [hreload, if_neg hr] at hnot
          exact hnot
      · intro id w hw
        have hafter := hs.calls id _ (by rw [lookup_resume, hs₁, hw]; rfl)
        split_ifs at hafter <;> exact hafter
      · intro id w hw hchanged
        by_cases hr : r = .worker id
        · exact hr ▸ hin
        · have hafter := hs.changed id w (by rw [lookup_resume, hs₁, hw]; simp [hr]) hchanged
          rw [hrefreshes] at hafter
          exact (herase _ hafter).2
    have hcurrent := h.current hsettled
    have hworker : ∀ id w, r = .worker id → s₁.workers.lookup id = some w → w.stage.isChanged = true := by
      intro id w hr hw
      rcases h.worker id (hr ▸ hin) with ⟨w₁, hw₁, hchanged⟩
      have hsame : s.workers.lookup id = some w := hw
      rw [hw₁] at hsame
      cases hsame
      exact hchanged
    suffices hbefore : s.Current p' by
      have hmid : s₁.Current p' := hbefore.of_workers rfl
      exact hmid.resume r hworker
    rw [latest, hrefreshes, hcached] at hp'
    refine hcurrent p' ?_
    rcases newest_erase_oldest horder with ⟨hempty, hnewest⟩ | hnewest
    · -- the only refresh under way: its table is the cached one now
      have hnone : newest s₁.refreshes = none := newest_eq_none.2 hempty
      rw [hnone] at hp'
      rw [latest, hnewest, hp, ← hp']
      cases p
      cases htodo
      rfl
    · -- a refresh that began later is still under way, and is the latest before and after
      have hsome : newest s.refreshes ≠ none := by
        intro hnone
        rw [oldest, newest_eq_none.1 hnone] at horder
        cases horder
      rcases Option.ne_none_iff_exists'.1 hsome with ⟨q, hq⟩
      have hsame : newest s₁.refreshes = some q := hnewest.trans hq
      rw [hsame] at hp'
      rw [latest, hq]
      exact hp'

lemma lookup_of_unlocked (h : s.unlocked = true) (r : Refresher) : s.refreshes.lookup r = none := by
  rw [unlocked, List.isEmpty_iff] at h
  rw [AList.lookup_eq_none, AList.mem_keys, h]
  exact not_mem_nil

lemma refreshes_foldl_deregister (gone : List String) (s : Fleet) :
    (gone.foldl deregister s).refreshes = s.refreshes := by
  induction gone generalizing s with
  | nil => rfl
  | cons id gone ih =>
    rw [foldl_cons, ih]
    unfold deregister
    cases s.workers.lookup id <;> rfl

lemma refreshes_foldl_start (servers : List MCPServer) (s : Fleet) :
    (servers.foldl start s).refreshes = s.refreshes := by
  induction servers generalizing s with
  | nil => rfl
  | cons config servers ih =>
    rw [foldl_cons, ih]
    unfold start
    cases s.workers.lookup config.id <;> rfl

lemma tracked_deregister (gone : List String) (hunlocked : s.unlocked = true) :
    Tracked { gone.foldl deregister s with reload := .stopping } := by
  have hnone : ∀ r, (gone.foldl deregister s).refreshes.lookup r = none := by
    intro r
    rw [refreshes_foldl_deregister]
    exact lookup_of_unlocked hunlocked r
  refine ⟨?_, ?_, ?_⟩
  · intro id hid
    dsimp only at hid
    rw [hnone] at hid
    cases hid
  · intro hid
    dsimp only at hid
    rw [hnone] at hid
    cases hid
  · intro hs
    exact absurd rfl hs.reload

lemma tracked_startManagers (servers : List MCPServer)
    (hunlocked : s.unlocked = true) (horder : order.Perm (servers.foldl start s).registeredIDs) :
    (beginRefresh { servers.foldl start s with reload := .starting } .reload order).Tracked := by
  refine ⟨?_, ?_, ?_⟩
  · intro id hid
    have hne : Refresher.worker id ≠ .reload := by simp
    unfold beginRefresh at hid
    dsimp only at hid
    rw [AList.lookup_insert_ne hne, refreshes_foldl_start, lookup_of_unlocked hunlocked] at hid
    cases hid
  · intro _ hstopping
    cases hstopping
  · intro _ p hp
    have hnew : newest (beginRefresh { servers.foldl start s with reload := .starting } .reload
        order).refreshes = some ⟨order, tableOf []⟩ := newest_insert _ _ _
    rw [latest, hnew] at hp
    cases hp
    exact current_begin horder

lemma Tracked.retire (h : s.Tracked) (hw : s.workers.lookup id = some w)
    (hstage : w.stage = .calling []) (hgone : w.registered = false) :
    Tracked { s with workers := AList.erase id s.workers } := by
  -- the worker has nothing left to do, and no table that is being built reads it
  have hother : ∀ id' w', s.workers.lookup id' = some w' → id' ≠ id →
      (AList.erase id s.workers).lookup id' = some w' := by
    intro id' w' hw' hid
    rw [lookup_erase, if_neg hid]
    exact hw'
  refine h.of_workers rfl rfl rfl ?_ ?_ ?_
  · intro id' hid'
    rcases h.worker id' hid' with ⟨w', hw', hchanged⟩
    refine ⟨w', hother id' w' hw' ?_, hchanged⟩
    rintro rfl
    rw [hw] at hw'
    cases hw'
    rw [hstage] at hchanged
    cases hchanged
  · intro hs
    refine ⟨hs.reload, ?_, ?_⟩
    · intro id' w' hw'
      by_cases hid : id' = id
      · subst hid
        rw [hw] at hw'
        cases hw'
        rw [hstage]
        rfl
      · exact hs.calls id' w' (hother id' w' hw' hid)
    · intro id' w' hw' hchanged
      by_cases hid : id' = id
      · subst hid
        rw [hw] at hw'
        cases hw'
        rw [hstage] at hchanged
        cases hchanged
      · exact hs.changed id' w' (hother id' w' hw' hid) hchanged
  · intro _ p hp
    refine hp.frame ?_ ?_
    · intro id'
      dsimp only
      rw [lookup_erase]
      split_ifs with hid
      · subst hid
        simp [hw, hgone]
      · exact Iff.rfl
    · intro id' w' hw'
      dsimp only at hw'
      rw [lookup_erase] at hw'
      split_ifs at hw'
      exact ⟨w', hw', fun e he => he⟩

lemma Tracked.registry (h : s.Tracked) (hrefreshes : s'.refreshes = s.refreshes)
    (hcached : s'.cachedTable = s.cachedTable) (hreload : s'.reload = s.reload)
    (hworkers : s'.workers = s.workers) : s'.Tracked := by
  refine h.of_workers hrefreshes hcached hreload ?_ ?_ ?_
  · intro id hid
    rw [hworkers]
    exact h.worker id hid
  · intro hs
    refine ⟨hreload ▸ hs.reload, ?_, ?_⟩
    · rw [← hworkers]
      exact hs.calls
    · rw [← hworkers, ← hrefreshes]
      exact hs.changed
  · intro _ p hp
    exact hp.of_workers hworkers

lemma tracked_step {l : Label} (horderly : s.Orderly) (h : s.Tracked) (hstep : s.step l = some s')
    (horder : s.inOrder l = true) (hkept : s.hintsKept l = true) : s'.Tracked := by
  cases stepsTo hstep with
  | @worker id st w w' hw htake => exact h.take (horderly id w hw) hw htake hkept
  | @call id w c rest hw hstage => exact (h.call hw hstage).registry rfl rfl rfl rfl
  | begin hmay hperm => exact h.begin hmay hperm
  | read hp htodo hw => exact h.read hp htodo hw
  | store hp htodo => exact h.store hp htodo (by simpa [inOrder] using horder)
  | deregister hreload hunlocked => exact tracked_deregister _ hunlocked
  | retire hw hstage hgone => exact h.retire hw hstage hgone
  | startManagers hreload hunlocked hall hperm => exact tracked_startManagers _ hunlocked hperm
  | registerTagsTools | deregisterTagsTools => exact h.registry rfl rfl rfl rfl

/-! ## When everything rests -/

lemma tracked_new (policy : InvalidToolPolicy) (enabled : Bool) : (new policy enabled).Tracked := by
  refine ⟨?_, ?_, ?_⟩
  · intro id hid
    cases hid
  · intro hid
    cases hid
  · intro _ p hp
    cases hp

lemma mem_mcpServers {a : ActiveMCPServer} : (id, a) ∈ s.mcpServers ↔
    ∃ w, s.workers.lookup id = some w ∧ w.registered = true ∧ w.server = a := by
  unfold mcpServers
  rw [mem_map]
  constructor
  · rintro ⟨⟨id', w⟩, he, heq⟩
    cases heq
    have hfilter := mem_filter.1 he
    exact ⟨w, mem_pairs_iff.1 hfilter.1, hfilter.2, rfl⟩
  · rintro ⟨w, hw, hreg, rfl⟩
    exact ⟨(id, w), mem_filter.2 ⟨mem_pairs_iff.2 hw, hreg⟩, rfl⟩

lemma nodup_mcpServers (s : Fleet) : s.mcpServers.Nodup := by
  refine List.Nodup.of_map Prod.fst ?_
  have hids : s.mcpServers.map Prod.fst = s.registeredIDs := by
    simp [mcpServers, registeredIDs, Function.comp_def]
  rw [hids]
  exact (enumerates_registeredIDs s).nodup

def entryOf (s : Fleet) (e : String × ActiveMCPServer) : ActiveMCPServer :=
  ((s.workers.lookup e.1).map Worker.server).getD e.2

variable {e : String × ActiveMCPServer}

lemma entryOf_eq (hw : s.workers.lookup e.1 = some w) : s.entryOf e = w.server := by
  rw [entryOf, hw]
  rfl

lemma Enumerates.perm_mcpServers {done : List (String × ActiveMCPServer)}
    (h : s.Enumerates (done.map Prod.fst)) : (done.map fun e => (e.1, s.entryOf e)).Perm s.mcpServers := by
  have hnodup : (done.map fun e => (e.1, s.entryOf e)).Nodup := by
    refine List.Nodup.of_map Prod.fst ?_
    have hids : (done.map fun e => (e.1, s.entryOf e)).map Prod.fst = done.map Prod.fst := by
      simp [Function.comp_def]
    rw [hids]
    exact h.nodup
  refine (List.perm_ext_iff_of_nodup hnodup (nodup_mcpServers s)).2 ?_
  rintro ⟨id, a⟩
  rw [mem_mcpServers, mem_map]
  constructor
  · rintro ⟨e, he, heq⟩
    cases heq
    rcases (h.mem_iff e.1).1 (mem_map_of_mem he) with ⟨w, hw, hreg⟩
    exact ⟨w, hw, hreg, (entryOf_eq hw).symm⟩
  · rintro ⟨w, hw, hreg, rfl⟩
    rcases mem_map.1 ((h.mem_iff id).2 ⟨w, hw, hreg⟩) with ⟨e, he, rfl⟩
    exact ⟨e, he, by rw [entryOf_eq hw]⟩

lemma Current.builds (h : s.Current p) (htodo : p.todo = [])
    (hrest : ∀ id w, s.workers.lookup id = some w → w.stage.before = none) : s.BuildsTable p.table := by
  rcases h with ⟨done, henum, halike, hfresh⟩
  rw [htodo, append_nil] at henum
  refine ⟨_, henum.perm_mcpServers, ?_⟩
  have hread : ∀ e ∈ done, SameEntry e.2 (s.entryOf e) := by
    intro e he
    rcases (henum.mem_iff e.1).1 (mem_map_of_mem he) with ⟨w, hw, -⟩
    rw [entryOf_eq hw]
    exact (hfresh e he w hw).same (hrest e.1 w hw)
  exact halike.trans (alike_tableOf s.entryOf hread)

lemma stage_of_isIdle {stage : Stage} (h : stage.isIdle = true) : stage = .calling [] := by
  unfold Stage.isIdle at h
  split at h
  next => rfl
  next => cases h

lemma of_quiescent (h : s.quiescent = true) : (∀ id w, s.workers.lookup id = some w →
    w.stage = .calling []) ∧ s.unlocked = true ∧ s.reload = .idle := by
  simp only [quiescent, and_eq_true, all_eq_true, decide_eq_true_eq] at h
  refine ⟨?_, h.1.2, h.2⟩
  intro id w hw
  exact stage_of_isIdle (h.1.1 w (mem_values_iff.2 ⟨id, hw⟩))

lemma settled_of_quiescent (h : s.quiescent = true) : s.Settled := by
  rcases of_quiescent h with ⟨hidle, -, hreload⟩
  refine ⟨?_, ?_, ?_⟩
  · rw [hreload]
    intro hstopping
    cases hstopping
  · intro id w hw
    rw [hidle id w hw]
    rfl
  · intro id w hw hchanged
    rw [hidle id w hw] at hchanged
    cases hchanged

/-- The runs in which refreshes store their tables in order and hints do not change alone. -/
def orderedStep : Label → Fleet → Option Fleet :=
  guarded (fun l s => s.inOrder l && s.hintsKept l) step

lemma tracked_of_orderedStep {s₀ : Fleet} (hreach : Reachable orderedStep s₀ s) (horderly : s₀.Orderly)
    (h : s₀.Tracked) : s.Tracked := by
  have hboth : s.Orderly ∧ s.Tracked := by
    refine hreach.invariant (P := fun s => s.Orderly ∧ s.Tracked) ⟨horderly, h⟩ ?_
    rintro l s s' hstep ⟨horderly, h⟩
    rcases guarded_eq_some.1 hstep with ⟨hguard, hstep⟩
    rw [and_eq_true] at hguard
    exact ⟨horderly.step hstep, tracked_step horderly h hstep hguard.1 hguard.2⟩
  exact hboth.2

/-- Whenever all passes, reloads and refreshes of such a run are done, the cached table is what
`buildRoutingTable` makes of the registered managers as they are. -/
theorem table_current {policy : InvalidToolPolicy} {enabled : Bool} {t : Table}
    (hreach : Reachable orderedStep (new policy enabled) s) (hquiet : s.quiescent = true)
    (ht : s.cachedTable = some t) : s.BuildsTable t := by
  have htracked := tracked_of_orderedStep hreach (orderly_new policy enabled)
    (tracked_new policy enabled)
  rcases of_quiescent hquiet with ⟨hidle, hunlocked, -⟩
  have hnone : newest s.refreshes = none := by
    rw [newest_eq_none]
    exact List.isEmpty_iff.1 hunlocked
  have hlatest : s.latest = some ⟨[], t⟩ := by
    rw [latest, hnone, ht]
    rfl
  refine (htracked.current (settled_of_quiescent hquiet) _ hlatest).builds rfl ?_
  intro id w hw
  rw [hidle id w hw]
  rfl

def restingTable (step : Label → Fleet → Option Fleet) (labels : List Label) : Option (Fleet × Table) :=
  (run step (new .filterOut false) labels).bind fun s =>
    if s.quiescent then s.cachedTable.map fun t => (s, t) else none

variable {t : Table}

lemma of_restingTable {step : Label → Fleet → Option Fleet} {labels : List Label}
    (h : restingTable step labels = some (s, t)) : run step (new .filterOut false) labels = some s ∧
    s.quiescent = true ∧ s.cachedTable = some t := by
  rcases bind_eq_some_iff.1 h with ⟨s₁, hrun, hrest⟩
  split_ifs at hrest with hquiet
  rcases map_eq_some_iff.1 hrest with ⟨t₁, ht, heq⟩
  cases heq
  exact ⟨hrun, hquiet, ht⟩

/-- Two managers, one of which has a tool. -/
theorem table_current_forecast : ∃ s t, restingTable orderedStep
      (bothStarted ++ checks east [forecast] ++ takesOver east ++ refreshed east) = some (s, t) ∧
    (t.lookupTool "forecast").isSome ∧ s.BuildsTable t := by
  have hrun : (restingTable orderedStep (bothStarted ++ checks east [forecast] ++ takesOver east ++
      refreshed east)).any (fun e => (e.2.lookupTool "forecast").isSome) = true := by decide +kernel
  rcases (Option.any_eq_true _ _).1 hrun with ⟨⟨s, t⟩, hs, htool⟩
  rcases of_restingTable hs with ⟨hreach, hquiet, ht⟩
  exact ⟨s, t, hs, htool, table_current ⟨_, hreach⟩ hquiet ht⟩

/-! ## A table that stays behind -/

lemma BuildsTable.lookupTool_ne_none {n : String} (h : s.BuildsTable t)
    (he : e ∈ s.mcpServers) (hn : n ∈ servedNames e.2) : t.lookupTool n ≠ none := by
  rcases h with ⟨order, hperm, halike⟩
  intro hnone
  have hbuilt : (tableOf order).lookupTool n = none := (halike.tools n).trans hnone
  exact lookupTool_tableOf_eq_none.1 hbuilt e (hperm.mem_iff.2 he) hn

lemma BuildsTable.toolAnnotations_eq {n : String}
    (h : s.BuildsTable t) (he : s.mcpServers = [e]) (hn : n ∈ servedNames e.2) :
    t.toolAnnotations e.1 n = e.2.toolHints.lookup n := by
  rcases h with ⟨order, hperm, halike⟩
  rw [he, List.perm_singleton] at hperm
  subst hperm
  have hbuilt : (tableOf [e]).annotations.lookup (Table.annotationKey e.1 n) =
      ((if n ∈ servedNames e.2 then e.2.toolHints.lookup n else none).or none) :=
    lookup_addAnnotations e.1 n _ _ _
  rw [Table.toolAnnotations, ← halike.annotations, hbuilt, if_pos hn, Option.or_none]

def wind : Tool := { forecast with name := "wind" }

/-- The first manager's refresh has read both managers when the second one registers its tool and
refreshes the table; then the first one stores its table. -/
def overtaken : List Label :=
  bothStarted ++ checks east [forecast] ++ takesOver east ++ rebuilt east ++ checks west [wind] ++
    takesOver west ++ refreshed west ++ [.store (.worker east.id)]

/-- One manager, whose upstream lists the same tool twice, the second time with a hint. -/
def hintsAlone : List Label :=
  [.deregister [], .startManagers [east] [east.id], .read .reload, .store .reload] ++
    checks east [forecast] ++ takesOver east ++
    [.begin (.worker east.id) [east.id], .read (.worker east.id), .store (.worker east.id),
      .worker east.id (.harvest [forecast] (GoMap.ofPairs [("forecast", ⟨some true, none, none, none⟩)])),
      .worker east.id .listTools, .worker east.id .update]

/-- Everything rests, and the cached table is not the one of the managers: it lacks a tool that was
there when a later refresh began, or a hint. -/
theorem olderTable_stays :
    (∃ s t, restingTable step overtaken = some (s, t) ∧ ¬ s.BuildsTable t) ∧
      ∃ s t, restingTable step hintsAlone = some (s, t) ∧ ¬ s.BuildsTable t := by
  constructor
  · have hrun : (restingTable step overtaken).any (fun e => (e.2.lookupTool "wind").isNone &&
        e.1.mcpServers.any fun up => (servedNames up.2).contains "wind") = true := by decide +kernel
    rcases (Option.any_eq_true _ _).1 hrun with ⟨⟨s, t⟩, hs, hlost⟩
    simp only [Bool.and_eq_true, Option.isNone_iff_eq_none, List.any_eq_true, List.contains_eq_mem,
      decide_eq_true_eq] at hlost
    rcases hlost with ⟨hnone, up, hup, hserved⟩
    refine ⟨s, t, hs, ?_⟩
    intro hbuilds
    exact hbuilds.lookupTool_ne_none hup hserved hnone
  · have hrun : (restingTable step hintsAlone).any (fun e => e.1.mcpServers.length == 1 &&
        e.1.mcpServers.all fun up => (servedNames up.2).contains "forecast" &&
          e.2.toolAnnotations up.1 "forecast" != up.2.toolHints.lookup "forecast") = true := by
      decide +kernel
    rcases (Option.any_eq_true _ _).1 hrun with ⟨⟨s, t⟩, hs, hlost⟩
    simp only [Bool.and_eq_true, beq_iff_eq, List.all_eq_true, List.contains_eq_mem,
      decide_eq_true_eq, bne_iff_ne] at hlost
    rcases List.length_eq_one_iff.1 hlost.1 with ⟨up, hup⟩
    have hstale := hlost.2 up (by rw [hup]; exact List.mem_singleton_self up)
    refine ⟨s, t, hs, ?_⟩
    intro hbuilds
    exact hstale.2 (hbuilds.toolAnnotations_eq hup hstale.1)

end Fleet

end McpGateway.Gateway
