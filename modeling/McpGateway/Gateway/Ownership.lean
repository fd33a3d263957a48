import McpGateway.Gateway.Fleet

/-!
# Whose tools are in the registry

A registered tool carries the id of the manager that registered it, or of the broker.  A manager looks
for conflicts in a list of the registry that may be old by the time it registers its tools, the broker
registers its own without looking, and a delete goes by name only.
-/

namespace McpGateway.Gateway

open Go Keyed Config Upstream Broker Transition Worker Tool GatewayServer Fleet

/-! ## Claims -/

namespace Worker

variable (w : Worker)

def serves : List String := w.manager.serverTools.map Tool.name

def leaving : List String := w.stage.calls.flatMap Kind.tool.deleted

/-- The names it serves and, with `late`, those it has still to delete. -/
def claims (late : Bool) : List String := w.serves ++ if late then w.leaving else []

def newNames : WorkerStep → List String
  | .update => w.updateDiff.1
  | _ => []

def droppedNames : WorkerStep → List String
  | .update => w.updateDiff.2
  | .reject | .dropTools => w.serves
  | _ => []

end Worker

namespace Fleet

variable (s : Fleet)

def claimedBy (late : Bool) (id : String) : List String :=
  (if id = brokerServerID then s.ownTools.map Tool.name else []) ++
    match s.workers.lookup id with
    | some w => w.claims late
    | none => []

def servedBy (id : String) : List String := s.claimedBy false id

def holder (n : String) : Option String :=
  (s.registry.tools.lookup n).bind fun t => ownerID t.metadata

def claimedElsewhere (id n : String) : Bool :=
  (id != brokerServerID && (s.ownTools.map Tool.name).contains n) ||
    s.workers.pairs.any fun e => e.1 != id && (e.2.claims true).contains n

def free (l : Label) : Bool :=
  match l with
  | .worker id st =>
    match s.workers.lookup id with
    | some w => (w.newNames st).all fun n => !s.claimedElsewhere id n
    | none => true
  | .registerTagsTools =>
    (tagsTools.map Tool.name).all fun n => !s.claimedElsewhere brokerServerID n
  | _ => true

def lasting (l : Label) : Bool :=
  match l with
  | .worker id st =>
    match s.workers.lookup id with
    | some w => (w.droppedNames st).all fun n => (s.registry.tools.lookup n).isNone
    | none => true
  | _ => true

/-! ## What the claims say -/

/-- Every registered tool has exactly one owner: the party whose id it carries serves its name, and no
other party does. -/
def ToolsOwned : Prop :=
  ∀ n t, s.registry.tools.lookup n = some t →
    ∃ id, ownerID t.metadata = some id ∧ n ∈ s.servedBy id ∧ ∀ id' ≠ id, n ∉ s.servedBy id'

/-- Every registered tool belongs to the one manager that serves it or has still to delete it. -/
def ToolsClaimed : Prop :=
  ∀ n t, s.registry.tools.lookup n = some t →
    ∃ id, ownerID t.metadata = some id ∧ n ∈ s.claimedBy true id ∧ ∀ id' ≠ id, n ∉ s.claimedBy true id'

/-- Whatever a manager is about to delete is its own. -/
def DeletesOwn : Prop :=
  ∀ id w names rest, s.workers.lookup id = some w → w.stage = .calling (.deleteTools names :: rest) →
    ∀ n ∈ names, ∀ t, s.registry.tools.lookup n = some t → ownerID t.metadata = some id

/-- Each name is claimed by one manager, and a registered tool by its owner. -/
structure Held (late : Bool) : Prop where
  exclusive : Exclusive (fun id => {n | n ∈ s.claimedBy late id}) s.holder
  marked : ∀ n t, s.registry.tools.lookup n = some t → (ownerID t.metadata).isSome

end Fleet

lemma id_ne_brokerServerID (config : MCPServer) : config.id ≠ brokerServerID := by
  intro h
  have hcolon : ':' ∈ config.id.toList := by simp [MCPServer.id]
  rw [h] at hcolon
  revert hcolon
  decide

lemma Worker.Sound.id_ne {id : String} {w : Worker} (h : w.Sound id) : id ≠ brokerServerID := by
  rw [← h.known]
  exact id_ne_brokerServerID _

namespace Fleet

variable {s s' : Fleet} {late : Bool} {id n : String} {w w' : Worker}

lemma mem_claimedBy : n ∈ s.claimedBy late id ↔ (id = brokerServerID ∧ n ∈ s.ownTools.map name) ∨
    ∃ w, s.workers.lookup id = some w ∧ n ∈ w.claims late := by
  have hworker : n ∈ (match s.workers.lookup id with
      | some w => w.claims late
      | none => []) ↔ ∃ w, s.workers.lookup id = some w ∧ n ∈ w.claims late := by
    cases s.workers.lookup id <;> simp
  rw [claimedBy, mem_append, hworker]
  refine or_congr ?_ Iff.rfl
  split_ifs with hid <;> simp [hid]

lemma mem_claims : n ∈ w.claims late ↔ n ∈ w.serves ∨ (late = true ∧ n ∈ w.leaving) := by
  cases late <;> simp [Worker.claims]

lemma claimedBy_late (h : n ∈ s.claimedBy late id) : n ∈ s.claimedBy true id := by
  rw [mem_claimedBy] at h ⊢
  refine h.imp_right ?_
  rintro ⟨w, hw, hn⟩
  refine ⟨w, hw, ?_⟩
  rw [mem_claims] at hn ⊢
  exact hn.imp_right fun hleaving => ⟨rfl, hleaving.2⟩

lemma not_claimed_of_elsewhere (h : s.claimedElsewhere id n = false) :
    ∀ q ≠ id, n ∉ s.claimedBy late q := by
  intro q hq hn
  rw [claimedElsewhere, Bool.or_eq_false_iff] at h
  rcases mem_claimedBy.1 (claimedBy_late hn) with ⟨rfl, hown⟩ | ⟨w, hw, hclaims⟩
  · -- the broker claims it, so the party asked about is not the broker
    have hfirst := h.1
    simp [Ne.symm hq, hown] at hfirst
  · have hpair : (q, w) ∈ s.workers.pairs := mem_pairs_iff.2 hw
    have hnone := List.any_eq_false.1 h.2 (q, w) hpair
    simp [hq, hclaims] at hnone

lemma Held.step (h : s.Held late) (p : String)
    (hothers : ∀ q ≠ p, ∀ n, n ∈ s'.claimedBy late q ↔ n ∈ s.claimedBy late q)
    (hfree : ∀ n ∈ s'.claimedBy late p, n ∈ s.claimedBy late p ∨ ∀ q ≠ p, n ∉ s.claimedBy late q)
    (hregistry : ∀ n t, s'.registry.tools.lookup n = some t →
      (ownerID t.metadata = some p ∧ n ∈ s'.claimedBy late p) ∨ (s.registry.tools.lookup n = some t ∧
          (n ∈ s.claimedBy late p → n ∈ s'.claimedBy late p))) : s'.Held late where
  exclusive := by
    refine h.exclusive.step p (fun q hq => Set.ext (hothers q hq)) hfree ?_
    intro n q hq
    rcases bind_eq_some_iff.1 hq with ⟨t, ht, howner⟩
    rcases hregistry n t ht with ⟨hp, hclaimed⟩ | ⟨hold, hkept⟩
    · rw [howner, Option.some.injEq] at hp
      exact .inl ⟨hp, hclaimed⟩
    · have hheld : s.holder n = some q := bind_eq_some_iff.2 ⟨t, hold, howner⟩
      by_cases hqp : q = p
      · subst hqp
        exact .inl ⟨rfl, hkept (h.exclusive.held n q hheld)⟩
      · exact .inr ⟨hqp, hheld⟩
  marked := by
    intro n t ht
    rcases hregistry n t ht with ⟨hp, -⟩ | ⟨hold, -⟩
    · rw [hp]
      rfl
    · exact h.marked n t hold

lemma Held.frame (h : s.Held late) (hclaims : ∀ q n, n ∈ s'.claimedBy late q ↔ n ∈ s.claimedBy late q)
    (hregistry : s'.registry = s.registry) : s'.Held late := by
  refine h.step "" (fun q _ => hclaims q) (fun n hn => .inl ((hclaims _ n).1 hn)) ?_
  intro n t ht
  rw [hregistry] at ht
  exact .inr ⟨ht, (hclaims _ n).2⟩

/-! ## Steps of a manager -/

lemma mem_claimedBy_setWorker_ne {q : String} (hq : q ≠ id) :
    n ∈ (s.setWorker id w).claimedBy late q ↔ n ∈ s.claimedBy late q := by
  have hlookup : (s.setWorker id w).workers.lookup q = s.workers.lookup q := by
    rw [setWorker, lookup_insert, if_neg hq]
  rw [mem_claimedBy, mem_claimedBy, hlookup]
  rfl

lemma mem_claimedBy_worker (hid : id ≠ brokerServerID) (hw : s.workers.lookup id = some w) :
    n ∈ s.claimedBy late id ↔ n ∈ w.claims late := by
  rw [mem_claimedBy]
  simp [hid, hw]

lemma mem_claimedBy_setWorker (hid : id ≠ brokerServerID) :
    n ∈ (s.setWorker id w).claimedBy late id ↔ n ∈ w.claims late := by
  refine mem_claimedBy_worker hid ?_
  rw [setWorker, lookup_insert, if_pos rfl]

variable {st : WorkerStep} {g : GatewayServer} {t : Tool}

lemma take_claims (hsound : w.Sound id)
    (htake : w.take g st = some w') : w.leaving = [] ∧ (∀ n ∈ w'.leaving, n ∈ w.serves) ∧ ∀ n ∈ w.serves,
    n ∈ w'.serves ∨ n ∈ w'.leaving := by
  rcases take_cases htake with ⟨hcalls, -, ⟨hman, hcalls'⟩ | ⟨a, rfl⟩⟩
  · have hserves : w'.serves = w.serves := by rw [serves, hman, serves]
    refine ⟨by rw [leaving, hcalls]; rfl, ?_, ?_⟩
    · intro n hn
      rw [leaving, hcalls'] at hn
      cases hn
    · intro n hn
      rw [hserves]
      exact .inl hn
  · refine ⟨by rw [leaving, hcalls]; rfl, ?_, ?_⟩
    · intro n hn
      rcases mem_flatMap.1 hn with ⟨c, hc, hdeleted⟩
      exact Act.deleted_served hsound.coherent hc hdeleted
    · intro n hn
      refine (Act.served_or_deleted a hn).imp_right ?_
      rintro ⟨c, hc, hdeleted⟩
      exact mem_flatMap.2 ⟨c, hc, hdeleted⟩

lemma serves_updateTools (w : Worker) {kept registered : List Tool}
    {before : GoMap Routing.ToolAnnotation} (hstage : w.stage = .checked kept before registered) :
    (w.act (.updateTools registered kept)).serves.Perm
      ((w.serves.filter fun n => !w.updateDiff.2.contains n) ++ w.updateDiff.1) := by
  have hman : (w.act (.updateTools registered kept)).manager =
      ((w.manager.updateTools registered kept []).man,
        (w.manager.updateTools registered kept []).calls).1 := rfl
  rw [updateDiff_eq hstage, serves, hman, updateTools_eq]
  split_ifs
  · simp [serves]
  · simp only [reserve, serves, map_append, List.filter_map]
    exact .refl _

lemma take_serves (htake : w.take g st = some w') :
    (∀ n ∈ w'.serves, n ∈ w.serves ∨ n ∈ w.newNames st) ∧ ∀ n ∈ w.serves, n ∈ w'.serves ∨
    n ∈ w.droppedNames st := by
  have hsame : w'.serves = w.serves → (∀ n ∈ w'.serves, n ∈ w.serves ∨ n ∈ w.newNames st) ∧
      ∀ n ∈ w.serves, n ∈ w'.serves ∨ n ∈ w.droppedNames st := by
    intro heq
    rw [heq]
    exact ⟨fun n hn => .inl hn, fun n hn => .inl hn⟩
  have hnone : w'.serves = [] → (∀ n ∈ w.serves, n ∈ w.droppedNames st) →
      (∀ n ∈ w'.serves, n ∈ w.serves ∨ n ∈ w.newNames st) ∧
        ∀ n ∈ w.serves, n ∈ w'.serves ∨ n ∈ w.droppedNames st := by
    intro hempty hall
    rw [hempty]
    exact ⟨fun n hn => absurd hn not_mem_nil, fun n hn => .inr (hall n hn)⟩
  cases takes htake with
  | harvest | undecoded | listTools | listPrompts => exact hsame rfl
  | reject | dropTools => exact hnone rfl fun n hn => hn
  | update hstage =>
    have hperm := serves_updateTools w hstage
    refine ⟨?_, ?_⟩
    · intro n hn
      rcases mem_append.1 (hperm.mem_iff.1 hn) with hkept | hnew
      · exact .inl (mem_filter.1 hkept).1
      · exact .inr hnew
    · intro n hn
      by_cases hgone : n ∈ w.updateDiff.2
      · exact .inr hgone
      · refine .inl (hperm.mem_iff.2 (mem_append_left _ (mem_filter.2 ⟨hn, ?_⟩)))
        simpa using hgone
  | updatePrompts =>
    exact hsame (congrArg (List.map name) (Act.serverTools_updatePrompts _ _ _))
  | dropPrompts => exact hsame (congrArg (List.map name) (Act.serverTools_dropPrompts _))

variable (h : s.Held late)

include h

lemma Held.worker (hsound : w.Sound id)
    (hw : s.workers.lookup id = some w) (htake : w.take s.registry st = some w')
    (hfree : s.free (.worker id st) = true)
    (hlasting : late = false → s.lasting (.worker id st) = true) : (s.setWorker id w').Held late := by
  have hid := hsound.id_ne
  rcases take_claims hsound htake with ⟨hnone, hleaving, hserved⟩
  rcases take_serves htake with ⟨hadded, hdropped⟩
  simp only [free, hw, all_eq_true, not_eq_true'] at hfree
  simp only [lasting, hw, all_eq_true, Option.isNone_iff_eq_none] at hlasting
  refine h.step id (fun q hq n => mem_claimedBy_setWorker_ne hq) ?_ ?_
  · -- a new name is free, and one that is still to be deleted was served
    intro n hn
    rw [mem_claimedBy_setWorker hid, mem_claims] at hn
    rw [mem_claimedBy_worker hid hw, mem_claims]
    rcases hn with hnew | ⟨-, hlate⟩
    · rcases hadded n hnew with hold | hnew
      · exact .inl (.inl hold)
      · exact .inr (not_claimed_of_elsewhere (hfree n hnew))
    · exact .inl (.inl (hleaving n hlate))
  · -- a name that was claimed was served, since nothing was left to delete
    intro n t ht
    refine .inr ⟨ht, ?_⟩
    rw [mem_claimedBy_worker hid hw, mem_claimedBy_setWorker hid, mem_claims, mem_claims, hnone]
    rintro (hold | ⟨-, hlate⟩)
    · cases late with
      | true => exact (hserved n hold).imp_right fun hlate => ⟨rfl, hlate⟩
      | false =>
        rcases hdropped n hold with hstill | hgone
        · exact .inl hstill
        · have hregistered : s.registry.tools.lookup n = some t := ht
          rw [hlasting rfl n hgone] at hregistered
          cases hregistered
    · cases hlate

lemma Held.call {c : ManagerCall} {rest : List ManagerCall} {stage : Stage}
    (hsound : w.Sound id) (hw : s.workers.lookup id = some w)
    (hstage : w.stage = .calling (c :: rest)) (hrest : stage.calls = rest) :
    Held { s.setWorker id { w with stage := stage } with registry := c.apply s.registry } late := by
  have hid := hsound.id_ne
  have hleaving : w.leaving = Kind.tool.deleted c ++ Worker.leaving { w with stage := stage } := by
    rw [Worker.leaving, Worker.leaving, hstage, hrest]
    rfl
  have hlater : ∀ n, n ∈ Worker.claims { w with stage := stage } late → n ∈ w.claims late := by
    intro n hn
    rw [mem_claims] at hn ⊢
    refine hn.imp_right fun hlate => ⟨hlate.1, ?_⟩
    rw [hleaving]
    exact mem_append_right _ hlate.2
  have hsame : ∀ q n, n ∈ claimedBy { s.setWorker id { w with stage := stage } with
        registry := c.apply s.registry } late q ↔
      n ∈ (s.setWorker id { w with stage := stage }).claimedBy late q := fun _ _ => Iff.rfl
  refine h.step id (fun q hq n => (hsame q n).trans (mem_claimedBy_setWorker_ne hq)) ?_ ?_
  · intro n hn
    have hn' := (mem_claimedBy_setWorker hid).1 ((hsame id n).1 hn)
    exact .inl ((mem_claimedBy_worker hid hw).2 (hlater n hn'))
  · intro n t ht
    have hentries : (c.apply s.registry).tools = register Tool.name (Kind.tool.added c)
        (unregister (Kind.tool.deleted c) s.registry.tools) := Kind.tool.entries_apply s.registry c
    dsimp only at ht
    rw [hentries, lookup_register, lookup_unregister, Option.or_eq_some_iff] at ht
    rcases ht with hadded | ⟨-, hold⟩
    · -- the tool is one of those the call registers
      have ht := of_lookup_byName hadded
      have hserved : t ∈ w.manager.serverTools := by
        refine hsound.adds c ?_ t ht.1
        rw [hstage]
        exact mem_cons_self
      have howner : ownerID t.metadata = some id := by
        rw [← hsound.known]
        exact hsound.owned .tool t hserved
      refine .inl ⟨howner, (hsame id n).2 ((mem_claimedBy_setWorker hid).2 ?_)⟩
      rw [mem_claims]
      exact .inl (ht.2 ▸ mem_map_of_mem hserved)
    · split_ifs at hold with hdeleted
      refine .inr ⟨hold, fun hclaimed => (hsame id n).2 ((mem_claimedBy_setWorker hid).2 ?_)⟩
      rw [mem_claimedBy_worker hid hw, mem_claims, hleaving, mem_append] at hclaimed
      rw [mem_claims]
      rcases hclaimed with hserved | ⟨hlate, hnow | hlater⟩
      · exact .inl hserved
      · exact absurd hnow hdeleted
      · exact .inr ⟨hlate, hlater⟩

/-! ## The other steps -/

omit h in
lemma mem_claimedBy_setWorker_same (hw : s.workers.lookup id = some w)
    (hman : w'.manager = w.manager) (hcalls : w'.stage.calls = w.stage.calls) (q n : String) :
    n ∈ (s.setWorker id w').claimedBy late q ↔ n ∈ s.claimedBy late q := by
  have hclaims : w'.claims late = w.claims late := by
    simp only [Worker.claims, Worker.serves, Worker.leaving, hman, hcalls]
  by_cases hq : q = id
  · subst hq
    have hlookup : (s.setWorker q w').workers.lookup q = some w' := by
      rw [setWorker, lookup_insert, if_pos rfl]
    have hown : (s.setWorker q w').ownTools = s.ownTools := rfl
    rw [mem_claimedBy, mem_claimedBy, hlookup, hw, hown]
    simp [hclaims]
  · exact mem_claimedBy_setWorker_ne hq

lemma Held.resume (r : Refresher) : (s.resume r).Held late := by
  cases r with
  | worker id =>
    unfold Fleet.resume
    dsimp only
    cases hw : s.workers.lookup id with
    | none => exact h
    | some w => exact h.frame (mem_claimedBy_setWorker_same hw rfl rfl) rfl
  | reload => exact h.frame (fun _ _ => Iff.rfl) rfl
  | reader n => exact h

lemma Held.deregister (gone : List String) :
    (gone.foldl deregister s).Held late := by
  induction gone generalizing s with
  | nil => exact h
  | cons id gone ih =>
    refine ih ?_
    unfold deregister
    cases hw : s.workers.lookup id with
    | none => exact h
    | some w => exact h.frame (mem_claimedBy_setWorker_same hw rfl rfl) rfl

lemma Held.start (servers : List MCPServer) :
    (servers.foldl start s).Held late := by
  induction servers generalizing s with
  | nil => exact h
  | cons config servers ih =>
    refine ih ?_
    unfold start
    cases hw : s.workers.lookup config.id with
    | some w => exact h
    | none =>
      refine h.frame ?_ rfl
      intro q n
      by_cases hq : q = config.id
      · subst hq
        rw [mem_claimedBy_setWorker (id_ne_brokerServerID config), mem_claimedBy, mem_claims, hw]
        have hid := id_ne_brokerServerID config
        simp [hid, serves, leaving, manager, ActiveMCPServer.start, Stage.calls]
      · exact mem_claimedBy_setWorker_ne hq

lemma Held.retire (hw : s.workers.lookup id = some w)
    (hstage : w.stage = .calling []) (htools : w.manager.serverTools = []) :
    Held { s with workers := AList.erase id s.workers } late := by
  refine h.frame ?_ rfl
  intro q n
  rw [mem_claimedBy, mem_claimedBy]
  refine or_congr Iff.rfl ?_
  dsimp only
  rw [lookup_erase]
  split_ifs with hq
  · subst hq
    have hnone : n ∉ w.claims late := by
      rw [mem_claims]
      simp [serves, leaving, htools, hstage, Stage.calls]
    simp [hw, hnone]
  · exact Iff.rfl

omit h

lemma owner_brokerTool (name description : String) (schema : List (String × Any)) :
    ownerID (brokerTool name description schema).metadata = some brokerServerID := by
  rfl

lemma owner_tagsTools (ht : t ∈ tagsTools) : ownerID t.metadata = some brokerServerID := by
  simp only [tagsTools, mem_cons, not_mem_nil, or_false] at ht
  rcases ht with rfl | rfl <;> exact owner_brokerTool _ _ _

lemma owner_discoveryTools (ht : t ∈ discoveryTools) :
    ownerID t.metadata = some brokerServerID := by
  simp only [discoveryTools, mem_cons, not_mem_nil, or_false] at ht
  rcases ht with rfl | rfl <;> exact owner_brokerTool _ _ _

lemma names_tagsTools : tagsTools.map name = [listTagsName, filterToolsByTagsName] := rfl

lemma mem_claimedBy_of_workers {q : String} (hq : q ≠ brokerServerID)
    (hworkers : s'.workers = s.workers) : n ∈ s'.claimedBy late q ↔ n ∈ s.claimedBy late q := by
  rw [mem_claimedBy, mem_claimedBy, hworkers]
  simp [hq]

lemma Held.registerTagsTools (h : s.Held late) (hflag : s.tagsToolsRegistered = false)
    (hfree : s.free .registerTagsTools = true) :
    Held { s with registry := s.registry.addTools tagsTools, tagsToolsRegistered := true } late := by
  have hown : ∀ n, n ∈ (ownTools { s with
        registry := s.registry.addTools tagsTools, tagsToolsRegistered := true }).map name ↔
      n ∈ s.ownTools.map name ∨ n ∈ tagsTools.map name := by
    intro n
    simp only [ownTools, hflag, if_true, false_eq_true, if_false, append_nil,
      map_append, mem_append]
  have hclaims : ∀ n, n ∈ claimedBy { s with
        registry := s.registry.addTools tagsTools, tagsToolsRegistered := true } late
          brokerServerID ↔
      n ∈ s.claimedBy late brokerServerID ∨ n ∈ tagsTools.map name := by
    intro n
    rw [mem_claimedBy, mem_claimedBy, hown]
    dsimp only
    simp only [true_and]
    exact or_right_comm
  simp only [free, all_eq_true, not_eq_true'] at hfree
  refine h.step brokerServerID (fun q hq n => mem_claimedBy_of_workers hq rfl) ?_ ?_
  · intro n hn
    rcases (hclaims n).1 hn with hold | hnew
    · exact .inl hold
    · exact .inr (not_claimed_of_elsewhere (hfree n hnew))
  · intro n t ht
    dsimp only [addTools] at ht
    rw [lookup_register, Option.or_eq_some_iff] at ht
    rcases ht with hadded | ⟨-, hold⟩
    · have ht := of_lookup_byName hadded
      refine .inl ⟨owner_tagsTools ht.1, (hclaims n).2 (.inr ?_)⟩
      exact ht.2 ▸ mem_map_of_mem ht.1
    · exact .inr ⟨hold, fun hclaimed => (hclaims n).2 (.inl hclaimed)⟩

lemma Held.deregisterTagsTools (h : s.Held late) (hflag : s.tagsToolsRegistered = true) :
    Held { s with
      registry := s.registry.deleteTools [listTagsName, filterToolsByTagsName]
      tagsToolsRegistered := false } late := by
  have hown : ∀ n, n ∈ s.ownTools.map name ↔ n ∈ (ownTools { s with
        registry := s.registry.deleteTools [listTagsName, filterToolsByTagsName]
        tagsToolsRegistered := false }).map name ∨ n ∈ tagsTools.map name := by
    intro n
    simp only [ownTools, hflag, if_true, false_eq_true, if_false, append_nil,
      map_append, mem_append]
  refine h.step brokerServerID (fun q hq n => mem_claimedBy_of_workers hq rfl) ?_ ?_
  · intro n hn
    refine .inl ?_
    rw [mem_claimedBy, hown]
    rw [mem_claimedBy] at hn
    tauto
  · intro n t ht
    dsimp only [deleteTools] at ht
    rw [lookup_unregister] at ht
    split_ifs at ht with hgone
    refine .inr ⟨ht, fun hclaimed => ?_⟩
    rw [mem_claimedBy, hown, names_tagsTools] at hclaimed
    rw [mem_claimedBy]
    tauto

/-! ## Whole runs -/

lemma held_new (policy : InvalidToolPolicy) (enabled : Bool) : (new policy enabled).Held late := by
  have hclaims : ∀ id n, n ∈ (new policy enabled).claimedBy late id ↔
      id = brokerServerID ∧ n ∈ (new policy enabled).ownTools.map name := by
    intro id n
    rw [mem_claimedBy]
    simp [new]
  have hregistered : ∀ n t, (new policy enabled).registry.tools.lookup n = some t →
      t ∈ (new policy enabled).ownTools ∧ t ∈ discoveryTools ∧ t.name = n := by
    intro n t ht
    dsimp only [new, addTools] at ht
    rw [lookup_register, Option.or_eq_some_iff] at ht
    rcases ht with hadded | ⟨-, hnone⟩
    · have ht := of_lookup_byName hadded
      refine ⟨mem_append_left _ ht.1, ?_, ht.2⟩
      have hmem := ht.1
      split_ifs at hmem
      · exact hmem
      · cases hmem
    · cases hnone
  refine ⟨⟨?_, ?_⟩, ?_⟩
  · intro p q n hp hq
    exact ((hclaims p n).1 hp).1.trans ((hclaims q n).1 hq).1.symm
  · intro n p hp
    rcases bind_eq_some_iff.1 hp with ⟨t, ht, howner⟩
    rcases hregistered n t ht with ⟨hown, hdiscovery, rfl⟩
    rw [owner_discoveryTools hdiscovery, Option.some.injEq] at howner
    exact (hclaims p _).2 ⟨howner.symm, mem_map_of_mem hown⟩
  · intro n t ht
    rw [owner_discoveryTools (hregistered n t ht).2.1]
    rfl

lemma exclusive_step {l : Label} (horderly : s.Orderly) (h : s.Held late) (hstep : s.step l = some s')
    (hfree : s.free l = true) (hlasting : late = false → s.lasting l = true) : s'.Held late := by
  cases stepsTo hstep with
  | @worker id st w w' hw htake => exact h.worker (horderly id w hw) hw htake hfree hlasting
  | @call id w c rest hw hstage =>
    refine h.call (horderly id w hw) hw hstage ?_
    split_ifs <;> rfl
  | begin | read => exact h.frame (fun _ _ => Iff.rfl) rfl
  | store =>
    refine Held.resume ?_ _
    exact h.frame (fun _ _ => Iff.rfl) rfl
  | @deregister gone => exact (h.deregister gone).frame (fun _ _ => Iff.rfl) rfl
  | @retire id w hw hstage _ htools => exact h.retire hw hstage htools
  | @startManagers servers => exact (h.start servers).frame (fun _ _ => Iff.rfl) rfl
  | registerTagsTools hflag => exact h.registerTagsTools hflag hfree
  | deregisterTagsTools hflag => exact h.deregisterTagsTools hflag

lemma Held.claimed (h : s.Held late) {n : String} (ht : s.registry.tools.lookup n = some t) :
    ∃ id, ownerID t.metadata = some id ∧ n ∈ s.claimedBy late id ∧ ∀ id' ≠ id,
    n ∉ s.claimedBy late id' := by
  rcases isSome_iff_exists.1 (h.marked n t ht) with ⟨id, hid⟩
  have hheld : s.holder n = some id := bind_eq_some_iff.2 ⟨t, ht, hid⟩
  have hclaimed := h.exclusive.held n id hheld
  refine ⟨id, hid, hclaimed, ?_⟩
  intro id' hne hn
  exact hne (h.exclusive.disjoint id' id n hn hclaimed)

lemma Held.deletesOwn (horderly : s.Orderly) (h : s.Held true) : s.DeletesOwn := by
  intro id w names rest hw hstage n hn t ht
  have hsound := horderly id w hw
  -- the name is still to be deleted, so the manager claims it, and then nobody else does
  have hleaving : n ∈ w.leaving := by
    rw [leaving, hstage]
    exact mem_append_left _ hn
  have hmine : n ∈ s.claimedBy true id := by
    rw [mem_claimedBy_worker hsound.id_ne hw, mem_claims]
    exact .inr ⟨rfl, hleaving⟩
  rcases h.claimed ht with ⟨owner, howner, -, hothers⟩
  by_cases hid : id = owner
  · rw [hid]
    exact howner
  · exact absurd hmine (hothers id hid)

def freeStep : Label → Fleet → Option Fleet := guarded (fun l s => s.free l) step

def lastingStep : Label → Fleet → Option Fleet := guarded (fun l s => s.lasting l) freeStep

lemma held_of_freeStep {s₀ : Fleet} (hreach : Reachable freeStep s₀ s) (horderly : s₀.Orderly)
    (h : s₀.Held true) : s.Orderly ∧ s.Held true := by
  refine hreach.invariant (P := fun s => s.Orderly ∧ s.Held true) ⟨horderly, h⟩ ?_
  rintro l s s' hstep ⟨horderly, h⟩
  rcases guarded_eq_some.1 hstep with ⟨hfree, hstep⟩
  exact ⟨horderly.step hstep, exclusive_step horderly h hstep hfree (fun hlate => by cases hlate)⟩

lemma held_of_lastingStep {s₀ : Fleet} (hreach : Reachable lastingStep s₀ s)
    (horderly : s₀.Orderly) (h : s₀.Held false) : s.Orderly ∧ s.Held false := by
  refine hreach.invariant (P := fun s => s.Orderly ∧ s.Held false) ⟨horderly, h⟩ ?_
  rintro l s s' hstep ⟨horderly, h⟩
  rcases guarded_eq_some.1 hstep with ⟨hlasting, hrest⟩
  rcases guarded_eq_some.1 hrest with ⟨hfree, hstep⟩
  exact ⟨horderly.step hstep, exclusive_step horderly h hstep hfree fun _ => hlasting⟩

/-- In every run whose steps take only free names, every registered tool belongs to one party, which
serves its name or has still to delete it, and a delete takes away only own tools.  If besides no
manager stops serving a name that is still registered, the party serves it at every moment. -/
theorem registry_owned (policy : InvalidToolPolicy) (enabled : Bool) :
    (∀ s, Reachable freeStep (new policy enabled) s → s.ToolsClaimed ∧ s.DeletesOwn) ∧
      ∀ s, Reachable lastingStep (new policy enabled) s → s.ToolsOwned ∧ s.DeletesOwn := by
  have hfree : ∀ s, Reachable freeStep (new policy enabled) s → s.ToolsClaimed ∧ s.DeletesOwn := by
    intro s hreach
    have hheld := held_of_freeStep hreach (orderly_new policy enabled) (held_new policy enabled)
    exact ⟨fun n t ht => hheld.2.claimed ht, hheld.2.deletesOwn hheld.1⟩
  refine ⟨hfree, ?_⟩
  intro s hreach
  have hheld := held_of_lastingStep hreach (orderly_new policy enabled) (held_new policy enabled)
  exact ⟨fun n t ht => hheld.2.claimed ht, (hfree s hreach.of_guarded).2⟩

def eastRegisters : List Label :=
  bothStarted ++ checks east [forecast] ++ takesOver east ++ refreshed east

/-- The runs meet the conditions when only one manager has the tool, the second one also when it drops
the tool. -/
theorem registry_owned_forecast :
    (∃ s, run lastingStep (new .filterOut true) eastRegisters = some s ∧
        (s.registry.tools.lookup "forecast").isSome ∧ s.ToolsOwned ∧ s.DeletesOwn) ∧
      ∃ s, run freeStep (new .filterOut true)
          (eastRegisters ++ checks east [] ++ [.worker east.id .update]) = some s ∧
        s.ToolsClaimed ∧ s.DeletesOwn := by
  refine ⟨?_, ?_⟩
  · have hrun : (run lastingStep (new .filterOut true) eastRegisters).any (fun s =>
        (s.registry.tools.lookup "forecast").isSome) = true := by decide +kernel
    rcases (Option.any_eq_true _ _).1 hrun with ⟨s, hs, hregistered⟩
    exact ⟨s, hs, hregistered, (registry_owned .filterOut true).2 s ⟨_, hs⟩⟩
  · have hrun : (run freeStep (new .filterOut true)
        (eastRegisters ++ checks east [] ++ [.worker east.id .update])).isSome = true := by
      decide +kernel
    rcases Option.isSome_iff_exists.1 hrun with ⟨s, hs⟩
    exact ⟨s, hs, (registry_owned .filterOut true).1 s ⟨_, hs⟩⟩

/-! ## Two managers and one name -/

/-- Both managers check for conflicts before either has registered the tool that both have. -/
def bothRegister : List Label :=
  bothStarted ++ checks east [forecast] ++ checks west [forecast] ++
    takesOver east ++ refreshed east ++ takesOver west ++ refreshed west

/-- Then the first upstream takes its tool back, and its manager is about to delete it. -/
def eastDrops : List Label :=
  bothRegister ++ checks east [] ++ [.worker east.id .update]

def nextDeletes : Stage → List String
  | .calling (.deleteTools names :: _) => names
  | _ => []

lemma of_mem_nextDeletes {stage : Stage} (h : n ∈ nextDeletes stage) :
    ∃ names rest, stage = .calling (.deleteTools names :: rest) ∧ n ∈ names := by
  unfold nextDeletes at h
  split at h
  next names rest => exact ⟨names, rest, rfl, h⟩
  next => cases h

lemma not_toolsOwned {p q : String} (hne : p ≠ q) (hp : n ∈ s.servedBy p) (hq : n ∈ s.servedBy q)
    (hregistered : (s.registry.tools.lookup n).isSome) : ¬ s.ToolsOwned := by
  intro howned
  rcases isSome_iff_exists.1 hregistered with ⟨t, ht⟩
  rcases howned n t ht with ⟨id, -, -, hothers⟩
  have hid : p = id := by
    by_contra hp'
    exact hothers p hp' hp
  exact hothers q (fun hq' => hne (hid.trans hq'.symm)) hq

/-- Both managers serve the tool in the end; the delete of one takes away the tool of the other, which
goes on serving what is no longer registered. -/
theorem staleCheck_deletes :
    (∃ s, run step (new .filterOut false) bothRegister = some s ∧ ¬ s.ToolsOwned) ∧
      (∃ s, run step (new .filterOut false) eastDrops = some s ∧ ¬ s.DeletesOwn) ∧
        ∃ s, run step (new .filterOut false) (eastDrops ++ [.call east.id]) = some s ∧
          s.registry.tools.lookup "forecast" = none ∧ "forecast" ∈ s.servedBy west.id := by
  refine ⟨?_, ?_, ?_⟩
  · have hrun : (run step (new .filterOut false) bothRegister).any (fun s =>
        (s.servedBy east.id).contains "forecast" && (s.servedBy west.id).contains "forecast" &&
          (s.registry.tools.lookup "forecast").isSome) = true := by decide +kernel
    rcases (Option.any_eq_true _ _).1 hrun with ⟨s, hs, hboth⟩
    simp only [Bool.and_eq_true, List.contains_eq_mem, decide_eq_true_eq] at hboth
    have hne : east.id ≠ west.id := by decide
    exact ⟨s, hs, not_toolsOwned hne hboth.1.1 hboth.1.2 hboth.2⟩
  · have hrun : (run step (new .filterOut false) eastDrops).any (fun s =>
        (s.workers.lookup east.id).any (fun w => (nextDeletes w.stage).contains "forecast") &&
          s.holder "forecast" == some west.id) = true := by decide +kernel
    rcases (Option.any_eq_true _ _).1 hrun with ⟨s, hs, hforeign⟩
    simp only [Bool.and_eq_true, Option.any_eq_true, List.contains_eq_mem, decide_eq_true_eq,
      beq_iff_eq] at hforeign
    rcases hforeign with ⟨⟨w, hw, hdeletes⟩, hholder⟩
    rcases of_mem_nextDeletes hdeletes with ⟨names, rest, hstage, hnames⟩
    rcases Option.bind_eq_some_iff.1 hholder with ⟨t, ht, hwest⟩
    refine ⟨s, hs, ?_⟩
    intro howned
    have heast := howned east.id w names rest hw hstage "forecast" hnames t ht
    rw [heast] at hwest
    revert hwest
    decide
  · have hrun : (run step (new .filterOut false) (eastDrops ++ [.call east.id])).any (fun s =>
        (s.registry.tools.lookup "forecast").isNone && (s.servedBy west.id).contains "forecast") =
          true := by decide +kernel
    rcases (Option.any_eq_true _ _).1 hrun with ⟨s, hs, hgone⟩
    simp only [Bool.and_eq_true, List.contains_eq_mem, decide_eq_true_eq,
      Option.isNone_iff_eq_none] at hgone
    exact ⟨s, hs, hgone⟩

end Fleet

end McpGateway.Gateway
