import McpGateway.Controller.Cluster

/-!
# Extensions that lost their namespace

What an extension owns is named after its namespace, so the cleanup of a deleted extension hits the
extension that was accepted there, whether or not it is the same one.  Up to its deletion an extension
that lost only has its own finalizers and status written.
-/

namespace McpGateway.Controller.Extension

open Kubernetes Go Cluster

variable {w : Cluster} {key : NamespacedName} {ext : MCPGatewayExtension}
  {configure : MCPGatewayExtension → Gateway → ListenerConfig → Ctl Reconciled}

/-- What happens to one extension: it is reconciled, or somebody deletes it. -/
inductive Event where
  | reconcile | delete
  deriving DecidableEq, Repr

/-- A deleted object goes at once, or is marked until its finalizers are removed. -/
def deleted (w : Cluster) (key : NamespacedName) : Cluster :=
  match w.find .mcpGatewayExtension key with
  | none => w
  | some ext =>
    if ext.finalizers = [] then w.remove .mcpGatewayExtension key
    else w.store .mcpGatewayExtension { ext with deletionTimestamp := some w.clock }

def step (configure : MCPGatewayExtension → Gateway → ListenerConfig → Ctl Reconciled)
    (key : NamespacedName) (w : Cluster) : Event → Cluster
  | .reconcile => (w.run (reconcile configure key)).2
  | .delete => deleted w key

def runEvents (configure : MCPGatewayExtension → Gateway → ListenerConfig → Ctl Reconciled)
    (key : NamespacedName) (w : Cluster) (events : List Event) : Cluster :=
  events.foldl (step configure key) w

/-- The configs, the filters and the gateways with their listener conditions are as they were. -/
def Untouched (w w' : Cluster) : Prop :=
  w'.configs = w.configs ∧ w'.objects .envoyFilter = w.objects .envoyFilter ∧
    w'.objects .gateway = w.objects .gateway

/-- The extensions a reconcile in the namespace sees. -/
def inNamespace (w : Cluster) (ns : String) : List MCPGatewayExtension :=
  (w.objects .mcpGatewayExtension).filter
    ((ListOption.inNamespace ns).selects .mcpGatewayExtension)

/-- The extension is not being deleted and has lost the conflict of its namespace. -/
def LostBy (w : Cluster) (ext : MCPGatewayExtension) : Prop :=
  (namespaceConflict ext (inNamespace w ext.ns)).toBool = false

/-- The extension is active and has lost a conflict. -/
def Lost (w : Cluster) (key : NamespacedName) : Prop :=
  ∃ ext, w.find .mcpGatewayExtension key = some ext ∧ ext.deletionTimestamp = none ∧ LostBy w ext

/-- No reconcile of the run finds the extension marked for deletion with the finalizer. -/
def Spared (configure : MCPGatewayExtension → Gateway → ListenerConfig → Ctl Reconciled)
    (key : NamespacedName) : Cluster → List Event → Prop
  | _, [] => True
  | w, event :: rest =>
    (event = .reconcile → ∀ ext, w.find .mcpGatewayExtension key = some ext →
      ext.deletionTimestamp.isSome = true → ext.finalizers.contains mcpGatewayFinalizer = false) ∧
    Spared configure key (step configure key w event) rest

/-! ## One step -/

/-- An extension whose identity is unchanged. -/
structure SameIdentity (a b : MCPGatewayExtension) : Prop where
  key : b.key = a.key
  uid : b.uid = a.uid
  creationTimestamp : b.creationTimestamp = a.creationTimestamp
  deletionTimestamp : b.deletionTimestamp = a.deletionTimestamp

lemma SameIdentity.ns {a b : MCPGatewayExtension} (h : SameIdentity a b) : b.ns = a.ns :=
  congrArg NamespacedName.ns h.key

variable {f : MCPGatewayExtension → MCPGatewayExtension} {items : List MCPGatewayExtension}
  {new : MCPGatewayExtension}

lemma findOldestExtension_map
    (hf : ∀ e, (f e).creationTimestamp = e.creationTimestamp) (first : MCPGatewayExtension)
    (rest : List MCPGatewayExtension) :
    findOldestExtension (f first) (rest.map f) = f (findOldestExtension first rest) := by
  induction rest generalizing first with
  | nil => rfl
  | cons e rest ih =>
    simp only [findOldestExtension, map_cons, foldl_cons, hf]
    split
    · exact ih e
    · exact ih first

/-- The verdict does not depend on more than the identities. -/
lemma namespaceConflict_map
    (hf : ∀ e, SameIdentity e (f e)) :
    (namespaceConflict (f ext) (items.map f)).toBool = (namespaceConflict ext items).toBool := by
  unfold namespaceConflict
  have hfilter : (items.map f).filter (fun e => e.deletionTimestamp.isNone) =
      (items.filter fun e => e.deletionTimestamp.isNone).map f := by
    rw [List.filter_map]
    congr 2
    funext e
    simp [(hf e).deletionTimestamp]
  rw [hfilter]
  generalize items.filter (fun e => e.deletionTimestamp.isNone) = active
  rcases active with _ | ⟨first, _ | ⟨second, rest⟩⟩
  · rfl
  · rfl
  · simp only [map_cons]
    rw [← map_cons, findOldestExtension_map fun e => (hf e).creationTimestamp, (hf _).uid,
      (hf ext).uid]
    split <;> rfl

/-- The keys are unique, and the extension has lost unless it is being deleted or gone. -/
structure Defeated (w : Cluster) (key : NamespacedName) : Prop where
  keys : ((w.objects .mcpGatewayExtension).map fun e => e.key).Nodup
  lost : ∀ ext, w.find .mcpGatewayExtension key = some ext → ext.deletionTimestamp = none → LostBy w ext

lemma key_of_find (h : w.find .mcpGatewayExtension key = some ext) : ext.key = key := by
  have hp := find?_some (show (w.objects .mcpGatewayExtension).find?
    (fun o : MCPGatewayExtension => decide (o.key = key)) = some ext from h)
  exact of_decide_eq_true hp

/-- Storing an extension replaces the one with its key. -/
lemma find_store (h : w.find .mcpGatewayExtension key = some ext)
    (hkey : new.key = key) :
    (w.store .mcpGatewayExtension new).find .mcpGatewayExtension key = some new := by
  subst hkey
  simp only [find, store, setObjects_self, List.find?_map]
  have hsame : ((fun o : MCPGatewayExtension => decide (o.key = new.key)) ∘ fun o' =>
      if o'.key = new.key then new else o') = fun o => decide (o.key = new.key) := by
    funext o
    simp only [Function.comp_apply]
    split <;> simp_all
  refine (congrArg (Option.map _) ((congrArg (fun p => List.find? p _) hsame).trans h)).trans ?_
  exact congrArg some (if_pos (key_of_find h))

lemma keys_store :
    ((w.store .mcpGatewayExtension new).objects .mcpGatewayExtension).map (fun e => e.key) =
      (w.objects .mcpGatewayExtension).map fun e => e.key := by
  simp only [store, setObjects_self, List.map_map]
  refine List.map_congr_left fun o _ => ?_
  change ObjectMeta.key (MCPGatewayExtension.toObjectMeta (if o.key = new.key then new else o)) = _
  split
  next h => exact h.symm
  next => rfl

lemma untouched_setObjects {os : List MCPGatewayExtension} :
    Untouched w (w.setObjects .mcpGatewayExtension os) :=
  ⟨rfl, setObjects_other (by decide), setObjects_other (by decide)⟩

/-- Writing the finalizers and the status of the extension changes no verdict. -/
lemma Defeated.store (h : Defeated w key) (hfind : w.find .mcpGatewayExtension key = some ext)
    (hactive : ext.deletionTimestamp = none) (cs : List Condition) (fs : List String) :
    Defeated (w.store .mcpGatewayExtension { ext with conditions := cs, finalizers := fs }) key := by
  let f : MCPGatewayExtension → MCPGatewayExtension := fun o =>
    if o.key = key then { o with conditions := cs, finalizers := fs } else o
  have hf : ∀ o, SameIdentity o (f o) := by
    intro o
    by_cases ho : o.key = key
    · simp only [f, if_pos ho]
      exact ⟨rfl, rfl, rfl, rfl⟩
    · simp only [f, if_neg ho]
      exact ⟨rfl, rfl, rfl, rfl⟩
  have hkey := key_of_find hfind
  have hfext : f ext = { ext with conditions := cs, finalizers := fs } := if_pos hkey
  -- the only extension with the key is the one that is stored
  have hobjects : (w.store .mcpGatewayExtension
      { ext with conditions := cs, finalizers := fs }).objects .mcpGatewayExtension =
      (w.objects .mcpGatewayExtension).map f := by
    rw [Cluster.store, Cluster.setObjects_self]
    refine List.map_congr_left fun o ho => ?_
    by_cases hokey : o.key = key
    · have : o = ext :=
        List.inj_on_of_nodup_map h.keys ho (List.mem_of_find?_eq_some hfind) (hokey.trans hkey.symm)
      subst this
      rw [hfext]
      exact if_pos rfl
    · refine (if_neg fun heq => hokey (heq.trans hkey)).trans (if_neg hokey).symm
  refine ⟨keys_store.symm ▸ h.keys, fun new hnew _ => ?_⟩
  obtain rfl := Option.some.inj (hnew.symm.trans (find_store hfind hkey))
  have hlisted : inNamespace (w.store .mcpGatewayExtension
      { ext with conditions := cs, finalizers := fs }) ext.ns = (inNamespace w ext.ns).map f := by
    unfold inNamespace
    rw [hobjects, List.filter_map]
    congr 2
    funext o
    change (decide (ext.ns = "") || decide ((f o).ns = ext.ns)) =
      (decide (ext.ns = "") || decide (o.ns = ext.ns))
    simp only [(hf o).ns]
  unfold LostBy
  rw [hlisted, ← hfext, namespaceConflict_map hf]
  exact h.lost ext hfind hactive

/-- A conflict is a validation error. -/
lemma exists_invalid
    (h : (namespaceConflict ext items).toBool = false) :
    ∃ message, namespaceConflict ext items = .error (invalid message) := by
  unfold namespaceConflict at h ⊢
  generalize items.filter (fun e => e.deletionTimestamp.isNone) = active at h ⊢
  rcases active with _ | ⟨first, _ | ⟨second, rest⟩⟩
  · cases h
  · cases h
  · by_cases heq : (findOldestExtension first (second :: rest)).uid = ext.uid
    · simp [heq, Except.toBool] at h
    · exact ⟨_, if_neg heq⟩

lemma run_updateStatus {status : ConditionStatus} {reason message : String} :
    (w.run (updateStatus ext status reason message)).2 = w ∨
      ∃ cs, (w.run (updateStatus ext status reason message)).2 =
        w.store .mcpGatewayExtension { ext with conditions := cs } := by
  rw [updateStatus, run_now]
  dsimp only
  split
  · exact .inr ⟨_, rfl⟩
  · exact .inl rfl

lemma defeated_reconcile (h : Defeated w key)
    (hspared : ∀ ext, w.find .mcpGatewayExtension key = some ext →
      ext.deletionTimestamp.isSome = true → ext.finalizers.contains mcpGatewayFinalizer = false) :
    Defeated (w.run (reconcile configure key)).2 key ∧
      Untouched w (w.run (reconcile configure key)).2 := by
  have hstay : Defeated w key ∧ Untouched w w := ⟨h, rfl, rfl, rfl⟩
  unfold reconcile
  rw [run_get, got]
  cases hfind : w.find .mcpGatewayExtension key with
  | none => exact hstay
  | some ext =>
    dsimp only
    by_cases hdel : ext.deletionTimestamp.isSome = true
    · rw [if_pos hdel, handleDeletion, hspared ext hfind hdel]
      exact hstay
    · rw [if_neg hdel]
      have hactive : ext.deletionTimestamp = none := by simpa using hdel
      by_cases hfin : ext.finalizers.contains mcpGatewayFinalizer = true
      · rw [if_pos hfin]
        -- the conflict ends the reconcile with a status
        obtain ⟨message, hmessage⟩ := exists_invalid (h.lost ext hfind hactive)
        have hrun : w.run (reconcileActive configure ext) =
            w.run (updateStatus ext .conditionFalse conditionReasonInvalid message) := by
          rw [reconcileActive, orReport, run_bind,
            show w.run (checkNamespaceConflict ext) = (.error (invalid message), w) from
              congrArg (fun r => (r, w)) hmessage]
          rfl
        rw [hrun]
        rcases run_updateStatus (w := w) with heq | ⟨cs, heq⟩
        · rw [heq]
          exact hstay
        · rw [heq]
          exact ⟨h.store hfind hactive _ _, untouched_setObjects⟩
      · rw [if_neg hfin]
        have hworld : (w.run (orFail (call (.update .mcpGatewayExtension
            { ext with finalizers := ext.finalizers ++ [mcpGatewayFinalizer] }))
            fun () => (return .ok .done : Ctl Reconciled))).2 = w.store .mcpGatewayExtension
              { ext with finalizers := ext.finalizers ++ [mcpGatewayFinalizer] } :=
          if_neg fun hgone => hdel hgone.1
        rw [hworld]
        exact ⟨h.store hfind hactive _ _, untouched_setObjects⟩

lemma defeated_deleted (h : Defeated w key) :
    Defeated (deleted w key) key ∧ Untouched w (deleted w key) := by
  unfold deleted
  cases hfind : w.find .mcpGatewayExtension key with
  | none => exact ⟨h, rfl, rfl, rfl⟩
  | some ext =>
    dsimp only
    split
    · refine ⟨⟨?_, fun new hnew => ?_⟩, untouched_setObjects⟩
      · rw [remove, setObjects_self]
        exact h.keys.sublist (List.filter_sublist.map _)
      · have hmem := mem_of_find?_eq_some hnew
        rw [remove, setObjects_self, mem_filter] at hmem
        exact absurd (key_of_find hnew) (of_decide_eq_true hmem.2)
    · refine ⟨⟨keys_store.symm ▸ h.keys, fun new hnew hnone => ?_⟩, untouched_setObjects⟩
      have hkey : ext.key = key := key_of_find hfind
      obtain rfl := Option.some.inj (hnew.symm.trans (find_store hfind hkey))
      cases hnone

/-! ## Whole runs -/

lemma untouched_runEvents {events : List Event} (h : Defeated w key)
    (hspared : Spared configure key w events) : Untouched w (runEvents configure key w events) := by
  induction events generalizing w with
  | nil => exact ⟨rfl, rfl, rfl⟩
  | cons event rest ih =>
    obtain ⟨hfirst, hrest⟩ := hspared
    have hstep : Defeated (step configure key w event) key ∧
        Untouched w (step configure key w event) := by
      cases event with
      | reconcile => exact defeated_reconcile h (hfirst rfl)
      | delete => exact defeated_deleted h
    obtain ⟨hconfigs, hfilters, hgateways⟩ := ih hstep.1 hrest
    obtain ⟨hconfigs', hfilters', hgateways'⟩ := hstep.2
    exact ⟨hconfigs.trans hconfigs', hfilters.trans hfilters', hgateways.trans hgateways'⟩

/-- As long as no reconcile finds a lost extension marked for deletion with the finalizer, nothing of
what its namespace's extension owns is touched. -/
theorem loser_untouched
    (configure : MCPGatewayExtension → Gateway → ListenerConfig → Ctl Reconciled)
    (w : Cluster) (key : NamespacedName) (events : List Event)
    (hkeys : ((w.objects .mcpGatewayExtension).map fun e => e.key).Nodup) (hlost : Lost w key)
    (hspared : Spared configure key w events) :
    Untouched w (runEvents configure key w events) := by
  refine untouched_runEvents ⟨hkeys, fun ext hfind _ => ?_⟩ hspared
  obtain ⟨ext', hfind', -, hlost⟩ := hlost
  exact Option.mem_unique hfind' hfind ▸ hlost

/-- A namespace with its accepted extension and a later one that has the finalizer. -/
def contestedCluster : Cluster where
  objects
    | .mcpGatewayExtension =>
      [{ name := "first", ns := "team", uid := "1", creationTimestamp := 1,
         spec := { targetRef := { name := "gw", ns := "team", sectionName := "mcp" } } },
       { name := "second", ns := "team", uid := "2", creationTimestamp := 2,
         finalizers := [mcpGatewayFinalizer],
         spec := { targetRef := { name := "gw", ns := "team", sectionName := "mcp" } } }]
    | .gateway =>
      [{ name := "gw", ns := "team",
         listenerStatuses := [{ name := "mcp", conditions :=
           [{ type := gatewayListenerConditionType, status := .conditionTrue }] }] }]
    | .envoyFilter => [{ name := "mcp-ext-proc-team-gateway", ns := "team" }]
    | _ => []
  configs s :=
    if s = namespaceName "team" then some { servers := [{ name := "team/weather" }] } else none

def noConfigure : MCPGatewayExtension → Gateway → ListenerConfig → Ctl Reconciled :=
  fun _ _ _ => return .ok .done

/-- Deleting the extension that lost empties the config, deletes the filter and removes the
listener's condition of the accepted one. -/
theorem loserDeletion_destroys :
    Lost contestedCluster ⟨"team", "second"⟩ ∧
      let w := runEvents noConfigure ⟨"team", "second"⟩ contestedCluster [.delete, .reconcile]
      ((w.configs (namespaceName "team")).map fun c => c.servers.length) = some 0 ∧
        (w.objects .envoyFilter).length = 0 ∧
        (w.objects .gateway).map (fun g => g.listenerStatuses.map (·.conditions)) = [[[]]] := by
  refine ⟨⟨_, rfl, rfl, ?_⟩, ?_⟩
  · unfold LostBy
    decide +kernel
  · decide +kernel

theorem loser_untouched_contested : Untouched contestedCluster
    (runEvents noConfigure ⟨"team", "second"⟩ contestedCluster [.reconcile, .reconcile, .delete]) := by
  refine loser_untouched noConfigure contestedCluster ⟨"team", "second"⟩ _ (by decide +kernel)
    ⟨_, rfl, rfl, ?_⟩ ⟨fun _ ext h => ?_, fun _ ext h => ?_, nofun, trivial⟩
  · unfold LostBy
    decide +kernel
  · cases h
    decide
  · cases h
    decide

end McpGateway.Controller.Extension
