import McpGateway.Controller.Cluster

/-!
# Where a registration is written

The namespaces a registration's entry is written for, and the entry itself, in an undisturbed
cluster.  `Cluster.attached` collects the attached extensions of a list of gateways; the loop for
agents computes exactly that, the loop for servers only if every gateway has valid extensions.
-/

namespace McpGateway.Controller

open Go Effect Kubernetes Cluster Server

variable {w : Cluster} {α β : Type}

/-! ## Valid and attached extensions -/

/-- What `FindValidMCPGatewayExtsForGateway` asks of an extension of the gateway. -/
def Cluster.validExt (w : Cluster) (g : Gateway) (mg : MCPGatewayExtension) : Bool :=
  mg.deletionTimestamp.isNone &&
    (mg.ns = g.ns || (((w.objects .referenceGrant).filter
          ((ListOption.inNamespace mg.spec.targetRef.ns).selects .referenceGrant)).any
        fun rg => referenceGrantAllows rg mg) && isStatusConditionTrue mg.conditions conditionTypeReady)

/-- The valid extensions of a gateway. -/
def Cluster.validExts (w : Cluster) (g : Gateway) : List MCPGatewayExtension :=
  ((w.objects .mcpGatewayExtension).filter
    ((ListOption.matchingFields .gateway (gatewayToMCPExtIndexValue g)).selects .mcpGatewayExtension)).filter
      (w.validExt g)

lemma run_hasValidReferenceGrant {mg : MCPGatewayExtension} :
    w.run (hasValidReferenceGrant mg) = (.ok (((w.objects .referenceGrant).filter
      ((ListOption.inNamespace mg.spec.targetRef.ns).selects .referenceGrant)).any
        fun rg => referenceGrantAllows rg mg), w) := rfl

lemma run_findValidFrom {g : Gateway} {acc exts : List MCPGatewayExtension} :
    w.run (findValidFrom g acc exts) = ((acc ++ exts.filter (w.validExt g), none), w) := by
  induction exts generalizing acc with
  | nil => simp [findValidFrom]
  | cons mg rest ih =>
    unfold findValidFrom
    by_cases hdel : mg.deletionTimestamp.isSome
    · have hvalid : w.validExt g mg = false := by
        simp [validExt, Option.isSome_iff_ne_none.1 hdel]
      rw [if_pos hdel, ih, List.filter_cons_of_neg (by simp [hvalid])]
    · rw [if_neg hdel]
      have hnone : mg.deletionTimestamp.isNone = true := by simpa using hdel
      by_cases hns : mg.ns = g.ns
      · rw [if_pos hns, ih, List.filter_cons_of_pos (by simp [validExt, hnone, hns])]
        simp
      · rw [if_neg hns, run_bind, run_hasValidReferenceGrant]
        by_cases hok : w.validExt g mg = true
        · rw [List.filter_cons_of_pos hok]
          simp only [validExt, hnone, hns, decide_false, Bool.false_or, Bool.true_and] at hok
          simp only [hok, if_true]
          rw [ih, append_assoc]
          rfl
        · rw [List.filter_cons_of_neg hok]
          simp only [validExt, hnone, hns, decide_false, Bool.false_or, Bool.true_and] at hok
          simp only [hok]
          exact ih

lemma run_findValid {g : Gateway} :
    w.run (findValidMCPGatewayExtsForGateway g) = ((w.validExts g, none), w) := by
  rw [findValidMCPGatewayExtsForGateway, run_list]
  exact run_findValidFrom

/-- What is attached to the route, over all the gateways. -/
def Cluster.attached (w : Cluster) (targetRoute : HTTPRoute) (acc : Attached) (gs : List Gateway) :
    Attached :=
  gs.foldl (fun acc g => acc.addAll targetRoute g (w.validExts g)) acc

variable {a2areg : A2AAgentRegistration} {targetRoute : HTTPRoute} {Q : α → Prop} {gs : List Gateway}
  {nss : List String}

/-- The agents' loop computes what is attached. -/
lemma run_agentLoop
    {next : Attached → Ctl Reconciled} {acc : Attached} :
    w.run (Agent.gatewayLoop targetRoute a2areg next acc gs) =
      w.run (next (w.attached targetRoute acc gs)) := by
  induction gs generalizing acc with
  | nil => rfl
  | cons g rest ih =>
    rw [Agent.gatewayLoop, run_bind, run_findValid]
    exact ih

/-- The servers' loop does so if every gateway has valid extensions. -/
lemma run_serverLoop {mcpsr : MCPServerRegistration}
    {next : MCPServerRegistration → Attached → Ctl Reconciled} {acc : Attached}
    (hgs : ∀ g ∈ gs, w.validExts g ≠ []) : w.run (gatewayLoop targetRoute next mcpsr acc gs) =
    w.run (next mcpsr (w.attached targetRoute acc gs)) := by
  induction gs generalizing acc with
  | nil => rfl
  | cons g rest ih =>
    have hg : (w.validExts g).isEmpty = false := by
      simpa using hgs g mem_cons_self
    rw [gatewayLoop, run_bind, run_findValid]
    simp only [hg, false_eq_true, if_false]
    exact ih fun g' h => hgs g' (mem_cons_of_mem _ h)

/-! ## What a program leaves alone -/

/-- The calls that change nothing. -/
def ReadOp : Op → Prop
  | .get .. | .list .. | .now => True
  | _ => False

/-- The calls that write no config. -/
def QuietOp : Op → Prop
  | .get .. | .list .. | .now | .update .. | .updateStatus .. | .delete .. => True
  | _ => False

/-- What config writes leave behind. -/
def Cluster.written (w : Cluster) :
    (NamespacedName → Option BrokerConfig) × List (NamespacedName × Config.MCPServer) ×
      List (NamespacedName × Config.A2AAgent) :=
  (w.configs, w.servers, w.agents)

lemma run_of_read {p : Ctl α} (h : p.Ensures ReadOp Q) :
    (w.run p).2 = w ∧ Q (w.run p).1 := by
  refine h.eval (I := fun a b : Cluster => b = a) (fun _ => rfl) (fun h₁ h₂ => h₂.trans h₁) ?_
  intro w o ho
  cases o with
  | get | list | now => rfl
  | _ => exact ho.elim

lemma written_of_quiet {p : Ctl α} (h : p.Ensures QuietOp Q) :
    (w.run p).2.written = w.written := by
  refine (h.eval (I := fun a b : Cluster => b.written = a.written) (fun _ => rfl)
    (fun h₁ h₂ => h₂.trans h₁) ?_).1
  intro w o ho
  cases o with
  | update k o =>
    simp only [answer]
    split <;> rfl
  | get | list | updateStatus | delete | now => rfl
  | _ => exact ho.elim

variable {lib : Libraries} {httpRoute : HTTPRoute} {mcpsr : MCPServerRegistration} {b : Bool}

lemma quiet_writeReady {k : Kind} {cs : List Condition} {f : List Condition → Obj k} {r m : String}
    : (writeReady k cs f b r m).Ensures QuietOp fun _ => True := by
  refine ⟨trivial, fun now => ?_⟩
  change Prog.Ensures (S := kube) QuietOp _ (if (applyReadyCondition now b r m cs).2 = true then _
    else _)
  split
  · exact ⟨trivial, fun _ => trivial⟩
  · trivial

lemma quiet_serverStatus {r m : String} :
    (updateStatus mcpsr b r m).Ensures QuietOp fun _ => True :=
  quiet_writeReady (k := .mcpServerRegistration)

lemma quiet_recording {before : String} {p : Ctl (α × Except Err Unit)} {next : α → Ctl Reconciled}
    (hp : p.Ensures QuietOp fun _ => True) (hnext : ∀ a, (next a).Ensures QuietOp fun _ => True) :
    (recording before p next).Ensures QuietOp fun _ => True := by
  refine hp.bind fun a _ => ?_
  obtain ⟨o, e | u⟩ := a
  · dsimp only
    split <;> trivial
  · exact hnext o

lemma ensures_orFail {P : Op → Prop} {R : Except Err β → Prop} {p : Ctl (Except Err α)}
    {next : α → Ctl (Except Err β)} (hp : p.Ensures P fun r => ∀ a, r = .ok a → Q a) (herr : ∀ e,
    R (.error e)) (hnext : ∀ a, Q a → (next a).Ensures P R) : (orFail p next).Ensures P R := by
  refine hp.bind fun r hr => ?_
  cases r with
  | error e => exact herr e
  | ok a => exact hnext a (hr a rfl)

lemma quiet_updateParents {change : List Condition → List Condition × Bool}
    {seen rest : List RouteParentStatus} :
    (updateParents change httpRoute seen rest).Ensures QuietOp fun _ => True := by
  induction rest generalizing seen with
  | nil => trivial
  | cons parent rest ih =>
    unfold updateParents
    dsimp only
    split
    · exact ensures_orFail (Q := fun _ => True) ⟨trivial, fun _ _ _ => trivial⟩ (fun _ => trivial)
        fun _ _ => ih
    · exact ih

lemma quiet_finish : (finish mcpsr).Ensures QuietOp fun _ => True := by
  refine quiet_recording (by split <;> exact quiet_serverStatus) fun mcpsr => ?_
  refine Prog.Ensures.bind (Q := fun _ => True) ?_ fun r _ => ?_
  · unfold updateHTTPRouteStatus
    split
    · trivial
    · refine ⟨trivial, fun r => ?_⟩
      cases r with
      | error e =>
        change Prog.Ensures (S := kube) QuietOp _ (if e.isNotFound = true then _ else _)
        split <;> trivial
      | ok httpRoute => exact ⟨trivial, fun now => quiet_updateParents⟩
  · cases r with
    | error e =>
      dsimp only
      split <;> trivial
    | ok u => trivial

/-! ## Building an entry only reads -/

lemma reads_readLabelled {what failed ns name key : String} :
    (readLabelled what failed ns name key).Ensures ReadOp fun _ => True := by
  refine ⟨trivial, fun r => ?_⟩
  cases r with
  | error e =>
    change Prog.Ensures (S := kube) ReadOp _ (if e.isNotFound = true then _ else _)
    split <;> trivial
  | ok secret => trivial

lemma reads_readLabeledCACert {ns name key : String} :
    (readLabeledCACert lib ns name key).Ensures ReadOp fun _ => True := by
  refine reads_readLabelled.bind fun r _ => ?_
  cases r with
  | error e => trivial
  | ok val =>
    dsimp only
    split
    · trivial
    · split <;> trivial

lemma reads_readReferenced {read : String → String → String → Ctl (Except Err String)} {ns : String}
    {ref : Option SecretReference} (h : ∀ a b c, (read a b c).Ensures ReadOp fun _ => True) :
    (readReferenced read ns ref).Ensures ReadOp fun r => ∀ a, r = .ok a → True := by
  cases ref with
  | none => exact fun _ _ => trivial
  | some ref => exact (h _ _ _).mono fun _ _ _ _ => trivial

lemma reads_buildServerInfo {path : String} :
    (buildServerInfoFromHTTPRoute httpRoute path).Ensures ReadOp fun r => ∀ a, r = .ok a → True := by
  unfold buildServerInfoFromHTTPRoute
  split
  · exact fun _ _ => trivial
  · split
    · split <;> exact fun _ _ => trivial
    · split
      · refine ⟨trivial, fun r => ?_⟩
        cases r <;> exact fun _ _ => trivial
      · exact fun _ _ => trivial

lemma reads_buildUpstream {ns path : String} {cred ca : Option SecretReference} :
    (buildUpstream lib httpRoute ns path cred ca b).Ensures ReadOp fun r => ∀ a, r = .ok a → True := by
  refine ensures_orFail reads_buildServerInfo (fun _ _ _ => trivial) fun _ _ => ?_
  refine ensures_orFail (Q := fun _ => True) (fun _ _ => trivial) (fun _ _ _ => trivial) fun _ _ => ?_
  refine ensures_orFail (reads_readReferenced fun _ _ _ => reads_readLabelled)
    (fun _ _ _ => trivial) fun _ _ => ?_
  refine ensures_orFail (reads_readReferenced fun _ _ _ => reads_readLabeledCACert)
    (fun _ _ _ => trivial) fun _ _ => ?_
  exact fun _ _ => trivial

lemma reads_buildServer : (buildMCPServerConfig lib httpRoute mcpsr b).Ensures ReadOp fun r => ∀ c,
    r = .ok c → c.name = mcpServerName mcpsr := by
  unfold buildMCPServerConfig
  split
  · rintro c ⟨⟩
  · refine ensures_orFail reads_buildUpstream (fun _ _ h => by cases h) fun _ _ => ?_
    rintro c ⟨⟩
    rfl

lemma reads_buildAgent
    : (Agent.buildA2AAgentConfig lib httpRoute a2areg b).Ensures ReadOp
      fun r => ∀ c, r = .ok c → c.name = Agent.a2aAgentName a2areg := by
  unfold Agent.buildA2AAgentConfig
  split
  · rintro c ⟨⟩
  · refine ensures_orFail reads_buildUpstream (fun _ _ h => by cases h) fun _ _ => ?_
    rintro c ⟨⟩
    rfl

/-! ## The upserts -/

/-- The cluster after the entry was written for the namespaces. -/
def Cluster.addServer (cfg : Config.MCPServer) (nss : List String) (w : Cluster) : Cluster :=
  nss.foldl (fun w ns => (w.answer (.upsertMCPServer cfg (namespaceName ns))).2) w

def Cluster.addAgent (cfg : Config.A2AAgent) (nss : List String) (w : Cluster) : Cluster :=
  nss.foldl (fun w ns => (w.answer (.upsertA2AAgent cfg (namespaceName ns))).2) w

lemma run_upsertServer {cfg : Config.MCPServer} :
    w.run (upsertAll (fun s => call (.upsertMCPServer cfg s)) nss) = (.ok (), w.addServer cfg nss) := by
  induction nss generalizing w with
  | nil => rfl
  | cons ns rest ih => exact ih

lemma run_upsertAgent {cfg : Config.A2AAgent} :
    w.run (upsertAll (fun s => call (.upsertA2AAgent cfg s)) nss) = (.ok (), w.addAgent cfg nss) := by
  induction nss generalizing w with
  | nil => rfl
  | cons ns rest ih => exact ih

end McpGateway.Controller
