import McpGateway.Controller.Extension

/-!
# Conflicts between extensions

Each reconcile decides from its own list whether its extension is the oldest of its namespace and of
its listener port.  The decisions agree exactly if in every group one extension is the oldest:
`findOldestExtension` keeps the first of several oldest ones, which depends on the order of the list
in a namespace and on who asks at a port.
-/

namespace McpGateway.Controller.Extension

open Go

variable {exts group listed items : List MCPGatewayExtension} {ext first : MCPGatewayExtension}

/-- Nothing in the group was created earlier. -/
def Oldest (group : List MCPGatewayExtension) (ext : MCPGatewayExtension) : Prop :=
  ∀ e ∈ group, ext.creationTimestamp ≤ e.creationTimestamp

/-- No two extensions of the group are its oldest. -/
def UniqueOldest (group : List MCPGatewayExtension) : Prop :=
  ∀ a ∈ group, ∀ b ∈ group, Oldest group a → Oldest group b → a = b

/-- One extension of the group passes the check, the same one in every reconcile: whichever extension
of the group it is for and in whatever order it sees the listed ones. -/
def Settled (passes : MCPGatewayExtension → List MCPGatewayExtension → Bool)
    (listed group : List MCPGatewayExtension) : Prop :=
  group ≠ [] → ∃ winner ∈ group, ∀ ext ∈ group, ∀ items, items.Perm listed →
    (passes ext items = true ↔ ext = winner)

lemma findOldestExtension_spec (first : MCPGatewayExtension) (rest : List MCPGatewayExtension) :
    findOldestExtension first rest ∈ first :: rest ∧ Oldest (first :: rest)
    (findOldestExtension first rest) := by
  induction rest generalizing first with
  | nil => exact ⟨mem_singleton.2 rfl, fun e he => by rw [mem_singleton.1 he]; rfl⟩
  | cons e rest ih =>
    by_cases hlt : e.creationTimestamp < first.creationTimestamp
    · have hstep : findOldestExtension first (e :: rest) = findOldestExtension e rest := by
        simp [findOldestExtension, hlt]
      obtain ⟨hmem, hold⟩ := ih e
      rw [hstep]
      refine ⟨mem_cons_of_mem _ hmem, fun x hx => ?_⟩
      rcases mem_cons.1 hx with rfl | hx
      · exact (hold e mem_cons_self).trans hlt.le
      · exact hold x hx
    · have hstep : findOldestExtension first (e :: rest) = findOldestExtension first rest := by
        simp [findOldestExtension, hlt]
      obtain ⟨hmem, hold⟩ := ih first
      have hfirst := hold first mem_cons_self
      rw [hstep]
      refine ⟨?_, fun x hx => ?_⟩
      · rcases mem_cons.1 hmem with h | h
        · rw [h]
          exact mem_cons_self
        · exact mem_cons_of_mem _ (mem_cons_of_mem _ h)
      · rcases mem_cons.1 hx with rfl | hx
        · exact hfirst
        · rcases mem_cons.1 hx with rfl | hx
          · exact hfirst.trans (not_lt.1 hlt)
          · exact hold x (mem_cons_of_mem _ hx)

variable {rest : List MCPGatewayExtension}

/-- Of several oldest extensions the first in the list is taken. -/
lemma findOldestExtension_first (h : Oldest rest first) :
    findOldestExtension first rest = first := by
  induction rest with
  | nil => rfl
  | cons e rest ih =>
    have he : ¬ e.creationTimestamp < first.creationTimestamp := not_lt.2 (h e mem_cons_self)
    have hrest := ih fun x hx => h x (mem_cons_of_mem _ hx)
    simpa [findOldestExtension, he] using hrest

lemma exists_oldest (h : group ≠ []) : ∃ e ∈ group, Oldest group e := by
  cases group with
  | nil => exact absurd rfl h
  | cons first rest =>
    obtain ⟨hmem, hold⟩ := findOldestExtension_spec first rest
    exact ⟨_, hmem, hold⟩

/-- If only oldest extensions pass, and each of them in some order, then the group is settled exactly
if one is the oldest. -/
lemma settled_iff {passes : MCPGatewayExtension → List MCPGatewayExtension → Bool} (hsome : ∀ e ∈ group,
    Oldest group e → ∃ items, items.Perm listed ∧ passes e items = true) (holdest : ∀ e ∈ group, ∀ items,
    items.Perm listed → passes e items = true → Oldest group e) (hall : UniqueOldest group → ∀ e ∈ group,
    Oldest group e → ∀ items, items.Perm listed → passes e items = true) : Settled passes listed group ↔
    UniqueOldest group := by
  constructor
  · intro h a ha b hb hoa hob
    obtain ⟨winner, -, hwin⟩ := h (List.ne_nil_of_mem ha)
    obtain ⟨ia, hia, hpa⟩ := hsome a ha hoa
    obtain ⟨ib, hib, hpb⟩ := hsome b hb hob
    exact ((hwin a ha ia hia).1 hpa).trans ((hwin b hb ib hib).1 hpb).symm
  · intro h hne
    obtain ⟨winner, hmem, hold⟩ := exists_oldest hne
    refine ⟨winner, hmem, fun e he items hitems => ⟨fun hp => ?_, ?_⟩⟩
    · exact h e he winner hmem (holdest e he items hitems hp) hold
    · rintro rfl
      exact hall h e he hold items hitems

/-! ## Namespaces -/

/-- `checkNamespaceConflict` of the extension finds no conflict in the listed ones. -/
def passesNamespace (mcpExt : MCPGatewayExtension) (items : List MCPGatewayExtension) : Bool :=
  (namespaceConflict mcpExt items).toBool

def namespaceGroup (exts : List MCPGatewayExtension) (ns : String) : List MCPGatewayExtension :=
  exts.filter fun e => e.ns = ns

/-- Among active extensions the one that `findOldestExtension` picks passes. -/
lemma passesNamespace_iff
    (hactive : ∀ e ∈ first :: rest, e.deletionTimestamp = none) (hmem : ext ∈ first :: rest) :
    passesNamespace ext (first :: rest) = true ↔ (findOldestExtension first rest).uid = ext.uid := by
  have hfilter : (first :: rest).filter (fun e => e.deletionTimestamp.isNone) = first :: rest :=
    List.filter_eq_self.2 fun e he => by rw [hactive e he]; rfl
  unfold passesNamespace namespaceConflict
  rw [hfilter]
  cases rest with
  | nil =>
    rw [mem_singleton] at hmem
    simp [hmem, findOldestExtension, Except.toBool]
  | cons e rest =>
    by_cases h : (findOldestExtension first (e :: rest)).uid = ext.uid <;> simp [h, Except.toBool]

lemma uid_inj (huid : (exts.map fun e => e.uid).Nodup) {a b : MCPGatewayExtension} (ha : a ∈ exts)
    (hb : b ∈ exts) (h : a.uid = b.uid) : a = b :=
  List.inj_on_of_nodup_map huid ha hb h

variable (huid : (exts.map fun e => e.uid).Nodup) (hactive : ∀ e ∈ exts, e.deletionTimestamp = none)

include huid hactive in
lemma namespace_settled_iff (ns : String) : Settled passesNamespace (namespaceGroup exts ns)
    (namespaceGroup exts ns) ↔ UniqueOldest (namespaceGroup exts ns) := by
  have hsub : ∀ {e}, e ∈ namespaceGroup exts ns → e ∈ exts := fun he => List.mem_of_mem_filter he
  -- in every order the extension picked is one of the group's oldest
  have hpick : ∀ e ∈ namespaceGroup exts ns, ∀ items, items.Perm (namespaceGroup exts ns) →
      ∃ o ∈ namespaceGroup exts ns, Oldest (namespaceGroup exts ns) o ∧
        (passesNamespace e items = true ↔ o = e) := by
    intro e he items hperm
    cases items with
    | nil => exact absurd (hperm.mem_iff.2 he) not_mem_nil
    | cons first rest =>
      obtain ⟨hmem, hold⟩ := findOldestExtension_spec first rest
      have homem := hperm.mem_iff.1 hmem
      refine ⟨_, homem, fun x hx => hold x (hperm.mem_iff.2 hx), ?_⟩
      rw [passesNamespace_iff (fun x hx => hactive x (hsub (hperm.mem_iff.1 hx))) (hperm.mem_iff.2 he)]
      exact ⟨uid_inj huid (hsub homem) (hsub he), fun h => by rw [h]⟩
  refine settled_iff ?_ ?_ ?_
  · intro e he hold
    obtain ⟨s, t, hst⟩ := append_of_mem he
    have hperm : (e :: (s ++ t)).Perm (namespaceGroup exts ns) := by
      rw [hst]
      exact List.perm_middle.symm
    refine ⟨_, hperm, ?_⟩
    rw [passesNamespace_iff (fun x hx => hactive x (hsub (hperm.mem_iff.1 hx))) mem_cons_self,
      findOldestExtension_first fun x hx => hold x (hperm.mem_iff.1 (mem_cons_of_mem _ hx))]
  · intro e he items hperm hp
    obtain ⟨o, -, hold, hiff⟩ := hpick e he items hperm
    exact hiff.1 hp ▸ hold
  · intro hunique e he hold items hperm
    obtain ⟨o, homem, hoold, hiff⟩ := hpick e he items hperm
    exact hiff.2 (hunique o homem e he hoold hold)

/-! ## Listener ports -/

/-- The port an extension's listener has on the gateway. -/
def portOn (gateway : Gateway) (ext : MCPGatewayExtension) : Option Nat :=
  match findListenerConfigByName gateway ext.spec.targetRef.sectionName with
  | .error _ => none
  | .ok config => some config.port

/-- The check that `reconcileActive` makes for the extension's own listener. -/
def passesListener (gateway : Gateway) (mcpExt : MCPGatewayExtension)
    (items : List MCPGatewayExtension) : Bool :=
  match findListenerConfigByName gateway mcpExt.spec.targetRef.sectionName with
  | .error _ => false
  | .ok config => (listenerConflict mcpExt gateway config items).toBool

def gatewayGroup (exts : List MCPGatewayExtension) (gateway : Gateway) : List MCPGatewayExtension :=
  exts.filter fun e => mcpExtToGatewayIndexValue e = gatewayToMCPExtIndexValue gateway

/-- The extensions that listen on the port of the gateway. -/
def portGroup (exts : List MCPGatewayExtension) (gateway : Gateway) (port : Nat) :
    List MCPGatewayExtension :=
  (gatewayGroup exts gateway).filter fun e => portOn gateway e = some port

lemma takesPort_iff {gateway : Gateway} {port : Nat} {e : MCPGatewayExtension} :
    takesPort ext gateway port e = true ↔ e.uid ≠ ext.uid ∧ portOn gateway e = some port ∧
    e.creationTimestamp < ext.creationTimestamp := by
  unfold takesPort portOn
  cases hconfig : findListenerConfigByName gateway e.spec.targetRef.sectionName with
  | error _ => simp
  | ok config =>
    by_cases hlt : e.creationTimestamp < ext.creationTimestamp <;>
      simp +contextual [findOldestExtension, hlt]

include huid in
lemma passesListener_iff {gateway : Gateway} {port : Nat} (hmem : ext ∈ portGroup exts gateway port)
    (hperm : items.Perm (gatewayGroup exts gateway)) :
    passesListener gateway ext items = true ↔ Oldest (portGroup exts gateway port) ext := by
  obtain ⟨hgroup, hport⟩ := mem_filter.1 hmem
  have hexts : ∀ {e}, e ∈ items → e ∈ exts := fun he =>
    List.mem_of_mem_filter (hperm.mem_iff.1 he)
  have hself : ext ∈ items := hperm.mem_iff.2 hgroup
  -- nobody takes the port exactly if nobody in the group is older
  have hnone : (∀ e ∈ items, ¬ takesPort ext gateway port e = true) ↔
      Oldest (portGroup exts gateway port) ext := by
    constructor
    · intro h e he
      obtain ⟨he, hep⟩ := mem_filter.1 he
      have hitem := hperm.mem_iff.2 he
      by_contra hlt
      refine h e hitem (takesPort_iff.2 ⟨fun hu => hlt ?_, by simpa using hep, not_le.1 hlt⟩)
      rw [uid_inj huid (hexts hitem) (hexts hself) hu]
    · intro h e he htakes
      obtain ⟨-, hep, hlt⟩ := takesPort_iff.1 htakes
      have := h e (mem_filter.2 ⟨hperm.mem_iff.1 he, by simpa using hep⟩)
      omega
  rw [← hnone]
  simp only [portOn] at hport
  unfold passesListener listenerConflict
  cases hconfig : findListenerConfigByName gateway ext.spec.targetRef.sectionName with
  | error _ => simp [hconfig] at hport
  | ok config =>
    have hp : config.port = port := by simpa [hconfig] using hport
    simp only [hp]
    by_cases hlen : items.length ≤ 1
    · -- the only extension of the gateway is the one being reconciled
      obtain ⟨x, rfl⟩ : ∃ x, items = [x] :=
        List.length_eq_one_iff.1 (le_antisymm hlen (List.length_pos_of_mem hself))
      rw [mem_singleton] at hself
      subst hself
      simp [Except.toBool, takesPort_iff]
    · rw [if_neg hlen]
      cases hfind : items.find? (takesPort ext gateway port) with
      | none => simpa [Except.toBool] using List.find?_eq_none.1 hfind
      | some e =>
        have htakes := find?_some hfind
        simpa [Except.toBool] using ⟨e, mem_of_find?_eq_some hfind, htakes⟩

include huid in
lemma port_settled_iff (gateway : Gateway) (port : Nat) :
    Settled (passesListener gateway) (gatewayGroup exts gateway) (portGroup exts gateway port) ↔
      UniqueOldest (portGroup exts gateway port) := by
  refine settled_iff ?_ ?_ ?_
  · intro e he hold
    exact ⟨_, .refl _, (passesListener_iff huid he (.refl _)).2 hold⟩
  · intro e he items hperm hp
    exact (passesListener_iff huid he hperm).1 hp
  · intro _ e he hold items hperm
    exact (passesListener_iff huid he hperm).2 hold

/-- The conflict checks have one winner in every namespace and at every listener port exactly if no
group has two oldest extensions. -/
theorem conflicts_settled_iff (exts : List MCPGatewayExtension)
    (huid : (exts.map fun e => e.uid).Nodup) (hactive : ∀ e ∈ exts, e.deletionTimestamp = none) :
    ((∀ ns, Settled passesNamespace (namespaceGroup exts ns) (namespaceGroup exts ns)) ∧
        ∀ gateway port, Settled (passesListener gateway) (gatewayGroup exts gateway)
          (portGroup exts gateway port)) ↔
      (∀ ns, UniqueOldest (namespaceGroup exts ns)) ∧
        ∀ gateway port, UniqueOldest (portGroup exts gateway port) := by
  constructor
  · rintro ⟨hns, hport⟩
    exact ⟨fun ns => (namespace_settled_iff huid hactive ns).1 (hns ns),
      fun gateway port => (port_settled_iff huid gateway port).1 (hport gateway port)⟩
  · rintro ⟨hns, hport⟩
    exact ⟨fun ns => (namespace_settled_iff huid hactive ns).2 (hns ns),
      fun gateway port => (port_settled_iff huid gateway port).2 (hport gateway port)⟩

/-- Two extensions of a namespace on one listener, created in the same second. -/
def twin (uid : String) : MCPGatewayExtension :=
  { name := uid, ns := "team", uid := uid, creationTimestamp := 7,
    spec := { targetRef := { name := "gw", ns := "infra", sectionName := "mcp" } } }

def twinGateway : Gateway :=
  { name := "gw", ns := "infra", listeners := [{ name := "mcp", port := 8080 }] }

/-- Both pass the check of the port, and each passes that of the namespace in a list it heads. -/
theorem twins_both_pass :
    passesNamespace (twin "a") [twin "a", twin "b"] = true ∧
      passesNamespace (twin "b") [twin "b", twin "a"] = true ∧
      passesListener twinGateway (twin "a") [twin "a", twin "b"] = true ∧
      passesListener twinGateway (twin "b") [twin "a", twin "b"] = true := by
  decide

/-- Two extensions that compete for a namespace and a listener, the second created later. -/
def elderAndYounger : List MCPGatewayExtension := [twin "a", { twin "b" with creationTimestamp := 9 }]

lemma uniqueOldest_elder {p : MCPGatewayExtension → Bool} :
    UniqueOldest (elderAndYounger.filter p) := by
  -- extensions with one creation time are one extension here
  have hinj : ∀ a ∈ elderAndYounger, ∀ b ∈ elderAndYounger,
      a.creationTimestamp = b.creationTimestamp → a = b := by
    simp [elderAndYounger, twin]
  intro a ha b hb holda holdb
  exact hinj a (List.mem_of_mem_filter ha) b (List.mem_of_mem_filter hb)
    (Nat.le_antisymm (holda b hb) (holdb a ha))

theorem conflicts_settled_iff_elder :
    (∀ ns, Settled passesNamespace (namespaceGroup elderAndYounger ns)
        (namespaceGroup elderAndYounger ns)) ∧
      ∀ gateway port, Settled (passesListener gateway) (gatewayGroup elderAndYounger gateway)
        (portGroup elderAndYounger gateway port) := by
  refine (conflicts_settled_iff elderAndYounger (by decide) (by decide)).2 ⟨?_, ?_⟩
  · intro ns
    exact uniqueOldest_elder
  · intro gateway port
    unfold portGroup gatewayGroup
    rw [List.filter_filter]
    exact uniqueOldest_elder

end McpGateway.Controller.Extension
