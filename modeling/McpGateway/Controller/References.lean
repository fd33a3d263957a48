import McpGateway.Controller.Cluster

/-!
# References and the watches on them

A reference to another object is resolved in several places: where the object is read, where its
status is written and in the index by which a change of it finds the referring object.

- An extension's gateway is resolved with and without the default for the namespace:
  `gatewayUse_resolved_iff`.
- A grant is watched by its first `from` entry only: `grant_enqueues_iff`.
- The route of a server registration is read without the namespace of the reference and indexed with
  it: `routes_agree_iff`.
-/

namespace McpGateway.Controller

open Go Kubernetes

variable {w : Cluster}

/-! ## The gateway of an extension -/

/-- How an extension's reference to its gateway is used. -/
structure GatewayUse where
  /-- The gateway that validation reads. -/
  gateway : NamespacedName
  /-- The namespace in which grants are looked up, if one is needed. -/
  grants : Option String
  /-- The key under which the extension is found from its gateway. -/
  indexValue : String
  envoyFilter : NamespacedName
  /-- The watches that enqueue registrations for the extension. -/
  servers : Ctl (List NamespacedName)
  agents : Ctl (List NamespacedName)

/-- The namespace `checkGrant` has the grants listed in. -/
def grantNamespace (mcpExt : MCPGatewayExtension) : Option String :=
  if mcpExt.spec.targetRef.ns = mcpExt.ns then none else some mcpExt.spec.targetRef.ns

def MCPGatewayExtension.gatewayUse (mcpExt : MCPGatewayExtension) : GatewayUse where
  gateway := Extension.targetKey mcpExt.spec.targetRef
  grants := grantNamespace mcpExt
  indexValue := mcpExtToGatewayIndexValue mcpExt
  envoyFilter := Extension.envoyFilterNameAndNamespace mcpExt
  servers := findMCPServerRegistrationsForMCPGatewayExtension mcpExt
  agents := findA2AAgentRegistrationsForMCPGatewayExtension mcpExt

/-- The extension with the namespace of its reference written out. -/
def MCPGatewayExtension.resolved (mcpExt : MCPGatewayExtension) : MCPGatewayExtension :=
  { mcpExt with spec := { mcpExt.spec with
      targetRef := { mcpExt.spec.targetRef with ns := gatewayNamespace mcpExt } } }

/-- An omitted namespace counts as the extension's own exactly if there was nothing to omit. -/
theorem gatewayUse_resolved_iff (mcpExt : MCPGatewayExtension) :
    mcpExt.resolved.gatewayUse = mcpExt.gatewayUse ↔
      mcpExt.spec.targetRef.ns ≠ "" ∨ mcpExt.ns = "" := by
  constructor
  · intro h
    -- the key that validation reads already tells them apart
    have hkey : gatewayNamespace mcpExt = mcpExt.spec.targetRef.ns :=
      congrArg (fun u : GatewayUse => u.gateway.ns) h
    by_cases hns : mcpExt.spec.targetRef.ns = ""
    · right
      simpa [gatewayNamespace, hns] using hkey
    · exact .inl hns
  · intro h
    have hkey : gatewayNamespace mcpExt = mcpExt.spec.targetRef.ns := by
      unfold gatewayNamespace
      split
      next hns => exact (h.resolve_left (not_not_intro hns)).trans hns.symm
      next => rfl
    simp only [MCPGatewayExtension.resolved, hkey]

/-- An extension that leaves the namespace of its gateway to the default. -/
def defaultedExtension : MCPGatewayExtension :=
  { name := "ext", ns := "team", spec := { targetRef := { name := "gw", sectionName := "mcp" } } }

theorem defaultedExtension_differs :
    defaultedExtension.resolved.gatewayUse.gateway = ⟨"team", "gw"⟩ ∧
      defaultedExtension.gatewayUse.gateway = ⟨"", "gw"⟩ ∧
      defaultedExtension.resolved.gatewayUse.grants = none ∧
      defaultedExtension.gatewayUse.grants = some "" ∧
      defaultedExtension.resolved.gatewayUse.indexValue = "team/gw" ∧
      defaultedExtension.gatewayUse.indexValue = "/gw" := by
  decide

/-! ## Listed objects -/

lemma mem_enqueueListed_iff {k : Kind} {opt : ListOption} {key : NamespacedName} :
    key ∈ (w.run (enqueueListed k opt)).1 ↔ ∃ o ∈ w.objects k, opt.selects k o = true ∧
    (Obj.metadata k o).key = key := by
  rw [enqueueListed, Cluster.run_list]
  simp [and_assoc]

/-- The object is enqueued by every cluster that has it. -/
def Enqueued (k : Kind) (o : Obj k) (watch : Ctl (List NamespacedName)) : Prop :=
  ∀ w : Cluster, o ∈ w.objects k → (Obj.metadata k o).key ∈ (w.run watch).1

lemma enqueued_listed_iff {k : Kind} {o : Obj k} {opt : ListOption} :
    Enqueued k o (enqueueListed k opt) ↔ opt.selects k o = true := by
  constructor
  · intro h
    -- a cluster with nothing else
    have hmem := h (Cluster.setObjects ⟨fun _ => [], fun _ => none, 1, [], []⟩ k [o]) (by simp)
    obtain ⟨o', ho', hsel, -⟩ := mem_enqueueListed_iff.1 hmem
    rw [Cluster.setObjects_self, mem_singleton] at ho'
    exact ho' ▸ hsel
  · intro h w hw
    exact mem_enqueueListed_iff.2 ⟨o, hw, h, rfl⟩

/-! ## Grants -/

/-- The first part in front of a separator is determined. -/
lemma append_sep_inj {a b c d : List Char} (ha : '/' ∉ a) (hc : '/' ∉ c)
    (h : a ++ '/' :: b = c ++ '/' :: d) : a = c ∧ b = d := by
  induction a generalizing c with
  | nil =>
    cases c with
    | nil => simpa using h
    | cons x c =>
      have hx : '/' = x := (List.cons.inj h).1
      exact absurd (hx ▸ mem_cons_self) hc
  | cons x a ih =>
    cases c with
    | nil =>
      have hx : x = '/' := (List.cons.inj h).1
      exact absurd (hx ▸ mem_cons_self) ha
    | cons y c =>
      simp only [cons_append, List.cons.injEq] at h
      obtain ⟨h₁, h₂⟩ := ih (fun hm => ha (mem_cons_of_mem _ hm))
        (fun hm => hc (mem_cons_of_mem _ hm)) h.2
      exact ⟨by rw [h.1, h₁], h₂⟩

lemma refGrantIndex_inj {f : ReferenceGrantFrom} {ext : MCPGatewayExtension}
    (hns : '/' ∉ ext.ns.toList) :
    mcpExtToRefGrantIndexValue ext = refGrantToMCPExtIndexValue f ↔
      f = ⟨mcpGroup, "MCPGatewayExtension", ext.ns⟩ := by
  constructor
  · intro h
    have hlist : mcpGroup.toList ++ '/' :: ("MCPGatewayExtension".toList ++ '/' :: ext.ns.toList) =
        f.group.toList ++ '/' :: (f.kind.toList ++ '/' :: f.ns.toList) := by
      simpa [mcpExtToRefGrantIndexValue, refGrantToMCPExtIndexValue, String.toList_append,
        append_assoc] using congrArg String.toList h
    -- both sides have two separators, so those of the entry are the only ones it has
    have hcount := congrArg (List.count '/') hlist
    have hgroup : '/' ∉ mcpGroup.toList := by decide
    have hkind : '/' ∉ "MCPGatewayExtension".toList := by decide
    simp only [List.count_append, List.count_cons_self, List.count_eq_zero_of_not_mem hgroup,
      List.count_eq_zero_of_not_mem hkind, List.count_eq_zero_of_not_mem hns] at hcount
    have hg : '/' ∉ f.group.toList := List.count_eq_zero.1 (by omega)
    have hk : '/' ∉ f.kind.toList := List.count_eq_zero.1 (by omega)
    obtain ⟨h₁, hrest⟩ := append_sep_inj hgroup hg hlist
    obtain ⟨h₂, h₃⟩ := append_sep_inj hkind hk hrest
    obtain ⟨group, kind, ns⟩ := f
    rw [ReferenceGrantFrom.mk.injEq]
    exact ⟨(String.toList_inj.1 h₁).symm, (String.toList_inj.1 h₂).symm, (String.toList_inj.1 h₃).symm⟩
  · rintro rfl
    rfl

/-- Of the entries of a grant only the first one is watched: an extension the grant permits is
enqueued exactly if that entry is its own. -/
theorem grant_enqueues_iff (rg : ReferenceGrant) (ext : MCPGatewayExtension)
    (hns : '/' ∉ ext.ns.toList) (hallows : referenceGrantAllows rg ext = true) :
    Enqueued .mcpGatewayExtension ext (enqueueMCPGatewayExtForReferenceGrant rg) ↔
      rg.sources.head? = some ⟨mcpGroup, "MCPGatewayExtension", ext.ns⟩ := by
  unfold enqueueMCPGatewayExtForReferenceGrant
  cases hsources : rg.sources with
  | nil => simp [referenceGrantAllows, grantAllows, hsources] at hallows
  | cons f rest =>
    rw [enqueued_listed_iff, List.head?_cons, Option.some.injEq, ← refGrantIndex_inj hns]
    simp [ListOption.selects, indexValues, eq_comm]

/-- A grant for two namespaces. -/
def sharedGrant : ReferenceGrant :=
  { name := "shared", ns := "infra",
    sources := [⟨mcpGroup, "MCPGatewayExtension", "other"⟩, ⟨mcpGroup, "MCPGatewayExtension", "team"⟩],
    targets := [{ group := gatewayGroup, kind := "Gateway" }] }

theorem grant_enqueues_iff_other :
    Enqueued .mcpGatewayExtension { defaultedExtension with ns := "other" }
        (enqueueMCPGatewayExtForReferenceGrant sharedGrant) ↔
      sharedGrant.sources.head? = some ⟨mcpGroup, "MCPGatewayExtension", "other"⟩ :=
  grant_enqueues_iff sharedGrant { defaultedExtension with ns := "other" } (by decide) (by decide)

theorem sharedGrant_unwatched :
    referenceGrantAllows sharedGrant defaultedExtension = true ∧
      ¬ Enqueued .mcpGatewayExtension defaultedExtension
        (enqueueMCPGatewayExtForReferenceGrant sharedGrant) := by
  refine ⟨by decide, fun h => ?_⟩
  exact absurd (enqueued_listed_iff.1 h) (by decide)

/-! ## The route of a server registration -/

/-- The route that is read is the one whose status is updated, and its changes enqueue the
registration. -/
def RoutesAgree (mcpsr : MCPServerRegistration) : Prop :=
  Server.statusHTTPRoute mcpsr = some (Server.targetHTTPRoute mcpsr) ∧
    ∀ httpRoute : HTTPRoute, httpRoute.key = Server.targetHTTPRoute mcpsr →
      Enqueued .mcpServerRegistration mcpsr (findMCPServerRegistrationsForHTTPRoute httpRoute)

theorem routes_agree_iff (mcpsr : MCPServerRegistration) :
    RoutesAgree mcpsr ↔ mcpsr.spec.targetRef.kind = "HTTPRoute" ∧
      (mcpsr.spec.targetRef.ns = "" ∨ mcpsr.spec.targetRef.ns = mcpsr.ns) := by
  constructor
  · rintro ⟨hstatus, -⟩
    simp only [Server.statusHTTPRoute] at hstatus
    split at hstatus
    next => cases hstatus
    next hkind =>
      refine ⟨not_not.1 hkind, ?_⟩
      by_cases hns : mcpsr.spec.targetRef.ns = ""
      · exact .inl hns
      · exact .inr (by simpa [Server.targetHTTPRoute, hns] using hstatus)
  · rintro ⟨hkind, hns⟩
    have hresolved : (if mcpsr.spec.targetRef.ns = "" then mcpsr.ns else mcpsr.spec.targetRef.ns) =
        mcpsr.ns := by
      rcases hns with hns | hns <;> simp [hns]
    constructor
    · simp only [Server.statusHTTPRoute, hkind, not_true_eq_false, if_false, ne_eq, ite_not,
        hresolved, Server.targetHTTPRoute]
    · intro httpRoute hkey
      rw [findMCPServerRegistrationsForHTTPRoute, enqueued_listed_iff]
      obtain ⟨hrns, hrname⟩ := NamespacedName.mk.inj hkey
      simp [ListOption.selects, indexValues, mcpRegistrationToHTTPRoute, hkind, hresolved, hrns, hrname]

/-- A registration for a route of another namespace. -/
def remoteRegistration : MCPServerRegistration :=
  { name := "weather", ns := "team",
    spec := { targetRef := { kind := "HTTPRoute", name := "route", ns := "apps" } } }

theorem remoteRegistration_split :
    Server.targetHTTPRoute remoteRegistration = ⟨"team", "route"⟩ ∧
      Server.statusHTTPRoute remoteRegistration = some ⟨"apps", "route"⟩ ∧
      mcpRegistrationToHTTPRoute remoteRegistration = ["apps/route"] := by
  decide

end McpGateway.Controller
