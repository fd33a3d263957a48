import McpGateway.Broker.Filter
import McpGateway.Foundation.Iteration

/-!
# What signed capabilities admit

The `x-mcp-authorized` filter turns the permissions of every server into served names, prefix and name
put together, and keeps the tools whose name is among them.  Which server owns a tool is not looked
at.
-/

namespace McpGateway.Broker

open Go Upstream

/-- The entry for the name of the server that owns the tool lists the tool's upstream name. -/
def Granted (b : MCPBroker) (allowed : GoMap (List String)) (tool : Tool) : Prop :=
  ∃ id up u, ownerID tool.metadata = some id ∧ b.mcpServers.lookup id = some up ∧
    tool.name = up.config.namePrefix ++ u ∧
    ∃ names, allowed.lookup up.mcpName = some names ∧ u ∈ names

/-- Whoever's prefix begins the name of the tool is, by name and prefix, the server that owns it, and no
other server goes by the owner's name with another prefix. -/
def Unambiguous (b : MCPBroker) (tool : Tool) : Prop :=
  (∀ up ∈ b.mcpServers.values, hasPrefix tool.name up.config.namePrefix = true →
    ∃ id owner, ownerID tool.metadata = some id ∧ b.mcpServers.lookup id = some owner ∧
      owner.mcpName = up.mcpName ∧ owner.config.namePrefix = up.config.namePrefix) ∧
  ∀ id owner, ownerID tool.metadata = some id → b.mcpServers.lookup id = some owner →
    hasPrefix tool.name owner.config.namePrefix = true →
    ∀ up ∈ b.mcpServers.values, up.mcpName = owner.mcpName →
      up.config.namePrefix = owner.config.namePrefix

/-! ## The names the filter lets through -/

lemma result_findServerByName (name : String) (b : MCPBroker) :
    (findServerByName name).result b = b.mcpServers.values.find? fun up => up.mcpName = name := rfl

lemma final_allowedNames (entries : List (String × List String)) (b : MCPBroker) :
    (allowedNames entries).final b = b := by
  induction entries with
  | nil => rfl
  | cons entry rest ih =>
    obtain ⟨serverName, toolNames⟩ := entry
    simp only [allowedNames, TraceM.final_bind]
    have hfind : (findServerByName serverName).final b = b := rfl
    rw [hfind, ih]
    cases (findServerByName serverName).result b <;> rfl

variable {b : MCPBroker}

lemma mem_allowedNames {entries : List (String × List String)} {n : String} :
    n ∈ (allowedNames entries).result b ↔ ∃ e ∈ entries, ∃ up,
      (b.mcpServers.values.find? fun up => up.mcpName = e.1) = some up ∧
        ∃ u ∈ e.2, up.config.namePrefix ++ u = n := by
  induction entries with
  | nil => simp [allowedNames]
  | cons entry rest ih =>
    obtain ⟨serverName, toolNames⟩ := entry
    have hfinal : (findServerByName serverName).final b = b := rfl
    simp only [allowedNames, TraceM.result_bind, hfinal, final_allowedNames, result_findServerByName]
    cases hfind : b.mcpServers.values.find? fun up => up.mcpName = serverName with
    | none =>
      rw [TraceM.result_pure, ih]
      simp [hfind]
    | some up =>
      rw [TraceM.result_pure, mem_append, ih]
      simp [hfind]

variable {tools : List Tool} {tool : Tool}

variable {allowed : GoMap (List String)}

lemma mem_filterToolsByServerMap :
    tool ∈ (filterToolsByServerMap allowed tools).result b ↔ tool ∈ tools ∧
      ∃ name names, allowed.lookup name = some names ∧ ∃ up,
        (b.mcpServers.values.find? fun up => up.mcpName = name) = some up ∧
          ∃ u ∈ names, up.config.namePrefix ++ u = tool.name := by
  have hresult : (filterToolsByServerMap allowed tools).result b =
      tools.filter fun t => ((allowedNames allowed.pairs).result b).contains t.name := rfl
  rw [hresult, mem_filter, List.contains_iff_mem, mem_allowedNames]
  refine and_congr_right fun _ => ?_
  constructor
  · rintro ⟨⟨name, names⟩, he, hup⟩
    exact ⟨name, names, mem_pairs_iff.1 he, hup⟩
  · rintro ⟨name, names, he, hup⟩
    exact ⟨(name, names), mem_pairs_iff.2 he, hup⟩

lemma applyAuthorizedCapabilitiesFilter_eq {headers : HttpHeader}
    {values : List String} {capabilities : Capabilities} (hheader : headers.lookup authorizedCapabilitiesHeader = some values)
    (hverified : b.parseAuthorizedCapabilitiesJWT values = some capabilities)
    (htools : capabilities.lookup "tools" = some allowed) :
    (applyAuthorizedCapabilitiesFilter headers tools).result b =
      (filterToolsByServerMap allowed tools).result b := by
  simp [applyAuthorizedCapabilitiesFilter, hheader, hverified, htools]

/-! ## Exactly the granted tools -/

variable {up : ActiveMCPServer}

lemma exists_findServerByName
    (hup : up ∈ b.mcpServers.values) : ∃ b' : MCPBroker, b.mcpServers.Same b'.mcpServers ∧
      (b'.mcpServers.values.find? fun s => s.mcpName = up.mcpName) = some up := by
  rcases mem_map.1 hup with ⟨e, he, rfl⟩
  rcases exists_perm_find? (p := fun s => decide (s.2.mcpName = e.2.mcpName)) he (by simp) with
    ⟨order, hperm, hfind⟩
  rcases GoMap.exists_same hperm with ⟨m, hsame, hpairs⟩
  refine ⟨{ b with mcpServers := m }, hsame, ?_⟩
  rw [GoMap.values, hpairs, List.find?_map]
  exact congrArg (Option.map Prod.snd) hfind

lemma append_of_hasPrefix {s p : String} (h : hasPrefix s p = true) : ∃ u, p ++ u = s := by
  rcases hasPrefix_iff.1 h with ⟨rest, hrest⟩
  exact ⟨String.ofList rest, String.toList_inj.1 (by simpa using hrest)⟩

lemma append_right_cancel {p q u : String} (h : p ++ u = q ++ u) : p = q := by
  simpa using h

lemma unambiguous_of_filter (htool : tool ∈ tools)
    (h : ∀ (allowed : GoMap (List String)) (b' : MCPBroker), b.mcpServers.Same b'.mcpServers →
      (tool ∈ (filterToolsByServerMap allowed tools).result b' ↔ Granted b allowed tool)) :
    Unambiguous b tool := by
  -- the permission of one server for one name
  have key : ∀ up ∈ b.mcpServers.values, ∀ u, ∃ b' : MCPBroker, b.mcpServers.Same b'.mcpServers ∧
      (tool ∈ (filterToolsByServerMap (AList.singleton up.mcpName [u]) tools).result b' ↔
        up.config.namePrefix ++ u = tool.name) := by
    intro up hup u
    rcases exists_findServerByName hup with ⟨b', hsame, hfind⟩
    refine ⟨b', hsame, ?_⟩
    rw [mem_filterToolsByServerMap]
    simp only [lookup_singleton, htool, true_and]
    constructor
    · rintro ⟨name, names, hlookup, up', hfind', u', hu', hname⟩
      split_ifs at hlookup with heq
      cases hlookup
      rw [heq, hfind, Option.some.injEq] at hfind'
      rw [hfind', ← mem_singleton.1 hu', hname]
    · intro hname
      exact ⟨up.mcpName, [u], if_pos rfl, up, hfind, u, List.mem_singleton_self u, hname⟩
  constructor
  · intro up hup hpre
    rcases append_of_hasPrefix hpre with ⟨u, hname⟩
    rcases key up hup u with ⟨b', hsame, hkept⟩
    rcases (h _ b' hsame).1 (hkept.2 hname) with
      ⟨id, owner, u', hid, howner, hname', names, hlookup, hu'⟩
    rw [lookup_singleton] at hlookup
    split_ifs at hlookup with heq
    cases hlookup
    rw [mem_singleton.1 hu', ← hname] at hname'
    exact ⟨id, owner, hid, howner, heq, (append_right_cancel hname').symm⟩
  · intro id owner hid howner hpre up hup hsameName
    rcases append_of_hasPrefix hpre with ⟨u, hname⟩
    rcases key up hup u with ⟨b', hsame, hkept⟩
    have hgranted : Granted b (AList.singleton up.mcpName [u]) tool :=
      ⟨id, owner, u, hid, howner, hname.symm, [u], by rw [lookup_singleton, if_pos hsameName.symm],
        List.mem_singleton_self u⟩
    have hother := hkept.1 ((h _ b' hsame).2 hgranted)
    exact append_right_cancel (hother.trans hname.symm)

lemma filter_of_unambiguous (htool : tool ∈ tools) (h : Unambiguous b tool)
    (allowed : GoMap (List String)) {b' : MCPBroker} (hsame : b.mcpServers.Same b'.mcpServers) :
    tool ∈ (filterToolsByServerMap allowed tools).result b' ↔ Granted b allowed tool := by
  rw [mem_filterToolsByServerMap]
  constructor
  · rintro ⟨-, name, names, hlookup, up, hfind, u, hu, hname⟩
    have hup := hsame.mem_values.1 (mem_of_find?_eq_some hfind)
    have hupName : up.mcpName = name := by simpa using find?_some hfind
    rcases h.1 up hup (by rw [← hname]; exact hasPrefix_append _ _) with
      ⟨id, owner, hid, howner, hownerName, hownerPrefix⟩
    refine ⟨id, owner, u, hid, howner, ?_, names, ?_, hu⟩
    · rw [hownerPrefix, hname]
    · rw [hownerName, hupName, hlookup]
  · rintro ⟨id, owner, u, hid, howner, hname, names, hlookup, hu⟩
    refine ⟨htool, owner.mcpName, names, hlookup, ?_⟩
    have hmem : owner ∈ b'.mcpServers.values := hsame.mem_values.2 (mem_values_iff.2 ⟨id, howner⟩)
    -- the server that is found has the owner's name, so it has the owner's prefix
    cases hfind : b'.mcpServers.values.find? fun s => s.mcpName = owner.mcpName with
    | none => exact absurd (List.find?_eq_none.1 hfind owner hmem) (by simp)
    | some up =>
      have hup := hsame.mem_values.1 (mem_of_find?_eq_some hfind)
      have hupName : up.mcpName = owner.mcpName := by simpa using find?_some hfind
      have hpre := h.2 id owner hid howner (by rw [hname]; exact hasPrefix_append _ _) up hup hupName
      exact ⟨up, rfl, u, hu, by rw [hpre, hname]⟩

/-- For every tool list: the filter of a verified header keeps exactly the granted tools, for every
permission and in every order of iteration, just when the names of the tools are unambiguous. -/
theorem filter_granted_iff (b : MCPBroker) (tools : List Tool) :
    (∀ (b' : MCPBroker) (headers : HttpHeader) (values : List String) (capabilities : Capabilities)
      (allowed : GoMap (List String)),
      headers.lookup authorizedCapabilitiesHeader = some values →
      b'.parseAuthorizedCapabilitiesJWT values = some capabilities →
      capabilities.lookup "tools" = some allowed →
      (applyAuthorizedCapabilitiesFilter headers tools).result b' =
        (filterToolsByServerMap allowed tools).result b') ∧
    ((∀ (allowed : GoMap (List String)) (b' : MCPBroker), b.mcpServers.Same b'.mcpServers →
      ∀ tool ∈ tools, (tool ∈ (filterToolsByServerMap allowed tools).result b' ↔
        Granted b allowed tool)) ↔
      ∀ tool ∈ tools, Unambiguous b tool) := by
  refine ⟨?_, ?_, ?_⟩
  · intro b' headers values capabilities allowed hheader hverified htools
    exact applyAuthorizedCapabilitiesFilter_eq hheader hverified htools
  · intro h tool htool
    exact unambiguous_of_filter htool fun allowed b' hsame => h allowed b' hsame tool htool
  · intro h allowed b' hsame tool htool
    exact filter_of_unambiguous htool (h tool htool) allowed hsame

def plainServer (name namePrefix : String) : ActiveMCPServer :=
  .start { name := name, namePrefix := namePrefix } .filterOut "" 0

def ownedTool (name owner : String) : Tool :=
  { name := name, metadata := some [(gatewayServerID, .string owner)] }

def nestedPrefixes : MCPBroker := brokerWith [plainServer "alpha" "a_", plainServer "beta" "a_b_"]

lemma mem_nestedPrefixes (h : up ∈ nestedPrefixes.mcpServers.values) :
    up = plainServer "beta" "a_b_" ∨ up = plainServer "alpha" "a_" := by
  rcases mem_cons.1 h with rfl | hrest
  · exact .inl rfl
  · exact .inr (mem_singleton.1 hrest)

/-- A name that only one of the two prefixes begins is kept because its owner's permission lists
it. -/
theorem filter_granted_iff_forecast :
    Granted nestedPrefixes (AList.singleton "alpha" ["forecast"])
      (ownedTool "a_forecast" "alpha:a_:") := by
  refine ((filter_granted_iff nestedPrefixes [ownedTool "a_forecast" "alpha:a_:"]).2.2 ?_
    (AList.singleton "alpha" ["forecast"]) nestedPrefixes (.refl _) _ List.mem_cons_self).1
    List.mem_cons_self
  intro tool htool
  rw [List.mem_singleton.1 htool]
  constructor
  · intro up hup hpre
    rcases mem_nestedPrefixes hup with rfl | rfl
    · exact absurd hpre (by decide)
    · exact ⟨_, plainServer "alpha" "a_", rfl, rfl, rfl, rfl⟩
  · intro id owner hid howner _ up hup hname
    cases hid
    cases howner
    rcases mem_nestedPrefixes hup with rfl | rfl
    · exact absurd hname (by decide)
    · rfl

/-- The permission of `beta` for its tool `c` admits the tool `b_c` of `alpha`. -/
theorem overlappingPermission_admits :
    ¬ ∀ (allowed : GoMap (List String)) (b' : MCPBroker),
      nestedPrefixes.mcpServers.Same b'.mcpServers → ∀ tool ∈ [ownedTool "a_b_c" "alpha:a_:"],
        (tool ∈ (filterToolsByServerMap allowed [ownedTool "a_b_c" "alpha:a_:"]).result b' ↔
          Granted nestedPrefixes allowed tool) := by
  intro h
  have hkept : ownedTool "a_b_c" "alpha:a_:" ∈ (filterToolsByServerMap (AList.singleton "beta" ["c"])
      [ownedTool "a_b_c" "alpha:a_:"]).result nestedPrefixes := List.mem_cons_self
  rcases (h _ nestedPrefixes (.refl _) _ List.mem_cons_self).1 hkept with
    ⟨id, up, u, hid, hup, hname, names, hlookup, hu⟩
  cases hid
  cases hup
  cases hlookup

end McpGateway.Broker
