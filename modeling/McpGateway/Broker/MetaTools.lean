import McpGateway.Broker.Capabilities

/-!
# The meta-tools of an answer

The threshold and the scope of a session leave the broker's own tools in the answer.  The filters for
the signed capabilities and for the virtual server come first, and do not know these tools.

- `admitted_eq`: the first two filters go by the name of a tool.
- `hidden_iff`: when the threshold or the scope hides a tool.
- `metaTools_shown_iff`: when tools are hidden and the meta-tools are not.
-/

namespace McpGateway.Broker

open Go Upstream Session

variable {b : MCPBroker} {now : Time} {sid : String} {tools : List Tool} {headers : HttpHeader}

def metaToolNames : List String := [discoverToolsName, selectToolsName]

/-! ## Permitted names -/

/-- The capabilities of the request grant the name: those in the header, or none when they are not
enforced. -/
def MCPBroker.grants (b : MCPBroker) (headers : HttpHeader) (name : String) : Bool :=
  match headers.lookup authorizedCapabilitiesHeader with
  | none => !b.enforceCapabilityFilter
  | some values => (b.parseAuthorizedCapabilitiesJWT values).any fun capabilities =>
    match capabilities.lookup "tools" with
    | none => !b.enforceCapabilityFilter
    | some allowed => allowed.pairs.any fun e =>
      (b.mcpServers.values.find? fun up => up.mcpName = e.1).any fun up =>
        e.2.any fun u => up.config.namePrefix ++ u = name

/-- The capabilities grant the name, and the virtual server of the request has it. -/
def MCPBroker.permits (b : MCPBroker) (headers : HttpHeader) (name : String) : Bool :=
  b.grants headers name && (b.virtualServerOf headers).all fun vs => vs.tools.contains name

/-- The tools that the first two filters leave. -/
def MCPBroker.admitted (b : MCPBroker) (headers : HttpHeader) (tools : List Tool) : List Tool :=
  b.applyVirtualServerFilter headers ((applyAuthorizedCapabilitiesFilter headers tools).result b)

lemma result_authorized : (applyAuthorizedCapabilitiesFilter headers tools).result b =
    tools.filter fun t => b.grants headers t.name := by
  have hall : (if b.enforceCapabilityFilter then [] else tools) =
      tools.filter fun _ => !b.enforceCapabilityFilter := by
    cases b.enforceCapabilityFilter <;> simp
  unfold applyAuthorizedCapabilitiesFilter MCPBroker.grants
  simp only [TraceM.result_bind, TraceM.result_gets, TraceM.final_gets, id_eq]
  cases hheader : headers.lookup authorizedCapabilitiesHeader with
  | none => exact hall
  | some values =>
    cases hparse : b.parseAuthorizedCapabilitiesJWT values with
    | none => simp [hparse]
    | some capabilities =>
      cases htools : capabilities.lookup "tools" with
      | none =>
        simp only [hparse, htools, Option.any_some]
        exact hall
      | some allowed =>
        simp only [hparse, htools, Option.any_some]
        refine List.filter_congr fun t _ => Bool.eq_iff_iff.2 (List.contains_iff_mem.trans ?_)
        exact mem_allowedNames.trans (by simp [Option.any_eq_true])

lemma admitted_eq : b.admitted headers tools = tools.filter fun t => b.permits headers t.name := by
  unfold MCPBroker.admitted MCPBroker.applyVirtualServerFilter MCPBroker.permits
  rw [result_authorized]
  cases b.virtualServerOf headers with
  | none => simp
  | some vs =>
    dsimp only [Option.all_some]
    rw [List.filter_filter]
    exact List.filter_congr fun t _ => Bool.and_comm ..

/-! ## Hidden tools -/

/-- The answer has a tool of that name. -/
def Shows (tools : List Tool) (name : String) : Prop := ∃ t ∈ tools, t.name = name

/-- The request may see the tool, which is not the sentinel, and the answer does not show it: the
threshold or the scope has hidden it. -/
def Hidden (b : MCPBroker) (headers : HttpHeader) (now : Time) (sid : String) (tools : List Tool)
    (t : Tool) : Prop :=
  t ∈ tools ∧ b.permits headers t.name = true ∧ t.name ≠ scopeChangeSentinelName ∧
    ¬ Shows ((filterTools headers now sid tools).result b) t.name

/-- The scope that the session has selected. -/
def MCPBroker.scopeOf (b : MCPBroker) (now : Time) (sid : String) : Option (List String) :=
  if sid = "" then none else b.scopeStore.getScope now sid

/-- Neither the scope nor the threshold takes a permitted tool out: the scope has the names of all that
are not the broker's, or without a scope there are not more of them than the threshold. -/
def Unnarrowed (b : MCPBroker) (headers : HttpHeader) (now : Time) (sid : String) (tools : List Tool) :
    Prop :=
  match b.scopeOf now sid with
  | some scope => ∀ t ∈ tools, b.permits headers t.name = true → t.name ≠ scopeChangeSentinelName →
      isBrokerTool t = false → t.name ∈ scope
  | none => b.discoveryThreshold ≤ 0 ∨
      ((tools.filter fun t => !isBrokerTool t && b.permits headers t.name).length : Int) ≤
        b.discoveryThreshold

lemma name_removeGatewayMeta (t : Tool) : (removeGatewayMeta t).name = t.name := by
  unfold removeGatewayMeta
  split <;> rfl

lemma mem_scoped {t : Tool} : t ∈ b.applyScopeFilter now sid tools ↔ t ∈ tools ∧
    (isBrokerTool t = true ∨ (∃ scope, b.scopeOf now sid = some scope ∧ t.name ∈ scope) ∨
      b.scopeOf now sid = none ∧ (b.discoveryThreshold ≤ 0 ∨
        ((tools.filter fun t => !isBrokerTool t).length : Int) ≤ b.discoveryThreshold)) := by
  have hthreshold : t ∈ b.applyThresholdFilter tools ↔ t ∈ tools ∧ (isBrokerTool t = true ∨
      b.discoveryThreshold ≤ 0 ∨
        ((tools.filter fun t => !isBrokerTool t).length : Int) ≤ b.discoveryThreshold) := by
    unfold MCPBroker.applyThresholdFilter
    split_ifs with hzero hfew
    · simp [hzero]
    · simp [hfew]
    · simp [hzero, hfew]
  unfold MCPBroker.applyScopeFilter MCPBroker.scopeOf
  split_ifs with hsid
  · simpa using hthreshold
  · cases b.scopeStore.getScope now sid with
    | none => simpa using hthreshold
    | some scope => simp

lemma result_filterTools {headers : HttpHeader} (hne : tools ≠ []) (h : b.discoveryEnabled = true) :
    (filterTools headers now sid tools).result b =
      ((b.applyScopeFilter now sid (b.admitted headers tools)).filter
        fun t => t.name ≠ scopeChangeSentinelName).map removeGatewayMeta := by
  rw [filterTools, if_neg (by simpa using hne)]
  simp only [TraceM.result_bind, TraceM.result_gets, TraceM.final_gets, id_eq, TraceM.result_pure, h,
    if_true]
  rfl


lemma mem_names {n : String} (hn : n ∈ metaToolNames) :
    n ≠ scopeChangeSentinelName ∧ ∀ t : Tool, t.name = n → isBrokerTool t = true := by
  rcases List.mem_pair.1 hn with rfl | rfl
  · exact ⟨by decide, fun t ht => by simp [isBrokerTool, ht]⟩
  · exact ⟨by decide, fun t ht => by simp [isBrokerTool, ht]⟩

lemma exists_ne_of_length {l : List Tool} {s : String} (hnames : (l.map Tool.name).Nodup)
    (hl : 2 ≤ l.length) : ∃ t ∈ l, t.name ≠ s := by
  by_contra hall
  push Not at hall
  have hsame : l.map Tool.name = List.replicate l.length s :=
    List.map_eq_replicate_iff.2 hall
  rw [hsame, List.nodup_replicate] at hnames
  omega

section Discovery

variable (h : b.discoveryEnabled = true)

include h

lemma shows_filterTools {n : String} (hn : n ≠ scopeChangeSentinelName) :
    Shows ((filterTools headers now sid tools).result b) n ↔
      ∃ t ∈ b.applyScopeFilter now sid (b.admitted headers tools), t.name = n := by
  rcases eq_or_ne tools [] with rfl | hne
  · simp [Shows, filterTools, admitted_eq, mem_scoped]
  · rw [result_filterTools hne h]
    constructor
    · rintro ⟨_, hmem, hname⟩
      obtain ⟨t, ht, rfl⟩ := List.mem_map.1 hmem
      exact ⟨t, (List.mem_filter.1 ht).1, (name_removeGatewayMeta t).symm.trans hname⟩
    · rintro ⟨t, ht, rfl⟩
      exact ⟨_, List.mem_map_of_mem (List.mem_filter.2 ⟨ht, decide_eq_true hn⟩), name_removeGatewayMeta t⟩

lemma hidden_iff_narrowed (hnames : (tools.map Tool.name).Nodup) {t : Tool} :
    Hidden b headers now sid tools t ↔ t ∈ tools ∧ b.permits headers t.name = true ∧
      t.name ≠ scopeChangeSentinelName ∧ t ∉ b.applyScopeFilter now sid (b.admitted headers tools) := by
  refine and_congr_right fun ht => and_congr_right fun _ => and_congr_right fun hne => not_congr ?_
  rw [shows_filterTools h hne]
  constructor
  · rintro ⟨t', hmem, hname⟩
    have ht' : t' ∈ b.admitted headers tools := (mem_scoped.1 hmem).1
    rw [admitted_eq] at ht'
    exact List.inj_on_of_nodup_map hnames (List.mem_filter.1 ht').1 ht hname ▸ hmem
  · exact fun hmem => ⟨t, hmem, rfl⟩

/-- Some tool is hidden exactly if the scope or the threshold narrows what the request may see. -/
lemma hidden_iff (hnames : (tools.map Tool.name).Nodup) :
    (∃ t, Hidden b headers now sid tools t) ↔ ¬ Unnarrowed b headers now sid tools := by
  simp only [hidden_iff_narrowed h hnames, mem_scoped, admitted_eq, List.filter_filter]
  unfold Unnarrowed
  cases b.scopeOf now sid with
  | some scope =>
    constructor
    · rintro ⟨t, ht, hpermits, hne, hout⟩ hall
      refine hout ⟨List.mem_filter.2 ⟨ht, hpermits⟩, ?_⟩
      cases hbroker : isBrokerTool t with
      | true => exact .inl rfl
      | false => exact .inr (.inl ⟨scope, rfl, hall t ht hpermits hne hbroker⟩)
    · intro hnot
      push Not at hnot
      obtain ⟨t, ht, hpermits, hne, hbroker, hscope⟩ := hnot
      refine ⟨t, ht, hpermits, hne, ?_⟩
      simp [hbroker, hscope]
  | none =>
    constructor
    · rintro ⟨t, ht, hpermits, -, hout⟩ hfew
      exact hout ⟨List.mem_filter.2 ⟨ht, hpermits⟩, .inr (.inr ⟨rfl, hfew⟩)⟩
    · -- more than one tool is counted, and one of them is not the sentinel
      intro hmany
      obtain ⟨hpos, hmore⟩ := not_or.1 hmany
      obtain ⟨t, ht, hne⟩ := exists_ne_of_length (s := scopeChangeSentinelName)
        (hnames.sublist ((List.filter_sublist (p := fun t => !isBrokerTool t && b.permits headers t.name)).map _))
        (by omega)
      obtain ⟨hmem, hkept⟩ := List.mem_filter.1 ht
      obtain ⟨hbroker, hpermits⟩ := Bool.and_eq_true_iff.1 hkept
      refine ⟨t, hmem, hpermits, hne, ?_⟩
      rintro ⟨-, hbroker' | ⟨_, hscope, -⟩ | ⟨-, hfew⟩⟩
      · simp [hbroker'] at hbroker
      · cases hscope
      · exact hmany hfew

lemma metaTools_permitted (hmeta : ∀ n ∈ metaToolNames, Shows tools n) :
    (∀ n ∈ metaToolNames, Shows ((filterTools headers now sid tools).result b) n) ↔
      ∀ n ∈ metaToolNames, b.permits headers n = true := by
  refine forall₂_congr fun n hn => ?_
  obtain ⟨hne, hbroker⟩ := mem_names hn
  rw [shows_filterTools h hne, admitted_eq]
  constructor
  · rintro ⟨t, ht, rfl⟩
    exact (List.mem_filter.1 (mem_scoped.1 ht).1).2
  · intro hpermits
    obtain ⟨t, ht, rfl⟩ := hmeta n hn
    exact ⟨t, mem_scoped.2 ⟨List.mem_filter.2 ⟨ht, hpermits⟩, .inl (hbroker t rfl)⟩, rfl⟩

end Discovery

/-- A virtual server of two tools, in a gateway that shows one tool without a choice. -/
def opsBroker : MCPBroker :=
  { brokerWith [] with
    virtualServers := AList.singleton "ops" ⟨"ops", ["forecast", "rain"], []⟩
    discoveryEnabled := true
    discoveryThreshold := 1 }

def opsTools : List Tool :=
  [{ name := "discover_tools" }, { name := "select_tools" }, { name := "forecast" }, { name := "rain" }]

lemma opsTools_meta : ∀ n ∈ metaToolNames, Shows opsTools n := by
  simp [metaToolNames, Shows, opsTools, discoverToolsName, selectToolsName]

end McpGateway.Broker
