import McpGateway.Broker.Reload
import McpGateway.Foundation.Iteration
import McpGateway.Gateway.World

/-!
# Where a name leads

The router resolves a tool name in the published table: by the name itself, or else by the first
prefix of a user-specific server that the iteration over the map happens to meet.  The broker resolves
the same name on its own in `GetServerInfo`, where the longest prefix wins.
-/

namespace McpGateway.Gateway

open Go Routing Broker World Table

/-! ## The published table -/

def servedNames (up : ActiveMCPServer) : List String :=
  up.getManagedTools.map fun tool => up.config.namePrefix ++ tool.name

def tableOf (order : List (String × ActiveMCPServer)) : Table :=
  order.foldl addManager
    { brokerTools := [discoverToolsName, selectToolsName, listTagsName, filterToolsByTagsName] }

lemma buildRoutingTable_eq (b : MCPBroker) : b.buildRoutingTable = tableOf b.mcpServers.pairs := rfl

lemma tableOf_append (order : List (String × ActiveMCPServer)) (e : String × ActiveMCPServer) :
    tableOf (order ++ [e]) = addManager (tableOf order) e := by
  simp [tableOf]

def registersPrefix (up : ActiveMCPServer) : Bool :=
  up.config.userSpecificList && up.config.namePrefix ≠ ""

/-- No two user-specific servers have the same prefix. -/
def DistinctPrefixes (order : List (String × ActiveMCPServer)) : Prop :=
  ∀ e ∈ order, ∀ e' ∈ order, e.2.config.userSpecificList = true → e'.2.config.userSpecificList = true →
    e.2.config.namePrefix = e'.2.config.namePrefix → e = e'

variable {order : List (String × ActiveMCPServer)}

lemma mem_prefixes_tableOf (h : DistinctPrefixes order) {p : String × ServerRoute} :
    p ∈ (tableOf order).prefixes ↔ ∃ e ∈ order, registersPrefix e.2 = true ∧ p = (e.2.config.namePrefix,
    routeFor e.2.config) := by
  induction order using List.reverseRecOn with
  | nil => simp [tableOf]
  | append_singleton order e ih =>
    have hbefore : DistinctPrefixes order := fun a ha b hb =>
      h a (mem_append_left _ ha) b (mem_append_left _ hb)
    have hlast : e ∈ order ++ [e] := mem_append_right _ mem_cons_self
    rw [tableOf_append, addManager]
    simp only [mem_append, mem_singleton]
    split_ifs with hreg
    · have hreg' : registersPrefix e.2 = true := by simpa [registersPrefix] using hreg
      rw [mem_append, mem_filter, mem_singleton, ih hbefore]
      constructor
      · rintro (⟨⟨a, ha, hra, rfl⟩, -⟩ | rfl)
        · exact ⟨a, .inl ha, hra, rfl⟩
        · exact ⟨e, .inr rfl, hreg', rfl⟩
      · rintro ⟨a, ha | rfl, hra, rfl⟩
        · -- an earlier entry of the same prefix would be this one
          by_cases hp : a.2.config.namePrefix = e.2.config.namePrefix
          · have hua : a.2.config.userSpecificList = true := by
              simp only [registersPrefix, and_eq_true] at hra
              exact hra.1
            rw [h a (mem_append_left _ ha) e hlast hua hreg.1 hp]
            exact .inr rfl
          · exact .inl ⟨⟨a, ha, hra, rfl⟩, by simpa using hp⟩
        · exact .inr rfl
    · rw [ih hbefore]
      constructor
      · rintro ⟨a, ha, hra, rfl⟩
        exact ⟨a, .inl ha, hra, rfl⟩
      · rintro ⟨a, ha | rfl, hra, rfl⟩
        · exact ⟨a, ha, hra, rfl⟩
        · exact absurd (by simpa [registersPrefix] using hra) hreg

lemma lookup_foldl_insert {α : Type} (names : List String) (v : α) (m : GoMap α) (n : String) :
    (names.foldl (fun m name => AList.insert name v m) m).lookup n =
      if n ∈ names then some v else m.lookup n := by
  induction names generalizing m with
  | nil => simp
  | cons k rest ih =>
    rw [foldl_cons, ih, lookup_insert]
    by_cases hk : n = k <;> by_cases hr : n ∈ rest <;> simp [hk, hr]

lemma lookupTool_append (order : List (String × ActiveMCPServer)) (e : String × ActiveMCPServer)
    (n : String) : (tableOf (order ++ [e])).lookupTool n =
      if n ∈ servedNames e.2 then some (routeFor e.2.config) else (tableOf order).lookupTool n := by
  rw [tableOf_append]
  exact lookup_foldl_insert _ _ _ _

lemma lookupTool_tableOf_eq_none {n : String} :
    (tableOf order).lookupTool n = none ↔ ∀ e ∈ order, n ∉ servedNames e.2 := by
  induction order using List.reverseRecOn with
  | nil => simp [tableOf, lookupTool]
  | append_singleton order e ih =>
    rw [lookupTool_append]
    split_ifs with hn
    · simp only [false_iff]
      intro hall
      exact hall e (mem_append_right _ mem_cons_self) hn
    · rw [ih]
      constructor
      · intro hall a ha
        rcases mem_append.1 ha with hin | hin
        · exact hall a hin
        · rw [mem_singleton.1 hin]
          exact hn
      · exact fun hall a ha => hall a (mem_append_left _ ha)

lemma of_lookupTool_tableOf {n : String}
    {route : ServerRoute} (h : (tableOf order).lookupTool n = some route) :
    ∃ e ∈ order, n ∈ servedNames e.2 ∧ route = routeFor e.2.config := by
  induction order using List.reverseRecOn with
  | nil => simp [tableOf, lookupTool] at h
  | append_singleton order e ih =>
    rw [lookupTool_append] at h
    split_ifs at h with hn
    · exact ⟨e, mem_append_right _ mem_cons_self, hn, (Option.some.inj h).symm⟩
    · rcases ih h with ⟨a, ha, hserves, hroute⟩
      exact ⟨a, mem_append_left _ ha, hserves, hroute⟩

/-! ## The two resolutions by prefix -/

def claims (name : String) (up : ActiveMCPServer) : Bool :=
  registersPrefix up && hasPrefix name up.config.namePrefix

/-- The route of a server with the longest registered prefix of the name, when there is one. -/
def Longest (ups : List ActiveMCPServer) (name : String) (r : Option ServerRoute) : Prop :=
  (r = none ∧ ∀ up ∈ ups, claims name up = false) ∨
    ∃ up ∈ ups, claims name up = true ∧ r = some (routeFor up.config) ∧
      ∀ up' ∈ ups, claims name up' = true →
        (bytes up'.config.namePrefix).length ≤ (bytes up.config.namePrefix).length

lemma longest_foldl (name : String) (ups : List ActiveMCPServer) :
    (ups.foldl (longestPrefix name) none = none ∧ ∀ up ∈ ups, claims name up = false) ∨
      ∃ up ∈ ups, claims name up = true ∧ ups.foldl (longestPrefix name) none = some up.config ∧
        ∀ up' ∈ ups, claims name up' = true →
          (bytes up'.config.namePrefix).length ≤ (bytes up.config.namePrefix).length := by
  induction ups using List.reverseRecOn with
  | nil => exact .inl ⟨rfl, by simp⟩
  | append_singleton ups up ih =>
    rw [foldl_append, foldl_cons, foldl_nil]
    have hclaims : (up.config.userSpecificList && decide (up.config.namePrefix ≠ "") &&
        hasPrefix name up.config.namePrefix) = claims name up := rfl
    simp only [longestPrefix, hclaims]
    cases hup : claims name up with
    | false =>
      -- a server without a matching prefix is passed over
      simp only [false_eq_true, if_false]
      rcases ih with ⟨hnone, hall⟩ | ⟨best, hbest, hclaim, hsome, hmax⟩
      · exact .inl ⟨hnone, List.forall_mem_append.2 ⟨hall, by simpa using hup⟩⟩
      · refine .inr ⟨best, mem_append_left _ hbest, hclaim, hsome, ?_⟩
        exact List.forall_mem_append.2 ⟨hmax, by simp [hup]⟩
    | true =>
      simp only [if_true]
      have hlast : up ∈ ups ++ [up] := mem_append_right _ mem_cons_self
      rcases ih with ⟨hnone, hall⟩ | ⟨best, hbest, hclaim, hsome, hmax⟩
      · refine .inr ⟨up, hlast, hup, by rw [hnone], List.forall_mem_append.2 ⟨?_, by simp⟩⟩
        intro a ha hca
        rw [hall a ha] at hca
        cases hca
      · rw [hsome]
        dsimp only
        split_ifs with hlonger
        · refine .inr ⟨up, hlast, hup, rfl, List.forall_mem_append.2 ⟨?_, by simp⟩⟩
          intro a ha hca
          exact (hmax a ha hca).trans hlonger.le
        · refine .inr ⟨best, mem_append_left _ hbest, hclaim, rfl, ?_⟩
          exact List.forall_mem_append.2 ⟨hmax, by simpa using fun _ => hlonger⟩

variable {b : MCPBroker} {name : String}

lemma longest_getServerInfo (hcached : ∀ up ∈ b.mcpServers.values, up.getServedManagedTool name = none) :
    Longest b.mcpServers.values name (((getServerInfo name).result b).toOption.map routeFor) := by
  have hfind : (b.mcpServers.values.find? fun up => (up.getServedManagedTool name).isSome) = none := by
    rw [List.find?_eq_none]
    intro up hup
    rw [hcached up hup]
    decide
  simp only [getServerInfo, withRLock, TraceM.result_bracket, TraceM.result_gets, hfind]
  rcases longest_foldl name b.mcpServers.values with ⟨hnone, hall⟩ | ⟨up, hup, hclaim, hsome, hmax⟩
  · rw [hnone]
    exact .inl ⟨rfl, hall⟩
  · rw [hsome]
    exact .inr ⟨up, hup, hclaim, rfl, hmax⟩

lemma encodeRune_ne_nil (c : Char) : encodeRune c ≠ [] := by
  unfold encodeRune
  dsimp only
  split_ifs <;> simp

lemma eq_of_length_bytes {p q : String} (hp : hasPrefix name p = true)
    (hq : hasPrefix name q = true) (h : (bytes p).length = (bytes q).length) : p = q := by
  -- a prefix of another one that is as long as it
  have key : ∀ {a b : List Char}, a <+: b →
      (a.flatMap encodeRune).length = (b.flatMap encodeRune).length → a = b := by
    rintro a - ⟨rest, rfl⟩ hlen
    cases rest with
    | nil => simp
    | cons c rest =>
      rw [List.flatMap_append, length_append, flatMap_cons, length_append] at hlen
      have hpos := List.length_pos_iff.2 (encodeRune_ne_nil c)
      omega
  rcases List.prefix_or_prefix_of_prefix (hasPrefix_iff.1 hp) (hasPrefix_iff.1 hq) with hpq | hqp
  · exact String.toList_inj.1 (key hpq h)
  · exact (String.toList_inj.1 (key hqp h.symm)).symm

lemma Longest.unique (hdistinct : DistinctPrefixes order) {r r' : Option ServerRoute} (h : Longest (order.map Prod.snd) name r)
    (h' : Longest (order.map Prod.snd) name r') : r = r' := by
  rcases h with ⟨rfl, hall⟩ | ⟨up, hup, hclaim, rfl, hmax⟩ <;>
    rcases h' with ⟨rfl, hall'⟩ | ⟨up', hup', hclaim', rfl, hmax'⟩
  · rfl
  · rw [hall up' hup'] at hclaim'
    cases hclaim'
  · rw [hall' up hup] at hclaim
    cases hclaim
  · have hlen := le_antisymm (hmax' up hup hclaim) (hmax up' hup' hclaim')
    simp only [claims, registersPrefix, and_eq_true] at hclaim hclaim'
    have hpre := eq_of_length_bytes hclaim.2 hclaim'.2 hlen
    rcases mem_map.1 hup with ⟨e, he, rfl⟩
    rcases mem_map.1 hup' with ⟨e', he', rfl⟩
    rw [hdistinct e he e' he' hclaim.1.1 hclaim'.1.1 hpre]

lemma Longest.of_mem_iff {ups ups' : List ActiveMCPServer} {r : Option ServerRoute}
    (h : Longest ups name r) (hsame : ∀ up, up ∈ ups ↔ up ∈ ups') : Longest ups' name r := by
  simpa only [Longest, hsame] using h

lemma DistinctPrefixes.same {b' : MCPBroker} (h : DistinctPrefixes b.mcpServers.pairs)
    (hsame : b.mcpServers.Same b'.mcpServers) : DistinctPrefixes b'.mcpServers.pairs :=
  fun e he e' he' => h e (hsame.mem_pairs.1 he) e' (hsame.mem_pairs.1 he')

/-- At most one user-specific server claims the name. -/
def OnePrefix (b : MCPBroker) (name : String) : Prop :=
  ∀ e ∈ b.mcpServers.pairs, ∀ e' ∈ b.mcpServers.pairs,
    claims name e.2 = true → claims name e'.2 = true → e = e'

/-- In every order in which the broker builds the table and looks for itself, and in which the router
visits the prefixes, the router answers with the longest prefix, as the broker does. -/
def Agrees (b : MCPBroker) (name : String) : Prop :=
  ∀ (b₁ b₂ : MCPBroker) (t : Table), b.mcpServers.Same b₁.mcpServers →
    b.mcpServers.Same b₂.mcpServers → SameTable b₁.buildRoutingTable t →
    Longest b.mcpServers.values name (t.lookupPrefix name) ∧
      t.lookupPrefix name = ((getServerInfo name).result b₂).toOption.map routeFor

lemma lookupPrefix_cases {t : Table} (hdistinct : DistinctPrefixes b.mcpServers.pairs)
    (ht : SameTable b.buildRoutingTable t) (name : String) : (t.lookupPrefix name = none ∧
    ∀ e ∈ b.mcpServers.pairs, claims name e.2 = false) ∨ ∃ e ∈ b.mcpServers.pairs, claims name e.2 = true ∧
    t.lookupPrefix name = some (routeFor e.2.config) := by
  have hmem : ∀ p, p ∈ t.prefixes ↔ ∃ e ∈ b.mcpServers.pairs, registersPrefix e.2 = true ∧
      p = (e.2.config.namePrefix, routeFor e.2.config) := by
    intro p
    rw [ht.2.2.1.mem_iff, buildRoutingTable_eq]
    exact mem_prefixes_tableOf hdistinct
  unfold lookupPrefix
  cases hfind : t.prefixes.find? fun p => hasPrefix name p.1 with
  | none =>
    refine .inl ⟨rfl, ?_⟩
    intro e he
    by_contra hclaim
    simp only [Bool.not_eq_false, claims, and_eq_true] at hclaim
    have hin := (hmem _).2 ⟨e, he, hclaim.1, rfl⟩
    exact absurd hclaim.2 (by simpa using List.find?_eq_none.1 hfind _ hin)
  | some p =>
    rcases (hmem p).1 (mem_of_find?_eq_some hfind) with ⟨e, he, hreg, rfl⟩
    refine .inr ⟨e, he, ?_, rfl⟩
    have hmatch := find?_some hfind
    simp only [claims, hreg, Bool.true_and]
    exact hmatch

variable {e : String × ActiveMCPServer}

lemma exists_lookupPrefix (hdistinct : DistinctPrefixes b.mcpServers.pairs) (he : e ∈ b.mcpServers.pairs)
    (hclaim : claims name e.2 = true) :
    ∃ t, SameTable b.buildRoutingTable t ∧ t.lookupPrefix name = some (routeFor e.2.config) := by
  simp only [claims, and_eq_true] at hclaim
  have hmem : (e.2.config.namePrefix, routeFor e.2.config) ∈ b.buildRoutingTable.prefixes :=
    (mem_prefixes_tableOf hdistinct).2 ⟨e, he, hclaim.1, rfl⟩
  rcases exists_perm_find? (p := fun p => hasPrefix name p.1) hmem hclaim.2 with ⟨order, hperm, hfind⟩
  refine ⟨{ b.buildRoutingTable with prefixes := order }, ⟨rfl, rfl, hperm, rfl, rfl⟩, ?_⟩
  simp [lookupPrefix, hfind]

/-- For a name that no manager serves, the router and the broker agree on the longest prefix in every
order just when at most one registered prefix begins the name. -/
theorem lookupPrefix_agrees_iff {b : MCPBroker} {name : String}
    (hdistinct : DistinctPrefixes b.mcpServers.pairs)
    (hcached : ∀ up ∈ b.mcpServers.values, up.getServedManagedTool name = none) :
    Agrees b name ↔ OnePrefix b name := by
  constructor
  · intro hagrees e he e' he' hclaim hclaim'
    rcases exists_lookupPrefix hdistinct he hclaim with ⟨t, ht, hfound⟩
    rcases exists_lookupPrefix hdistinct he' hclaim' with ⟨t', ht', hfound'⟩
    -- the broker's answer is the same, whichever of the two the router meets first
    have hanswer := (hagrees b b t (.refl _) (.refl _) ht).2
    have hanswer' := (hagrees b b t' (.refl _) (.refl _) ht').2
    rw [hfound] at hanswer
    rw [hfound', ← hanswer, Option.some.injEq] at hanswer'
    have hpre := congrArg ServerRoute.namePrefix hanswer'
    simp only [claims, registersPrefix, Bool.and_eq_true] at hclaim hclaim'
    exact hdistinct e he e' he' hclaim.1.1 hclaim'.1.1 hpre.symm
  · intro hone b₁ b₂ t h₁ h₂ ht
    have hlongest : Longest b.mcpServers.values name (t.lookupPrefix name) := by
      rcases lookupPrefix_cases (hdistinct.same h₁) ht name with ⟨hnone, hall⟩ | ⟨e, he, hclaim, hsome⟩
      · refine .inl ⟨hnone, ?_⟩
        intro up hup
        rcases List.mem_map.1 hup with ⟨e, he, rfl⟩
        exact hall e (h₁.mem_pairs.2 he)
      · have hin := h₁.mem_pairs.1 he
        refine .inr ⟨e.2, List.mem_map_of_mem hin, hclaim, hsome, ?_⟩
        intro up hup hclaim'
        rcases List.mem_map.1 hup with ⟨e', he', rfl⟩
        rw [hone e' he' e hin hclaim' hclaim]
    have hbroker := longest_getServerInfo fun up hup => hcached up (h₂.mem_values.1 hup)
    exact ⟨hlongest, hlongest.unique hdistinct (hbroker.of_mem_iff fun up => h₂.mem_values)⟩

def userServer (name namePrefix : String) : ActiveMCPServer :=
  .start { name := name, namePrefix := namePrefix, userSpecificList := true } .filterOut "" 0

def overlapping : MCPBroker := brokerWith [userServer "alpha" "a_", userServer "beta" "a_b_"]

lemma mem_overlapping (he : e ∈ overlapping.mcpServers.pairs) :
    e = ("beta:a_b_:", userServer "beta" "a_b_") ∨ e = ("alpha:a_:", userServer "alpha" "a_") := by
  rcases mem_cons.1 he with rfl | hrest
  · exact .inl rfl
  · exact .inr (mem_singleton.1 hrest)

lemma distinctPrefixes_overlapping : DistinctPrefixes overlapping.mcpServers.pairs := by
  intro e he e' he' _ _ hpre
  rcases mem_overlapping he with rfl | rfl <;> rcases mem_overlapping he' with rfl | rfl <;>
    first | rfl | exact absurd hpre (by decide)

/-- A name that only one of the two prefixes begins. -/
theorem lookupPrefix_agrees_forecast : Agrees overlapping "a_forecast" := by
  refine (lookupPrefix_agrees_iff distinctPrefixes_overlapping ?_).2 ?_
  · intro up hup
    rcases List.mem_map.1 hup with ⟨e, he, rfl⟩
    rcases mem_overlapping he with rfl | rfl <;> rfl
  · intro e he e' he' hclaim hclaim'
    have hbeta : claims "a_forecast" (userServer "beta" "a_b_") = false := by decide
    rcases mem_overlapping he with rfl | rfl
    · exact absurd (hbeta.symm.trans hclaim) (by decide)
    · rcases mem_overlapping he' with rfl | rfl
      · exact absurd (hbeta.symm.trans hclaim') (by decide)
      · rfl

/-- The router may take a name to the shorter prefix while the broker takes it to the longer one. -/
theorem overlappingPrefixes_disagree :
    DistinctPrefixes overlapping.mcpServers.pairs ∧
    (∀ up ∈ overlapping.mcpServers.values, up.getServedManagedTool "a_b_c" = none) ∧
    ¬ Agrees overlapping "a_b_c" := by
  refine ⟨distinctPrefixes_overlapping, ?_, ?_⟩
  · intro up hup
    rcases List.mem_map.1 hup with ⟨e, he, rfl⟩
    rcases mem_overlapping he with rfl | rfl <;> rfl
  · intro hagrees
    -- visit the shorter prefix first
    have hanswer := (hagrees overlapping overlapping
      { overlapping.buildRoutingTable with prefixes := overlapping.buildRoutingTable.prefixes.reverse }
      (.refl _) (.refl _) ⟨rfl, rfl, List.reverse_perm _, rfl, rfl⟩).2
    revert hanswer
    decide

end McpGateway.Gateway
