import McpGateway.Gateway.Fleet

/-!
# What a build of the table reads

`buildRoutingTable` reads of each manager its configuration, the names it serves and the hints of the
served tools.  Two managers that agree on these make no difference to the table.

- `Alike.addManager`, `alike_tableOf`: entries that read alike give tables that answer alike.
- `sameEntry_act`: an act of a manager changes what a build reads only if calls follow it that change
  the table.
-/

namespace McpGateway.Gateway

open Go Routing Upstream Broker Table

/-! ## What a build reads -/

def servedPrompts (up : ActiveMCPServer) : List String :=
  up.getManagedPrompts.map fun prompt => up.config.namePrefix ++ prompt.name

/-- The two contribute the same to a routing table. -/
structure SameEntry (a b : ActiveMCPServer) : Prop where
  config : b.config = a.config
  tools : ∀ n, n ∈ servedNames b ↔ n ∈ servedNames a
  prompts : ∀ n, n ∈ servedPrompts b ↔ n ∈ servedPrompts a
  hints : ∀ n ∈ servedNames a, b.toolHints.lookup n = a.toolHints.lookup n

/-- The same lookups, prefixes and broker tools. -/
structure Alike (t t' : Table) : Prop where
  tools : ∀ n, t'.tools.lookup n = t.tools.lookup n
  prompts : ∀ n, t'.prompts.lookup n = t.prompts.lookup n
  prefixes : t'.prefixes = t.prefixes
  brokerTools : t'.brokerTools = t.brokerTools
  annotations : ∀ k, t'.annotations.lookup k = t.annotations.lookup k

lemma SameEntry.refl (a : ActiveMCPServer) : SameEntry a a :=
  ⟨rfl, fun _ => Iff.rfl, fun _ => Iff.rfl, fun _ _ => rfl⟩

lemma SameEntry.trans {a b c : ActiveMCPServer} (h : SameEntry a b) (h' : SameEntry b c) :
    SameEntry a c where
  config := h'.config.trans h.config
  tools n := (h'.tools n).trans (h.tools n)
  prompts n := (h'.prompts n).trans (h.prompts n)
  hints n hn := (h'.hints n ((h.tools n).2 hn)).trans (h.hints n hn)

lemma Alike.refl (t : Table) : Alike t t :=
  ⟨fun _ => rfl, fun _ => rfl, rfl, rfl, fun _ => rfl⟩

lemma Alike.trans {t t' t'' : Table} (h : Alike t t') (h' : Alike t' t'') : Alike t t'' where
  tools n := (h'.tools n).trans (h.tools n)
  prompts n := (h'.prompts n).trans (h.prompts n)
  prefixes := h'.prefixes.trans h.prefixes
  brokerTools := h'.brokerTools.trans h.brokerTools
  annotations k := (h'.annotations k).trans (h.annotations k)

lemma annotationKey_injective (id : String) : Function.Injective (annotationKey id) := by
  intro a b h
  simpa [annotationKey, String.ext_iff] using h

def addAnnotations (id : String) (hints : GoMap ToolAnnotation) (names : List String)
    (m : GoMap ToolAnnotation) : GoMap ToolAnnotation :=
  names.foldl (fun m name =>
    match hints.lookup name with
    | some h => AList.insert (Table.annotationKey id name) h m
    | none => m) m

lemma lookup_addAnnotations (id n : String) (hints : GoMap ToolAnnotation) (names : List String)
    (m : GoMap ToolAnnotation) : (addAnnotations id hints names m).lookup (annotationKey id n) =
    (if n ∈ names then hints.lookup n else none).or (m.lookup (annotationKey id n)) := by
  induction names generalizing m with
  | nil => simp [addAnnotations]
  | cons name rest ih =>
    have hcons : addAnnotations id hints (name :: rest) m =
        addAnnotations id hints rest (addAnnotations id hints [name] m) := rfl
    have hone : (addAnnotations id hints [name] m).lookup (annotationKey id n) =
        (if n = name then hints.lookup n else none).or (m.lookup (annotationKey id n)) := by
      unfold addAnnotations
      dsimp only [foldl_cons, foldl_nil]
      by_cases hn : n = name
      · subst hn
        cases hints.lookup n <;> simp
      · have hkey : annotationKey id n ≠ annotationKey id name :=
          fun h => hn (annotationKey_injective id h)
        cases hints.lookup name <;> simp [hn, hkey]
    rw [hcons, ih, hone, ← Option.or_assoc]
    congr 1
    by_cases hn : n = name
    · subst hn
      by_cases hrest : n ∈ rest <;> cases hints.lookup n <;> simp [hrest]
    · simp [hn]

lemma lookup_addAnnotations_other {id k : String} (hints : GoMap ToolAnnotation) (names : List String)
    (m : GoMap ToolAnnotation) (hk : ∀ n, k ≠ annotationKey id n) :
    (addAnnotations id hints names m).lookup k = m.lookup k := by
  induction names generalizing m with
  | nil => rfl
  | cons name rest ih =>
    have hcons : addAnnotations id hints (name :: rest) m =
        addAnnotations id hints rest (addAnnotations id hints [name] m) := rfl
    rw [hcons, ih]
    unfold addAnnotations
    dsimp only [foldl_cons, foldl_nil]
    cases hints.lookup name with
    | none => rfl
    | some h => exact (lookup_insert _ _ _ _).trans (if_neg (hk name))

lemma lookupTool_addManager (t : Table) (id : String) (up : ActiveMCPServer) (n : String) :
    (addManager t (id, up)).tools.lookup n =
      if n ∈ servedNames up then some (routeFor up.config) else t.tools.lookup n :=
  lookup_foldl_insert _ _ _ _

lemma lookupPrompt_addManager (t : Table) (id : String) (up : ActiveMCPServer) (n : String) :
    (addManager t (id, up)).prompts.lookup n =
      if n ∈ servedPrompts up then some (routeFor up.config) else t.prompts.lookup n := by
  have hfold : (addManager t (id, up)).prompts =
      (servedPrompts up).foldl (fun m name => AList.insert name (routeFor up.config) m) t.prompts := by
    unfold servedPrompts
    rw [List.foldl_map]
    rfl
  rw [hfold, lookup_foldl_insert]

lemma Alike.addManager {t t' : Table} {a b : ActiveMCPServer} (h : Alike t t') (hentry : SameEntry a b)
    (id : String) : Alike (addManager t (id, a)) (addManager t' (id, b)) where
  tools n := by
    rw [lookupTool_addManager, lookupTool_addManager, hentry.config, h.tools]
    simp only [hentry.tools n]
  prompts n := by
    rw [lookupPrompt_addManager, lookupPrompt_addManager, hentry.config, h.prompts]
    simp only [hentry.prompts n]
  prefixes := by
    unfold Broker.addManager
    dsimp only
    rw [hentry.config, h.prefixes]
  brokerTools := h.brokerTools
  annotations k := by
    have hannotations : ∀ (t : Table) (up : ActiveMCPServer), (Broker.addManager t (id, up)).annotations =
        addAnnotations id up.toolHints (servedNames up) t.annotations := fun _ _ => rfl
    rw [hannotations, hannotations]
    by_cases hk : ∃ n, k = annotationKey id n
    · rcases hk with ⟨n, rfl⟩
      rw [lookup_addAnnotations, lookup_addAnnotations, h.annotations]
      congr 1
      by_cases hn : n ∈ servedNames a
      · rw [if_pos hn, if_pos ((hentry.tools n).2 hn), hentry.hints n hn]
      · rw [if_neg hn, if_neg (fun hb => hn ((hentry.tools n).1 hb))]
    · have hother : ∀ n, k ≠ annotationKey id n := fun n hn => hk ⟨n, hn⟩
      rw [lookup_addAnnotations_other _ _ _ hother, lookup_addAnnotations_other _ _ _ hother,
        h.annotations]

lemma alike_tableOf (current : String × ActiveMCPServer → ActiveMCPServer)
    {order : List (String × ActiveMCPServer)} (h : ∀ e ∈ order, SameEntry e.2 (current e)) :
    Alike (tableOf order) (tableOf (order.map fun e => (e.1, current e))) := by
  induction order using List.reverseRecOn with
  | nil => exact Alike.refl _
  | append_singleton order e ih =>
    have hinit := ih fun a ha => h a (mem_append_left _ ha)
    rw [map_append, tableOf_append, List.map_singleton, tableOf_append]
    exact hinit.addManager (h e (mem_append_right _ mem_cons_self)) e.1

/-! ## Acts that change nothing a build reads -/

lemma servedNames_eq (up : ActiveMCPServer) : servedNames up =
    (Kind.tool.listed up.manager).map (prefixedName up.manager.config.namePrefix ∘ Kind.tool.name) := by
  refine List.map_congr_left ?_
  intro t _
  exact (prefixedName_eq _ _).symm

lemma servedPrompts_eq (up : ActiveMCPServer) : servedPrompts up = (Kind.prompt.listed up.manager).map
      (prefixedName up.manager.config.namePrefix ∘ Kind.prompt.name) := by
  refine List.map_congr_left ?_
  intro p _
  exact (prefixedName_eq _ _).symm

lemma untouched_of_not_changesTable {c : ManagerCall} (h : changesTable c = false) (K : Kind) :
    K.added c = [] ∧ K.deleted c = [] := by
  cases c with
  | addTools xs | deleteTools xs | addPrompts xs | deletePrompts xs =>
    have hnone : xs = [] := by simpa [changesTable] using h
    subst hnone
    cases K <;> exact ⟨rfl, rfl⟩
  | disconnect | resetBackoff | applyBackoff => exact K.untouched_of_isQuiet rfl

lemma sameEntry_act {id : String} {w : Worker} (h : w.Sound id) {a : Act}
    (hcalls : (w.act a).stage.calls.any changesTable = false) : SameEntry w.server (w.act a).server := by
  have huntouched : ∀ (K : Kind), ∀ c ∈ (a.apply w.manager).2, K.added c = [] ∧ K.deleted c = [] := by
    intro K c hc
    refine untouched_of_not_changesTable ?_ K
    simpa using List.any_eq_false.1 hcalls c hc
  have hconfig : (w.act a).server.manager.config = w.manager.config :=
    (a.move w.manager).setup.config
  refine ⟨hconfig, ?_, ?_, fun n _ => rfl⟩
  · intro n
    rw [servedNames_eq, servedNames_eq, hconfig]
    exact Act.listed_iff h.coherent a .tool (huntouched .tool) n
  · intro n
    rw [servedPrompts_eq, servedPrompts_eq, hconfig]
    exact Act.listed_iff h.coherent a .prompt (huntouched .prompt) n

lemma sameEntry_hints {a : ActiveMCPServer} {hints : GoMap ToolAnnotation}
    (h : ∀ n ∈ servedNames a, a.toolHints.lookup n = hints.lookup n) :
    SameEntry { a with toolHints := hints } a where
  config := rfl
  tools _ := Iff.rfl
  prompts _ := Iff.rfl
  hints := h

end McpGateway.Gateway
