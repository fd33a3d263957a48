import McpGateway.Upstream.Registry

/-!
# The acts a pass is made of

A pass changes a manager's own state in a few ways, each followed by calls on the gateway server: it
drops its tools or its prompts, or takes over a new list of one of them.  Whoever looks at a pass from
outside sees these acts with time in between.

- `manage_acts`: what `MCPManager.manage` does to the lists and to the registry is what some acts do.
- `Coherent`: the lists of a manager agree with each other, whatever the others did to the registry.
-/

namespace McpGateway.Upstream

open Go Keyed Kind MCPManager

inductive Act where
  | dropTools
  | dropPrompts
  | updateTools (registered fetched : List Tool)
  | updatePrompts (registered fetched : List Prompt)

def Act.apply (man : MCPManager) : Act → MCPManager × List ManagerCall
  | .dropTools => man.removeAllTools
  | .dropPrompts => man.removeAllPrompts
  | .updateTools registered fetched =>
    ((man.updateTools registered fetched []).man, (man.updateTools registered fetched []).calls)
  | .updatePrompts registered fetched =>
    ((man.updatePrompts registered fetched []).man, (man.updatePrompts registered fetched []).calls)

lemma Act.move (man : MCPManager) (a : Act) : Move man (a.apply man).2 (a.apply man).1 := by
  cases a with
  | dropTools => exact move_removeAllTools man
  | dropPrompts => exact move_removeAllPrompts man
  | updateTools registered fetched => exact move_updateTools man registered fetched []
  | updatePrompts registered fetched => exact move_updatePrompts man registered fetched []

lemma updateTools_eq (man : MCPManager) (registered fetched : List Tool)
    (invalid : List InvalidInfo) :
    ((man.updateTools registered fetched invalid).man,
      (man.updateTools registered fetched invalid).calls) =
    if (man.findToolConflicts registered (tool.newEntries man fetched)).isSome then (man, [])
    else
      ({ man with
          tools := fetched
          serverTools := reserve Tool.name man.serverTools (tool.goneNames man fetched)
            (tool.newEntries man fetched)
          servedToolsMap := byName (fun t => prefixedName man.config.namePrefix t.name) fetched },
        tool.exchange (tool.goneNames man fetched) (tool.newEntries man fetched)) := by
  have hdiff : man.diffTools man.tools fetched =
      (tool.newEntries man fetched, tool.goneNames man fetched) := rfl
  simp only [updateTools, hdiff]
  cases man.findToolConflicts registered (tool.newEntries man fetched) <;> rfl

lemma updatePrompts_eq (man : MCPManager) (registered fetched : List Prompt)
    (invalid : List InvalidInfo) :
    ((man.updatePrompts registered fetched invalid).man,
      (man.updatePrompts registered fetched invalid).calls) =
    if (man.findPromptConflicts registered (prompt.newEntries man fetched)).isSome then (man, [])
    else
      ({ man with
          prompts := fetched
          serverPrompts := reserve Prompt.name man.serverPrompts (prompt.goneNames man fetched)
            (prompt.newEntries man fetched)
          servedPromptsMap := byName (fun p => prefixedName man.config.namePrefix p.name) fetched },
        prompt.exchange (prompt.goneNames man fetched)
          (prompt.newEntries man fetched)) := by
  have hdiff : man.diffPrompts man.prompts fetched =
      (prompt.newEntries man fetched, prompt.goneNames man fetched) := rfl
  simp only [updatePrompts, hdiff]
  cases man.findPromptConflicts registered (prompt.newEntries man fetched) <;> rfl

/-! ## What acts keep -/

/-- The lists of the manager agree with some state of the gateway server. -/
def Coherent (man : MCPManager) : Prop :=
  ∃ g, Consistent man g

variable {man : MCPManager}

lemma Coherent.apply (h : Coherent man) (a : Act) : Coherent (a.apply man).1 := by
  obtain ⟨g, hg⟩ := h
  exact ⟨_, (a.move man).consistent (drives_foldl man.id g _) hg⟩

lemma Coherent.served_iff (h : Coherent man) (K : Kind) (n : String) : n ∈ (K.served man).map K.name ↔
    n ∈ (K.listed man).map (prefixedName man.config.namePrefix ∘ K.name) := by
  obtain ⟨g, hg⟩ := h
  exact (hg K).served_iff n

lemma Act.listed_iff (h : Coherent man) (a : Act) (K : Kind)
    (hcalls : ∀ c ∈ (a.apply man).2, K.added c = [] ∧ K.deleted c = []) (n : String) :
    n ∈ (K.listed (a.apply man).1).map (prefixedName man.config.namePrefix ∘ K.name) ↔
      n ∈ (K.listed man).map (prefixedName man.config.namePrefix ∘ K.name) := by
  rcases h with ⟨g, hg⟩
  have hdrives := drives_foldl man.id g (a.apply man).2
  have hafter := (a.move man).consistent hdrives hg K
  have hview := hdrives.view K ((a.move man).own K)
  -- both lists have the names of one and the same view of the registry
  rw [K.after_untouched hcalls] at hview
  rw [(a.move man).setup.config, (a.move man).setup.id, hview] at hafter
  rw [← hafter.view_iff, (hg K).view_iff]

lemma Act.serverTools_dropPrompts (man : MCPManager) :
    (Act.apply man .dropPrompts).1.serverTools = man.serverTools := by
  unfold Act.apply removeAllPrompts
  dsimp only
  split_ifs <;> rfl

lemma Act.serverTools_updatePrompts (man : MCPManager) (registered fetched : List Prompt) :
    (Act.apply man (.updatePrompts registered fetched)).1.serverTools = man.serverTools := by
  simp only [Act.apply, updatePrompts_eq]
  split_ifs <;> rfl

lemma Act.added_served {a : Act} {c : ManagerCall} {t : Tool} (hc : c ∈ (a.apply man).2)
    (ht : t ∈ tool.added c) : t ∈ (a.apply man).1.serverTools := by
  cases a with
  | dropTools =>
    obtain rfl : c = .deleteTools _ := mem_singleton.1 hc
    cases ht
  | dropPrompts =>
    simp only [Act.apply, removeAllPrompts] at hc
    split_ifs at hc
    · obtain rfl : c = .deletePrompts _ := mem_singleton.1 hc
      cases ht
    · cases hc
  | updateTools registered fetched =>
    simp only [Act.apply, updateTools_eq] at hc ⊢
    split_ifs at hc ⊢
    · cases hc
    · exact mem_append_right _ ((tool.mem_exchange hc).1 t ht)
  | updatePrompts registered fetched =>
    simp only [Act.apply, updatePrompts_eq] at hc
    split_ifs at hc
    · cases hc
    · rw [((prompt.mem_exchange hc).2 .tool (by decide)).1] at ht
      cases ht

lemma Act.deleted_served (h : Coherent man) {a : Act} {c : ManagerCall} {n : String}
    (hc : c ∈ (a.apply man).2) (hn : n ∈ tool.deleted c) : n ∈ man.serverTools.map Tool.name := by
  cases a with
  | dropTools =>
    rcases mem_singleton.1 hc with rfl
    exact hn
  | dropPrompts =>
    simp only [Act.apply, removeAllPrompts] at hc
    split_ifs at hc
    · rcases mem_singleton.1 hc with rfl
      cases hn
    · cases hc
  | updateTools registered fetched =>
    simp only [Act.apply, updateTools_eq] at hc
    split_ifs at hc
    · cases hc
    · -- only names of the old list are gone, and those are the ones that are served
      have hgone : n ∈ tool.goneNames man fetched := by
        simp only [exchange, mem_append] at hc
        rcases hc with hc | hc
        · split_ifs at hc
          · cases hc
          · rcases mem_singleton.1 hc with rfl
            exact hn
        · split_ifs at hc
          · cases hc
          · rcases mem_singleton.1 hc with rfl
            cases hn
      have hlisted : n ∈ (tool.listed man).map
          (prefixedName man.config.namePrefix ∘ tool.name) :=
        ((mem_map_comp_addedEntries (prefixedName_injective _)).1 hgone).1
      exact (h.served_iff .tool n).2 hlisted
  | updatePrompts registered fetched =>
    simp only [Act.apply, updatePrompts_eq] at hc
    split_ifs at hc
    · cases hc
    · rw [((prompt.mem_exchange hc).2 .tool (by decide)).2] at hn
      cases hn

lemma Act.served_or_deleted {n : String} (a : Act) (hn : n ∈ man.serverTools.map Tool.name) :
    n ∈ (a.apply man).1.serverTools.map Tool.name ∨ ∃ c ∈ (a.apply man).2, n ∈ tool.deleted c := by
  cases a with
  | dropTools => exact .inr ⟨_, List.mem_singleton_self _, hn⟩
  | dropPrompts =>
    rw [Act.serverTools_dropPrompts]
    exact .inl hn
  | updateTools registered fetched =>
    simp only [Act.apply, updateTools_eq]
    split_ifs
    · exact .inl hn
    · by_cases hgone : n ∈ tool.goneNames man fetched
      · have hne : tool.goneNames man fetched ≠ [] := List.ne_nil_of_mem hgone
        refine .inr ⟨.deleteTools (tool.goneNames man fetched), ?_, hgone⟩
        simp [exchange, hne]
      · refine .inl ?_
        rcases mem_map.1 hn with ⟨t, ht, rfl⟩
        refine mem_map_of_mem (mem_append_left _ (mem_filter.2 ⟨ht, ?_⟩))
        simpa using hgone
  | updatePrompts registered fetched =>
    rw [Act.serverTools_updatePrompts]
    exact .inl hn

end McpGateway.Upstream
