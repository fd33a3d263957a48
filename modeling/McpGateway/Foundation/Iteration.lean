import McpGateway.Foundation.Go

/-!
# Orders of iteration

A `range` over a Go map visits its entries in an order that is different from run to run.  What code
finds in a map is settled when it is the same in every order.

- `GoMap.Same`: the same map, visited in another order; `exists_same` gives every order.
- `exists_perm_find?`: a search that can stop at several entries finds any of them in some order.
-/

namespace Go

variable {α β : Type}

lemma exists_perm_find? {l : List α} {p : α → Bool} {a : α} (ha : a ∈ l) (hp : p a = true) :
    ∃ l' : List α, l'.Perm l ∧ l'.find? p = some a := by
  rcases List.mem_iff_append.1 ha with ⟨s, t, rfl⟩
  exact ⟨a :: (s ++ t), List.perm_middle.symm, List.find?_cons_of_pos hp⟩

namespace GoMap

/-- The same entries, in any order of iteration. -/
def Same (m m' : GoMap α) : Prop := m'.pairs.Perm m.pairs

lemma Same.refl (m : GoMap α) : Same m m := List.Perm.refl _

lemma Same.mem_pairs {m m' : GoMap α} (h : Same m m') {e : String × α} :
    e ∈ m'.pairs ↔ e ∈ m.pairs := h.mem_iff

lemma Same.mem_values {m m' : GoMap α} (h : Same m m') {v : α} :
    v ∈ m'.values ↔ v ∈ m.values := (h.map Prod.snd).mem_iff

lemma exists_same {m : GoMap α} {l : List (String × α)} (h : l.Perm m.pairs) :
    ∃ m', Same m m' ∧ m'.pairs = l := by
  have hkeys : (l.map fun e => (⟨e.1, e.2⟩ : Sigma fun _ : String => α)).NodupKeys := by
    have hnodup : (l.map Prod.fst).Nodup := (h.map Prod.fst).nodup_iff.2 m.nodup_keys
    simpa [List.NodupKeys, List.keys, List.map_map, Function.comp_def] using hnodup
  have hpairs : pairs ⟨_, hkeys⟩ = l := by
    simp [pairs, List.map_map, Function.comp_def]
  exact ⟨⟨_, hkeys⟩, by rw [Same, hpairs]; exact h, hpairs⟩

end GoMap

end Go
