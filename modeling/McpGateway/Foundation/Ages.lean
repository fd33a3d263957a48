import Mathlib.Data.List.AList

/-!
# Maps that remember who came last

`AList.insert` puts a new key in front and `AList.replace` leaves the keys where they are, so the keys
of a map that is only changed by these two and by `AList.erase` stand in the order in which they came,
the newest first.

- `newest_insert`, `newest_replace`, `newest_erase_oldest`: what each of the three does to the newest
  value; when the oldest key goes, the newest one stays unless it is the only one.
-/

namespace Ages

variable {κ β : Type} [DecidableEq κ] {m : AList fun _ : κ => β} {k k' : κ} {v v' : β}

def newest (m : AList fun _ : κ => β) : Option β := m.keys.head?.bind fun k => m.lookup k

def oldest (m : AList fun _ : κ => β) : Option κ := m.keys.getLast?

lemma dlookup_cons_of_ne (l : List (Sigma fun _ : κ => β)) (v : β) (h : k' ≠ k) :
    List.dlookup k' (⟨k, v⟩ :: l) = l.dlookup k' :=
  List.dlookup_cons_ne l ⟨k, v⟩ h

lemma dlookup_kreplace (l : List (Sigma fun _ : κ => β)) :
    (l.kreplace k v).dlookup k' = if k' = k then (l.dlookup k).map (fun _ => v) else l.dlookup k' := by
  induction l with
  | nil => simp [List.kreplace]
  | cons e l ih =>
    rcases e with ⟨a, b⟩
    by_cases hk : k = a
    · -- the first entry of the key is replaced, and the rest is left
      subst hk
      have hcons : List.kreplace k v (⟨k, b⟩ :: l) = ⟨k, v⟩ :: l :=
        List.lookmap_cons_some _ _ (by simp)
      rw [hcons]
      by_cases hk' : k' = k
      · subst hk'
        simp
      · rw [dlookup_cons_of_ne l v hk', dlookup_cons_of_ne l b hk', if_neg hk']
    · have hcons : List.kreplace k v (⟨a, b⟩ :: l) = ⟨a, b⟩ :: l.kreplace k v :=
        List.lookmap_cons_none _ _ (by simp [hk])
      rw [hcons, dlookup_cons_of_ne l b hk]
      by_cases hk' : k' = a
      · subst hk'
        simp [Ne.symm hk]
      · rw [dlookup_cons_of_ne _ b hk', ih, dlookup_cons_of_ne l b hk']

lemma lookup_replace (m : AList fun _ : κ => β) (k k' : κ) (v : β) :
    (m.replace k v).lookup k' = if k' = k then (m.lookup k).map (fun _ => v) else m.lookup k' :=
  dlookup_kreplace m.entries

lemma newest_eq_none : newest m = none ↔ m.keys = [] := by
  unfold newest
  cases hkeys : m.keys with
  | nil => simp
  | cons k rest =>
    have hmem : k ∈ m.keys := hkeys ▸ List.mem_cons_self
    have hsome := AList.lookup_isSome.2 (AList.mem_keys.2 hmem)
    simpa using Option.isSome_iff_ne_none.1 hsome

lemma newest_insert (m : AList fun _ : κ => β) (k : κ) (v : β) : newest (m.insert k v) = some v := by
  simp [newest, AList.keys_insert]

lemma newest_replace (h : newest (m.replace k v) = some v') :
    (v' = v ∧ newest m = m.lookup k) ∨ newest m = some v' := by
  unfold newest at h ⊢
  rw [AList.keys_replace] at h
  rcases Option.bind_eq_some_iff.1 h with ⟨a, ha, hlookup⟩
  rw [ha, Option.bind_some]
  rw [lookup_replace] at hlookup
  split_ifs at hlookup with hk
  · rcases Option.map_eq_some_iff.1 hlookup with ⟨-, -, rfl⟩
    exact .inl ⟨rfl, by rw [hk]⟩
  · exact .inr hlookup

lemma newest_erase_oldest (h : oldest m = some k) :
    ((m.erase k).keys = [] ∧ newest m = m.lookup k) ∨ newest (m.erase k) = newest m := by
  unfold newest
  unfold oldest at h
  have hnodup := m.keys_nodup
  rw [AList.keys_erase]
  cases hkeys : m.keys with
  | nil =>
    rw [hkeys] at h
    cases h
  | cons a rest =>
    rw [hkeys] at h hnodup
    by_cases hak : a = k
    · -- the newest is the oldest, so it is the only one
      subst hak
      have hrest : rest = [] := by
        by_contra hne
        rw [List.getLast?_cons_of_ne_nil hne] at h
        exact (List.nodup_cons.1 hnodup).1 (List.mem_of_getLast? h)
      subst hrest
      exact .inl ⟨by simp, rfl⟩
    · refine .inr ?_
      rw [List.erase_cons_tail (by simpa using hak)]
      simp only [List.head?_cons, Option.bind_some]
      exact AList.lookup_erase_ne hak

end Ages
