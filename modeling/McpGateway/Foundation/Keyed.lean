import McpGateway.Foundation.Go

/-!
# Keyed collections kept in step by differences

A list of entries that go by a name, the index of such a list, and a registry that several parties
write to by name.  A party that lists its entries anew only registers the names that are new and
unregisters those that are gone.

- `byName` and `register` resolve a repeated name in favour of the later entry; `lookup_register` and
  `lookup_unregister` say what a lookup finds afterwards.
- `addedEntries` are the entries under new names: each new name once (`mem_map_addedEntries`,
  `nodup_addedEntries`).
- `View` is what of a registry belongs to one party.  `Mirrored` says that a party's list, what it
  serves, its index and its view all have the same names; `Mirrored.update` and `Mirrored.clear` are
  the rules for the two ways in which a party changes them.
- `Exact` says that the view is what is listed, entry by entry; `Mirrored.exact_update_iff` that a
  difference by name makes it so just when no entry has changed under its name (`Settled`).
-/

namespace Keyed

open Go

variable {α : Type} (name : α → String)

def byName (xs : List α) : GoMap α :=
  GoMap.ofPairs (xs.map fun x => (name x, x))

/-- The entries of `new` under names that `old` does not have. -/
def addedEntries (old new : List α) : List α :=
  (byName name new).values.filter fun x => ((byName name old).lookup (name x)).isNone

def register (xs : List α) (m : GoMap α) : GoMap α :=
  xs.foldl (fun m x => AList.insert (name x) x m) m

def unregister (names : List String) (m : GoMap α) : GoMap α :=
  names.foldl (fun m n => AList.erase n m) m

variable {name}

/-! ## Lookups -/

lemma byName_eq_register (xs : List α) : byName name xs = register name xs ∅ := by
  unfold byName register GoMap.ofPairs
  rw [List.foldl_map]

lemma register_register (xs ys : List α) (m : GoMap α) :
    register name ys (register name xs m) = register name (xs ++ ys) m := by
  unfold register
  rw [foldl_append]

@[simp] lemma byName_nil : byName name [] = ∅ := rfl

@[simp] lemma register_nil (m : GoMap α) : register name [] m = m := rfl

@[simp] lemma unregister_nil (m : GoMap α) : unregister [] m = m := rfl

lemma lookup_register (xs : List α) (m : GoMap α) (n : String) :
    (register name xs m).lookup n = ((byName name xs).lookup n).or (m.lookup n) := by
  rw [byName_eq_register]
  unfold register
  induction xs using List.reverseRecOn with
  | nil => simp
  | append_singleton xs x ih =>
    simp only [foldl_append, foldl_cons, foldl_nil, lookup_insert]
    split_ifs with hn
    · rfl
    · exact ih

lemma lookup_unregister (names : List String) (m : GoMap α) (n : String) :
    (unregister names m).lookup n = if n ∈ names then none else m.lookup n := by
  unfold unregister
  induction names generalizing m with
  | nil => simp
  | cons k rest ih =>
    rw [foldl_cons, ih, lookup_erase]
    by_cases hk : n = k
    · simp [hk]
    · simp [hk]

variable {xs : List α} {n : String}

lemma of_lookup_byName {x : α} (h : (byName name xs).lookup n = some x) : x ∈ xs ∧ name x = n := by
  obtain ⟨y, hy, heq⟩ := mem_map.1 (mem_of_lookup_ofPairs h)
  cases heq
  exact ⟨hy, rfl⟩

lemma isSome_lookup_byName : ((byName name xs).lookup n).isSome = true ↔ n ∈ xs.map name := by
  constructor
  · intro h
    obtain ⟨x, hx⟩ := isSome_iff_exists.1 h
    obtain ⟨hmem, rfl⟩ := of_lookup_byName hx
    exact mem_map_of_mem hmem
  · intro h
    rw [byName_eq_register]
    unfold register
    induction xs using List.reverseRecOn with
    | nil => simp at h
    | append_singleton xs x ih =>
      simp only [foldl_append, foldl_cons, foldl_nil, lookup_insert]
      split_ifs with hn
      · rfl
      · have hbefore : n ∈ xs.map name := by simpa [hn] using h
        exact ih hbefore

lemma lookup_byName_eq_none : (byName name xs).lookup n = none ↔ n ∉ xs.map name := by
  rw [← isSome_lookup_byName, Option.not_isSome_iff_eq_none]

/-! ## Differences -/

variable {old new : List α}

lemma of_mem_addedEntries {x : α} (h : x ∈ addedEntries name old new) :
    x ∈ new ∧ name x ∉ old.map name := by
  obtain ⟨hvalue, hold⟩ := mem_filter.1 h
  obtain ⟨k, hk⟩ := mem_values_iff.1 hvalue
  refine ⟨(of_lookup_byName hk).1, ?_⟩
  rw [← lookup_byName_eq_none]
  simpa using hold

lemma exists_mem_addedEntries {x : α} (hx : x ∈ new)
    (hold : name x ∉ old.map name) : ∃ y ∈ addedEntries name old new, name y = name x := by
  obtain ⟨y, hy⟩ := isSome_iff_exists.1
    (isSome_lookup_byName.2 (mem_map_of_mem (f := name) hx))
  have hname := (of_lookup_byName hy).2
  refine ⟨y, mem_filter.2 ⟨mem_values_iff.2 ⟨_, hy⟩, ?_⟩, hname⟩
  rw [hname, lookup_byName_eq_none.2 hold]
  rfl

lemma mem_map_addedEntries :
    n ∈ (addedEntries name old new).map name ↔ n ∈ new.map name ∧ n ∉ old.map name := by
  constructor
  · intro h
    obtain ⟨x, hx, rfl⟩ := mem_map.1 h
    obtain ⟨hnew, hold⟩ := of_mem_addedEntries hx
    exact ⟨mem_map_of_mem hnew, hold⟩
  · rintro ⟨hnew, hold⟩
    obtain ⟨x, hx, rfl⟩ := mem_map.1 hnew
    obtain ⟨y, hy, hname⟩ := exists_mem_addedEntries hx hold
    exact mem_map.2 ⟨y, hy, hname⟩

lemma map_name_values_byName (xs : List α) :
    (byName name xs).values.map name = (byName name xs).pairs.map Prod.fst := by
  unfold GoMap.values
  rw [List.map_map]
  refine List.map_congr_left ?_
  rintro ⟨k, x⟩ hp
  exact (of_lookup_byName (mem_pairs_iff.1 hp)).2

lemma nodup_values_byName (xs : List α) : ((byName name xs).values.map name).Nodup := by
  rw [map_name_values_byName]
  exact GoMap.nodup_keys _

lemma nodup_addedEntries (old new : List α) : ((addedEntries name old new).map name).Nodup :=
  (nodup_values_byName new).sublist (List.filter_sublist.map name)

/-! ## One party's part of a registry -/

abbrev View (α : Type) := String → α → Prop

/-- What of a registry satisfies `mine`. -/
def view (mine : α → Prop) (m : GoMap α) : View α :=
  fun n x => m.lookup n = some x ∧ mine x

/-- A view after the names in `gone` were unregistered and the entries `new` registered. -/
def exchanged (name : α → String) (gone : List String) (new : List α) (v : View α) : View α :=
  fun n x => (byName name new).lookup n = some x ∨ (n ∉ new.map name ∧ n ∉ gone ∧ v n x)

@[simp] lemma exchanged_nil (v : View α) : exchanged name [] [] v = v := by
  funext n x
  simp [exchanged]

lemma view_exchange {mine : α → Prop} (hmine : ∀ x ∈ new, mine x) (gone : List String) (m : GoMap α) :
    view mine (register name new (unregister gone m)) = exchanged name gone new (view mine m) := by
  funext n x
  unfold view exchanged
  rw [lookup_register, lookup_unregister, ← lookup_byName_eq_none, eq_iff_iff]
  cases hn : (byName name new).lookup n with
  | none =>
    by_cases hgone : n ∈ gone <;> simp [hgone]
  | some y =>
    have hy : mine y := hmine y (of_lookup_byName hn).1
    constructor
    · rintro ⟨heq, -⟩
      exact .inl heq
    · rintro (heq | ⟨hnone, -⟩)
      · cases heq
        exact ⟨rfl, hy⟩
      · cases hnone

lemma exists_exchanged {gone : List String} {v : View α} :
    (∃ x, exchanged name gone new v n x) ↔ n ∈ new.map name ∨ (n ∉ gone ∧ ∃ x, v n x) := by
  by_cases hnew : n ∈ new.map name
  · obtain ⟨x, hx⟩ := isSome_iff_exists.1 (isSome_lookup_byName.2 hnew)
    exact ⟨fun _ => .inl hnew, fun _ => ⟨x, .inl hx⟩⟩
  · have hnone := lookup_byName_eq_none.2 hnew
    simp [exchanged, hnew, hnone]

/-! ## Mirrors -/

/-- A party's list, what it serves of it, its index of served names and its view of the registry all
have the same names.  `q` is the name under which a listed name is served. -/
structure Mirrored (name : α → String) (q : String → String) (listed served : List α)
    (index : GoMap α) (v : View α) : Prop where
  nodup : (served.map name).Nodup
  served_iff : ∀ n, n ∈ served.map name ↔ n ∈ listed.map (q ∘ name)
  index_iff : ∀ n, (index.lookup n).isSome = true ↔ n ∈ listed.map (q ∘ name)
  view_iff : ∀ n, (∃ x, v n x) ↔ n ∈ listed.map (q ∘ name)

/-- What is served after the names in `gone` were dropped and `added` put in. -/
def reserve (name : α → String) (served : List α) (gone : List String) (added : List α) : List α :=
  (served.filter fun x => !gone.contains (name x)) ++ added

section Mirror

variable {q : String → String} {listed served : List α} {index : GoMap α} {v : View α}

lemma Mirrored.empty (hv : ∀ n x, ¬ v n x) : Mirrored name q [] [] ∅ v where
  nodup := List.nodup_nil
  served_iff := by simp
  index_iff := by simp
  view_iff := by simpa using hv

lemma Mirrored.clear (h : Mirrored name q listed served index v) :
    Mirrored name q [] [] ∅ (exchanged name (served.map name) [] v) := by
  refine Mirrored.empty ?_
  intro n x hx
  rcases exists_exchanged.1 ⟨x, hx⟩ with hnew | ⟨hgone, hbefore⟩
  · cases hnew
  · exact hgone ((h.served_iff n).2 ((h.view_iff n).1 hbefore))

lemma mem_map_comp_addedEntries (hq : Function.Injective q) :
    n ∈ (addedEntries name old new).map (q ∘ name) ↔
      n ∈ new.map (q ∘ name) ∧ n ∉ old.map (q ∘ name) := by
  have himage : ∀ (xs : List α) m, q m ∈ xs.map (q ∘ name) ↔ m ∈ xs.map name := by
    intro xs m
    simp [hq.eq_iff]
  by_cases himg : ∃ m, q m = n
  · rcases himg with ⟨m, rfl⟩
    rw [himage, himage, himage]
    exact mem_map_addedEntries
  · -- a name that is no image is served by nobody
    have hnone : ∀ xs : List α, n ∉ xs.map (q ∘ name) := by
      intro xs hn
      rcases mem_map.1 hn with ⟨x, -, hx⟩
      exact himg ⟨name x, hx⟩
    simp only [hnone, false_and]

variable {serve : α → α} (hserve : ∀ x, name (serve x) = q (name x)) (hq : Function.Injective q)

include hserve hq

lemma mem_map_served : n ∈ ((addedEntries name old new).map serve).map name ↔ n ∈ new.map (q ∘ name) ∧
    n ∉ old.map (q ∘ name) := by
  have hmap : ((addedEntries name old new).map serve).map name =
      (addedEntries name old new).map (q ∘ name) := by
    simp [List.map_map, Function.comp_def, hserve]
  rw [hmap, mem_map_comp_addedEntries hq]

lemma nodup_served (old new : List α) : (((addedEntries name old new).map serve).map name).Nodup := by
  have hmap : ((addedEntries name old new).map serve).map name =
      ((addedEntries name old new).map name).map q := by
    simp [List.map_map, Function.comp_def, hserve]
  rw [hmap]
  exact (nodup_addedEntries old new).map hq

lemma Mirrored.update (h : Mirrored name q old served index v) : Mirrored name q new
      (reserve name served ((addedEntries name new old).map (q ∘ name))
        ((addedEntries name old new).map serve))
      (byName (q ∘ name) new)
      (exchanged name ((addedEntries name new old).map (q ∘ name))
        ((addedEntries name old new).map serve) v) := by
  -- a name that is kept is an old one that is still listed
  have hkept : ∀ n, n ∈ (served.filter fun x =>
      !((addedEntries name new old).map (q ∘ name)).contains (name x)).map name ↔
      n ∈ old.map (q ∘ name) ∧ n ∈ new.map (q ∘ name) := by
    intro n
    have hfilter : n ∈ (served.filter fun x =>
        !((addedEntries name new old).map (q ∘ name)).contains (name x)).map name ↔
        n ∈ served.map name ∧ n ∉ (addedEntries name new old).map (q ∘ name) := by
      simp only [mem_map, mem_filter, not_eq_true', List.contains_eq_mem,
        decide_eq_false_iff_not]
      constructor
      · rintro ⟨x, ⟨hx, hgone⟩, rfl⟩
        exact ⟨⟨x, hx, rfl⟩, hgone⟩
      · rintro ⟨⟨x, hx, rfl⟩, hgone⟩
        exact ⟨x, ⟨hx, hgone⟩, rfl⟩
    rw [hfilter, h.served_iff, mem_map_comp_addedEntries hq]
    tauto
  refine ⟨?_, ?_, fun n => isSome_lookup_byName, ?_⟩
  · unfold reserve
    rw [map_append]
    refine List.Nodup.append (h.nodup.sublist (List.filter_sublist.map name))
      (nodup_served hserve hq old new) ?_
    intro n hn hadded
    exact ((mem_map_served hserve hq).1 hadded).2 ((hkept n).1 hn).1
  · intro n
    unfold reserve
    rw [map_append, mem_append, hkept, mem_map_served hserve hq]
    tauto
  · intro n
    rw [exists_exchanged, h.view_iff, mem_map_served hserve hq, mem_map_comp_addedEntries hq]
    tauto

end Mirror

/-! ## Exact mirrors -/

def Exact (name : α → String) (serve : α → α) (listed : List α) (v : View α) : Prop :=
  ∀ n x, v n x ↔ n = name x ∧ x ∈ listed.map serve

/-- Whatever of the view goes by the served name of a listed entry is that entry, and no two listed
entries of one name differ. -/
def Settled (name : α → String) (serve : α → α) (listed : List α) (v : View α) : Prop :=
  ∀ x ∈ listed, (∀ y, v (name (serve x)) y → y = serve x) ∧
    ∀ y ∈ listed, name y = name x → serve y = serve x

lemma Mirrored.exact_update_iff {q : String → String} {serve : α → α}
    (hserve : ∀ x, name (serve x) = q (name x)) (hq : Function.Injective q) {served : List α}
    {index : GoMap α} {v v' : View α} (h : Mirrored name q old served index v)
    (hone : ∀ n x y, v' n x → v' n y → x = y)
    (hv : v' = exchanged name ((addedEntries name new old).map (q ∘ name))
      ((addedEntries name old new).map serve) v) :
    Exact name serve new v' ↔ Settled name serve new v := by
  have hadded : ∀ n, n ∈ ((addedEntries name old new).map serve).map name ↔
      n ∈ new.map (q ∘ name) ∧ n ∉ old.map (q ∘ name) := fun _ => mem_map_served hserve hq
  have hgone : ∀ n, n ∈ (addedEntries name new old).map (q ∘ name) ↔
      n ∈ old.map (q ∘ name) ∧ n ∉ new.map (q ∘ name) := fun _ => mem_map_comp_addedEntries hq
  -- what is in the view under a name that is still listed stays there
  have hstays : ∀ x ∈ new, ∀ y, v (q (name x)) y → v' (q (name x)) y := by
    intro x hx y hy
    have hnew : q (name x) ∈ new.map (q ∘ name) := mem_map.2 ⟨x, hx, rfl⟩
    have hold : q (name x) ∈ old.map (q ∘ name) := (h.view_iff _).1 ⟨y, hy⟩
    rw [hv]
    exact .inr ⟨fun hn => ((hadded _).1 hn).2 hold, fun hn => ((hgone _).1 hn).2 hnew, hy⟩
  constructor
  · intro hexact x hx
    have hserved : ∀ y ∈ new, name y = name x → v' (q (name x)) (serve y) := by
      intro y hy hname
      rw [hexact, hserve, hname]
      exact ⟨rfl, mem_map_of_mem hy⟩
    have hx' := hserved x hx rfl
    rw [hserve]
    exact ⟨fun y hy => hone _ _ _ (hstays x hx y hy) hx',
      fun y hy hname => hone _ _ _ (hserved y hy hname) hx'⟩
  · intro hsettled n x
    constructor
    · intro hx
      rw [hv] at hx
      rcases hx with hnew | ⟨-, hng, hold⟩
      · obtain ⟨hmem, rfl⟩ := of_lookup_byName hnew
        obtain ⟨y, hy, rfl⟩ := mem_map.1 hmem
        exact ⟨rfl, mem_map_of_mem (of_mem_addedEntries hy).1⟩
      · have hlisted : n ∈ new.map (q ∘ name) := by
          by_contra hout
          exact hng ((hgone n).2 ⟨(h.view_iff n).1 ⟨x, hold⟩, hout⟩)
        obtain ⟨y, hy, rfl⟩ := mem_map.1 hlisted
        rw [Function.comp_apply, ← hserve] at hold
        obtain rfl := (hsettled y hy).1 x hold
        exact ⟨(hserve y).symm, mem_map_of_mem hy⟩
    · rintro ⟨rfl, hmem⟩
      obtain ⟨y, hy, rfl⟩ := mem_map.1 hmem
      by_cases hold : ∃ z, v (name (serve y)) z
      · obtain ⟨z, hz⟩ := hold
        have heq := (hsettled y hy).1 z hz
        subst heq
        rw [hserve] at hz ⊢
        exact hstays y hy _ hz
      · have hnew : name (serve y) ∈ ((addedEntries name old new).map serve).map name := by
          refine (hadded _).2 ⟨mem_map.2 ⟨y, hy, (hserve y).symm⟩, ?_⟩
          rwa [← h.view_iff]
        obtain ⟨z, hz⟩ := isSome_iff_exists.1 (isSome_lookup_byName.2 hnew)
        obtain ⟨hmem', hname⟩ := of_lookup_byName hz
        obtain ⟨w, hw, rfl⟩ := mem_map.1 hmem'
        rw [hserve, hserve] at hname
        rw [(hsettled y hy).2 w (of_mem_addedEntries hw).1 (hq hname)] at hz
        rw [hv]
        exact .inl hz

end Keyed
