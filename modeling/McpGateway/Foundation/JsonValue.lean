import McpGateway.Foundation.Decimal
import McpGateway.Foundation.JsonText
import McpGateway.Foundation.Members
import Mathlib.Logic.Function.Basic

/-!
# The value of a JSON text

What a tree stands for: numbers are rationals, strings are texts, and an object is the function from
names to values in which the last member of a name wins.  Decoding a tree into an `any` and writing
that gives a text of the same value exactly if every number that counts survives it.
-/

namespace Go

open Go

inductive Value where
  | null
  | bool (b : Bool)
  | num (q : ℚ)
  | str (s : String)
  | arr (elems : List Value)
  | obj (members : String → Option Value)

namespace Value

def member (k : String) : Value → Option Value
  | .obj members => members k
  | _ => none

def setMember (w : Value) (k : String) (v : Value) : Value :=
  match w with
  | .obj members => .obj (Function.update members k (some v))
  | w => w

end Value

namespace Json

mutual

def denote : Json → Value
  | .null => .null
  | .bool b => .bool b
  | .num lit => .num (numValue lit)
  | .str lit => .str (unquote lit)
  | .arr elems => .arr (denoteElems elems)
  | .obj fields => .obj (denoteFields fields fun _ => none)

def denoteElems : List Json → List Value
  | [] => []
  | v :: vs => denote v :: denoteElems vs

def denoteFields : List (Bytes × Json) → (String → Option Value) → String → Option Value
  | [], acc => acc
  | (k, v) :: rest, acc => denoteFields rest (Function.update acc (unquote k) (some (denote v)))

end

mutual

/-- The literals of the numbers that count: a member that a later one of the same name replaces does not. -/
def literals : Json → List Bytes
  | .null | .bool _ | .str _ => []
  | .num lit => [lit]
  | .arr elems => literalsElems elems
  | .obj fields => literalsFields fields

def literalsElems : List Json → List Bytes
  | [] => []
  | v :: vs => literals v ++ literalsElems vs

def literalsFields : List (Bytes × Json) → List Bytes
  | [] => []
  | (k, v) :: rest =>
    (if unquote k ∈ rest.map fun kv => unquote kv.1 then [] else literals v) ++ literalsFields rest

end

/-! ## Objects by name -/

def addMember (acc : String → Option Value) (f : String × Json) : String → Option Value :=
  Function.update acc f.1 (some (denote f.2))

def members (fields : List (String × Json)) : String → Option Value :=
  fields.foldl addMember fun _ => none

lemma denoteFields_eq (fields : List (Bytes × Json)) (acc : String → Option Value) :
    denoteFields fields acc = (fields.map fun kv => (unquote kv.1, kv.2)).foldl addMember acc := by
  induction fields generalizing acc with
  | nil => rfl
  | cons kv rest ih => exact ih _

lemma members_perm {l l' : List (String × Json)} (hperm : l.Perm l')
    (hnodup : (l.map Prod.fst).Nodup) : members l = members l' := by
  refine hperm.foldl_eq' ?_ _
  intro x hx y hy acc
  by_cases hxy : x = y
  · rw [hxy]
  · have hne : x.1 ≠ y.1 := fun h => hxy (List.inj_on_of_nodup_map hnodup hx hy h)
    exact Function.update_comm hne _ _ _

lemma members_concat (l : List (String × Json)) (f : String × Json) :
    members (l ++ [f]) = addMember (members l) f := by
  rw [members, foldl_append]
  rfl

lemma denote_named (fields : List (String × Json)) :
    denote (.obj (fields.map fun f => (quoted f.1, f.2))) = .obj (members fields) := by
  have hnames : ((fun kv : Bytes × Json => (unquote kv.1, kv.2)) ∘ fun f : String × Json =>
      (quoted f.1, f.2)) = id := by
    funext f
    simp
  rw [denote, denoteFields_eq, List.map_map, hnames, List.map_id]
  rfl

lemma denoteFields_member (fields : List (Bytes × Json)) (k : String) :
    denoteFields fields (fun _ => none) k = (member k fields).map denote := by
  rw [denoteFields_eq]
  induction fields using List.reverseRecOn with
  | nil => rfl
  | append_singleton fields kv ih =>
    rw [map_append, foldl_append]
    show addMember _ (unquote kv.1, kv.2) k = _
    by_cases hk : unquote kv.1 = k
    · have hlast : member k (fields ++ [kv]) = some kv.2 := by
        rw [member, List.filter_append, List.filter_cons_of_pos (by simpa using hk)]
        simp
      rw [hlast, addMember, hk, update_self]
      rfl
    · have hskip : member k (fields ++ [kv]) = member k fields := by
        rw [member, List.filter_append, List.filter_cons_of_neg (by simpa using hk)]
        simp [member]
      rw [hskip, addMember, update_of_ne (Ne.symm hk), ih]

variable {l : List (String × Json)}

lemma members_of_mem (hnodup : (l.map Prod.fst).Nodup) {f : String × Json}
    (hf : f ∈ l) : members l f.1 = some (denote f.2) := by
  induction l using List.reverseRecOn with
  | nil => cases hf
  | append_singleton l g ih =>
    rw [map_append, List.nodup_append] at hnodup
    rw [members_concat]
    rcases mem_append.1 hf with hf | hf
    · have hne : f.1 ≠ g.1 := hnodup.2.2 f.1 (mem_map_of_mem hf) g.1 (by simp)
      rw [addMember, update_of_ne hne]
      exact ih hnodup.1 hf
    · rw [mem_singleton.1 hf, addMember, update_self]

lemma foldl_addMember_of_not_mem {k : String}
    (hk : k ∉ l.map Prod.fst) (acc : String → Option Value) : l.foldl addMember acc k = acc k := by
  induction l generalizing acc with
  | nil => rfl
  | cons f l ih =>
    rw [map_cons, mem_cons, not_or] at hk
    rw [foldl_cons, ih hk.2]
    exact update_of_ne hk.1 _ _

lemma members_of_not_mem {k : String} (hk : k ∉ l.map Prod.fst) :
    members l k = none :=
  foldl_addMember_of_not_mem hk _

lemma foldl_addMember_filter {k k' : String} (hne : k' ≠ k)
    {acc acc' : String → Option Value} (hacc : acc k' = acc' k') :
    (l.filter fun f => f.1 != k).foldl addMember acc k' = l.foldl addMember acc' k' := by
  induction l generalizing acc acc' with
  | nil => exact hacc
  | cons f l ih =>
    by_cases hf : f.1 = k
    · rw [List.filter_cons_of_neg (by simp [hf]), foldl_cons]
      refine ih ?_
      rw [hacc, addMember, update_of_ne (hf ▸ hne)]
    · rw [List.filter_cons_of_pos (by simp [hf]), foldl_cons, foldl_cons]
      refine ih ?_
      by_cases hk : k' = f.1
      · rw [addMember, addMember, hk, update_self, update_self]
      · rw [addMember, addMember, update_of_ne hk, update_of_ne hk, hacc]

end Json

namespace Any

open Json

/-! ## The tree an `any` is written as -/

section Sorting

variable {α β : Type}

lemma insertField_perm (f : String × α) (l : List (String × α)) : (insertField f l).Perm (f :: l) := by
  induction l with
  | nil => exact .refl _
  | cons g l ih =>
    unfold insertField
    split_ifs
    · exact .refl _
    · exact (ih.cons g).trans (.swap f g l)

lemma foldr_insertField_perm (l : List (String × α)) : (l.foldr insertField []).Perm l := by
  induction l with
  | nil => exact .refl _
  | cons f l ih => exact (insertField_perm f _).trans (ih.cons f)

lemma insertField_map (g : α → β) (f : String × α) (l : List (String × α)) :
    (insertField f l).map (fun e => (e.1, g e.2)) = insertField (f.1, g f.2) (l.map fun e => (e.1,
    g e.2)) := by
  induction l with
  | nil => rfl
  | cons e l ih =>
    simp only [insertField, map_cons]
    split_ifs
    · rfl
    · rw [map_cons, ih]

lemma foldr_insertField_map (g : α → β) (l : List (String × α)) : (l.map fun e => (e.1,
    g e.2)).foldr insertField [] = (l.foldr insertField []).map fun e => (e.1, g e.2) := by
  induction l with
  | nil => rfl
  | cons f l ih => rw [map_cons, List.foldr_cons, ih, List.foldr_cons, insertField_map]

end Sorting

def object (fields : List (String × Json)) : Json :=
  .obj ((fields.foldr insertField []).map fun f => (quoted f.1, f.2))

mutual

/-- The tree that is written for an `any`. -/
def tree : Any → Json
  | .nil => .null
  | .bool b => .bool b
  | .float64 f => .num (bytes f.toJson)
  | .string s => .str (quoted s)
  | .slice elems => .arr (treeElems elems)
  | .map fields => object (treeFields fields)

def treeElems : List Any → List Json
  | [] => []
  | a :: as => tree a :: treeElems as

def treeFields : List (String × Any) → List (String × Json)
  | [] => []
  | (k, a) :: rest => (k, tree a) :: treeFields rest

end

lemma treeFields_eq (fields : List (String × Any)) :
    treeFields fields = fields.map fun f => (f.1, tree f.2) := by
  induction fields with
  | nil => rfl
  | cons f rest ih =>
    obtain ⟨k, a⟩ := f
    rw [treeFields, ih]
    rfl

lemma renderFields_object (fields : List (String × Json)) :
    renderFields (fields.map fun f => (quoted f.1, f.2)) =
      fields.map fun f => Json.quote f.1 ++ bytes ":" ++ render f.2 := by
  induction fields with
  | nil => rfl
  | cons f rest ih =>
    rw [map_cons, renderFields, ih]
    rfl

lemma writeObject_render (fields : List (String × Json)) :
    writeObject (fields.map fun f => (f.1, render f.2)) = render (object fields) := by
  rw [writeObject, foldr_insertField_map, object, render, renderFields_object, List.map_map]
  rfl

mutual

lemma marshal_eq (a : Any) : marshal a = render (tree a) := by
  match a with
  | .nil => rfl
  | .bool b => rfl
  | .float64 f => rfl
  | .string s => rfl
  | .slice elems => rw [marshal, tree, render, marshalElems_eq]
  | .map fields => rw [marshal, tree, marshalFields_eq, writeObject_render]

lemma marshalElems_eq (as : List Any) : marshalElems as = renderElems (treeElems as) := by
  match as with
  | [] => rfl
  | a :: as => rw [marshalElems, treeElems, renderElems, marshal_eq a, marshalElems_eq as]

lemma marshalFields_eq (fields : List (String × Any)) :
    marshalFields fields = (treeFields fields).map fun f => (f.1, render f.2) := by
  match fields with
  | [] => rfl
  | (k, a) :: rest => rw [marshalFields, treeFields, map_cons, marshal_eq a, marshalFields_eq rest]

end

/-! ## What it stands for -/

lemma denote_object {fields : List (String × Json)} (hnodup : (fields.map Prod.fst).Nodup) :
    denote (object fields) = .obj (members fields) := by
  have hperm := foldr_insertField_perm fields
  have hsorted : ((fields.foldr insertField []).map Prod.fst).Nodup :=
    (hperm.map Prod.fst).nodup_iff.2 hnodup
  rw [object, denote_named, members_perm hperm hsorted]

lemma valid_object {fields : List (String × Json)} (h : ∀ f ∈ fields, Valid f.2) :
    Valid (object fields) := by
  rw [object, Valid, validFields_iff]
  intro kv hkv
  obtain ⟨f, hf, rfl⟩ := mem_map.1 hkv
  exact ⟨isString_quoted f.1, h f ((foldr_insertField_perm fields).mem_iff.1 hf)⟩

lemma depth_object {fields : List (String × Json)} {d : ℕ} (h : ∀ f ∈ fields, depth f.2 ≤ d) :
    depth (object fields) ≤ d + 1 := by
  rw [object, depth]
  refine Nat.succ_le_succ (depthFields_le_iff.2 ?_)
  intro kv hkv
  obtain ⟨f, hf, rfl⟩ := mem_map.1 hkv
  exact h f ((foldr_insertField_perm fields).mem_iff.1 hf)

lemma members_setKey (k : String) (a : Any) (fields : List (String × Any)) :
    members (treeFields (setKey k a fields)) =
      Function.update (members (treeFields fields)) k (some (denote (tree a))) := by
  have hkeep : treeFields (setKey k a fields) =
      ((treeFields fields).filter fun f => f.1 != k) ++ [(k, tree a)] := by
    simp only [treeFields_eq, setKey, map_append, List.filter_map]
    rfl
  rw [hkeep, members_concat]
  funext k'
  by_cases hk : k' = k
  · subst hk
    rw [addMember, update_self, update_self]
  · rw [addMember, update_of_ne hk, update_of_ne hk]
    exact foldl_addMember_filter hk rfl

lemma nodup_setKey (k : String) (a : Any) {fields : List (String × Any)}
    (h : (fields.map Prod.fst).Nodup) : ((setKey k a fields).map Prod.fst).Nodup := by
  rw [setKey, map_append, List.nodup_append]
  refine ⟨h.sublist (List.filter_sublist.map _), List.nodup_singleton k, ?_⟩
  intro x hx y hy
  obtain ⟨f, hf, rfl⟩ := mem_map.1 hx
  have hfk : f.1 ≠ k := by simpa using (mem_filter.1 hf).2
  rw [mem_singleton.1 hy]
  exact hfk

/-- The fields of a map: no name twice, and every value written validly and not too deep. -/
structure WellFormed (d : ℕ) (fields : List (String × Any)) : Prop where
  nodup : (fields.map Prod.fst).Nodup
  valid : ∀ f ∈ fields, Valid (tree f.2)
  depth : ∀ f ∈ fields, Json.depth (tree f.2) ≤ d

namespace WellFormed

variable {d : ℕ} {fields : List (String × Any)}

lemma nil (d : ℕ) : WellFormed d [] :=
  ⟨List.nodup_nil, (fun f hf => by cases hf), (fun f hf => by cases hf)⟩

variable (h : WellFormed d fields)

include h

lemma setKey (k : String) {a : Any} (ha : Valid (tree a))
    (hd : Json.depth (tree a) ≤ d) : WellFormed d (setKey k a fields) := by
  have hmem : ∀ f ∈ Any.setKey k a fields, f ∈ fields ∨ f = (k, a) := by
    intro f hf
    rcases mem_append.1 hf with hf | hf
    · exact .inl (mem_filter.1 hf).1
    · exact .inr (mem_singleton.1 hf)
  refine ⟨nodup_setKey k a h.nodup, ?_, ?_⟩
  · intro f hf
    rcases hmem f hf with hf | rfl
    · exact h.valid f hf
    · exact ha
  · intro f hf
    rcases hmem f hf with hf | rfl
    · exact h.depth f hf
    · exact hd

lemma denote :
    Json.denote (tree (.map fields)) = .obj (members (treeFields fields)) := by
  rw [tree]
  refine denote_object ?_
  rw [treeFields_eq, List.map_map]
  exact h.nodup

lemma valid_tree : Valid (tree (.map fields)) := by
  rw [tree]
  refine valid_object ?_
  rw [treeFields_eq]
  intro f hf
  obtain ⟨g, hg, rfl⟩ := mem_map.1 hf
  exact h.valid g hg

lemma depth_tree : Json.depth (tree (.map fields)) ≤ d + 1 := by
  rw [tree]
  refine depth_object ?_
  rw [treeFields_eq]
  intro f hf
  obtain ⟨g, hg, rfl⟩ := mem_map.1 hf
  exact h.depth g hg

end WellFormed

lemma members_pairs (m : GoMap Any) (k : String) :
    members (treeFields m.pairs) k = (m.lookup k).map fun a => Json.denote (tree a) := by
  have hnames : (treeFields m.pairs).map Prod.fst = m.pairs.map Prod.fst := by
    rw [treeFields_eq, List.map_map]
    rfl
  cases hk : m.lookup k with
  | none =>
    refine members_of_not_mem ?_
    rw [hnames]
    intro hmem
    obtain ⟨⟨k', a⟩, hp, rfl⟩ := mem_map.1 hmem
    rw [mem_pairs_iff.1 hp] at hk
    cases hk
  | some a =>
    have hmem : (k, tree a) ∈ treeFields m.pairs := by
      rw [treeFields_eq]
      exact mem_map.2 ⟨(k, a), mem_pairs_iff.2 hk, rfl⟩
    exact members_of_mem (hnames ▸ m.nodup_keys) hmem

lemma wellFormed_pairs {d : ℕ} {m : GoMap Any} (h : ∀ k a, m.lookup k = some a → Valid (tree a) ∧
    Json.depth (tree a) ≤ d) : WellFormed d m.pairs :=
  ⟨m.nodup_keys, (fun f hf => (h f.1 f.2 (mem_pairs_iff.1 hf)).1),
    (fun f hf => (h f.1 f.2 (mem_pairs_iff.1 hf)).2)⟩

mutual

lemma ofJson_valid (v : Json) {a : Any} (h : ofJson v = some a) :
    Valid (tree a) ∧ depth (tree a) ≤ depth v := by
  match v with
  | .null =>
    cases h
    exact ⟨trivial, Nat.le_refl _⟩
  | .bool b =>
    cases h
    exact ⟨trivial, Nat.le_refl _⟩
  | .num lit =>
    obtain ⟨f, hf, rfl⟩ := map_eq_some_iff.1 h
    exact ⟨isNumber_toJson hf, Nat.le_refl _⟩
  | .str lit =>
    cases h
    exact ⟨isString_quoted _, Nat.le_refl _⟩
  | .arr elems =>
    obtain ⟨as, has, rfl⟩ := map_eq_some_iff.1 h
    obtain ⟨hvalid, hdepth⟩ := ofElems_valid elems has
    exact ⟨hvalid, Nat.succ_le_succ hdepth⟩
  | .obj fields =>
    obtain ⟨kvs, hkvs, rfl⟩ := map_eq_some_iff.1 h
    have hwf := ofFields_wellFormed fields hkvs (WellFormed.nil (depthFields fields)) (Nat.le_refl _)
    exact ⟨hwf.valid_tree, hwf.depth_tree⟩

lemma ofElems_valid (vs : List Json) {as : List Any} (h : ofElems vs = some as) :
    ValidElems (treeElems as) ∧ depthElems (treeElems as) ≤ depthElems vs := by
  match vs with
  | [] =>
    cases h
    exact ⟨trivial, Nat.le_refl _⟩
  | v :: vs =>
    obtain ⟨a, ha, h⟩ := bind_eq_some_iff.1 h
    obtain ⟨as', has, h⟩ := bind_eq_some_iff.1 h
    cases h
    obtain ⟨hvalid, hdepth⟩ := ofJson_valid v ha
    obtain ⟨hvalids, hdepths⟩ := ofElems_valid vs has
    exact ⟨⟨hvalid, hvalids⟩, max_le_max hdepth hdepths⟩

lemma ofFields_wellFormed (fields : List (Bytes × Json)) {acc kvs : List (String × Any)} {d : ℕ}
    (h : ofFields fields acc = some kvs) (hacc : WellFormed d acc) (hdepth : depthFields fields ≤ d) :
    WellFormed d kvs := by
  match fields with
  | [] =>
    cases h
    exact hacc
  | (k, v) :: rest =>
    obtain ⟨a, ha, h⟩ := bind_eq_some_iff.1 h
    rw [depthFields] at hdepth
    obtain ⟨hvalid, hd⟩ := ofJson_valid v ha
    exact ofFields_wellFormed rest h (hacc.setKey (unquote k) hvalid (by omega)) (by omega)

end

mutual

/-- A value is the same after it was read and written exactly if each number that counts is. -/
lemma denote_ofJson_iff (v : Json) {a : Any} (h : ofJson v = some a) :
    denote (tree a) = denote v ↔ ∀ lit ∈ literals v, RoundTrips lit := by
  match v with
  | .null =>
    cases h
    simp [literals, tree, denote]
  | .bool b =>
    cases h
    simp [literals, tree, denote]
  | .num lit =>
    obtain ⟨f, hf, rfl⟩ := map_eq_some_iff.1 h
    simp [literals, tree, denote, RoundTrips, hf]
  | .str lit =>
    cases h
    simp [literals, tree, denote, unquote_quoted]
  | .arr elems =>
    obtain ⟨as, has, rfl⟩ := map_eq_some_iff.1 h
    rw [tree, denote, denote, Value.arr.injEq, denote_ofElems_iff elems has, literals]
  | .obj fields =>
    obtain ⟨kvs, hkvs, rfl⟩ := map_eq_some_iff.1 h
    have hwf := ofFields_wellFormed fields hkvs (WellFormed.nil _) (Nat.le_refl _)
    rw [hwf.denote, denote, Value.obj.injEq, members_ofFields_iff fields hkvs, literals]
    exact and_iff_right fun _ _ => rfl

lemma denote_ofElems_iff (vs : List Json) {as : List Any} (h : ofElems vs = some as) :
    denoteElems (treeElems as) = denoteElems vs ↔ ∀ lit ∈ literalsElems vs, RoundTrips lit := by
  match vs with
  | [] =>
    cases h
    simp [literalsElems, treeElems, denoteElems]
  | v :: vs =>
    obtain ⟨a, ha, h⟩ := bind_eq_some_iff.1 h
    obtain ⟨as', has, h⟩ := bind_eq_some_iff.1 h
    cases h
    rw [treeElems, denoteElems, denoteElems, List.cons.injEq, denote_ofJson_iff v ha,
      denote_ofElems_iff vs has, literalsElems]
    simp [or_imp, forall_and]

/-- The names that do not occur keep what the accumulators say. -/
lemma members_ofFields_iff (fields : List (Bytes × Json)) {acc kvs : List (String × Any)}
    (h : ofFields fields acc = some kvs) {g : String → Option Value} :
    members (treeFields kvs) = denoteFields fields g ↔
      (∀ k ∉ fields.map fun kv => unquote kv.1, members (treeFields acc) k = g k) ∧
        ∀ lit ∈ literalsFields fields, RoundTrips lit := by
  match fields with
  | [] =>
    cases h
    simp [literalsFields, denoteFields, funext_iff]
  | (k, v) :: rest =>
    obtain ⟨a, ha, h⟩ := bind_eq_some_iff.1 h
    rw [denoteFields, members_ofFields_iff rest h, members_setKey, literalsFields]
    have hv := denote_ofJson_iff v ha
    constructor
    · rintro ⟨hkept, hrest⟩
      refine ⟨fun k' hk' => ?_, fun lit hlit => ?_⟩
      · rw [List.map_cons, List.mem_cons, not_or] at hk'
        have hsame := hkept k' hk'.2
        rwa [update_of_ne hk'.1, update_of_ne hk'.1] at hsame
      · rcases List.mem_append.1 hlit with hlit | hlit
        · split_ifs at hlit with hlater
          · cases hlit
          · have hsame := hkept _ hlater
            rw [update_self, update_self, Option.some.injEq] at hsame
            exact hv.1 hsame lit hlit
        · exact hrest lit hlit
    · rintro ⟨hkept, hall⟩
      refine ⟨fun k' hk' => ?_, fun lit hlit => hall lit (List.mem_append_right _ hlit)⟩
      by_cases heq : k' = unquote k
      · subst heq
        rw [if_neg hk'] at hall
        rw [update_self, update_self, hv.2 fun lit hlit => hall lit (List.mem_append_left _ hlit)]
      · rw [update_of_ne heq, update_of_ne heq]
        exact hkept k' (by simp [heq, hk'])

end

end Any

end Go
