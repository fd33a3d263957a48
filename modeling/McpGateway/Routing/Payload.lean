import McpGateway.Foundation.JsonValue
import McpGateway.Routing.Request

/-!
# The payload of a request

A request is decoded from a body and written again.  `MCPRequest.value` is what the written body stands
for; on a JSON-RPC request, whose members are known and given once, it is what the original stood for,
up to the numbers that a double does not hold.
-/

namespace McpGateway.Routing

open Go Json Struct MCPRequest

namespace MCPRequest

variable (r : MCPRequest)

/-! ## The written body -/

def mapTrees (name : String) (m : Option (GoMap Any)) : List (String × Json) :=
  match m with
  | some m => if m.entries.isEmpty then [] else [(name, Any.tree (.map m.pairs))]
  | none => []

def memberTrees : List (String × Json) :=
  [("id", r.id.tree), ("jsonrpc", .str (quoted r.jsonrpc))] ++
    (if r.method = "" then [] else [("method", .str (quoted r.method))]) ++
    mapTrees "params" r.params ++ mapTrees "result" r.result

def tree : Json :=
  .obj (r.memberTrees.map fun f => (quoted f.1, f.2))

lemma marshalMap_eq (m : GoMap Any) : Any.marshalMap m = render (Any.tree (.map m.pairs)) :=
  Any.marshal_eq (.map m.pairs)

lemma toBytes_eq : r.toBytes = render r.tree := by
  rw [tree, render, Any.renderFields_object, toBytes]
  congr 1
  simp only [memberTrees, map_append, map_cons, List.map_nil, jsonField, Any.marshal_eq]
  congr 1
  · congr 1
    · congr 1
      split_ifs <;> rfl
    · cases r.params with
      | none => rfl
      | some m =>
        simp only [mapTrees, marshalMap_eq]
        split_ifs <;> rfl
  · cases r.result with
    | none => rfl
    | some m =>
      simp only [mapTrees, marshalMap_eq]
      split_ifs <;> rfl

/-! ## What it stands for -/

def mapValue (m : Option (GoMap Any)) : Option Value :=
  match m with
  | some m =>
    if m.entries.isEmpty then none else some (.obj fun k => (m.lookup k).map fun a => denote a.tree)
  | none => none

def value (k : String) : Option Value :=
  if k = "id" then some (denote r.id.tree)
  else if k = "jsonrpc" then some (.str r.jsonrpc)
  else if k = "method" then if r.method = "" then none else some (.str r.method)
  else if k = "params" then mapValue r.params
  else if k = "result" then mapValue r.result
  else none

lemma denote_map (m : GoMap Any) :
    denote (Any.tree (.map m.pairs)) = .obj fun k => (m.lookup k).map fun a => denote a.tree := by
  have hnodup : ((Any.treeFields m.pairs).map Prod.fst).Nodup := by
    rw [Any.treeFields_eq, List.map_map]
    exact m.nodup_keys
  rw [Any.tree, Any.denote_object hnodup]
  congr 1
  funext k
  exact Any.members_pairs m k

lemma members_mapTrees (name : String) (m : Option (GoMap Any)) (acc : String → Option Value)
    (k : String) : (mapTrees name m).foldl addMember acc k =
      if k = name then (mapValue m).or (acc k) else acc k := by
  have hskip : (if k = name then (none : Option Value).or (acc k) else acc k) = acc k := by
    split_ifs <;> rfl
  cases m with
  | none => exact hskip.symm
  | some m =>
    simp only [mapTrees, mapValue]
    split_ifs with hempty hk hk
    · rfl
    · rfl
    · subst hk
      rw [foldl_cons, foldl_nil, addMember, update_self, denote_map]
      rfl
    · rw [foldl_cons, foldl_nil, addMember, update_of_ne hk]

lemma members_scalars (k : String) :
    members ([("id", r.id.tree), ("jsonrpc", .str (quoted r.jsonrpc))] ++
        if r.method = "" then [] else [("method", .str (quoted r.method))]) k =
      if k = "id" then some (denote r.id.tree)
      else if k = "jsonrpc" then some (.str r.jsonrpc)
      else if k = "method" then if r.method = "" then none else some (.str r.method)
      else none := by
  have hstr : ∀ s : String, denote (.str (quoted s)) = .str s := by
    intro s
    rw [denote, unquote_quoted]
  by_cases hmethod : r.method = ""
  · simp only [hmethod, if_true, append_nil, members, foldl_cons, foldl_nil, addMember,
      hstr, Function.update_apply]
    split_ifs <;> simp_all
  · simp only [hmethod, if_false, cons_append, nil_append, members, foldl_cons,
      foldl_nil, addMember, hstr, Function.update_apply]
    split_ifs <;> simp_all

lemma denote_tree : denote r.tree = .obj r.value := by
  rw [tree, denote_named]
  congr 1
  funext k
  have hsplit : members r.memberTrees k =
      (mapTrees "result" r.result).foldl addMember ((mapTrees "params" r.params).foldl addMember
        (members ([("id", r.id.tree), ("jsonrpc", .str (quoted r.jsonrpc))] ++
          if r.method = "" then [] else [("method", .str (quoted r.method))]))) k := by
    simp only [members, memberTrees, foldl_append]
  rw [hsplit, members_mapTrees, members_mapTrees, members_scalars, value]
  by_cases hresult : k = "result"
  · subst hresult
    simp
  · by_cases hparams : k = "params"
    · subst hparams
      simp
    · simp [hresult, hparams]

/-- The entries of the maps of a request, and its id, are written validly and not too deep. -/
structure Writable (d : ℕ) : Prop where
  id : Valid r.id.tree ∧ depth r.id.tree ≤ d
  params : ∀ m ∈ r.params, ∀ k a, m.lookup k = some a → Valid a.tree ∧ depth a.tree + 1 ≤ d
  result : ∀ m ∈ r.result, ∀ k a, m.lookup k = some a → Valid a.tree ∧ depth a.tree + 1 ≤ d

lemma Writable.parse {r : MCPRequest} {d : ℕ} (h : r.Writable d) (hd : d + 1 ≤ maxNestingDepth) :
    Json.parse r.toBytes = some r.tree := by
  have hmap : ∀ name m, (∀ m' ∈ m, ∀ k a, m'.lookup k = some a →
      Valid (Any.tree a) ∧ depth (Any.tree a) + 1 ≤ d) →
      ∀ f ∈ mapTrees name m, Valid f.2 ∧ depth f.2 ≤ d := by
    intro name m hm f hf
    unfold mapTrees at hf
    split at hf
    next m' =>
      split_ifs at hf with hempty
      · cases hf
      · rw [mem_singleton.1 hf]
        -- a map that is written has an entry, so there is room for its own bracket
        obtain ⟨e, he⟩ := List.exists_mem_of_ne_nil m'.entries (by simpa using hempty)
        have hroom := (hm m' rfl e.1 e.2 (AList.mem_lookup_iff.2 he)).2
        have hwf : Any.WellFormed (d - 1) m'.pairs := by
          refine Any.wellFormed_pairs fun k a hka => ?_
          have hentry := hm m' rfl k a hka
          exact ⟨hentry.1, by omega⟩
        have hdepth := hwf.depth_tree
        have hle : d - 1 + 1 ≤ d := by omega
        exact ⟨hwf.valid_tree, hdepth.trans hle⟩
    next => cases hf
  have hall : ∀ f ∈ r.memberTrees, Valid f.2 ∧ depth f.2 ≤ d := by
    intro f hf
    unfold memberTrees at hf
    simp only [mem_append, mem_cons, not_mem_nil, or_false] at hf
    rcases hf with (((rfl | rfl) | hf) | hf) | hf
    · exact h.id
    · exact ⟨isString_quoted _, Nat.zero_le d⟩
    · split_ifs at hf
      · cases hf
      · rw [mem_singleton.1 hf]
        exact ⟨isString_quoted _, Nat.zero_le d⟩
    · exact hmap "params" r.params h.params f hf
    · exact hmap "result" r.result h.result f hf
  rw [toBytes_eq]
  refine parse_render ?_ ?_
  · rw [tree, Valid, validFields_iff]
    intro kv hkv
    obtain ⟨f, hf, rfl⟩ := mem_map.1 hkv
    exact ⟨isString_quoted _, (hall f hf).1⟩
  · rw [tree, depth]
    refine le_trans (Nat.succ_le_succ (depthFields_le_iff.2 ?_)) hd
    intro kv hkv
    obtain ⟨f, hf, rfl⟩ := mem_map.1 hkv
    exact (hall f hf).2

/-! ## The body it was read from -/

def fieldNames : List String := ["id", "jsonrpc", "method", "params", "result"]

variable {v : Json}

lemma setField_frame {n : String} {s s' : MCPRequest} (h : setField n v s = some s') :
    (n ≠ "id" → s'.id = s.id) ∧ (n ≠ "jsonrpc" → s'.jsonrpc = s.jsonrpc) ∧
      (n ≠ "method" → s'.method = s.method) ∧ (n ≠ "params" → s'.params = s.params) ∧
      (n ≠ "result" → s'.result = s.result) := by
  unfold setField at h
  split at h
  all_goals first
    | (obtain ⟨_, -, rfl⟩ := map_eq_some_iff.1 h; simp)
    | (cases h; simp)

variable {k : String}

lemma lookup_foldl_insert {kvs : List (String × Any)} {m : GoMap Any} {a : Any}
    (h : (kvs.foldl (fun m kv => AList.insert kv.1 kv.2 m) m).lookup k = some a) :
    (k, a) ∈ kvs ∨ m.lookup k = some a := by
  induction kvs generalizing m with
  | nil => exact .inr h
  | cons kv kvs ih =>
    rcases ih h with hmem | hlookup
    · exact .inl (mem_cons_of_mem _ hmem)
    · rw [lookup_insert] at hlookup
      split_ifs at hlookup with hk
      · cases hlookup
        rw [hk]
        exact .inl mem_cons_self
      · exact .inr hlookup

lemma decodeMap_writable {d : ℕ} {m m' : Option (GoMap Any)}
    (h : decodeMap v m = some m') (hd : depth v ≤ d)
    (hm : ∀ n ∈ m, ∀ k a, n.lookup k = some a → Valid (Any.tree a) ∧ depth (Any.tree a) + 1 ≤ d) :
    ∀ n ∈ m', ∀ k a, n.lookup k = some a → Valid (Any.tree a) ∧ depth (Any.tree a) + 1 ≤ d := by
  unfold decodeMap at h
  split at h
  next =>
    cases h
    intro n hn
    cases hn
  next fields =>
    obtain ⟨kvs, hkvs, h⟩ := bind_eq_some_iff.1 h
    cases h
    intro n hn k a hka
    cases hn
    rw [depth] at hd
    have hwf := Any.ofFields_wellFormed fields hkvs (Any.WellFormed.nil (depthFields fields))
      (Nat.le_refl _)
    rcases lookup_foldl_insert hka with hmem | hlookup
    · have hdepth := hwf.depth _ hmem
      exact ⟨hwf.valid _ hmem, (Nat.succ_le_succ hdepth).trans hd⟩
    · cases m with
      | none => cases hlookup
      | some n => exact hm n rfl k a hlookup
  next => cases h

lemma unmarshal_writable {body : Bytes} {r : MCPRequest} (h : unmarshal body = some (some r)) :
    ∃ d, d + 1 ≤ maxNestingDepth ∧ r.Writable d := by
  obtain ⟨v, hv, h⟩ := bind_eq_some_iff.1 h
  have hdepth := (read_parse hv).2
  cases v with
  | null => cases h
  | obj fields =>
    obtain ⟨r', hr', h⟩ := bind_eq_some_iff.1 h
    cases h
    refine ⟨depthFields fields, hdepth, ?_⟩
    have hstart : MCPRequest.Writable {} (depthFields fields) :=
      ⟨⟨trivial, Nat.zero_le _⟩, (fun m hm => by cases hm), (fun m hm => by cases hm)⟩
    have hfold : foldFields fieldNames setField fields {} = some r := hr'
    refine foldFields_keeps_mem (P := fun s : MCPRequest => s.Writable (depthFields fields))
      ?_ hfold hstart
    intro kv hkv n s s' hset hs
    have hkvDepth : depth kv.2 ≤ depthFields fields := depthFields_le_iff.1 (Nat.le_refl _) kv hkv
    unfold setField at hset
    split at hset
    next =>
      obtain ⟨a, ha, rfl⟩ := map_eq_some_iff.1 hset
      have hvalid := Any.ofJson_valid kv.2 ha
      exact ⟨⟨hvalid.1, hvalid.2.trans hkvDepth⟩, hs.params, hs.result⟩
    next =>
      obtain ⟨_, -, rfl⟩ := map_eq_some_iff.1 hset
      exact ⟨hs.id, hs.params, hs.result⟩
    next =>
      obtain ⟨_, -, rfl⟩ := map_eq_some_iff.1 hset
      exact ⟨hs.id, hs.params, hs.result⟩
    next =>
      obtain ⟨m, hm, rfl⟩ := map_eq_some_iff.1 hset
      exact ⟨hs.id, decodeMap_writable hm hkvDepth hs.params, hs.result⟩
    next =>
      obtain ⟨m, hm, rfl⟩ := map_eq_some_iff.1 hset
      exact ⟨hs.id, hs.params, decodeMap_writable hm hkvDepth hs.result⟩
    next =>
      cases hset
      exact hs
  | bool | num | str | arr =>
    obtain ⟨r', hr', -⟩ := bind_eq_some_iff.1 h
    cases hr'

/-! ## JSON-RPC requests -/

/-- The members of a JSON-RPC request, each at most once. -/
structure IsRequest (fields : List (Bytes × Json)) : Prop where
  known : ∀ kv ∈ fields, unquote kv.1 ∈ ["jsonrpc", "id", "method", "params"]
  once : (fields.map fun kv => unquote kv.1).Nodup

lemma IsRequest.plain {fields : List (Bytes × Json)} (h : IsRequest fields) :
    Struct.plain fieldNames fields = true := by
  have hfield : ∀ kv ∈ fields, Struct.fieldFor fieldNames (unquote kv.1) = some (unquote kv.1) := by
    intro kv hkv
    have hmem : unquote kv.1 ∈ fieldNames := by
      have hknown := h.known kv hkv
      simp only [mem_cons, not_mem_nil, or_false, fieldNames] at hknown ⊢
      tauto
    rw [Struct.fieldFor, if_pos (List.contains_iff_mem.2 hmem)]
  have hhits : ∀ n, Struct.hits fieldNames n fields = fields.filter fun kv => unquote kv.1 = n := by
    intro n
    refine List.filter_congr fun kv hkv => ?_
    rw [hfield kv hkv]
    simp
  rw [Struct.plain, all_eq_true]
  intro n _
  rw [and_eq_true, decide_eq_true_eq, hhits, all_eq_true]
  refine ⟨?_, fun kv hkv => (mem_filter.1 hkv).2⟩
  -- two members of one name would be two equal names
  have hsame : ∀ x ∈ (fields.filter fun kv => unquote kv.1 = n).map (fun kv => unquote kv.1), x = n := by
    intro x hx
    obtain ⟨kv, hkv, rfl⟩ := mem_map.1 hx
    exact of_decide_eq_true (mem_filter.1 hkv).2
  have hnodup : ((fields.filter fun kv => unquote kv.1 = n).map fun kv => unquote kv.1).Nodup :=
    h.once.sublist (List.filter_sublist.map _)
  rw [List.eq_replicate_of_mem hsame, List.nodup_replicate, List.length_map] at hnodup
  exact hnodup

lemma IsRequest.member_eq_none {fields : List (Bytes × Json)} (h : IsRequest fields)
    (hk : k ∉ ["jsonrpc", "id", "method", "params"]) : member k fields = none := by
  have hempty : (fields.filter fun kv => unquote kv.1 = k) = [] := by
    rw [List.filter_eq_nil_iff]
    intro kv hkv heq
    rw [decide_eq_true_eq] at heq
    exact hk (heq ▸ h.known kv hkv)
  rw [member, hempty]
  rfl

lemma decodeMap_value {m : GoMap Any} (h : decodeMap v none = some (some m)) :
    ∃ fields kvs, v = .obj fields ∧ Any.ofFields fields [] = some kvs ∧
      (fun k => (m.lookup k).map fun a => denote a.tree) = members (Any.treeFields kvs) := by
  unfold decodeMap at h
  split at h
  next => cases h
  next fields =>
    obtain ⟨kvs, hkvs, h⟩ := bind_eq_some_iff.1 h
    have hm : GoMap.ofPairs kvs = m := Option.some.inj (Option.some.inj h)
    have hwf := Any.ofFields_wellFormed fields hkvs (Any.WellFormed.nil _) (Nat.le_refl _)
    have hnames : ((Any.treeFields kvs).map Prod.fst).Nodup := by
      rw [Any.treeFields_eq, List.map_map]
      exact hwf.nodup
    refine ⟨fields, kvs, rfl, hkvs, ?_⟩
    funext k
    rw [← hm]
    cases hk : (GoMap.ofPairs kvs).lookup k with
    | some a =>
      have hmem : (k, Any.tree a) ∈ Any.treeFields kvs := by
        rw [Any.treeFields_eq]
        exact mem_map.2 ⟨(k, a), mem_of_lookup_ofPairs hk, rfl⟩
      exact (members_of_mem hnames hmem).symm
    | none =>
      refine (members_of_not_mem ?_).symm
      rw [Any.treeFields_eq, List.map_map]
      intro hmem
      obtain ⟨⟨k', a⟩, hkv, rfl⟩ := mem_map.1 hmem
      rw [GoMap.lookup_ofPairs, List.getLast?_eq_none_iff, List.map_eq_nil_iff,
        List.filter_eq_nil_iff] at hk
      exact hk _ hkv (decide_eq_true rfl)
  next => cases h

lemma member_cons {kv : Bytes × Json} {fields : List (Bytes × Json)} :
    member k (kv :: fields) = (member k fields).or (if unquote kv.1 = k then some kv.2 else none) := by
  unfold member
  rw [List.filter_cons]
  by_cases hk : unquote kv.1 = k
  · rw [if_pos (decide_eq_true hk), if_pos hk, List.getLast?_cons]
    cases (fields.filter fun kv => unquote kv.1 = k).getLast? <;> rfl
  · rw [if_neg (by simpa using hk), if_neg hk, Option.or_none]

lemma member_eq_none {fields : List (Bytes × Json)} :
    member k fields = none ↔ k ∉ fields.map fun kv => unquote kv.1 := by
  simp [member]

/-- The numbers that count are those of the members that count. -/
lemma forall_literalsFields {P : Bytes → Prop} {fields : List (Bytes × Json)} :
    (∀ lit ∈ literalsFields fields, P lit) ↔
      ∀ k v, member k fields = some v → ∀ lit ∈ literals v, P lit := by
  induction fields with
  | nil => simp [literalsFields, member]
  | cons kv rest ih =>
    obtain ⟨k, v⟩ := kv
    rw [literalsFields]
    simp only [member_cons]
    constructor
    · intro h k' v' hv' lit hlit
      cases hrest : member k' rest with
      | some u =>
        rw [hrest, Option.some_or] at hv'
        cases hv'
        exact ih.1 (fun lit hlit => h lit (List.mem_append_right _ hlit)) k' v' hrest lit hlit
      | none =>
        rw [hrest, Option.none_or] at hv'
        split_ifs at hv' with hk
        cases hv'
        subst hk
        rw [if_neg (member_eq_none.1 hrest)] at h
        exact h lit (List.mem_append_left _ hlit)
    · intro h lit hlit
      rcases List.mem_append.1 hlit with hlit | hlit
      · split_ifs at hlit with hlater
        · cases hlit
        · exact h (unquote k) v (by simp [member_eq_none.2 hlater]) lit hlit
      · exact ih.2 (fun k' v' hv' => h k' v' (by rw [hv', Option.some_or])) lit hlit

section Requests

variable {fields : List (Bytes × Json)} {r : MCPRequest}

/-- The request holds what the members say: their texts, and what is decoded from the id and from the
parameters. -/
structure ReadFrom (r : MCPRequest) (fields : List (Bytes × Json)) : Prop where
  id : r.id ≠ .nil → ∃ v, member "id" fields = some v ∧ Any.ofJson v = some r.id
  jsonrpc : r.jsonrpc ≠ "" → (member "jsonrpc" fields).map denote = some (.str r.jsonrpc)
  method : r.method ≠ "" → (member "method" fields).map denote = some (.str r.method)
  params : ∀ m, r.params = some m → ∃ given kvs, member "params" fields = some (.obj given) ∧
    Any.ofFields given [] = some kvs ∧
      (fun k => (m.lookup k).map fun a => denote a.tree) = members (Any.treeFields kvs)
  result : member "result" fields = none → r.result = none

lemma decodeString_value {t : String} (h : decodeString v "" = some t)
    (ht : t ≠ "") : denote v = .str t := by
  unfold decodeString at h
  split at h
  next =>
    cases h
    exact absurd rfl ht
  next =>
    cases h
    rfl
  next => cases h

lemma readFrom_of_fold (hplain : plain fieldNames fields = true)
    (h : foldFields fieldNames setField fields {} = some r) : ReadFrom r fields := by
  -- each field is set by its own member and kept by the others
  have hframe := @setField_frame
  constructor
  · intro hne
    rcases foldFields_member (n := "id") id (fun v _ => Any.ofJson v)
        (fun _ _ _ => get_of_map fun _ => rfl)
        (fun n' v s s' hn hset => (hframe hset).1 hn) (by decide) hplain h with
      ⟨-, hnil⟩ | ⟨v, hv, hval⟩
    · exact absurd hnil hne
    · exact ⟨v, hv, hval⟩
  · intro hne
    rcases foldFields_member (n := "jsonrpc") jsonrpc decodeString
        (fun _ _ _ => get_of_map fun _ => rfl)
        (fun n' v s s' hn hset => (hframe hset).2.1 hn) (by decide) hplain h with
      ⟨-, hempty⟩ | ⟨v, hv, hval⟩
    · exact absurd hempty hne
    · rw [hv, Option.map_some, decodeString_value hval hne]
  · intro hne
    rcases foldFields_member (n := "method") method decodeString
        (fun _ _ _ => get_of_map fun _ => rfl)
        (fun n' v s s' hn hset => (hframe hset).2.2.1 hn) (by decide) hplain h with
      ⟨-, hempty⟩ | ⟨v, hv, hval⟩
    · exact absurd hempty hne
    · rw [hv, Option.map_some, decodeString_value hval hne]
  · intro m hm
    rcases foldFields_member (n := "params") params decodeMap
        (fun _ _ _ => get_of_map fun _ => rfl)
        (fun n' v s s' hn hset => (hframe hset).2.2.2.1 hn) (by decide) hplain h with
      ⟨-, hnone⟩ | ⟨v, hv, hval⟩
    · rw [hnone] at hm
      cases hm
    · rw [hm] at hval
      obtain ⟨given, kvs, rfl, hkvs, hvalue⟩ := decodeMap_value hval
      exact ⟨given, kvs, hv, hkvs, hvalue⟩
  · intro hmissing
    rcases foldFields_member (n := "result") result decodeMap
        (fun _ _ _ => get_of_map fun _ => rfl)
        (fun n' v s s' hn hset => (hframe hset).2.2.2.2 hn) (by decide) hplain h with
      ⟨-, hnone⟩ | ⟨v, hv, -⟩
    · exact hnone
    · rw [hmissing] at hv
      cases hv

/-- The `name` parameter of a request. -/
def nameOf (v : Value) : Option Value :=
  (v.member "params").bind (Value.member "name")

/-- A request with another `name` parameter. -/
def renamed (name : String) (v : Value) : Value :=
  match v.member "params" with
  | some params => v.setMember "params" (params.setMember "name" (.str name))
  | none => v

/-- A member of a decoded object is what its own value is decoded to. -/
lemma ofFields_member {acc kvs : List (String × Any)} (h : Any.ofFields fields acc = some kvs) (k : String) :
    (∃ v a, member k fields = some v ∧ Any.ofJson v = some a ∧
        members (Any.treeFields kvs) k = some (denote a.tree)) ∨
      member k fields = none ∧ members (Any.treeFields kvs) k = members (Any.treeFields acc) k := by
  induction fields generalizing acc with
  | nil =>
    cases h
    exact .inr ⟨rfl, rfl⟩
  | cons kv rest ih =>
    obtain ⟨a, ha, h⟩ := bind_eq_some_iff.1 h
    rw [member_cons]
    rcases ih h with ⟨v, b, hv, hb, heq⟩ | ⟨hnone, heq⟩
    · exact .inl ⟨v, b, by rw [hv, Option.some_or], hb, heq⟩
    · rw [hnone, Option.none_or, heq, Any.members_setKey]
      by_cases hk : unquote kv.1 = k
      · exact .inl ⟨kv.2, a, if_pos hk, ha, by rw [hk, update_self]⟩
      · exact .inr ⟨if_neg hk, update_of_ne (Ne.symm hk) _ _⟩

lemma ofJson_text {a : Any} {t : String} (ha : Any.ofJson v = some a) (h : denote a.tree = .str t) :
    denote v = .str t ∧ literals v = [] := by
  have hnever : ∀ {b}, Any.ofJson v = some b → denote b.tree = .str t → ∃ lit, v = .str lit := by
    intro b hb ht
    cases v with
    | str lit => exact ⟨lit, rfl⟩
    | null | bool =>
      cases hb
      cases ht
    | num | arr | obj =>
      obtain ⟨_, -, rfl⟩ := map_eq_some_iff.1 hb
      rw [Any.tree] at ht
      cases ht
  obtain ⟨lit, rfl⟩ := hnever ha h
  cases ha
  rw [Any.tree, denote, unquote_quoted] at h
  exact ⟨h, rfl⟩

/-- The parameters with another name stand for the given ones with this name exactly if the numbers in
them are kept: the name that is replaced is a text. -/
lemma params_renamed_iff {kvs : List (String × Any)} (hkvs : Any.ofFields fields [] = some kvs)
    {old : String} (hname : members (Any.treeFields kvs) "name" = some (.str old)) (name : String) :
    denoteFields fields (fun _ => none) "name" = some (.str old) ∧
      (Function.update (members (Any.treeFields kvs)) "name" (some (.str name)) =
        Function.update (denoteFields fields fun _ => none) "name" (some (.str name)) ↔
        ∀ lit ∈ literalsFields fields, RoundTrips lit) := by
  rcases ofFields_member hkvs "name" with ⟨u, a, hu, ha, hua⟩ | ⟨-, hnone⟩
  swap
  · rw [hname] at hnone
    cases hnone
  rw [hname, Option.some.injEq] at hua
  obtain ⟨htext, hfree⟩ := ofJson_text ha hua.symm
  refine ⟨by rw [denoteFields_member, hu, Option.map_some, htext], ?_⟩
  rw [forall_literalsFields]
  constructor
  · intro heq k v hv
    by_cases hk : k = "name"
    · subst hk
      cases hu.symm.trans hv
      simp [hfree]
    · have hat := congrFun heq k
      rw [update_of_ne hk, update_of_ne hk, denoteFields_member, hv] at hat
      rcases ofFields_member hkvs k with ⟨v', b, hv', hb, hvb⟩ | ⟨hnone, -⟩
      · cases hv.symm.trans hv'
        rw [hvb, Option.map_some, Option.some.injEq] at hat
        exact (Any.denote_ofJson_iff v hb).1 hat
      · rw [hv] at hnone
        cases hnone
  · intro hkept
    funext k
    by_cases hk : k = "name"
    · rw [hk, update_self, update_self]
    · rw [update_of_ne hk, update_of_ne hk, denoteFields_member]
      rcases ofFields_member hkvs k with ⟨v, b, hv, hb, hvb⟩ | ⟨hnone, heq⟩
      · rw [hvb, hv, Option.map_some, (Any.denote_ofJson_iff v hb).2 (hkept k v hv)]
      · rw [heq, hnone]
        rfl

lemma literals_text {t : String} (h : denote v = .str t) : literals v = [] := by
  cases v with
  | str => rfl
  | null | bool | num | arr | obj => cases h

/-- The members besides the id and the parameters hold no numbers, or are not there. -/
lemma texts_kept (hreq : IsRequest fields) (hread : ReadFrom r fields) (hversion : r.jsonrpc ≠ "")
    (hmethod : r.method ≠ "") (name : String) (hparams : k ≠ "params") (hid : k ≠ "id") :
    (r.rewriteName name).value k = (member k fields).map denote ∧
      ∀ v, member k fields = some v → literals v = [] := by
  have htext : ∀ {t}, (member k fields).map denote = some (.str t) →
      ∀ v, member k fields = some v → literals v = [] := by
    intro t h v hv
    rw [hv, Option.map_some, Option.some.injEq] at h
    exact literals_text h
  by_cases hknown : k ∈ ["jsonrpc", "id", "method", "params"]
  · simp only [mem_cons, not_mem_nil, or_false, hid, hparams, false_or] at hknown
    rcases hknown with rfl | rfl
    · exact ⟨(hread.jsonrpc hversion).symm, htext (hread.jsonrpc hversion)⟩
    · have hwritten : (r.rewriteName name).value "method" = some (.str r.method) := if_neg hmethod
      exact ⟨hwritten.trans (hread.method hmethod).symm, htext (hread.method hmethod)⟩
  · have hnone := hreq.member_eq_none hknown
    have hresult : r.result = none := hread.result (hreq.member_eq_none (by decide))
    have hwritten : (r.rewriteName name).value k = none := by
      simp only [mem_cons, not_mem_nil, or_false, not_or] at hknown
      unfold value
      rw [if_neg hid, if_neg hknown.1, if_neg hknown.2.2.1, if_neg hparams]
      split_ifs
      · show mapValue r.result = none
        rw [hresult]
        rfl
      · rfl
    rw [hwritten, hnone]
    exact ⟨rfl, fun v hv => by cases hv⟩

lemma rewriteName_value (hreq : IsRequest fields) (hread : ReadFrom r fields) (hid : r.id ≠ .nil)
    (hversion : r.jsonrpc ≠ "") (hmethod : r.method ≠ "") {old : String}
    (hname : r.param "name" = some (.string old)) (name : String) :
    nameOf (denote (.obj fields)) = some (.str old) ∧
      (denote (r.rewriteName name).tree = renamed name (denote (.obj fields)) ↔
        ∀ lit ∈ literals (.obj fields), RoundTrips lit) := by
  obtain ⟨m, hm, hlookup⟩ := bind_eq_some_iff.1 hname
  obtain ⟨given, kvs, hgiven, hkvs, hvalue⟩ := hread.params m hm
  obtain ⟨u, hu, hdecoded⟩ := hread.id hid
  have hfields : denote (.obj fields) = .obj fun k => (member k fields).map denote := by
    rw [denote]
    congr 1
    funext k
    exact denoteFields_member fields k
  have hold : members (Any.treeFields kvs) "name" = some (.str old) := by
    rw [← hvalue]
    show (m.lookup "name").map _ = _
    rw [hlookup, Option.map_some, Any.tree, denote, unquote_quoted]
  obtain ⟨hnamed, hparams⟩ := params_renamed_iff hkvs hold name
  have hwritten : (r.rewriteName name).value "params" =
      some (.obj (Function.update (members (Any.treeFields kvs)) "name" (some (.str name)))) := by
    have hinsert : (r.rewriteName name).params = some (AList.insert "name" (.string name) m) := by
      rw [rewriteName, hm]
      rfl
    have hentry : (AList.insert "name" (.string name) m : GoMap Any).entries.isEmpty = false := by
      rw [AList.entries_insert]
      rfl
    show mapValue (r.rewriteName name).params = _
    rw [hinsert]
    simp only [mapValue, hentry, false_eq_true, if_false]
    rw [← hvalue]
    congr 2
    funext k
    rw [lookup_insert, Function.update_apply]
    split_ifs
    · rw [Option.map_some, Any.tree, denote, unquote_quoted]
    · rfl
  have hrenamed : renamed name (.obj fun k => (member k fields).map denote) =
      .obj (Function.update (fun k => (member k fields).map denote) "params"
        (some (.obj (Function.update (denoteFields given fun _ => none) "name" (some (.str name)))))) := by
    unfold renamed
    simp only [Value.member, hgiven, Option.map_some, denote, Value.setMember]
  rw [hfields]
  refine ⟨?_, ?_⟩
  · show ((member "params" fields).map denote).bind (Value.member "name") = some (.str old)
    rw [hgiven, Option.map_some, Option.bind_some]
    exact hnamed
  · rw [denote_tree, hrenamed, Value.obj.injEq, literals, forall_literalsFields]
    -- member by member: the numbers are in `params` and `id`, the other members are texts
    constructor
    · intro heq k v hv
      have hat := congrFun heq k
      by_cases hk : k = "params"
      · subst hk
        cases hgiven.symm.trans hv
        rw [hwritten, update_self, Option.some.injEq, Value.obj.injEq] at hat
        rw [literals]
        exact hparams.1 hat
      · rw [update_of_ne hk] at hat
        by_cases hk' : k = "id"
        · subst hk'
          cases hu.symm.trans hv
          rw [hu, Option.map_some] at hat
          exact (Any.denote_ofJson_iff _ hdecoded).1 (Option.some.inj hat)
        · rw [(texts_kept hreq hread hversion hmethod name hk hk').2 v hv]
          exact fun lit hlit => by cases hlit
    · intro hkept
      funext k
      by_cases hk : k = "params"
      · have hgood := hkept "params" _ hgiven
        rw [literals] at hgood
        rw [hk, hwritten, update_self, hparams.2 hgood]
      · rw [update_of_ne hk]
        by_cases hk' : k = "id"
        · rw [hk', hu, Option.map_some, ← (Any.denote_ofJson_iff u hdecoded).2 (hkept "id" u hu)]
          rfl
        · exact (texts_kept hreq hread hversion hmethod name hk hk').1

lemma Writable.rewriteName {d : ℕ} (h : r.Writable d) (hd : 1 ≤ d) (name : String) :
    (r.rewriteName name).Writable d := by
  refine ⟨h.id, ?_, h.result⟩
  intro m hm k a hka
  cases hm
  rw [lookup_insert] at hka
  split_ifs at hka
  · cases hka
    exact ⟨isString_quoted _, hd⟩
  · cases hparams : r.params with
    | none =>
      rw [hparams] at hka
      cases hka
    | some m =>
      rw [hparams] at hka
      exact h.params m hparams k a hka

end Requests

end MCPRequest

end McpGateway.Routing
