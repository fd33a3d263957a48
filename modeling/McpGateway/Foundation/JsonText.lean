import McpGateway.Foundation.Literal

/-!
# The text of a tree

A tree of valid literals, written without white space, is read back as the same tree.  The reader's
fuel is enough for every text, and it accepts every nesting up to its limit.
-/

namespace Go.Json

open Go

/-! ## Writing a tree -/

mutual

def render : Json → Bytes
  | .null => bytes "null"
  | .bool b => bytes (if b then "true" else "false")
  | .num lit => lit
  | .str lit => bytes "\"" ++ lit ++ bytes "\""
  | .arr elems => bracket "[" "]" (renderElems elems)
  | .obj fields => bracket "\x7b" "\x7d" (renderFields fields)

def renderElems : List Json → List Bytes
  | [] => []
  | v :: vs => render v :: renderElems vs

def renderFields : List (Bytes × Json) → List Bytes
  | [] => []
  | (k, v) :: rest => (bytes "\"" ++ k ++ bytes "\"" ++ bytes ":" ++ render v) :: renderFields rest

end

mutual

def Valid : Json → Prop
  | .null | .bool _ => True
  | .num lit => IsNumber lit
  | .str lit => IsString lit
  | .arr elems => ValidElems elems
  | .obj fields => ValidFields fields

def ValidElems : List Json → Prop
  | [] => True
  | v :: vs => Valid v ∧ ValidElems vs

def ValidFields : List (Bytes × Json) → Prop
  | [] => True
  | (k, v) :: rest => IsString k ∧ Valid v ∧ ValidFields rest

end

mutual

def depth : Json → Nat
  | .null | .bool _ | .num _ | .str _ => 0
  | .arr elems => depthElems elems + 1
  | .obj fields => depthFields fields + 1

def depthElems : List Json → Nat
  | [] => 0
  | v :: vs => max (depth v) (depthElems vs)

def depthFields : List (Bytes × Json) → Nat
  | [] => 0
  | (_, v) :: rest => max (depth v) (depthFields rest)

end

mutual

def cost : Json → Nat
  | .null | .bool _ | .num _ | .str _ => 1
  | .arr elems => costElems elems + 1
  | .obj fields => costFields fields + 1

def costElems : List Json → Nat
  | [] => 0
  | v :: vs => max (cost v) (costElems vs) + 1

def costFields : List (Bytes × Json) → Nat
  | [] => 0
  | (_, v) :: rest => max (cost v) (costFields rest) + 1

end

variable {fields : List (Bytes × Json)}

lemma validFields_iff :
    ValidFields fields ↔ ∀ kv ∈ fields, IsString kv.1 ∧ Valid kv.2 := by
  induction fields with
  | nil => simp [ValidFields]
  | cons kv rest ih =>
    obtain ⟨k, v⟩ := kv
    simp only [ValidFields, ih, forall_mem_cons, and_assoc]

lemma depthFields_le_iff {d : Nat} :
    depthFields fields ≤ d ↔ ∀ kv ∈ fields, depth kv.2 ≤ d := by
  induction fields with
  | nil => simp [depthFields]
  | cons kv rest ih =>
    obtain ⟨k, v⟩ := kv
    simp only [depthFields, max_le_iff, ih, forall_mem_cons]

/-! ## Pieces between commas -/

def joined (items : List Bytes) : Bytes :=
  (items.intersperse (bytes ",")).flatten

lemma joined_cons_cons (a b : Bytes) (rest : List Bytes) :
    joined (a :: b :: rest) = a ++ 0x2C :: joined (b :: rest) := by
  have hcomma : bytes "," = [0x2C] := by decide
  simp [joined, List.intersperse, hcomma]

lemma joined_singleton (a : Bytes) : joined [a] = a := by
  simp [joined, List.intersperse]

variable {b : UInt8}

lemma skipSpace_cons (h : isSpace b = false) (rest : Bytes) :
    skipSpace (b :: rest) = b :: rest := by
  simp [skipSpace, h]

lemma ends_cons (h : (isDigit b || b == 0x2E || b == 0x65 || b == 0x45) = false)
    (rest : Bytes) : Ends (b :: rest) := by
  intro c hc
  cases hc
  simpa [and_assoc] using h

/-! ## Reading it back -/

lemma number_byte_ne (hb : b = 0x2D ∨ isDigit b = true) (c : UInt8)
    (hc : (c == 0x2D || isDigit c) = false) : b ≠ c := by
  rintro rfl
  rw [Bool.or_eq_false_iff, beq_eq_false_iff_ne] at hc
  rcases hb with hb | hb
  · exact hc.1 hb
  · rw [hc.2] at hb
    cases hb

lemma number_byte_not_space (hb : b = 0x2D ∨ isDigit b = true) : isSpace b = false := by
  have h20 := number_byte_ne hb 0x20 (by decide)
  have h09 := number_byte_ne hb 0x09 (by decide)
  have h0A := number_byte_ne hb 0x0A (by decide)
  have h0D := number_byte_ne hb 0x0D (by decide)
  simp [isSpace, h20, h09, h0A, h0D]

lemma render_head {t : Json} (ht : Valid t) :
    ∃ b tail, render t = b :: tail ∧ isSpace b = false ∧ b ≠ 0x5D := by
  cases t with
  | null => exact ⟨0x6E, _, rfl, by decide, by decide⟩
  | bool b =>
    cases b
    · exact ⟨0x66, _, rfl, by decide, by decide⟩
    · exact ⟨0x74, _, rfl, by decide, by decide⟩
  | num lit =>
    obtain ⟨b, tail, rfl, hb⟩ := IsNumber.head ht
    exact ⟨b, tail, rfl, number_byte_not_space hb, number_byte_ne hb _ (by decide)⟩
  | str lit => exact ⟨0x22, _, rfl, by decide, by decide⟩
  | arr elems => exact ⟨0x5B, _, rfl, by decide, by decide⟩
  | obj fields => exact ⟨0x7B, _, rfl, by decide, by decide⟩

lemma renderFields_head (kv : Bytes × Json) (rest : List (Bytes × Json)) :
    ∃ tail, joined (renderFields (kv :: rest)) = 0x22 :: tail := by
  obtain ⟨k, v⟩ := kv
  cases rest with
  | nil => exact ⟨_, joined_singleton _⟩
  | cons kv' rest => exact ⟨_, joined_cons_cons _ _ _⟩

lemma scanValue_number {lit rest : Bytes} (h : IsNumber lit) (hrest : Ends rest) (fuel d : Nat) :
    scanValue (fuel + 1) d (lit ++ rest) = some (.num lit, rest) := by
  have hscan := scanNumber_append h hrest
  obtain ⟨b, tail, rfl, hb⟩ := h.head
  have hobj := number_byte_ne hb 0x7B (by decide)
  have harr := number_byte_ne hb 0x5B (by decide)
  have hstr := number_byte_ne hb 0x22 (by decide)
  have htrue := number_byte_ne hb 0x74 (by decide)
  have hfalse := number_byte_ne hb 0x66 (by decide)
  have hnull := number_byte_ne hb 0x6E (by decide)
  rw [cons_append] at hscan
  rw [scanValue, cons_append, skipSpace_cons (number_byte_not_space hb)]
  simp [hobj, harr, hstr, htrue, hfalse, hnull, hscan]

lemma scanWord_append (w : String) (rest : Bytes) : scanWord w (bytes w ++ rest) = some rest := by
  unfold scanWord
  rw [if_pos (List.isPrefixOf_iff_prefix.2 (prefix_append _ _)), List.drop_left]

lemma scanValue_string {lit : Bytes} (h : IsString lit) (fuel d : Nat) (rest : Bytes) :
    scanValue (fuel + 1) d (render (.str lit) ++ rest) = some (.str lit, rest) := by
  have htext : render (.str lit) ++ rest = 0x22 :: (lit ++ 0x22 :: rest) := by
    have hquote : bytes "\"" = [0x22] := by decide
    simp [render, hquote]
  rw [htext, scanValue, skipSpace_cons (by decide)]
  simp [scanString_append h]

lemma scanValue_null (fuel d : Nat) (rest : Bytes) :
    scanValue (fuel + 1) d (render .null ++ rest) = some (.null, rest) := by
  have hword := scanWord_append "null" rest
  have htext : bytes "null" = [0x6E, 0x75, 0x6C, 0x6C] := by decide
  rw [htext] at hword
  rw [render, htext, scanValue, cons_append, skipSpace_cons (by decide)]
  simp
  exact hword

lemma scanValue_bool (b : Bool) (fuel d : Nat) (rest : Bytes) :
    scanValue (fuel + 1) d (render (.bool b) ++ rest) = some (.bool b, rest) := by
  cases b
  · have hword := scanWord_append "false" rest
    have htext : bytes "false" = [0x66, 0x61, 0x6C, 0x73, 0x65] := by decide
    rw [htext] at hword
    rw [render, if_neg (by decide), htext, scanValue, cons_append, skipSpace_cons (by decide)]
    simp
    exact hword
  · have hword := scanWord_append "true" rest
    have htext : bytes "true" = [0x74, 0x72, 0x75, 0x65] := by decide
    rw [htext] at hword
    rw [render, if_pos rfl, htext, scanValue, cons_append, skipSpace_cons (by decide)]
    simp
    exact hword

lemma render_arr (elems : List Json) (rest : Bytes) :
    render (.arr elems) ++ rest = 0x5B :: (joined (renderElems elems) ++ 0x5D :: rest) := by
  have hleft : bytes "[" = [0x5B] := by decide
  have hright : bytes "]" = [0x5D] := by decide
  simp [render, bracket, joined, hleft, hright]

lemma render_obj (fields : List (Bytes × Json)) (rest : Bytes) :
    render (.obj fields) ++ rest = 0x7B :: (joined (renderFields fields) ++ 0x7D :: rest) := by
  have hleft : bytes "\x7b" = [0x7B] := by decide
  have hright : bytes "\x7d" = [0x7D] := by decide
  simp [render, bracket, joined, hleft, hright]

lemma renderElems_head {v : Json} (hv : Valid v) (vs : List Json) :
    ∃ b tail, joined (renderElems (v :: vs)) = b :: tail ∧ isSpace b = false ∧ b ≠ 0x5D := by
  obtain ⟨b, tail, hb, hspace, hclose⟩ := render_head hv
  cases vs with
  | nil =>
    refine ⟨b, tail, ?_, hspace, hclose⟩
    rw [renderElems, renderElems, joined_singleton, hb]
  | cons w ws =>
    refine ⟨b, tail ++ 0x2C :: joined (renderElems (w :: ws)), ?_, hspace, hclose⟩
    rw [renderElems, renderElems, joined_cons_cons, hb]
    rfl

lemma render_field (k : Bytes) (v : Json) (rest : Bytes) :
    bytes "\"" ++ k ++ bytes "\"" ++ bytes ":" ++ render v ++ rest =
      0x22 :: (k ++ 0x22 :: 0x3A :: (render v ++ rest)) := by
  have hquote : bytes "\"" = [0x22] := by decide
  have hcolon : bytes ":" = [0x3A] := by decide
  simp [hquote, hcolon]

mutual

lemma scanValue_render (t : Json) (ht : Valid t) (fuel d : Nat) (rest : Bytes) (hfuel : cost t ≤ fuel)
    (hdepth : depth t ≤ d) (hrest : Ends rest) : scanValue fuel d (render t ++ rest) = some (t, rest) := by
  obtain ⟨fuel, rfl⟩ : ∃ n, fuel = n + 1 := by
    refine Nat.exists_eq_succ_of_ne_zero ?_
    cases t <;> simp only [cost] at hfuel <;> omega
  match t with
  | .null => exact scanValue_null fuel d rest
  | .bool b => exact scanValue_bool b fuel d rest
  | .num lit => exact scanValue_number ht hrest fuel d
  | .str lit => exact scanValue_string ht fuel d rest
  | .arr [] =>
    have hd : d ≠ 0 := by
      rw [depth] at hdepth
      omega
    rw [render_arr, scanValue, skipSpace_cons (by decide)]
    simp [hd, renderElems, joined, skipSpace_cons (b := 0x5D) (by decide)]
  | .arr (v :: vs) =>
    have hd : d ≠ 0 := by
      rw [depth] at hdepth
      omega
    have hscan := scanElems_render v vs ht fuel (d - 1) rest
      (by rw [cost] at hfuel; omega) (by rw [depth] at hdepth; omega)
    obtain ⟨b, tail, hb, hspace, hclose⟩ := renderElems_head ht.1 vs
    rw [hb] at hscan
    rw [render_arr, scanValue, skipSpace_cons (by decide), hb, cons_append]
    rw [cons_append] at hscan
    simp [hd, skipSpace_cons hspace, hclose, hscan]
  | .obj [] =>
    have hd : d ≠ 0 := by
      rw [depth] at hdepth
      omega
    rw [render_obj, scanValue, skipSpace_cons (by decide)]
    simp [hd, renderFields, joined, skipSpace_cons (b := 0x7D) (by decide)]
  | .obj (kv :: fields) =>
    have hd : d ≠ 0 := by
      rw [depth] at hdepth
      omega
    have hscan := scanFields_render kv fields ht fuel (d - 1) rest
      (by rw [cost] at hfuel; omega) (by rw [depth] at hdepth; omega)
    obtain ⟨tail, htail⟩ := renderFields_head kv fields
    rw [htail, cons_append] at hscan
    rw [render_obj, scanValue, skipSpace_cons (by decide), htail, cons_append]
    simp [hd, skipSpace_cons (b := 0x22) (by decide), hscan]
termination_by fuel

lemma scanElems_render (v : Json) (vs : List Json) (ht : ValidElems (v :: vs)) (fuel d : Nat)
    (rest : Bytes) (hfuel : costElems (v :: vs) ≤ fuel) (hdepth : depthElems (v :: vs) ≤ d) :
    scanElems fuel d (joined (renderElems (v :: vs)) ++ 0x5D :: rest) = some (v :: vs, rest) := by
  rw [costElems] at hfuel
  rw [depthElems] at hdepth
  obtain ⟨fuel, rfl⟩ : ∃ n, fuel = n + 1 := Nat.exists_eq_succ_of_ne_zero (by omega)
  match vs with
  | [] =>
    have hscan := scanValue_render v ht.1 fuel d (0x5D :: rest) (by omega)
      (by omega) (ends_cons (by decide) rest)
    rw [renderElems, renderElems, joined_singleton, scanElems, hscan]
    simp [skipSpace_cons (b := 0x5D) (by decide)]
  | w :: ws =>
    have hscan := scanValue_render v ht.1 fuel d
      (0x2C :: (joined (renderElems (w :: ws)) ++ 0x5D :: rest)) (by omega) (by omega)
      (ends_cons (by decide) _)
    have hmore := scanElems_render w ws ht.2 fuel d rest (by omega)
      (by omega)
    rw [renderElems, renderElems, joined_cons_cons, append_assoc, cons_append,
      ← renderElems, scanElems, hscan]
    simp [skipSpace_cons (b := 0x2C) (by decide), hmore]
termination_by fuel

lemma scanFields_render (kv : Bytes × Json) (fields : List (Bytes × Json))
    (ht : ValidFields (kv :: fields)) (fuel d : Nat) (rest : Bytes)
    (hfuel : costFields (kv :: fields) ≤ fuel) (hdepth : depthFields (kv :: fields) ≤ d) :
    scanFields fuel d (joined (renderFields (kv :: fields)) ++ 0x7D :: rest) =
      some (kv :: fields, rest) := by
  obtain ⟨k, v⟩ := kv
  rw [costFields] at hfuel
  rw [depthFields] at hdepth
  obtain ⟨hk, hv, hfields⟩ := ht
  obtain ⟨fuel, rfl⟩ : ∃ n, fuel = n + 1 := Nat.exists_eq_succ_of_ne_zero (by omega)
  match fields with
  | [] =>
    have hscan := scanValue_render v hv fuel d (0x7D :: rest) (by omega)
      (by omega) (ends_cons (by decide) rest)
    rw [renderFields, renderFields, joined_singleton, render_field, scanFields,
      skipSpace_cons (by decide)]
    simp [scanString_append hk, skipSpace_cons (b := 0x3A) (by decide), hscan,
      skipSpace_cons (b := 0x7D) (by decide)]
  | kv' :: fields =>
    have hscan := scanValue_render v hv fuel d
      (0x2C :: (joined (renderFields (kv' :: fields)) ++ 0x7D :: rest)) (by omega) (by omega)
      (ends_cons (by decide) _)
    have hmore := scanFields_render kv' fields hfields fuel d rest
      (by omega) (by omega)
    obtain ⟨k', v'⟩ := kv'
    rw [renderFields, renderFields, joined_cons_cons, append_assoc, cons_append,
      ← renderFields, render_field, scanFields, skipSpace_cons (by decide)]
    simp [scanString_append hk, skipSpace_cons (b := 0x3A) (by decide), hscan,
      skipSpace_cons (b := 0x2C) (by decide), hmore]
termination_by fuel

end

/-! ## Enough fuel -/

mutual

lemma cost_le (t : Json) (ht : Valid t) : cost t ≤ 2 * (render t).length := by
  match t with
  | .null => decide
  | .bool true => decide
  | .bool false => decide
  | .num lit =>
    obtain ⟨b, tail, rfl, -⟩ := IsNumber.head ht
    simp only [cost, render, length_cons]
    omega
  | .str lit =>
    have hquote : bytes "\"" = [0x22] := by decide
    simp only [cost, render, hquote, length_append, length_cons]
    omega
  | .arr elems =>
    have helems := costElems_le elems ht
    have htext := congrArg List.length (render_arr elems [])
    simp only [append_nil, length_cons, length_append, List.length_nil] at htext
    rw [cost]
    omega
  | .obj fields =>
    have hfields := costFields_le fields ht
    have htext := congrArg List.length (render_obj fields [])
    simp only [append_nil, length_cons, length_append, List.length_nil] at htext
    rw [cost]
    omega

lemma costElems_le (elems : List Json) (ht : ValidElems elems) :
    costElems elems ≤ 2 * (joined (renderElems elems)).length + 1 := by
  match elems with
  | [] => simp [costElems]
  | [v] =>
    have hv := cost_le v ht.1
    rw [costElems, costElems, renderElems, renderElems, joined_singleton]
    omega
  | v :: w :: vs =>
    have hv := cost_le v ht.1
    have hvs := costElems_le (w :: vs) ht.2
    rw [costElems, renderElems, renderElems, joined_cons_cons, ← renderElems, length_append,
      length_cons]
    omega

lemma costFields_le (fields : List (Bytes × Json)) (ht : ValidFields fields) :
    costFields fields ≤ 2 * (joined (renderFields fields)).length + 1 := by
  match fields with
  | [] => simp [costFields]
  | [(k, v)] =>
    have hv := cost_le v ht.2.1
    have hfield := congrArg List.length (render_field k v [])
    simp only [append_nil, length_cons, length_append] at hfield
    rw [costFields, costFields, renderFields, renderFields, joined_singleton]
    simp only [length_append]
    omega
  | (k, v) :: (k', v') :: rest =>
    have hv := cost_le v ht.2.1
    have hrest := costFields_le ((k', v') :: rest) ht.2.2
    rw [costFields, renderFields, renderFields, joined_cons_cons, ← renderFields, length_append,
      length_cons]
    simp only [length_append]
    omega

end

lemma parse_render {t : Json} (ht : Valid t) (hdepth : depth t ≤ maxNestingDepth) :
    parse (render t) = some t := by
  have hcost := cost_le t ht
  have hscan := scanValue_render t ht (2 * (render t).length + 2) _ [] (by omega) hdepth
    Ends.nil
  rw [append_nil] at hscan
  simp [parse, hscan, skipSpace]

/-- A text with the newline that `json.Encoder` writes behind it. -/
lemma parse_render_line {t : Json} (ht : Valid t) (hdepth : depth t ≤ maxNestingDepth) :
    parse (render t ++ bytes "\n") = some t := by
  have hcost := cost_le t ht
  have hscan := scanValue_render t ht (2 * (render t ++ bytes "\n").length + 2) _ (bytes "\n")
    (by rw [List.length_append]; omega) hdepth (ends_cons (by decide) [])
  have hspace : skipSpace (bytes "\n") = [] := by decide
  rw [parse, hscan]
  simp [hspace]

/-! ## What was read -/

mutual

lemma read_scanValue {fuel d : Nat} {bs rest : Bytes} {t : Json}
    (h : scanValue fuel d bs = some (t, rest)) : Valid t ∧ depth t ≤ d := by
  cases fuel with
  | zero => cases h
  | succ fuel =>
    rw [scanValue] at h
    split at h
    next => cases h
    next b bs _ =>
      split_ifs at h with hobj hd harr hd hstr
      · split at h
        next => cases h
        next =>
          split_ifs at h
          · cases h
            refine ⟨trivial, ?_⟩
            show 0 + 1 ≤ d
            omega
          · obtain ⟨p, hp, heq⟩ := map_eq_some_iff.1 h
            cases heq
            obtain ⟨hvalid, hdepth⟩ := read_scanFields hp
            refine ⟨hvalid, ?_⟩
            show depthFields p.1 + 1 ≤ d
            omega
      · split at h
        next => cases h
        next =>
          split_ifs at h
          · cases h
            refine ⟨trivial, ?_⟩
            show 0 + 1 ≤ d
            omega
          · obtain ⟨p, hp, heq⟩ := map_eq_some_iff.1 h
            cases heq
            obtain ⟨hvalid, hdepth⟩ := read_scanElems hp
            refine ⟨hvalid, ?_⟩
            show depthElems p.1 + 1 ≤ d
            omega
      -- the other values hold no brackets
      all_goals
        obtain ⟨p, hp, heq⟩ := map_eq_some_iff.1 h
        cases heq
      · exact ⟨isString_of_scanString hp, Nat.zero_le d⟩
      · exact ⟨trivial, Nat.zero_le d⟩
      · exact ⟨trivial, Nat.zero_le d⟩
      · exact ⟨trivial, Nat.zero_le d⟩
      · exact ⟨isNumber_of_scanNumber hp, Nat.zero_le d⟩
termination_by fuel

lemma read_scanElems {fuel d : Nat} {bs rest : Bytes} {ts : List Json}
    (h : scanElems fuel d bs = some (ts, rest)) : ValidElems ts ∧ depthElems ts ≤ d := by
  cases fuel with
  | zero => cases h
  | succ fuel =>
    rw [scanElems] at h
    obtain ⟨⟨v, bs⟩, hv, h⟩ := bind_eq_some_iff.1 h
    obtain ⟨hvalid, hdepth⟩ := read_scanValue hv
    dsimp only at h
    split at h
    next => cases h
    next =>
      split_ifs at h
      · cases h
        exact ⟨⟨hvalid, trivial⟩, max_le hdepth (Nat.zero_le d)⟩
      · obtain ⟨⟨vs, bs⟩, hvs, h⟩ := bind_eq_some_iff.1 h
        obtain ⟨hmore, hmoreDepth⟩ := read_scanElems hvs
        cases h
        exact ⟨⟨hvalid, hmore⟩, max_le hdepth hmoreDepth⟩
termination_by fuel

lemma read_scanFields {fuel d : Nat} {bs rest : Bytes} {ts : List (Bytes × Json)}
    (h : scanFields fuel d bs = some (ts, rest)) : ValidFields ts ∧ depthFields ts ≤ d := by
  cases fuel with
  | zero => cases h
  | succ fuel =>
    rw [scanFields] at h
    split at h
    next => cases h
    next =>
      split_ifs at h
      obtain ⟨⟨k, bs⟩, hk, h⟩ := bind_eq_some_iff.1 h
      have hkey := isString_of_scanString hk
      dsimp only at h
      split at h
      next => cases h
      next =>
        split_ifs at h
        obtain ⟨⟨v, bs⟩, hv, h⟩ := bind_eq_some_iff.1 h
        obtain ⟨hvalid, hdepth⟩ := read_scanValue hv
        dsimp only at h
        split at h
        next => cases h
        next =>
          split_ifs at h
          · cases h
            exact ⟨⟨hkey, hvalid, trivial⟩, max_le hdepth (Nat.zero_le d)⟩
          · obtain ⟨⟨vs, bs⟩, hvs, h⟩ := bind_eq_some_iff.1 h
            obtain ⟨hmore, hmoreDepth⟩ := read_scanFields hvs
            cases h
            exact ⟨⟨hkey, hvalid, hmore⟩, max_le hdepth hmoreDepth⟩
termination_by fuel

end

lemma read_parse {bs : Bytes} {t : Json} (h : parse bs = some t) :
    Valid t ∧ depth t ≤ maxNestingDepth := by
  obtain ⟨⟨v, rest⟩, hv, h⟩ := bind_eq_some_iff.1 h
  dsimp only at h
  split_ifs at h
  cases h
  exact read_scanValue hv

end Go.Json
