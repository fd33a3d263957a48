import McpGateway.Foundation.Json

/-!
# Members of an object

A reader that takes names as they are written finds the member of exactly that name, the last one when
it is repeated.  `Struct.decode` matches names up to case and lets every match act on the field.  On a
`plain` object, in which a field has at most one match and that of exactly its name, both find the same:
`foldFields_member`.
-/

namespace Go

open Go Json

namespace Json

def member (name : String) (fields : List (Bytes × Json)) : Option Json :=
  ((fields.filter fun kv => unquote kv.1 = name).getLast?).map Prod.snd

def textOf (name : String) (fields : List (Bytes × Json)) : String :=
  match member name fields with
  | some (.str lit) => unquote lit
  | _ => ""

def elemsOf (name : String) (fields : List (Bytes × Json)) : List Json :=
  match member name fields with
  | some (.arr elems) => elems
  | _ => []

end Json

namespace Struct

variable {σ α : Type} {names : List String} {set : String → Json → σ → Option σ} {n : String}
  {fields : List (Bytes × Json)}

def hits (names : List String) (n : String) (fields : List (Bytes × Json)) : List (Bytes × Json) :=
  fields.filter fun kv => fieldFor names (Json.unquote kv.1) = some n

def plain (names : List String) (fields : List (Bytes × Json)) : Bool :=
  names.all fun n =>
    (hits names n fields).length ≤ 1 && (hits names n fields).all fun kv => Json.unquote kv.1 = n

lemma foldFields_hits {get : σ → α} {val : Json → α → Option α}
    (hset : ∀ v s s', set n v s = some s' → val v (get s) = some (get s'))
    (hother : ∀ n' v s s', n' ≠ n → set n' v s = some s' → get s' = get s) {s s' : σ}
    (h : foldFields names set fields s = some s') :
    (hits names n fields).foldlM (fun a kv => val kv.2 a) (get s) = some (get s') := by
  induction fields generalizing s with
  | nil =>
    cases h
    rfl
  | cons kv rest ih =>
    obtain ⟨k, v⟩ := kv
    simp only [foldFields] at h
    cases hfield : fieldFor names (unquote k) with
    | none =>
      rw [hfield] at h
      have hskip : hits names n ((k, v) :: rest) = hits names n rest := by simp [hits, hfield]
      rw [hskip]
      exact ih h
    | some m =>
      rw [hfield] at h
      obtain ⟨s₁, hs₁, hrest⟩ := bind_eq_some_iff.1 h
      by_cases hm : m = n
      · have hhit : hits names n ((k, v) :: rest) = (k, v) :: hits names n rest := by
          simp [hits, hfield, hm]
        rw [hhit, List.foldlM_cons]
        have hval := hset v s s₁ (hm ▸ hs₁)
        rw [hval]
        exact ih hrest
      · have hskip : hits names n ((k, v) :: rest) = hits names n rest := by simp [hits, hfield, hm]
        rw [hskip, ← hother m v s s₁ hm hs₁]
        exact ih hrest

lemma hits_of_plain (hn : n ∈ names) (h : plain names fields = true) : hits names n fields =
    fields.filter (fun kv => unquote kv.1 = n) ∧ (hits names n fields).length ≤ 1 := by
  have hplain := all_eq_true.1 h n hn
  rw [and_eq_true, decide_eq_true_eq] at hplain
  refine ⟨List.filter_congr fun kv hkv => ?_, hplain.1⟩
  rw [decide_eq_decide]
  constructor
  · intro hfield
    have hmem : kv ∈ hits names n fields := mem_filter.2 ⟨hkv, decide_eq_true hfield⟩
    exact of_decide_eq_true (all_eq_true.1 hplain.2 kv hmem)
  · intro hkey
    rw [fieldFor, hkey, if_pos (List.contains_iff_mem.2 hn)]

lemma get_of_map {x : Option α} {put : α → σ} {get : σ → α} {s : σ} (hput : ∀ a, get (put a) = a)
    (h : x.map put = some s) : x = some (get s) := by
  obtain ⟨a, rfl, rfl⟩ := map_eq_some_iff.1 h
  rw [hput]

lemma foldFields_member (get : σ → α) (val : Json → α → Option α)
    (hset : ∀ v s s', set n v s = some s' → val v (get s) = some (get s'))
    (hother : ∀ n' v s s', n' ≠ n → set n' v s = some s' → get s' = get s) {s s' : σ}
    (hn : n ∈ names) (hplain : plain names fields = true)
    (h : foldFields names set fields s = some s') :
    (member n fields = none ∧ get s' = get s) ∨
      ∃ v, member n fields = some v ∧ val v (get s) = some (get s') := by
  have hfold := foldFields_hits hset hother h
  rcases hits_of_plain hn hplain with ⟨hhits, hlen⟩
  unfold member
  rw [← hhits]
  cases hcases : hits names n fields with
  | nil =>
    rw [hcases] at hfold
    exact .inl ⟨rfl, (Option.some.inj hfold).symm⟩
  | cons kv rest =>
    rw [hcases, length_cons] at hlen
    obtain rfl : rest = [] := List.length_eq_zero_iff.1 (by omega)
    rw [hcases] at hfold
    refine .inr ⟨kv.2, rfl, ?_⟩
    simpa using hfold

lemma decodeString_member {v : Json} {t : String} (hv : member n fields = some v)
    (h : decodeString v "" = some t) : t = textOf n fields := by
  unfold textOf
  rw [hv]
  cases v with
  | null => exact (Option.some.inj h).symm
  | str lit => exact (Option.some.inj h).symm
  | bool | num | arr | obj => cases h

variable {dec : Json → α → Option α}

lemma decodeElems_nil {zero : α} {vs : List Json} {as : List α}
    (h : decodeElems dec zero vs [] = some as) : List.Forall₂ (fun v a => dec v zero = some a) vs as := by
  induction vs generalizing as with
  | nil =>
    cases h
    exact .nil
  | cons v vs ih =>
    obtain ⟨a, ha, h⟩ := bind_eq_some_iff.1 h
    obtain ⟨as', has, h⟩ := bind_eq_some_iff.1 h
    cases h
    exact .cons ha (ih has)

lemma decodeSlice_member {zero : α} {v : Json} {slice : Slice α}
    (hv : member n fields = some v) (h : decodeSlice dec zero v {} = some slice) :
    List.Forall₂ (fun v a => dec v zero = some a) (elemsOf n fields) slice.elems := by
  unfold elemsOf
  rw [hv]
  unfold decodeSlice at h
  split at h
  next =>
    cases h
    exact .nil
  next =>
    cases h
    exact .nil
  next elems _ =>
    rcases map_eq_some_iff.1 h with ⟨array, harray, rfl⟩
    have hall := decodeElems_nil harray
    have hlen : array.take elems.length = array := by rw [hall.length_eq, List.take_length]
    show List.Forall₂ _ elems (array.take elems.length)
    rw [hlen]
    exact hall
  next => cases h

end Struct

end Go
