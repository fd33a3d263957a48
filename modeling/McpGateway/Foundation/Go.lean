import Mathlib.Algebra.Order.Ring.Int
import Mathlib.Data.List.AList
import Mathlib.Data.List.Infix
import Mathlib.Tactic.Common

/-!
# Go values

The parts of Go's value world the embedded code works with: `strings` helpers on text, byte slices
with their UTF-8 reading, maps keyed by strings, and the run-time panic of a failed type assertion.
-/

namespace Go

inductive Panic where
  | typeAssertion
  | nilDereference
  deriving DecidableEq, Repr

/-! ## Strings -/

/-- `strings.HasPrefix(s, p)`. -/
def hasPrefix (s p : String) : Bool :=
  p.toList.isPrefixOf s.toList

lemma hasPrefix_iff {s p : String} : hasPrefix s p = true ↔ p.toList <+: s.toList := by
  simp [hasPrefix]

@[simp] lemma hasPrefix_append (p s : String) : hasPrefix (p ++ s) p = true := by
  simp [hasPrefix_iff]

/-- What follows the prefix `p`, as `strings.CutPrefix` returns it. -/
def cutPrefix (s p : String) : Option String :=
  if hasPrefix s p then some (String.ofList (s.toList.drop p.toList.length)) else none

/-- `strings.TrimPrefix(s, p)`. -/
def trimPrefix (s p : String) : String :=
  (cutPrefix s p).getD s

@[simp] lemma cutPrefix_append (p s : String) : cutPrefix (p ++ s) p = some s := by
  simp [cutPrefix]

@[simp] lemma trimPrefix_append (p s : String) : trimPrefix (p ++ s) p = s := by
  simp [trimPrefix]

/-- What stands before the suffix `p`, as `strings.CutSuffix` returns it. -/
def cutSuffix (s p : String) : Option String :=
  if p.toList.isSuffixOf s.toList then
    some (String.ofList (s.toList.take (s.toList.length - p.toList.length)))
  else none

@[simp] lemma cutSuffix_append (s p : String) : cutSuffix (s ++ p) p = some s := by
  simp [cutSuffix]

lemma append_left_cancel {p s t : String} (h : p ++ s = p ++ t) : s = t := by
  simpa using h

/-- `strings.Contains(s, sub)`. -/
def contains (s sub : String) : Bool :=
  s.toList.tails.any fun t => sub.toList.isPrefixOf t

/-- `unicode.ToLower` on the runes whose lower case is an ASCII letter; the code only compares
lowered text with ASCII, so the other runes can stay as they are. -/
def lowerRune (c : Char) : Char :=
  if c = Char.ofNat 0x130 then 'i'
  else if c = Char.ofNat 0x212A then 'k'
  else c.toLower

/-- `strings.ToLower(s)`. -/
def toLower (s : String) : String :=
  String.ofList (s.toList.map lowerRune)

lemma append_cons_inj {α : Type} {c : α} {u v s t : List α} (hu : c ∉ u) (hv : c ∉ v)
    (h : u ++ c :: s = v ++ c :: t) : u = v ∧ s = t := by
  induction u generalizing v with
  | nil =>
    cases v with
    | nil => exact ⟨rfl, List.tail_eq_of_cons_eq h⟩
    | cons b v => exact absurd (List.mem_cons.2 (.inl (List.head_eq_of_cons_eq h))) hv
  | cons a u ih =>
    cases v with
    | nil => exact absurd (List.mem_cons.2 (.inl (List.head_eq_of_cons_eq h).symm)) hu
    | cons b v =>
      obtain ⟨rfl, rfl⟩ := ih (fun hmem => hu (List.mem_cons_of_mem _ hmem))
        (fun hmem => hv (List.mem_cons_of_mem _ hmem)) (List.tail_eq_of_cons_eq h)
      exact ⟨congrArg (· :: u) (List.head_eq_of_cons_eq h), rfl⟩

/-- Cut a list at every element that satisfies `p`; there is always at least one piece. -/
def splitList {α : Type} (p : α → Bool) : List α → List (List α)
  | [] => [[]]
  | a :: as =>
    match splitList p as with
    | [] => [[]]
    | piece :: rest => if p a then [] :: piece :: rest else (a :: piece) :: rest

lemma splitList_ne_nil {α : Type} (p : α → Bool) (l : List α) : splitList p l ≠ [] := by
  cases l with
  | nil => simp [splitList]
  | cons a as =>
    unfold splitList
    split
    · simp
    · split <;> simp

lemma splitList_of_none {α : Type} {p : α → Bool} {l : List α} (h : ∀ a ∈ l, p a = false) :
    splitList p l = [l] := by
  induction l with
  | nil => rfl
  | cons a as ih =>
    have hrest := ih fun b hb => h b (List.mem_cons_of_mem _ hb)
    simp [splitList, hrest, h a List.mem_cons_self]

lemma splitList_append_cons {α : Type} {p : α → Bool} {l : List α} {s : α} (rest : List α) (h : ∀ a ∈ l,
    p a = false) (hs : p s = true) : splitList p (l ++ s :: rest) = l :: splitList p rest := by
  induction l with
  | nil =>
    rw [List.nil_append, splitList]
    cases hpieces : splitList p rest with
    | nil => exact absurd hpieces (splitList_ne_nil p rest)
    | cons piece pieces => simp [hs]
  | cons a as ih =>
    have hrest := ih fun b hb => h b (List.mem_cons_of_mem _ hb)
    simp [splitList, hrest, h a List.mem_cons_self]

/-- `strings.Split(s, sep)` for a separator of one rune. -/
def split (s : String) (sep : Char) : List String :=
  (splitList (· == sep) s.toList).map String.ofList

/-- `fmt.Sprintf("%d", n)`. -/
def itoa (n : Nat) : String :=
  String.ofList (Nat.toDigits 10 n)

/-- One rune of `strconv.Quote`; runes outside ASCII are taken to be printable. -/
def quoteRune (c : Char) : List Char :=
  if c = '"' ∨ c = '\\' then ['\\', c]
  else if c = '\n' then ['\\', 'n']
  else if c = '\r' then ['\\', 'r']
  else if c = '\t' then ['\\', 't']
  else if c.toNat < 0x20 ∨ c.toNat = 0x7F then
    ['\\', 'x', Nat.digitChar (c.toNat / 16), Nat.digitChar (c.toNat % 16)]
  else [c]

/-- `strconv.Quote(s)`. -/
def quote (s : String) : String :=
  "\"" ++ String.ofList (s.toList.flatMap quoteRune) ++ "\""

/-! ## Bytes -/

abbrev Bytes := List UInt8

def encodeRune (c : Char) : Bytes :=
  let n := c.toNat
  if n < 0x80 then [n.toUInt8]
  else if n < 0x800 then [(0xC0 + n / 64).toUInt8, (0x80 + n % 64).toUInt8]
  else if n < 0x10000 then
    [(0xE0 + n / 4096).toUInt8, (0x80 + n / 64 % 64).toUInt8, (0x80 + n % 64).toUInt8]
  else
    [(0xF0 + n / 262144).toUInt8, (0x80 + n / 4096 % 64).toUInt8, (0x80 + n / 64 % 64).toUInt8,
      (0x80 + n % 64).toUInt8]

/-- `[]byte(s)`. -/
def bytes (s : String) : Bytes :=
  s.toList.flatMap encodeRune

def runeError : Char := Char.ofNat 0xFFFD

def continuation (b : UInt8) : Option Nat :=
  if 0x80 ≤ b.toNat ∧ b.toNat < 0xC0 then some (b.toNat - 0x80) else none

/-- `utf8.DecodeRune` on a non-empty slice: the first rune and the number of bytes after the first
one that belong to it.  A malformed sequence gives `runeError` and consumes one byte. -/
def decodeRune (b : UInt8) (rest : Bytes) : Char × Nat :=
  let n := b.toNat
  if n < 0x80 then (Char.ofNat n, 0)
  else if 0xC2 ≤ n ∧ n < 0xE0 then
    match rest.head? >>= continuation with
    | some x => (Char.ofNat ((n - 0xC0) * 64 + x), 1)
    | none => (runeError, 0)
  else if 0xE0 ≤ n ∧ n < 0xF0 then
    match rest.head? >>= continuation, rest[1]? >>= continuation with
    | some x, some y =>
      let v := (n - 0xE0) * 4096 + x * 64 + y
      -- overlong forms and the surrogate range are malformed
      if v < 0x800 ∨ (0xD800 ≤ v ∧ v < 0xE000) then (runeError, 0) else (Char.ofNat v, 2)
    | _, _ => (runeError, 0)
  else if 0xF0 ≤ n ∧ n < 0xF5 then
    match rest.head? >>= continuation, rest[1]? >>= continuation, rest[2]? >>= continuation with
    | some x, some y, some z =>
      let v := (n - 0xF0) * 262144 + x * 4096 + y * 64 + z
      if v < 0x10000 ∨ 0x110000 ≤ v then (runeError, 0) else (Char.ofNat v, 3)
    | _, _, _ => (runeError, 0)
  else (runeError, 0)

/-- The runes of a slice, `skip` bytes of which belong to a rune already read. -/
def decodeRunes (skip : Nat) : Bytes → List Char
  | [] => []
  | b :: rest =>
    match skip with
    | skip + 1 => decodeRunes skip rest
    | 0 => (decodeRune b rest).1 :: decodeRunes (decodeRune b rest).2 rest

/-- `string(bs)`. -/
def text (bs : Bytes) : String :=
  String.ofList (decodeRunes 0 bs)

/-! ## Maps -/

/-- `map[string]T`. -/
abbrev GoMap (α : Type) := AList fun _ : String => α

namespace GoMap

variable {α : Type}

def ofPairs (kvs : List (String × α)) : GoMap α :=
  kvs.foldl (fun m kv => AList.insert kv.1 kv.2 m) ∅

def pairs (m : GoMap α) : List (String × α) :=
  m.entries.map fun e => (e.1, e.2)

def values (m : GoMap α) : List α :=
  m.pairs.map Prod.snd

variable {k : String}

lemma mem_pairs_iff {m : GoMap α} {v : α} : (k, v) ∈ m.pairs ↔ m.lookup k = some v := by
  constructor
  · intro h
    obtain ⟨e, he, heq⟩ := List.mem_map.1 h
    cases heq
    exact AList.mem_lookup_iff.2 he
  · intro h
    have hmem : (⟨k, v⟩ : Sigma fun _ : String => α) ∈ m.entries := AList.mem_lookup_iff.1 h
    exact List.mem_map.2 ⟨_, hmem, rfl⟩

lemma mem_values_iff {m : GoMap α} {v : α} : v ∈ m.values ↔ ∃ k, m.lookup k = some v := by
  constructor
  · intro h
    obtain ⟨⟨k, v'⟩, hp, rfl⟩ := List.mem_map.1 h
    exact ⟨k, mem_pairs_iff.1 hp⟩
  · rintro ⟨k, h⟩
    exact List.mem_map.2 ⟨(k, v), mem_pairs_iff.2 h, rfl⟩

lemma nodup_keys (m : GoMap α) : (m.pairs.map Prod.fst).Nodup := by
  have hkeys : m.pairs.map Prod.fst = m.keys := by
    simp [pairs, AList.keys, List.keys]
  rw [hkeys]
  exact m.keys_nodup

lemma lookup_insert (m : GoMap α) (k k' : String) (v : α) :
    (AList.insert k' v m).lookup k = if k = k' then some v else m.lookup k := by
  by_cases hk : k = k'
  · subst hk
    rw [AList.lookup_insert, if_pos rfl]
  · rw [AList.lookup_insert_ne hk, if_neg hk]

lemma lookup_erase (m : GoMap α) (k k' : String) :
    (AList.erase k' m).lookup k = if k = k' then none else m.lookup k := by
  by_cases hk : k = k'
  · subst hk
    rw [AList.lookup_erase, if_pos rfl]
  · rw [AList.lookup_erase_ne hk, if_neg hk]

lemma lookup_singleton (k k' : String) (v : α) :
    (AList.singleton k' v : GoMap α).lookup k = if k = k' then some v else none := by
  rw [← AList.insert_empty, lookup_insert, AList.lookup_empty]

lemma lookup_ofPairs (kvs : List (String × α)) (k : String) :
    (ofPairs kvs).lookup k = ((kvs.filter fun kv => kv.1 = k).map Prod.snd).getLast? := by
  induction kvs using List.reverseRecOn with
  | nil => rfl
  | append_singleton kvs kv ih =>
    have hlast : ofPairs (kvs ++ [kv]) = AList.insert kv.1 kv.2 (ofPairs kvs) := by
      simp [ofPairs]
    rw [hlast, lookup_insert, ih, List.filter_append, List.map_append]
    by_cases hk : k = kv.1
    · simp [hk]
    · simp [hk, Ne.symm hk]

lemma mem_of_lookup_ofPairs {kvs : List (String × α)} {v : α}
    (h : (ofPairs kvs).lookup k = some v) : (k, v) ∈ kvs := by
  rw [lookup_ofPairs] at h
  obtain ⟨kv, hkv, rfl⟩ := List.mem_map.1 (List.mem_of_getLast? h)
  obtain ⟨hmem, hk⟩ := List.mem_filter.1 hkv
  rw [decide_eq_true_eq] at hk
  exact hk ▸ hmem

/-- `m[k]` for a string map: the zero value when the key is absent. -/
def get (m : GoMap String) (k : String) : String :=
  (m.lookup k).getD ""

lemma lookup_of_get_ne {m : GoMap String} (h : m.get k ≠ "") :
    m.lookup k = some (m.get k) := by
  unfold get at h ⊢
  cases hk : m.lookup k with
  | none => simp [hk] at h
  | some v => rfl

end GoMap

export GoMap (lookup_insert lookup_erase lookup_singleton mem_pairs_iff mem_values_iff mem_of_lookup_ofPairs)

export List (mem_singleton mem_cons_self mem_map mem_append mem_of_getElem? mem_cons mem_cons_of_mem
  mem_filter append_nil mem_append_left foldl_cons all_eq_true not_mem_nil cons_append prefix_append
  append_assoc length_cons mem_append_right nil_append map_append mem_iff_getElem? map_cons
  mem_map_of_mem length_append foldl_nil foldl_append flatMap_cons find?_some mem_of_find?_eq_some
  forall_mem_cons mem_flatMap append_of_mem)

export Option (map_eq_some_iff bind_eq_some_iff mem_unique any_eq_true isSome_iff_exists getD_some
  all_some)

export Bool (and_eq_true false_eq_true not_eq_true' or_eq_true)

export Function (update_of_ne update_self)

end Go
