import McpGateway.Foundation.Go

/-!
# UTF-8

Decoding gives an encoded text back, so a text is determined by its bytes.  A byte below `0x80` stands
for the ASCII character of the same value and nothing else.
-/

namespace Go

open Go

lemma toNat_toUInt8 {n : Nat} (h : n < 256) : n.toUInt8.toNat = n := by
  simp [Nat.toUInt8, Nat.mod_eq_of_lt h]

lemma rune_range (c : Char) : c.toNat < 0xD800 ∨ (0xE000 ≤ c.toNat ∧ c.toNat < 0x110000) := by
  rcases c.valid with hlow | hhigh
  · exact .inl hlow
  · exact .inr ⟨by have := hhigh.1; exact this, hhigh.2⟩

lemma continuation_toUInt8 {n : Nat} (h : n < 64) : continuation (0x80 + n).toUInt8 = some n := by
  have hval : (0x80 + n).toUInt8.toNat = 0x80 + n := toNat_toUInt8 (by omega)
  rw [continuation, hval, if_pos (by omega), Nat.add_sub_cancel_left]

lemma decodeRune_encodeRune (c : Char) (rest : Bytes) :
    ∃ b tail, encodeRune c = b :: tail ∧ decodeRune b (tail ++ rest) = (c, tail.length) := by
  have hrange := rune_range c
  have hback : Char.ofNat c.toNat = c := Char.ofNat_toNat c
  unfold encodeRune
  generalize c.toNat = n at hrange hback
  dsimp only
  split_ifs with h1 h2 h3
  · refine ⟨_, _, rfl, ?_⟩
    have hb : n.toUInt8.toNat = n := toNat_toUInt8 (by omega)
    rw [decodeRune, hb, if_pos h1, hback]
    rfl
  · refine ⟨_, _, rfl, ?_⟩
    have hb : (0xC0 + n / 64).toUInt8.toNat = 0xC0 + n / 64 := toNat_toUInt8 (by omega)
    have hx := continuation_toUInt8 (n := n % 64) (by omega)
    rw [decodeRune, hb, if_neg (by omega), if_pos (by omega)]
    simp only [cons_append, nil_append, List.head?_cons, Option.bind_eq_bind,
      Option.bind_some, hx, length_cons, List.length_nil]
    rw [show (0xC0 + n / 64 - 0xC0) * 64 + n % 64 = n by omega, hback]
  · refine ⟨_, _, rfl, ?_⟩
    have hb : (0xE0 + n / 4096).toUInt8.toNat = 0xE0 + n / 4096 := toNat_toUInt8 (by omega)
    have hx := continuation_toUInt8 (n := n / 64 % 64) (by omega)
    have hy := continuation_toUInt8 (n := n % 64) (by omega)
    rw [decodeRune, hb, if_neg (by omega), if_neg (by omega), if_pos (by omega)]
    simp only [cons_append, nil_append, List.head?_cons, List.getElem?_cons_succ,
      List.getElem?_cons_zero, Option.bind_eq_bind, Option.bind_some, hx, hy, length_cons,
      List.length_nil]
    rw [show (0xE0 + n / 4096 - 0xE0) * 4096 + n / 64 % 64 * 64 + n % 64 = n by omega,
      if_neg (by omega), hback]
  · refine ⟨_, _, rfl, ?_⟩
    have hb : (0xF0 + n / 262144).toUInt8.toNat = 0xF0 + n / 262144 := toNat_toUInt8 (by omega)
    have hx := continuation_toUInt8 (n := n / 4096 % 64) (by omega)
    have hy := continuation_toUInt8 (n := n / 64 % 64) (by omega)
    have hz := continuation_toUInt8 (n := n % 64) (by omega)
    rw [decodeRune, hb, if_neg (by omega), if_neg (by omega), if_neg (by omega), if_pos (by omega)]
    simp only [cons_append, nil_append, List.head?_cons, List.getElem?_cons_succ,
      List.getElem?_cons_zero, Option.bind_eq_bind, Option.bind_some, hx, hy, hz, length_cons,
      List.length_nil]
    rw [show (0xF0 + n / 262144 - 0xF0) * 262144 + n / 4096 % 64 * 4096 + n / 64 % 64 * 64 + n % 64 = n
      by omega, if_neg (by omega), hback]

lemma decodeRunes_skip (front rest : Bytes) :
    decodeRunes front.length (front ++ rest) = decodeRunes 0 rest := by
  induction front with
  | nil => rfl
  | cons b front ih => exact ih

lemma decodeRunes_encodeRune (c : Char) (rest : Bytes) :
    decodeRunes 0 (encodeRune c ++ rest) = c :: decodeRunes 0 rest := by
  rcases decodeRune_encodeRune c rest with ⟨b, tail, hbytes, hdecode⟩
  rw [hbytes, cons_append, decodeRunes, hdecode]
  exact congrArg (c :: ·) (decodeRunes_skip tail rest)

lemma decodeRunes_flatMap (cs : List Char) : decodeRunes 0 (cs.flatMap encodeRune) = cs := by
  induction cs with
  | nil => rfl
  | cons c cs ih => rw [flatMap_cons, decodeRunes_encodeRune, ih]

@[simp] lemma text_bytes (s : String) : text (bytes s) = s := by
  rw [text, bytes, decodeRunes_flatMap, String.ofList_toList]

lemma bytes_injective : Function.Injective bytes :=
  Function.LeftInverse.injective text_bytes

lemma bytes_ofList (cs : List Char) : bytes (String.ofList cs) = cs.flatMap encodeRune := by
  rw [bytes, String.toList_ofList]

@[simp] lemma bytes_append (s t : String) : bytes (s ++ t) = bytes s ++ bytes t := by
  simp [bytes]

/-! ## ASCII -/

lemma encodeRune_ascii {c : Char} (h : c.toNat < 0x80) : encodeRune c = [c.toNat.toUInt8] := by
  rw [encodeRune, if_pos h]

lemma encodeRune_of_mem {c : Char} {b : UInt8} (hb : b ∈ encodeRune c) (h : b.toNat < 0x80) :
    c.toNat = b.toNat := by
  have hrange := rune_range c
  unfold encodeRune at hb
  generalize c.toNat = n at hrange hb
  dsimp only at hb
  split_ifs at hb with h1 h2 h3
  all_goals
    simp only [mem_cons, not_mem_nil, or_false] at hb
  · rw [hb, toNat_toUInt8 (by omega)]
  · exfalso
    rcases hb with rfl | rfl
    all_goals
      rw [toNat_toUInt8 (by omega)] at h
      omega
  · exfalso
    rcases hb with rfl | rfl | rfl
    all_goals
      rw [toNat_toUInt8 (by omega)] at h
      omega
  · exfalso
    rcases hb with rfl | rfl | rfl | rfl
    all_goals
      rw [toNat_toUInt8 (by omega)] at h
      omega

end Go
