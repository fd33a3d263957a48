import McpGateway.Foundation.Utf8

/-!
# Base64

`base64.RawURLEncoding.DecodeString`: line breaks are skipped, any other character outside the
alphabet is an error, and the last group may be two or three characters long.

`base64.StdEncoding`, with padding: `Std.decodeString_encodeToString` says that what has been encoded is
decoded again.
-/

namespace Go.Base64

open Go

def sextet (c : Char) : Option Nat :=
  if 'A' ≤ c ∧ c ≤ 'Z' then some (c.toNat - 65)
  else if 'a' ≤ c ∧ c ≤ 'z' then some (c.toNat - 71)
  else if '0' ≤ c ∧ c ≤ '9' then some (c.toNat + 4)
  else if c = '-' then some 62
  else if c = '_' then some 63
  else none

def pack : List Nat → Option Bytes
  | [] => some []
  | [_] => none
  | [a, b] => some [(a * 4 + b / 16).toUInt8]
  | [a, b, c] => some [(a * 4 + b / 16).toUInt8, (b % 16 * 16 + c / 4).toUInt8]
  | a :: b :: c :: d :: rest => do
    let bs ← pack rest
    some ((a * 4 + b / 16).toUInt8 :: (b % 16 * 16 + c / 4).toUInt8 :: (c % 4 * 64 + d).toUInt8 :: bs)

/-- `base64.RawURLEncoding.DecodeString(s)`. -/
def decodeString (s : String) : Option Bytes := do
  let sextets ← (s.toList.filter fun c => !(c == '\r' || c == '\n')).mapM sextet
  pack sextets

/-! ## The standard encoding -/

namespace Std

def alphabet : List Char :=
  "ABCDEFGHIJKLMNOPQRSTUVWXYZabcdefghijklmnopqrstuvwxyz0123456789+/".toList

def digit (v : Nat) : Char := alphabet.getD v 'A'

def value (b : UInt8) : Option Nat := alphabet.findIdx? fun c => c.toNat = b.toNat

def pad : UInt8 := 0x3D

def encode : Bytes → List Char
  | [] => []
  | [a] => [digit (a.toNat / 4), digit (a.toNat % 4 * 16), '=', '=']
  | [a, b] => [digit (a.toNat / 4), digit (a.toNat % 4 * 16 + b.toNat / 16), digit (b.toNat % 16 * 4), '=']
  | a :: b :: c :: rest =>
    digit (a.toNat / 4) :: digit (a.toNat % 4 * 16 + b.toNat / 16) ::
      digit (b.toNat % 16 * 4 + c.toNat / 64) :: digit (c.toNat % 64) :: encode rest

/-- `base64.StdEncoding.EncodeToString(bs)`. -/
def encodeToString (bs : Bytes) : String := String.ofList (encode bs)

def isLineBreak (b : UInt8) : Bool := b == 0x0A || b == 0x0D

def skipLineBreaks (si : Nat) : Bytes → Nat × Bytes
  | [] => (si, [])
  | b :: rest => if isLineBreak b then skipLineBreaks (si + 1) rest else (si, b :: rest)

def finish (si : Nat) (rest bs : Bytes) : Except Nat Bytes :=
  match skipLineBreaks si rest with
  | (_, []) => .ok bs
  | (off, _ :: _) => .error off

/-- Decode from the offset `si` on, with the values read of the current group; an error is the offset of
the corrupt byte. -/
def decodeFrom (si : Nat) (group : List Nat) : Bytes → Except Nat Bytes
  | [] => if group = [] then .ok [] else .error (si - group.length)
  | b :: rest =>
    match value b with
    | some v =>
      match group with
      | [x, y, z] => do
        let bs ← decodeFrom (si + 1) [] rest
        .ok ((x * 4 + y / 16).toUInt8 :: (y % 16 * 16 + z / 4).toUInt8 :: (z % 4 * 64 + v).toUInt8 :: bs)
      | _ => decodeFrom (si + 1) (group ++ [v]) rest
    | none =>
      if isLineBreak b then decodeFrom (si + 1) group rest
      else if b ≠ pad then .error si
      else
        match group with
        | [x, y] =>
          -- a second padding character has to follow
          match skipLineBreaks (si + 1) rest with
          | (off, []) => .error off
          | (next, b' :: rest') =>
            if b' ≠ pad then .error (next - 1) else finish (next + 1) rest' [(x * 4 + y / 16).toUInt8]
        | [x, y, z] => finish (si + 1) rest [(x * 4 + y / 16).toUInt8, (y % 16 * 16 + z / 4).toUInt8]
        | _ => .error si

/-- `base64.StdEncoding.DecodeString(s)`. -/
def decodeString (s : String) : Except Nat Bytes := decodeFrom 0 [] (bytes s)

lemma digit_lt (v : Nat) : (digit v).toNat < 0x80 := by
  have hall : ∀ c ∈ alphabet, c.toNat < 0x80 := by
    have h : alphabet.all (fun c => c.toNat < 0x80) = true := by decide +kernel
    simpa using h
  rw [digit, List.getD_eq_getElem?_getD]
  cases h : alphabet[v]? with
  | none => decide
  | some c => exact hall c (mem_of_getElem? h)

lemma value_digit {v : Nat} (hv : v < 64) : value (digit v).toNat.toUInt8 = some v := by
  have hall : ∀ i : Fin 64, value (digit i).toNat.toUInt8 = some i.val := by decide +kernel
  exact hall ⟨v, hv⟩

def encodeBytes (bs : Bytes) : Bytes := (encode bs).map fun c => c.toNat.toUInt8

lemma encode_ascii (bs : Bytes) : ∀ c ∈ encode bs, c.toNat < 0x80 := by
  fun_induction encode bs with
  | case1 => simp
  | case2 a => simp [digit_lt]
  | case3 a b => simp [digit_lt]
  | case4 a b c rest ih =>
    simp only [forall_mem_cons, digit_lt, true_and]
    exact ih

lemma bytes_encodeToString (bs : Bytes) : bytes (encodeToString bs) = encodeBytes bs := by
  rw [encodeToString, bytes_ofList, encodeBytes, List.map_eq_flatMap]
  exact List.flatMap_congr fun c hc => encodeRune_ascii (encode_ascii bs c hc)

lemma toUInt8_eq {n : Nat} {b : UInt8} (h : n = b.toNat) : n.toUInt8 = b := by
  rw [h]
  exact UInt8.ofNat_toNat

lemma value_pad : value pad = none := by decide +kernel

lemma decodeFrom_pad_pad (si x y : Nat) :
    decodeFrom si [x, y] ['='.toNat.toUInt8, '='.toNat.toUInt8] = .ok [(x * 4 + y / 16).toUInt8] := by
  change decodeFrom si [x, y] [pad, pad] = _
  simp only [decodeFrom, value_pad]
  rfl

lemma decodeFrom_pad (si x y z : Nat) : decodeFrom si [x, y, z] ['='.toNat.toUInt8] =
    .ok [(x * 4 + y / 16).toUInt8, (y % 16 * 16 + z / 4).toUInt8] := by
  change decodeFrom si [x, y, z] [pad] = _
  simp only [decodeFrom, value_pad]
  rfl

lemma decodeFrom_digit (si : Nat) {group : List Nat} (hgroup : group.length < 3) {v : Nat} (hv : v < 64)
    (rest : Bytes) :
    decodeFrom si group ((digit v).toNat.toUInt8 :: rest) = decodeFrom (si + 1) (group ++ [v]) rest := by
  -- fewer than three values
  match group, hgroup with
  | [], _ | [_], _ | [_, _], _ => simp only [decodeFrom, value_digit hv]

lemma decodeFrom_last (si x y z : Nat) {v : Nat} (hv : v < 64) {rest bs : Bytes}
    (hrest : decodeFrom (si + 1) [] rest = .ok bs) :
    decodeFrom si [x, y, z] ((digit v).toNat.toUInt8 :: rest) =
      .ok ((x * 4 + y / 16).toUInt8 :: (y % 16 * 16 + z / 4).toUInt8 :: (z % 4 * 64 + v).toUInt8 :: bs) := by
  unfold decodeFrom
  simp only [value_digit hv, hrest, bind, Except.bind]

lemma decodeFrom_encodeBytes (si : Nat) (bs : Bytes) : decodeFrom si [] (encodeBytes bs) = .ok bs := by
  unfold encodeBytes
  fun_induction encode bs generalizing si with
  | case1 => rfl
  | case2 a =>
    have ha := a.toNat_lt
    simp only [map_cons, List.map_nil]
    rw [decodeFrom_digit si (by decide) (by omega), decodeFrom_digit _ (by simp) (by omega)]
    exact (decodeFrom_pad_pad ..).trans (by rw [toUInt8_eq (b := a) (by omega)])
  | case3 a b =>
    have ha := a.toNat_lt
    have hb := b.toNat_lt
    simp only [map_cons, List.map_nil]
    rw [decodeFrom_digit si (by decide) (by omega), decodeFrom_digit _ (by simp) (by omega),
      decodeFrom_digit _ (by simp) (by omega)]
    refine (decodeFrom_pad ..).trans ?_
    rw [toUInt8_eq (b := a) (by omega), toUInt8_eq (b := b) (by omega)]
  | case4 a b c rest ih =>
    have ha := a.toNat_lt
    have hb := b.toNat_lt
    have hc := c.toNat_lt
    simp only [map_cons]
    rw [decodeFrom_digit si (by decide) (by omega), decodeFrom_digit _ (by simp) (by omega),
      decodeFrom_digit _ (by simp) (by omega)]
    refine (decodeFrom_last _ _ _ _ (by omega) (ih _)).trans ?_
    rw [toUInt8_eq (b := a) (by omega), toUInt8_eq (b := b) (by omega), toUInt8_eq (b := c) (by omega)]

lemma decodeString_encodeToString (bs : Bytes) : decodeString (encodeToString bs) = .ok bs := by
  rw [decodeString, bytes_encodeToString]
  exact decodeFrom_encodeBytes 0 bs

end Std

end Go.Base64
