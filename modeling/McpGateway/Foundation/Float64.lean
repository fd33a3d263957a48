import McpGateway.Foundation.Go

/-!
# Finite doubles

`encoding/json` reads every number into a `float64` and `encoding/json` and `fmt` print it back in
the shortest form that reads back to the same double.  A finite double is a sign, an integral
significand and a binary exponent; reading a decimal literal rounds to the nearest double, ties to
the even significand.
-/

namespace Go

/-- The finite double `(-1)^neg * mant * 2^exp`. -/
structure Float64 where
  neg : Bool
  mant : Nat
  exp : Int
  deriving DecidableEq, Repr

namespace Float64

/-- `num / den` rounded to an integer, ties to even. -/
def divEven (num den : Nat) : Nat :=
  let q := num / den
  let r := num % den
  if 2 * r < den ∨ (2 * r = den ∧ q % 2 = 0) then q else q + 1

/-- The double nearest to `num / den`; `none` when it is too large for a double. -/
def ofRatio (neg : Bool) (num den : Nat) : Option Float64 :=
  if num = 0 then some ⟨neg, 0, 0⟩
  else
    -- the exponent that leaves 53 bits, or the least one of the subnormal range
    let guess : Int := (Nat.log2 num : Int) - Nat.log2 den - 52
    let fits := num * 2 ^ (-guess).toNat < 2 ^ 52 * den * 2 ^ guess.toNat
    let e : Int := max (-1074) (if fits then guess - 1 else guess)
    let m := divEven (num * 2 ^ (-e).toNat) (den * 2 ^ e.toNat)
    let (m, e) := if m = 2 ^ 53 then (2 ^ 52, e + 1) else (m, e)
    if 971 < e then none else some ⟨neg, m, e⟩

/-- The double nearest to `digits * 10^exp10`, as `strconv.ParseFloat` reads it. -/
def ofDecimal (neg : Bool) (digits : Nat) (exp10 : Int) : Option Float64 :=
  let magnitude := (Nat.toDigits 10 digits).length + exp10
  if digits ≠ 0 ∧ 310 < magnitude then none
  else if magnitude < -330 then some ⟨neg, 0, 0⟩
  else ofRatio neg (digits * 10 ^ exp10.toNat) (10 ^ (-exp10).toNat)

/-- `int64(f)`: truncation towards zero.  Out of range Go leaves the value to the machine, which
gives the least integer. -/
def toInt64 (f : Float64) : Int :=
  let a : Int := f.mant * 2 ^ f.exp.toNat / 2 ^ (-f.exp).toNat
  let n := if f.neg then -a else a
  if -(2 ^ 63) ≤ n ∧ n < 2 ^ 63 then n else -(2 ^ 63)

/-- The number of decimal digits before the point of `num / den`, zero or negative when the value
is below one tenth. -/
def pointPos (num den : Nat) : Int :=
  if den ≤ num then (Nat.toDigits 10 (num / den)).length
  else
    match (List.range 330).find? fun j => den ≤ num * 10 ^ (j + 1) with
    | some j => -(j : Int)
    | none => -330

/-- The fewest decimal digits `d` and the position `p` of the point such that `0.d * 10^p` reads
back as the double. -/
def shortest (f : Float64) : Nat × Int :=
  let num := f.mant * 2 ^ f.exp.toNat
  let den := 2 ^ (-f.exp).toNat
  let p := pointPos num den
  let candidate (n : Nat) : Nat × Int :=
    let e : Int := n - p
    (divEven (num * 10 ^ e.toNat) (den * 10 ^ (-e).toNat), -e)
  match (List.range 17).find? fun i =>
      ofDecimal f.neg (candidate (i + 1)).1 (candidate (i + 1)).2 = some f with
  | some i => candidate (i + 1)
  | none => candidate 17

/-- The digits of the shortest form without trailing zeros, and the position of the point. -/
def shortestDigits (f : Float64) : List Char × Int :=
  let (d, e) := shortest f
  let cs := Nat.toDigits 10 d
  ((cs.reverse.dropWhile (· == '0')).reverse, cs.length + e)

/-- `strconv.FormatFloat(f, 'f', -1, 64)` for the given digits. -/
def fixed (ds : List Char) (p : Int) : List Char :=
  if p ≤ 0 then '0' :: '.' :: (List.replicate (-p).toNat '0' ++ ds)
  else if (ds.length : Int) ≤ p then ds ++ List.replicate (p.toNat - ds.length) '0'
  else ds.take p.toNat ++ '.' :: ds.drop p.toNat

/-- `strconv.FormatFloat(f, 'e', -1, 64)` for the given digits, with at least `width` exponent
digits. -/
def scientific (width : Nat) (ds : List Char) (p : Int) : List Char :=
  let e := p - 1
  let es := Nat.toDigits 10 e.natAbs
  let pad := List.replicate (width - es.length) '0'
  let head := ds.take 1
  let tail := ds.drop 1
  head ++ (if tail.isEmpty then [] else '.' :: tail) ++
    'e' :: (if e < 0 then '-' else '+') :: (pad ++ es)

def sign (f : Float64) : List Char :=
  if f.neg then ['-'] else []

/-- The number as `json.Marshal` writes it. -/
def toJson (f : Float64) : String :=
  String.ofList <| f.sign ++ if f.mant = 0 then ['0']
    else
      let (ds, p) := f.shortestDigits
      -- below 1e-6 and from 1e21 on the exponent form is used
      if p - 1 < -6 ∨ 21 ≤ p - 1 then scientific (if p - 1 < 0 then 1 else 2) ds p else fixed ds p

/-- The number as `fmt.Sprint` writes it. -/
def toGo (f : Float64) : String :=
  String.ofList <| f.sign ++ if f.mant = 0 then ['0']
    else
      let (ds, p) := f.shortestDigits
      -- `%v` is `%g`, which changes to the exponent form from 1e6 on for a shortest conversion
      if p - 1 < -4 ∨ 6 ≤ p - 1 then scientific 2 ds p else fixed ds p

end Float64

end Go
