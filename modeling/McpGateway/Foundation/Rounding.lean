import McpGateway.Foundation.Float64
import Mathlib.Algebra.Order.Field.Power
import Mathlib.Algebra.Order.Floor.Semifield
import Mathlib.Data.Int.Log
import Mathlib.Data.Rat.Floor
import Mathlib.Tactic.FieldSimp
import Mathlib.Tactic.Linarith
import Mathlib.Tactic.NormNum
import Mathlib.Tactic.Positivity

/-!
# Rounding to doubles

Reading a decimal literal rounds its value to the nearest double.  `Float64.round` says so over the
rationals, and `Float64.ofRatio` computes it.
-/

namespace Go.Float64

/-! ## Nearest integers -/

/-- The integer nearest to `x`, ties to even. -/
def nearestEven (x : ℚ) : ℕ :=
  let k := ⌊x⌋₊
  if x - k < 1 / 2 ∨ (x - k = 1 / 2 ∧ k % 2 = 0) then k else k + 1

lemma divEven_eq (num : ℕ) {den : ℕ} (hden : 0 < den) :
    divEven num den = nearestEven ((num : ℚ) / den) := by
  have hden' : (0 : ℚ) < den := by exact_mod_cast hden
  have hfloor : ⌊(num : ℚ) / den⌋₊ = num / den := Nat.floor_div_eq_div num den
  have hfrac : (num : ℚ) / den - ((num / den : ℕ) : ℚ) = ((num % den : ℕ) : ℚ) / den := by
    have hsplit : (num : ℚ) = den * ((num / den : ℕ) : ℚ) + ((num % den : ℕ) : ℚ) := by
      exact_mod_cast (Nat.div_add_mod num den).symm
    rw [eq_div_iff hden'.ne', sub_mul, div_mul_cancel₀ _ hden'.ne']
    linarith
  have hlt : ((num % den : ℕ) : ℚ) / den < 1 / 2 ↔ 2 * (num % den) < den := by
    rw [div_lt_div_iff₀ hden' (by norm_num), ← Nat.cast_lt (α := ℚ)]
    push_cast
    constructor <;> intro h <;> linarith
  have heq : ((num % den : ℕ) : ℚ) / den = 1 / 2 ↔ 2 * (num % den) = den := by
    rw [div_eq_div_iff hden'.ne' (by norm_num), ← Nat.cast_inj (R := ℚ)]
    push_cast
    constructor <;> intro h <;> linarith
  simp only [divEven, nearestEven, hfloor, hfrac, hlt, heq]

variable {x : ℚ}

lemma nearestEven_error (hx : 0 ≤ x) : |(nearestEven x : ℚ) - x| ≤ 1 / 2 := by
  have hlow : (⌊x⌋₊ : ℚ) ≤ x := Nat.floor_le hx
  have hhigh : x < ⌊x⌋₊ + 1 := Nat.lt_floor_add_one x
  unfold nearestEven
  dsimp only
  rw [abs_le]
  split_ifs with h
  · have hhalf : x - ⌊x⌋₊ ≤ 1 / 2 := by
      rcases h with h | h
      · exact h.le
      · exact h.1.le
    constructor <;> linarith
  · have hhalf : 1 / 2 ≤ x - ⌊x⌋₊ := not_lt.1 fun hlt => h (.inl hlt)
    push_cast
    constructor <;> linarith

variable {n : ℕ}

lemma le_nearestEven (h : (n : ℚ) ≤ x) : n ≤ nearestEven x := by
  have hfloor : n ≤ ⌊x⌋₊ := Nat.le_floor h
  unfold nearestEven
  dsimp only
  split_ifs <;> omega

lemma nearestEven_le (hx : 0 ≤ x) (h : x ≤ n) : nearestEven x ≤ n := by
  have herror := abs_le.1 (nearestEven_error hx)
  have hle : (nearestEven x : ℚ) < n + 1 := by linarith
  have hle' : nearestEven x < n + 1 := by exact_mod_cast hle
  omega

/-! ## Powers -/

section Powers

variable {b : ℚ}

lemma zpow_eq_div (hb : b ≠ 0) (e : ℤ) : b ^ e = b ^ e.toNat / b ^ (-e).toNat := by
  rw [eq_div_iff (pow_ne_zero _ hb), ← zpow_natCast, ← zpow_natCast, ← zpow_add₀ hb]
  congr 1
  omega

lemma two_zpow_pos (e : ℤ) : (0 : ℚ) < 2 ^ e := zpow_pos (by norm_num) e

lemma ten_zpow_pos (e : ℤ) : (0 : ℚ) < 10 ^ e := zpow_pos (by norm_num) e

end Powers

/-! ## The nearest double -/

/-- The exponent of the last place of a double near `v`. -/
def lastPlace (v : ℚ) : ℤ :=
  max (-1074) (Int.log 2 v - 52)

/-- The double nearest to `v`; `none` when it is too large for a double. -/
def round (neg : Bool) (v : ℚ) : Option Float64 :=
  if v = 0 then some ⟨neg, 0, 0⟩
  else
    let e := lastPlace v
    let m := nearestEven (v / 2 ^ e)
    let (m, e) := if m = 2 ^ 53 then (2 ^ 52, e + 1) else (m, e)
    if 971 < e then none else some ⟨neg, m, e⟩

lemma log2_bounds {n : ℕ} (hn : 0 < n) :
    (2 : ℚ) ^ (Nat.log2 n : ℤ) ≤ n ∧ (n : ℚ) < 2 ^ ((Nat.log2 n : ℤ) + 1) := by
  constructor
  · rw [zpow_natCast]
    exact_mod_cast Nat.log2_self_le hn.ne'
  · have h : n < 2 ^ (Nat.log2 n + 1) := Nat.lt_log2_self
    exact_mod_cast h

lemma log_ratio {num den : ℕ} (hnum : 0 < num) (hden : 0 < den) : Int.log 2 ((num : ℚ) / den) =
      if (num : ℚ) / den < 2 ^ ((Nat.log2 num : ℤ) - Nat.log2 den)
      then (Nat.log2 num : ℤ) - Nat.log2 den - 1 else (Nat.log2 num : ℤ) - Nat.log2 den := by
  have hden' : (0 : ℚ) < den := by exact_mod_cast hden
  have hpos : (0 : ℚ) < (num : ℚ) / den := by positivity
  obtain ⟨hnumLow, hnumHigh⟩ := log2_bounds hnum
  obtain ⟨hdenLow, hdenHigh⟩ := log2_bounds hden
  generalize (Nat.log2 num : ℤ) = a at *
  generalize (Nat.log2 den : ℤ) = d at *
  have hlow : (2 : ℚ) ^ (a - d - 1) ≤ (num : ℚ) / den := by
    rw [le_div_iff₀ hden']
    calc (2 : ℚ) ^ (a - d - 1) * den ≤ 2 ^ (a - d - 1) * 2 ^ (d + 1) := by gcongr
      _ = 2 ^ a := by rw [← zpow_add₀ (by norm_num)]; congr 1; ring
      _ ≤ num := hnumLow
  have hhigh : (num : ℚ) / den < 2 ^ (a - d + 1) := by
    rw [div_lt_iff₀ hden']
    calc (num : ℚ) < 2 ^ (a + 1) := hnumHigh
      _ = 2 ^ (a - d + 1) * 2 ^ d := by rw [← zpow_add₀ (by norm_num)]; congr 1; ring
      _ ≤ 2 ^ (a - d + 1) * den := by gcongr
  have hlogLow : a - d - 1 ≤ Int.log 2 ((num : ℚ) / den) :=
    (Int.zpow_le_iff_le_log (b := 2) (by norm_num) hpos).1 (by exact_mod_cast hlow)
  have hlogHigh : Int.log 2 ((num : ℚ) / den) < a - d + 1 :=
    (Int.lt_zpow_iff_log_lt (b := 2) (by norm_num) hpos).1 (by exact_mod_cast hhigh)
  have hside : (num : ℚ) / den < 2 ^ (a - d) ↔ Int.log 2 ((num : ℚ) / den) < a - d := by
    rw [← Int.lt_zpow_iff_log_lt (b := 2) (by norm_num) hpos]
    norm_cast
  split_ifs with h
  · have := hside.1 h
    omega
  · have := mt hside.2 h
    omega

lemma ofRatio_eq (neg : Bool) (num : ℕ) {den : ℕ} (hden : 0 < den) :
    ofRatio neg num den = round neg ((num : ℚ) / den) := by
  have hden' : (0 : ℚ) < den := by exact_mod_cast hden
  rcases Nat.eq_zero_or_pos num with rfl | hnum
  · simp [ofRatio, round]
  · have hne : (num : ℚ) / den ≠ 0 := by positivity
    have hplace : ∀ e : ℤ,
        divEven (num * 2 ^ (-e).toNat) (den * 2 ^ e.toNat) = nearestEven ((num : ℚ) / den / 2 ^ e) := by
      intro e
      rw [divEven_eq _ (by positivity)]
      congr 1
      rw [zpow_eq_div (by norm_num) e]
      push_cast
      field_simp
    have hfits : ∀ L : ℤ,
        (num * 2 ^ (-(L - 52)).toNat < 2 ^ 52 * den * 2 ^ (L - 52).toNat) ↔ (num : ℚ) / den < 2 ^ L := by
      intro L
      have hsplit : (2 : ℚ) ^ L = 2 ^ 52 * (2 ^ (L - 52).toNat / 2 ^ (-(L - 52)).toNat) := by
        rw [← zpow_eq_div (by norm_num), ← zpow_natCast, ← zpow_add₀ (by norm_num)]
        congr 1
        push_cast
        ring
      rw [hsplit, ← Nat.cast_lt (α := ℚ), ← mul_div_assoc, div_lt_div_iff₀ hden' (by positivity)]
      push_cast
      rw [mul_right_comm]
      norm_num
    have hexp : max (-1074) (if num * 2 ^ (-((Nat.log2 num : ℤ) - Nat.log2 den - 52)).toNat <
          2 ^ 52 * den * 2 ^ ((Nat.log2 num : ℤ) - Nat.log2 den - 52).toNat
        then (Nat.log2 num : ℤ) - Nat.log2 den - 52 - 1
        else (Nat.log2 num : ℤ) - Nat.log2 den - 52) = lastPlace ((num : ℚ) / den) := by
      rw [lastPlace, log_ratio hnum hden]
      simp only [hfits]
      split_ifs
      · congr 1
        ring
      · rfl
    unfold ofRatio round
    rw [if_neg hnum.ne', if_neg hne]
    dsimp only
    rw [hexp, hplace]

def mag (f : Float64) : ℚ :=
  f.mant * 2 ^ f.exp

variable {neg : Bool} {v : ℚ} {f : Float64}

lemma exp_of_round (hv : v ≠ 0) (h : round neg v = some f) : -1074 ≤ f.exp := by
  have hplace : -1074 ≤ lastPlace v := le_max_left _ _
  unfold round at h
  rw [if_neg hv] at h
  dsimp only at h
  split_ifs at h
  · cases h
    show -1074 ≤ lastPlace v + 1
    omega
  · cases h
    exact hplace

end Go.Float64
