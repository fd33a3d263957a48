import McpGateway.Foundation.Rounding

/-!
# The shortest decimal of a double

A double is printed as the shortest decimal that reads back to it.
-/

namespace Go.Float64

/-! ## Decimal places -/

variable {n : ℕ} {a b c : ℤ}

lemma ten_zpow_mul (h : a + b = c) : (10 : ℚ) ^ a * 10 ^ b = 10 ^ c := by
  rw [← zpow_add₀ (by norm_num), h]

lemma ten_pow_mul (h : n + a = b) : (10 : ℚ) ^ n * 10 ^ a = 10 ^ b := by
  rw [← zpow_natCast, ten_zpow_mul h]

lemma toDigits_length_bounds (hn : 0 < n) :
    10 ^ ((Nat.toDigits 10 n).length - 1) ≤ n ∧ n < 10 ^ (Nat.toDigits 10 n).length := by
  have hlength : 0 < (Nat.toDigits 10 n).length := Nat.length_toDigits_pos
  constructor
  · by_contra hlow
    have hlow' : n < 10 ^ ((Nat.toDigits 10 n).length - 1) := by omega
    have hpos : 0 < (Nat.toDigits 10 n).length - 1 := by
      by_contra hzero
      have hone : (Nat.toDigits 10 n).length - 1 = 0 := by omega
      rw [hone] at hlow'
      omega
    have hle := (Nat.length_toDigits_le_iff (n := n) (by norm_num) hpos).2 hlow'
    omega
  · exact (Nat.length_toDigits_le_iff (by norm_num) hlength).1 (Nat.le_refl _)

lemma pointPos_bounds {num den : ℕ} (hden : 0 < den) (hlow : (10 : ℚ) ^ (-330 : ℤ) ≤ (num : ℚ) / den) :
    (10 : ℚ) ^ (pointPos num den - 1) ≤ (num : ℚ) / den ∧ (num : ℚ) / den < 10 ^ pointPos num den := by
  have hden' : (0 : ℚ) < den := by exact_mod_cast hden
  unfold pointPos
  split_ifs with hone
  · -- at least one: the digits of the integral part
    have hpos : 0 < num / den := Nat.div_pos hone hden
    obtain ⟨hqLow, hqHigh⟩ := toDigits_length_bounds hpos
    have hlength : 0 < (Nat.toDigits 10 (num / den)).length := Nat.length_toDigits_pos
    generalize (Nat.toDigits 10 (num / den)).length = l at *
    have hcast : (l : ℤ) - 1 = ((l - 1 : ℕ) : ℤ) := by omega
    rw [hcast, zpow_natCast, zpow_natCast, le_div_iff₀ hden', div_lt_iff₀ hden']
    constructor
    · have h : 10 ^ (l - 1) * den ≤ num := (Nat.le_div_iff_mul_le hden).1 hqLow
      exact_mod_cast h
    · have h : num < 10 ^ l * den := (Nat.div_lt_iff_lt_mul hden).1 hqHigh
      exact_mod_cast h
  · -- below one: the first power that lifts the value to one
    have hplace : ∀ j : ℕ, den ≤ num * 10 ^ (j + 1) ↔ (10 : ℚ) ^ (-(j : ℤ) - 1) ≤ (num : ℚ) / den := by
      intro j
      have hsplit : (10 : ℚ) ^ (-(j : ℤ) - 1) = (10 ^ (j + 1))⁻¹ := by
        rw [← zpow_natCast, ← zpow_neg]
        congr 1
        push_cast
        ring
      rw [hsplit, inv_le_iff_one_le_mul₀ (by positivity), div_mul_eq_mul_div, one_le_div hden',
        ← Nat.cast_le (α := ℚ)]
      push_cast
      rfl
    have hexists : ((List.range 330).find? fun j => den ≤ num * 10 ^ (j + 1)).isSome = true := by
      rw [List.find?_isSome]
      refine ⟨329, by simp, ?_⟩
      rw [decide_eq_true_eq, hplace]
      exact hlow
    split
    next j hj =>
      constructor
      · have hfound := List.find?_some hj
        rw [decide_eq_true_eq, hplace] at hfound
        exact hfound
      · cases j with
        | zero =>
          have h : num < den := by omega
          simp only [Nat.cast_zero, neg_zero, zpow_zero]
          rw [div_lt_one hden']
          exact_mod_cast h
        | succ i =>
          -- the power before was not enough
          have hbefore := List.find?_range_eq_some.1 hj
          have hi := hbefore.2.2 i (Nat.lt_succ_self i)
          rw [Bool.not_eq_true', decide_eq_false_iff_not, hplace, not_le] at hi
          have hexp : -((i + 1 : ℕ) : ℤ) = -(i : ℤ) - 1 := by push_cast; ring
          rw [hexp]
          exact hi
    next hnone =>
      rw [hnone] at hexists
      cases hexists

/-! ## The candidates -/

def point (f : Float64) : ℤ :=
  pointPos (f.mant * 2 ^ f.exp.toNat) (2 ^ (-f.exp).toNat)

lemma mag_eq_div (f : Float64) :
    f.mag = ((f.mant * 2 ^ f.exp.toNat : ℕ) : ℚ) / ((2 ^ (-f.exp).toNat : ℕ) : ℚ) := by
  rw [mag, zpow_eq_div (by norm_num)]
  push_cast
  ring

variable {f : Float64}

lemma point_bounds (hlow : (10 : ℚ) ^ (-330 : ℤ) ≤ f.mag) :
    (10 : ℚ) ^ (f.point - 1) ≤ f.mag ∧ f.mag < 10 ^ f.point := by
  rw [mag_eq_div] at hlow ⊢
  exact pointPos_bounds (by positivity) hlow

/-- The decimal of `n` digits nearest to a double, without its exponent. -/
def candidate (f : Float64) (n : ℕ) : ℕ :=
  nearestEven (f.mag * 10 ^ ((n : ℤ) - f.point))

lemma divEven_candidate (f : Float64) (n : ℕ) :
    divEven (f.mant * 2 ^ f.exp.toNat * 10 ^ ((n : ℤ) - f.point).toNat)
      (2 ^ (-f.exp).toNat * 10 ^ (-((n : ℤ) - f.point)).toNat) = f.candidate n := by
  rw [divEven_eq _ (by positivity), candidate, mag_eq_div, zpow_eq_div (by norm_num)]
  congr 1
  push_cast
  field_simp

lemma exists_shortest_eq (f : Float64) :
    ∃ n : ℕ, 1 ≤ n ∧ shortest f = (f.candidate n, f.point - n) := by
  have hcandidate (n : ℕ) : (divEven (f.mant * 2 ^ f.exp.toNat * 10 ^ ((n : ℤ) - f.point).toNat)
      (2 ^ (-f.exp).toNat * 10 ^ (-((n : ℤ) - f.point)).toNat), -((n : ℤ) - f.point)) =
      (f.candidate n, f.point - n) := by
    rw [divEven_candidate, neg_sub]
  unfold shortest
  dsimp only
  split
  next i _ => exact ⟨i + 1, by omega, hcandidate (i + 1)⟩
  next => exact ⟨17, by norm_num, hcandidate 17⟩

lemma candidate_bounds (hlow : (10 : ℚ) ^ (-330 : ℤ) ≤ f.mag) (hn : 1 ≤ n) :
    (10 : ℚ) ^ (f.point - 1) ≤ f.candidate n * 10 ^ (f.point - n) ∧
      (f.candidate n : ℚ) * 10 ^ (f.point - n) ≤ 10 ^ f.point := by
  obtain ⟨hpLow, hpHigh⟩ := point_bounds hlow
  have hscale := ten_zpow_pos ((n : ℤ) - f.point)
  have hmagPos : (0 : ℚ) < f.mag := lt_of_lt_of_le (ten_zpow_pos _) hlow
  have hsplit (k : ℕ) (e : ℤ) (h : e + (n - f.point) = k) :
      ((10 ^ k : ℕ) : ℚ) = 10 ^ e * 10 ^ ((n : ℤ) - f.point) := by
    rw [ten_zpow_mul h, zpow_natCast, Nat.cast_pow, Nat.cast_ofNat]
  have hcLow : 10 ^ (n - 1) ≤ f.candidate n := by
    refine le_nearestEven ?_
    rw [hsplit _ (f.point - 1) (by omega)]
    gcongr
  have hcHigh : f.candidate n ≤ 10 ^ n := by
    refine nearestEven_le (by positivity) ?_
    rw [hsplit _ f.point (by omega)]
    gcongr
  constructor
  · calc (10 : ℚ) ^ (f.point - 1) = ((10 ^ (n - 1) : ℕ) : ℚ) * 10 ^ (f.point - n) := by
          push_cast
          exact (ten_pow_mul (by omega)).symm
      _ ≤ f.candidate n * 10 ^ (f.point - n) := by gcongr
  · calc (f.candidate n : ℚ) * 10 ^ (f.point - n) ≤ ((10 ^ n : ℕ) : ℚ) * 10 ^ (f.point - n) := by gcongr
      _ = 10 ^ f.point := by
          push_cast
          exact ten_pow_mul (by omega)

def decimalValue (d : ℕ × ℤ) : ℚ :=
  d.1 * 10 ^ d.2

lemma ten_zpow_le_two_zpow : (10 : ℚ) ^ (-330 : ℤ) ≤ 2 ^ (-1074 : ℤ) := by
  have hpow : (2 : ℚ) ^ 1074 ≤ 10 ^ 330 := by
    calc (2 : ℚ) ^ 1074 ≤ 2 ^ 1081 := pow_le_pow_right₀ (by norm_num) (by norm_num)
      _ = (2 ^ 23) ^ 47 := by rw [← pow_mul]
      _ ≤ (10 ^ 7) ^ 47 := pow_le_pow_left₀ (by norm_num) (by norm_num) _
      _ = 10 ^ 329 := by rw [← pow_mul]
      _ ≤ 10 ^ 330 := pow_le_pow_right₀ (by norm_num) (by norm_num)
  have hcast : (2 : ℚ) ^ (1074 : ℤ) ≤ 10 ^ (330 : ℤ) := by exact_mod_cast hpow
  rw [zpow_neg, zpow_neg]
  exact inv_anti₀ (two_zpow_pos _) hcast

lemma shortest_pos (hmant : f.mant ≠ 0) (hexp : -1074 ≤ f.exp) : 0 < (shortest f).1 := by
  have hlow : (10 : ℚ) ^ (-330 : ℤ) ≤ f.mag := by
    have hone : (1 : ℚ) ≤ f.mant := by exact_mod_cast Nat.one_le_iff_ne_zero.2 hmant
    calc (10 : ℚ) ^ (-330 : ℤ) ≤ 2 ^ (-1074 : ℤ) := ten_zpow_le_two_zpow
      _ ≤ 2 ^ f.exp := zpow_le_zpow_right₀ (by norm_num) hexp
      _ ≤ f.mag := le_mul_of_one_le_left (two_zpow_pos _).le hone
  have hpos : ∀ n : ℕ, 1 ≤ n → 0 < f.candidate n := by
    intro n hn
    rcases Nat.eq_zero_or_pos (f.candidate n) with hzero | hpos
    · have hbound := (candidate_bounds hlow hn).1
      have := ten_zpow_pos (f.point - 1)
      rw [hzero, Nat.cast_zero, zero_mul] at hbound
      linarith
    · exact hpos
  obtain ⟨n, hn, hshortest⟩ := exists_shortest_eq f
  rw [hshortest]
  exact hpos n hn

variable {neg : Bool}

lemma ofDecimal_range {d : ℕ} {e : ℤ} (h : ofDecimal neg d e = some f) : f.mant = 0 ∨ -1074 ≤ f.exp := by
  unfold ofDecimal at h
  dsimp only at h
  split_ifs at h
  · cases h
    exact .inl rfl
  · rw [ofRatio_eq _ _ (by positivity)] at h
    by_cases hzero : ((d * 10 ^ e.toNat : ℕ) : ℚ) / ((10 ^ (-e).toNat : ℕ) : ℚ) = 0
    · rw [hzero, round, if_pos rfl] at h
      cases h
      exact .inl rfl
    · exact .inr (exp_of_round hzero h)

end Go.Float64
