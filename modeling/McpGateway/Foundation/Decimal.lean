import McpGateway.Foundation.Literal
import McpGateway.Foundation.Shortest
import Mathlib.Data.List.TakeWhile

/-!
# The value of a number literal

The rational a JSON number stands for.  A double is written as a literal of its shortest decimal, so
the literals that survive being read into a double and written again are those whose value is such a
decimal's.
-/

namespace Go.Json

open Go

def decimal (lit : Bytes) : Bool × ℕ × ℤ :=
  let neg := lit.head? = some 0x2D
  let lit := if neg then lit.drop 1 else lit
  let mantissa := lit.takeWhile fun b => !(b == 0x65 || b == 0x45)
  let exponent := (lit.drop mantissa.length).drop 1
  let int := mantissa.takeWhile isDigit
  let frac := (mantissa.drop int.length).drop 1
  let expAbs := natOfDigits (exponent.filter isDigit)
  let exp : ℤ := if exponent.head? = some 0x2D then -(expAbs : ℤ) else expAbs
  (neg, natOfDigits (int ++ frac), exp - frac.length)

lemma toFloat64_eq (lit : Bytes) :
    toFloat64 lit = Float64.ofDecimal (decimal lit).1 (decimal lit).2.1 (decimal lit).2.2 := rfl

def signum (neg : Bool) : ℚ :=
  if neg then -1 else 1

def numValue (lit : Bytes) : ℚ :=
  signum (decimal lit).1 * ((decimal lit).2.1 * 10 ^ (decimal lit).2.2)

variable {lit : Bytes}

lemma numValue_nat {n : Nat} (h : decimal lit = (false, n, 0)) : numValue lit = n := by
  rw [numValue, h]
  simp [signum]

/-! ## Digits as characters -/

def charByte (c : Char) : UInt8 :=
  c.toNat.toUInt8

variable {cs : List Char}

lemma bytes_ascii (h : ∀ c ∈ cs, c.toNat < 0x80) : bytes (String.ofList cs) = cs.map charByte := by
  rw [bytes_ofList]
  induction cs with
  | nil => rfl
  | cons c cs ih =>
    have hc := h c mem_cons_self
    rw [flatMap_cons, encodeRune_ascii hc, ih fun d hd => h d (mem_cons_of_mem _ hd)]
    rfl

def DigitChars (cs : List Char) : Prop :=
  ∀ c ∈ cs, c.isDigit = true

variable {c : Char}

lemma isDigit_range (h : c.isDigit = true) : 48 ≤ c.toNat ∧ c.toNat ≤ 57 := by
  simp only [Char.isDigit, and_eq_true, decide_eq_true_eq] at h
  exact h

lemma charByte_digit (h : c.isDigit = true) : (charByte c).toNat = c.toNat := by
  have hrange := isDigit_range h
  exact toNat_toUInt8 (by omega)

lemma isDigit_charByte (h : c.isDigit = true) : isDigit (charByte c) = true := by
  have hrange := isDigit_range h
  simp only [isDigit, charByte_digit h, and_eq_true, decide_eq_true_eq]
  omega

namespace DigitChars

lemma append {a b : List Char} (ha : DigitChars a) (hb : DigitChars b) : DigitChars (a ++ b) := by
  intro c hc
  rcases mem_append.1 hc with hc | hc
  · exact ha c hc
  · exact hb c hc

lemma replicate_zero (n : ℕ) : DigitChars (List.replicate n '0') := by
  intro c hc
  rw [List.eq_of_mem_replicate hc]
  rfl

lemma toDigits (n : ℕ) : DigitChars (Nat.toDigits 10 n) :=
  fun _ hc => Nat.isDigit_of_mem_toDigits (by norm_num) (by norm_num) hc

lemma isDigit_map (h : DigitChars cs) : ∀ b ∈ cs.map charByte, isDigit b = true := by
  intro b hb
  obtain ⟨c, hc, rfl⟩ := mem_map.1 hb
  exact isDigit_charByte (h c hc)

lemma natOfDigits_map (h : DigitChars cs) : natOfDigits (cs.map charByte) = Nat.ofDigitChars 10 cs 0 := by
  have hfold : ∀ acc, (cs.map charByte).foldl (fun acc d => acc * 10 + (d.toNat - 0x30)) acc =
      Nat.ofDigitChars 10 cs acc := by
    induction cs with
    | nil => intro acc; rfl
    | cons c cs ih =>
      intro acc
      have hc := h c mem_cons_self
      rw [map_cons, foldl_cons, Nat.ofDigitChars_cons, charByte_digit hc, Nat.mul_comm]
      exact ih (fun d hd => h d (mem_cons_of_mem _ hd)) _
  exact hfold 0

end DigitChars

/-! ## Literals built from their parts -/

def signChars (neg : Bool) : List Char :=
  if neg then ['-'] else []

/-- The characters of a number: its sign, the digits before and after the point, and the exponent with
its sign. -/
def literal (neg : Bool) (int frac : List Char) (exp : Option (Bool × List Char)) : List Char :=
  signChars neg ++ int ++ (if frac.isEmpty then [] else '.' :: frac) ++
    match exp with
    | none => []
    | some (eneg, digits) => 'e' :: (if eneg then '-' else '+') :: digits

def expValue : Option (Bool × List Char) → ℤ
  | none => 0
  | some (eneg, digits) =>
    if eneg then -(Nat.ofDigitChars 10 digits 0 : ℤ) else Nat.ofDigitChars 10 digits 0

structure Parts (int frac : List Char) (exp : Option (Bool × List Char)) : Prop where
  whole : DigitChars int
  nonempty : int ≠ []
  leading : int = ['0'] ∨ int.head? ≠ some '0'
  fraction : DigitChars frac
  exponent : ∀ e ∈ exp, DigitChars e.2 ∧ e.2 ≠ []

section Literals

variable {neg : Bool} {int frac : List Char} {exp : Option (Bool × List Char)}

def fracBytes (frac : List Char) : Bytes :=
  if frac.isEmpty then [] else 0x2E :: frac.map charByte

def expBytes : Option (Bool × List Char) → Bytes
  | none => []
  | some (eneg, digits) => 0x65 :: (if eneg then 0x2D else 0x2B) :: digits.map charByte

def signBytes (neg : Bool) : Bytes :=
  if neg then [0x2D] else []

lemma DigitChars.ascii (h : DigitChars cs) : ∀ c ∈ cs, c.toNat < 0x80 := by
  intro c hc
  have hrange := isDigit_range (h c hc)
  omega

lemma bytes_literal (h : Parts int frac exp) : bytes (String.ofList (literal neg int frac exp)) =
    signBytes neg ++ int.map charByte ++ fracBytes frac ++ expBytes exp := by
  have hascii : ∀ c ∈ literal neg int frac exp, c.toNat < 0x80 := by
    intro c hc
    unfold literal at hc
    simp only [mem_append] at hc
    rcases hc with ((hc | hc) | hc) | hc
    · unfold signChars at hc
      split_ifs at hc
      · rw [mem_singleton.1 hc]
        decide
      · cases hc
    · exact h.whole.ascii c hc
    · split_ifs at hc
      · cases hc
      · rcases mem_cons.1 hc with rfl | hc
        · decide
        · exact h.fraction.ascii c hc
    · cases exp with
      | none => cases hc
      | some e =>
        rcases mem_cons.1 hc with rfl | hc
        · decide
        rcases mem_cons.1 hc with rfl | hc
        · split_ifs <;> decide
        · exact (h.exponent e rfl).1.ascii c hc
  rw [bytes_ascii hascii]
  unfold literal signChars signBytes fracBytes
  rw [map_append, map_append, map_append]
  congr 1
  · congr 1
    · congr 1
      split_ifs <;> rfl
    · split_ifs <;> rfl
  · cases exp with
    | none => rfl
    | some e =>
      show _ :: _ :: _ = _ :: _ :: _
      split_ifs <;> rfl

lemma charByte_injective_digit (h : c.isDigit = true) (hb : charByte c = 0x30) : c = '0' := by
  have hval := charByte_digit h
  rw [hb] at hval
  exact Char.toNat_inj.1 hval.symm

lemma isNumber_literal (neg : Bool) (h : Parts int frac exp) :
    IsNumber (bytes (String.ofList (literal neg int frac exp))) := by
  rw [bytes_literal h]
  refine ⟨_, _, _, _, rfl, ?_, ?_, ?_, ?_⟩
  · unfold signBytes
    split_ifs
    · exact .inr rfl
    · exact .inl rfl
  · rcases h.leading with rfl | hlead
    · exact .inl rfl
    · refine .inr ⟨⟨fun hnil => h.nonempty (List.map_eq_nil_iff.1 hnil), h.whole.isDigit_map⟩, ?_⟩
      obtain ⟨c, cs, rfl⟩ := List.exists_cons_of_ne_nil h.nonempty
      intro hhead
      have hc := charByte_injective_digit (h.whole c mem_cons_self) (Option.some.inj hhead)
      exact hlead (congrArg some hc)
  · unfold fracBytes
    split_ifs with hempty
    · exact .inl rfl
    · refine .inr ⟨_, rfl, fun hnil => hempty ?_, h.fraction.isDigit_map⟩
      rw [List.map_eq_nil_iff.1 hnil]
      rfl
  · cases exp with
    | none => exact .inl rfl
    | some e =>
      obtain ⟨hdigits, hne⟩ := h.exponent e rfl
      refine .inr ⟨0x65, [if e.1 then 0x2D else 0x2B], e.2.map charByte, rfl, .inl rfl, ?_, ?_⟩
      · split_ifs
        · exact .inr (.inr rfl)
        · exact .inr (.inl rfl)
      · exact ⟨fun hnil => hne (List.map_eq_nil_iff.1 hnil), hdigits.isDigit_map⟩

lemma takeWhile_append_stop {α : Type} {p : α → Bool} {a b : List α} (ha : ∀ x ∈ a, p x = true)
    (hb : ∀ x ∈ b.head?, p x = false) : (a ++ b).takeWhile p = a := by
  rw [List.takeWhile_append_of_pos ha]
  cases b with
  | nil => exact append_nil a
  | cons x b => simp [hb x rfl]

lemma mantissa_literal (h : Parts int frac exp) :
    (int.map charByte ++ fracBytes frac ++ expBytes exp).takeWhile
        (fun b => !(b == 0x65 || b == 0x45)) = int.map charByte ++ fracBytes frac := by
  have hdigit : ∀ b : UInt8, isDigit b = true → (!(b == 0x65 || b == 0x45)) = true := by
    intro b hb
    have hlower : b ≠ 0x65 := by rintro rfl; exact absurd hb (by decide)
    have hupper : b ≠ 0x45 := by rintro rfl; exact absurd hb (by decide)
    simp [hlower, hupper]
  refine takeWhile_append_stop ?_ ?_
  · intro b hb
    rcases mem_append.1 hb with hb | hb
    · exact hdigit b (h.whole.isDigit_map b hb)
    · unfold fracBytes at hb
      split_ifs at hb
      · cases hb
      · rcases mem_cons.1 hb with rfl | hb
        · decide
        · exact hdigit b (h.fraction.isDigit_map b hb)
  · intro b hb
    cases exp with
    | none => cases hb
    | some e =>
      cases hb
      decide

lemma int_literal (h : Parts int frac exp) :
    (int.map charByte ++ fracBytes frac).takeWhile isDigit = int.map charByte := by
  refine takeWhile_append_stop h.whole.isDigit_map ?_
  intro b hb
  unfold fracBytes at hb
  split_ifs at hb
  · cases hb
  · cases hb
    decide

lemma fracBytes_drop (frac : List Char) : (fracBytes frac).drop 1 = frac.map charByte := by
  unfold fracBytes
  split_ifs with hempty
  · rw [List.isEmpty_iff.1 hempty]
    rfl
  · rfl

lemma expBytes_value (h : ∀ e ∈ exp, DigitChars e.2 ∧ e.2 ≠ []) :
    (if ((expBytes exp).drop 1).head? = some 0x2D
      then -(natOfDigits (((expBytes exp).drop 1).filter isDigit) : ℤ)
      else (natOfDigits (((expBytes exp).drop 1).filter isDigit) : ℤ)) = expValue exp := by
  cases exp with
  | none => rfl
  | some e =>
    obtain ⟨eneg, digits⟩ := e
    have hdigits : DigitChars digits := (h _ rfl).1
    have hall : (digits.map charByte).filter isDigit = digits.map charByte :=
      List.filter_eq_self.2 hdigits.isDigit_map
    have hplus : isDigit 0x2B = false := by decide
    have hminus : isDigit 0x2D = false := by decide
    cases eneg <;>
      simp [expBytes, expValue, hplus, hminus, hall, hdigits.natOfDigits_map]

lemma decimal_literal (neg : Bool) (h : Parts int frac exp) :
    decimal (bytes (String.ofList (literal neg int frac exp))) =
      (neg, Nat.ofDigitChars 10 (int ++ frac) 0, expValue exp - frac.length) := by
  rw [bytes_literal h]
  have hhead : (signBytes neg ++ int.map charByte ++ fracBytes frac ++ expBytes exp).head? =
      some 0x2D ↔ neg = true := by
    obtain ⟨c, cs, rfl⟩ := List.exists_cons_of_ne_nil h.nonempty
    have hc := isDigit_charByte (h.whole c mem_cons_self)
    have hne : charByte c ≠ 0x2D := by
      intro heq
      rw [heq] at hc
      exact absurd hc (by decide)
    cases neg <;> simp [signBytes, hne]
  have hbody : (if (signBytes neg ++ int.map charByte ++ fracBytes frac ++ expBytes exp).head? =
        some 0x2D
      then (signBytes neg ++ int.map charByte ++ fracBytes frac ++ expBytes exp).drop 1
      else signBytes neg ++ int.map charByte ++ fracBytes frac ++ expBytes exp) =
      int.map charByte ++ fracBytes frac ++ expBytes exp := by
    simp only [hhead]
    cases neg <;> rfl
  have hdigits : int.map charByte ++ frac.map charByte = (int ++ frac).map charByte :=
    map_append.symm
  unfold decimal
  dsimp only
  rw [hbody, mantissa_literal h, List.drop_left, int_literal h, List.drop_left, fracBytes_drop,
    expBytes_value h.exponent, hdigits, (h.whole.append h.fraction).natOfDigits_map, List.length_map]
  simp only [hhead, Bool.decide_eq_true]

lemma numValue_literal (neg : Bool) (h : Parts int frac exp) :
    numValue (bytes (String.ofList (literal neg int frac exp))) =
      signum neg * (Nat.ofDigitChars 10 (int ++ frac) 0 * 10 ^ (expValue exp - frac.length)) := by
  rw [numValue, decimal_literal neg h]

end Literals

end Go.Json

namespace Go.Float64

open Json

/-! ## Written doubles -/

lemma toDigits_head {d : ℕ} (hd : 0 < d) : (Nat.toDigits 10 d).head? ≠ some '0' := by
  intro hhead
  obtain ⟨hlow, -⟩ := toDigits_length_bounds hd
  have hvalue : Nat.ofDigitChars 10 (Nat.toDigits 10 d) 0 = d := Nat.ofDigitChars_ten_toDigits
  have hdigits := DigitChars.toDigits d
  cases hcs : Nat.toDigits 10 d with
  | nil => exact Nat.toDigits_ne_nil hcs
  | cons c cs =>
    rw [hcs] at hhead hlow hvalue hdigits
    cases hhead
    -- the other digits are worth less than the leading place
    have hbound : ∀ ds : List Char, DigitChars ds → Nat.ofDigitChars 10 ds 0 < 10 ^ ds.length := by
      intro ds
      induction ds with
      | nil => intro _; exact Nat.one_pos
      | cons e es ih =>
        intro hes
        have he := isDigit_range (hes e mem_cons_self)
        have hrest := ih fun c hc => hes c (mem_cons_of_mem _ hc)
        have h0 : '0'.toNat = 48 := rfl
        rw [Nat.ofDigitChars_cons, Nat.ofDigitChars_eq_ofDigitChars_zero, length_cons,
          Nat.pow_succ, h0]
        have hdigit : 10 * 0 + (e.toNat - 48) ≤ 9 := by omega
        have hmul := Nat.mul_le_mul_left (10 ^ es.length) hdigit
        omega
    have hlt := hbound cs fun c hc => hdigits c (mem_cons_of_mem _ hc)
    rw [Nat.ofDigitChars_cons] at hvalue
    have hzero : 10 * 0 + ('0'.toNat - '0'.toNat) = 0 := rfl
    rw [hzero] at hvalue
    rw [length_cons, Nat.add_sub_cancel] at hlow
    omega

lemma trim_zeros (cs : List Char) :
    ∃ k, cs = (cs.reverse.dropWhile (· == '0')).reverse ++ List.replicate k '0' := by
  have hsplit := List.takeWhile_append_dropWhile (p := (· == '0')) (l := cs.reverse)
  have hzeros : cs.reverse.takeWhile (· == '0') =
      List.replicate (cs.reverse.takeWhile (· == '0')).length '0' := by
    refine List.eq_replicate_of_mem ?_
    intro c hc
    have hzero := List.mem_takeWhile_imp (p := (· == '0')) hc
    exact eq_of_beq hzero
  refine ⟨(cs.reverse.takeWhile (· == '0')).length, ?_⟩
  rw [← List.reverse_inj, List.reverse_append, List.reverse_reverse, List.reverse_replicate, ← hzeros]
  exact hsplit.symm

variable {f : Float64}

lemma shortestDigits_spec (hd : 0 < (shortest f).1) : DigitChars f.shortestDigits.1 ∧
    f.shortestDigits.1 ≠ [] ∧ f.shortestDigits.1.head? ≠ some '0' ∧ decimalValue (shortest f) =
    Nat.ofDigitChars 10 f.shortestDigits.1 0 * 10 ^ (f.shortestDigits.2 - f.shortestDigits.1.length) := by
  obtain ⟨⟨d, e⟩, hs⟩ : ∃ s, shortest f = s := ⟨_, rfl⟩
  rw [hs] at hd
  dsimp only at hd
  have hpair : f.shortestDigits = (((Nat.toDigits 10 d).reverse.dropWhile (· == '0')).reverse,
      ((Nat.toDigits 10 d).length : ℤ) + e) := by
    unfold shortestDigits
    rw [hs]
  rw [hpair]
  dsimp only
  have hhead := toDigits_head hd
  have hall := DigitChars.toDigits d
  have hvalue : Nat.ofDigitChars 10 (Nat.toDigits 10 d) 0 = d := Nat.ofDigitChars_ten_toDigits
  obtain ⟨k, hk⟩ := trim_zeros (Nat.toDigits 10 d)
  generalize ((Nat.toDigits 10 d).reverse.dropWhile (· == '0')).reverse = ds at hk
  rw [hk] at hhead hall hvalue ⊢
  have hne : ds ≠ [] := by
    rintro rfl
    rw [nil_append, Nat.ofDigitChars_replicate_zero] at hvalue
    omega
  refine ⟨fun c hc => hall c (mem_append_left _ hc), hne, ?_, ?_⟩
  · obtain ⟨c, cs, rfl⟩ := List.exists_cons_of_ne_nil hne
    exact hhead
  · rw [Nat.ofDigitChars_append, Nat.ofDigitChars_replicate_zero] at hvalue
    rw [decimalValue, hs, length_append, List.length_replicate]
    dsimp only
    rw [← hvalue]
    push_cast
    rw [mul_comm ((10 : ℚ) ^ k), mul_assoc, ← zpow_natCast, ← zpow_add₀ (by norm_num)]
    congr 2
    ring

section Written

variable {ds : List Char} {p : ℤ}

lemma fixed_literal (hdigits : DigitChars ds) (hne : ds ≠ []) (hhead : ds.head? ≠ some '0') (neg : Bool) :
    ∃ int frac, signChars neg ++ fixed ds p = literal neg int frac none ∧ Parts int frac none ∧
    (Nat.ofDigitChars 10 (int ++ frac) 0 : ℚ) * 10 ^ (expValue none - frac.length) =
    Nat.ofDigitChars 10 ds 0 * 10 ^ (p - ds.length) := by
  have hnone : ∀ e ∈ (none : Option (Bool × List Char)), DigitChars e.2 ∧ e.2 ≠ [] := by
    intro e he
    cases he
  unfold fixed
  split_ifs with hp hlong
  · -- all digits behind the point
    refine ⟨['0'], List.replicate (-p).toNat '0' ++ ds, ?_, ⟨?_, by simp, .inl rfl, ?_, hnone⟩, ?_⟩
    · simp [literal, hne]
    · exact DigitChars.replicate_zero 1
    · exact (DigitChars.replicate_zero _).append hdigits
    · have hzeros : ['0'] ++ (List.replicate (-p).toNat '0' ++ ds) =
          List.replicate ((-p).toNat + 1) '0' ++ ds := by
        rw [List.replicate_succ]
        rfl
      have hexp : expValue none - ((List.replicate (-p).toNat '0' ++ ds).length : ℤ) =
          p - ds.length := by
        show (0 : ℤ) - _ = _
        rw [length_append, List.length_replicate]
        push_cast
        omega
      rw [hzeros, hexp, Nat.ofDigitChars_append, Nat.ofDigitChars_replicate_zero, Nat.mul_zero]
  · -- all digits before it, with zeros to fill
    refine ⟨ds ++ List.replicate (p.toNat - ds.length) '0', [], ?_, ⟨?_, ?_, .inr ?_, ?_, hnone⟩, ?_⟩
    · simp [literal]
    · exact hdigits.append (DigitChars.replicate_zero _)
    · simp [hne]
    · obtain ⟨c, cs, rfl⟩ := List.exists_cons_of_ne_nil hne
      exact hhead
    · intro c hc
      cases hc
    · rw [append_nil, Nat.ofDigitChars_append, Nat.ofDigitChars_replicate_zero]
      have hexp : p - ds.length = ((p.toNat - ds.length : ℕ) : ℤ) := by omega
      rw [hexp, zpow_natCast]
      simp [expValue, mul_comm]
  · -- the point inside
    have htake : 0 < p.toNat := by omega
    have hlong' : p.toNat < ds.length := by omega
    refine ⟨ds.take p.toNat, ds.drop p.toNat, ?_, ⟨?_, ?_, .inr ?_, ?_, hnone⟩, ?_⟩
    · have hdrop : (ds.drop p.toNat).isEmpty = false := by
        rw [List.isEmpty_eq_false_iff]
        intro hnil
        have := List.drop_eq_nil_iff.1 hnil
        omega
      simp [literal, hdrop]
    · exact fun c hc => hdigits c (List.mem_of_mem_take hc)
    · intro hnil
      rcases List.take_eq_nil_iff.1 hnil with h | h
      · omega
      · exact hne h
    · rw [List.head?_take, if_neg (by omega)]
      exact hhead
    · exact fun c hc => hdigits c (List.mem_of_mem_drop hc)
    · have hexp : expValue none - ((ds.drop p.toNat).length : ℤ) = p - ds.length := by
        show (0 : ℤ) - _ = _
        rw [List.length_drop]
        omega
      rw [List.take_append_drop, hexp]

lemma scientific_literal (hdigits : DigitChars ds) (hne : ds ≠ []) (hhead : ds.head? ≠ some '0')
    (neg : Bool) (width : ℕ) :
    ∃ int frac exp, signChars neg ++ scientific width ds p = literal neg int frac exp ∧
      Parts int frac exp ∧
      (Nat.ofDigitChars 10 (int ++ frac) 0 : ℚ) * 10 ^ (expValue exp - frac.length) =
        Nat.ofDigitChars 10 ds 0 * 10 ^ (p - ds.length) := by
  obtain ⟨c, cs, rfl⟩ := List.exists_cons_of_ne_nil hne
  have hes := DigitChars.toDigits (p - 1).natAbs
  have hesValue : Nat.ofDigitChars 10 (Nat.toDigits 10 (p - 1).natAbs) 0 = (p - 1).natAbs :=
    Nat.ofDigitChars_ten_toDigits
  have hesNe : Nat.toDigits 10 (p - 1).natAbs ≠ [] := Nat.toDigits_ne_nil
  unfold scientific
  dsimp only
  generalize hpad : List.replicate (width - (Nat.toDigits 10 (p - 1).natAbs).length) '0' = pad
  have hpadded : Nat.ofDigitChars 10 (pad ++ Nat.toDigits 10 (p - 1).natAbs) 0 = (p - 1).natAbs := by
    rw [Nat.ofDigitChars_append, ← hpad, Nat.ofDigitChars_replicate_zero, Nat.mul_zero, hesValue]
  refine ⟨[c], cs, some (decide (p - 1 < 0), pad ++ Nat.toDigits 10 (p - 1).natAbs), ?_,
    ⟨?_, by simp, .inr ?_, ?_, ?_⟩, ?_⟩
  · simp [literal]
  · exact fun d hd => hdigits d (mem_cons.2 (.inl (mem_singleton.1 hd)))
  · exact hhead
  · exact fun d hd => hdigits d (mem_cons_of_mem _ hd)
  · rintro e he
    cases he
    refine ⟨?_, by simp [hesNe]⟩
    rw [← hpad]
    exact (DigitChars.replicate_zero _).append hes
  · have hexp : expValue (some (decide (p - 1 < 0), pad ++ Nat.toDigits 10 (p - 1).natAbs)) =
        p - 1 := by
      simp only [expValue, hpadded, decide_eq_true_eq]
      split_ifs <;> omega
    rw [hexp, length_cons]
    congr 2
    push_cast
    ring

end Written

lemma toJson_literal (hmant : f.mant ≠ 0) (hd : 0 < (shortest f).1) : IsNumber (bytes f.toJson) ∧
    numValue (bytes f.toJson) = signum f.neg * decimalValue (shortest f) := by
  obtain ⟨hdigits, hne, hhead, hvalue⟩ := shortestDigits_spec hd
  rw [hvalue]
  have htext : f.toJson = String.ofList (signChars f.neg ++
      if f.shortestDigits.2 - 1 < -6 ∨ 21 ≤ f.shortestDigits.2 - 1
      then scientific (if f.shortestDigits.2 - 1 < 0 then 1 else 2) f.shortestDigits.1 f.shortestDigits.2
      else fixed f.shortestDigits.1 f.shortestDigits.2) := by
    unfold toJson
    rw [if_neg hmant]
    rfl
  rw [htext]
  by_cases hform : f.shortestDigits.2 - 1 < -6 ∨ 21 ≤ f.shortestDigits.2 - 1
  · obtain ⟨int, frac, exp, hlit, hparts, hsame⟩ := scientific_literal (p := f.shortestDigits.2)
      hdigits hne hhead f.neg (if f.shortestDigits.2 - 1 < 0 then 1 else 2)
    rw [if_pos hform, hlit, numValue_literal _ hparts, hsame]
    exact ⟨isNumber_literal _ hparts, rfl⟩
  · obtain ⟨int, frac, hlit, hparts, hsame⟩ := fixed_literal (p := f.shortestDigits.2)
      hdigits hne hhead f.neg
    rw [if_neg hform, hlit, numValue_literal _ hparts, hsame]
    exact ⟨isNumber_literal _ hparts, rfl⟩

lemma toJson_zero (hmant : f.mant = 0) : IsNumber (bytes f.toJson) ∧ numValue (bytes f.toJson) = 0 := by
  have hparts : Parts ['0'] [] none :=
    ⟨DigitChars.replicate_zero 1, by simp, .inl rfl, (fun c hc => by cases hc),
      (fun e he => by cases he)⟩
  have htext : f.toJson = String.ofList (literal f.neg ['0'] [] none) := by
    simp [toJson, sign, literal, signChars, hmant]
  rw [htext]
  refine ⟨isNumber_literal _ hparts, ?_⟩
  rw [numValue_literal _ hparts]
  simp [Nat.ofDigitChars_cons]

end Go.Float64

namespace Go.Json

open Float64

lemma isNumber_toJson (h : toFloat64 lit = some f) : IsNumber (bytes f.toJson) := by
  rw [toFloat64_eq] at h
  by_cases hmant : f.mant = 0
  · exact (toJson_zero hmant).1
  · have hexp := (ofDecimal_range h).resolve_left hmant
    exact (toJson_literal hmant (shortest_pos hmant hexp)).1

/-! ## Numbers that survive -/

/-- The literal has the same value after being read into a double and written again. -/
def RoundTrips (lit : Bytes) : Prop :=
  ∃ f, toFloat64 lit = some f ∧ numValue (bytes f.toJson) = numValue lit

/-- In particular a literal that is written back as it was read. -/
lemma roundTrips_of_written (h : (toFloat64 lit).map (fun f => bytes f.toJson) = some lit) :
    RoundTrips lit := by
  obtain ⟨f, hf, hwritten⟩ := map_eq_some_iff.1 h
  exact ⟨f, hf, congrArg numValue hwritten⟩

example : RoundTrips (bytes "9007199254740994") ∧ RoundTrips (bytes "0.30000000000000004") :=
  ⟨roundTrips_of_written (by decide +kernel), roundTrips_of_written (by decide +kernel)⟩

end Go.Json
