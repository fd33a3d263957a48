import McpGateway.Foundation.Json
import McpGateway.Foundation.Utf8

/-!
# String and number literals

The grammar of the literals a JSON text holds, and that the scanners read a literal of the grammar
back whole, whatever follows it.  A string that `Json.quote` wrote is such a literal, and unquoting it
gives the string back.
-/

namespace Go.Json

open Go

/-! ## String literals -/

inductive IsString : Bytes → Prop
  | nil : IsString []
  | plain {b : UInt8} {lit : Bytes} (hb : 0x20 ≤ b.toNat) (hquote : b ≠ 0x22) (hslash : b ≠ 0x5C)
      (h : IsString lit) : IsString (b :: lit)
  | simple {e : UInt8} {lit : Bytes} (he : isSimpleEscape e = true) (h : IsString lit) :
      IsString (0x5C :: e :: lit)
  | unicode {h₁ h₂ h₃ h₄ : UInt8} {lit : Bytes}
      (hhex : ([h₁, h₂, h₃, h₄].all fun h => (hexVal h).isSome) = true) (h : IsString lit) :
      IsString (0x5C :: 0x75 :: h₁ :: h₂ :: h₃ :: h₄ :: lit)

lemma IsString.append {a b : Bytes} (ha : IsString a) (hb : IsString b) : IsString (a ++ b) := by
  induction ha with
  | nil => exact hb
  | plain hlow hquote hslash _ ih => exact .plain hlow hquote hslash ih
  | simple he _ ih => exact .simple he ih
  | unicode hhex _ ih => exact .unicode hhex ih

lemma IsString.flatMap {α : Type} {f : α → Bytes} (hf : ∀ a, IsString (f a)) (as : List α) :
    IsString (as.flatMap f) := by
  induction as with
  | nil => exact .nil
  | cons a as ih =>
    rw [flatMap_cons]
    exact (hf a).append ih

variable {lit : Bytes}

lemma scanString_append (h : IsString lit) (rest : Bytes) :
    scanString (lit ++ 0x22 :: rest) = some (lit, rest) := by
  induction h with
  | nil =>
    rw [nil_append, scanString.eq_def]
    rfl
  | @plain b lit hlow hquote hslash _ ih =>
    have hctl : ¬ b.toNat < 0x20 := by omega
    rw [cons_append, scanString.eq_def]
    simp [hquote, hslash, hctl, ih]
  | @simple e lit he _ ih =>
    rw [cons_append, cons_append, scanString.eq_def]
    simp [he, ih]
  | @unicode h₁ h₂ h₃ h₄ lit hhex _ ih =>
    have hu : isSimpleEscape 0x75 = false := by decide
    simp only [cons_append]
    rw [scanString.eq_def]
    simp only [hu, hhex, ih]
    rfl

variable {bs rest : Bytes}

lemma isString_of_scanString (h : scanString bs = some (lit, rest)) : IsString lit := by
  fun_induction scanString bs generalizing lit rest with
  | case1 => cases h
  | case2 b tail hquote =>
    cases h
    exact .nil
  | case3 => cases h
  | case4 => cases h
  | case5 b hquote hctl hslash e tail he ih =>
    obtain ⟨p, hp, heq⟩ := map_eq_some_iff.1 h
    cases heq
    rw [eq_of_beq hslash]
    exact .simple he (ih hp)
  | case6 b hquote hctl hslash e he hu h₁ h₂ h₃ h₄ tail hhex ih =>
    obtain ⟨p, hp, heq⟩ := map_eq_some_iff.1 h
    cases heq
    rw [eq_of_beq hslash, eq_of_beq hu]
    exact .unicode hhex (ih hp)
  | case7 => cases h
  | case8 => cases h
  | case9 => cases h
  | case10 b tail hquote hctl hslash ih =>
    obtain ⟨p, hp, heq⟩ := map_eq_some_iff.1 h
    cases heq
    refine .plain (by omega) ?_ ?_ (ih hp)
    · rintro rfl
      exact hquote rfl
    · rintro rfl
      exact hslash rfl

/-! ## Written strings -/

variable {c : Char}

lemma isString_encodeRune (hlow : 0x20 ≤ c.toNat) (hquote : c ≠ '"')
    (hslash : c ≠ '\\') : IsString (encodeRune c) := by
  have hne : ∀ {d : Char}, c ≠ d → c.toNat ≠ d.toNat := fun hcd h => hcd (Char.toNat_inj.1 h)
  have hplain : ∀ b ∈ encodeRune c, 0x20 ≤ b.toNat ∧ b ≠ 0x22 ∧ b ≠ 0x5C := by
    intro b hb
    by_cases hascii : b.toNat < 0x80
    · have hval := encodeRune_of_mem hb hascii
      refine ⟨by omega, ?_, ?_⟩
      · rintro rfl
        exact hne hquote hval
      · rintro rfl
        exact hne hslash hval
    · refine ⟨by omega, ?_, ?_⟩ <;> rintro rfl <;> exact hascii (by decide)
  generalize encodeRune c = bs at hplain
  induction bs with
  | nil => exact .nil
  | cons b bs ih =>
    obtain ⟨hb, hq, hs⟩ := hplain b mem_cons_self
    exact .plain hb hq hs (ih fun b' hb' => hplain b' (mem_cons_of_mem _ hb'))

def hexByte (n : Nat) : UInt8 :=
  (hexDigit n).toNat.toUInt8

lemma encodeRune_hexDigit (n : Nat) : encodeRune (hexDigit n) = [hexByte n] := by
  have hdigits : ∀ k : Fin 16, (Nat.digitChar k).toNat < 0x80 := by decide
  exact encodeRune_ascii (hdigits ⟨n % 16, Nat.mod_lt _ (by omega)⟩)

lemma hexVal_hexByte (n : Nat) : hexVal (hexByte n) = some (n % 16) := by
  have hdigits : ∀ k : Fin 16, hexVal (Nat.digitChar k).toNat.toUInt8 = some k.val := by decide
  exact hdigits ⟨n % 16, Nat.mod_lt _ (by omega)⟩

lemma escapeU_eq (n : Nat) : escapeU n = [0x5C, 0x75, hexByte (n / 4096), hexByte (n / 256),
    hexByte (n / 16), hexByte n] := by
  have hslash : encodeRune '\\' = [0x5C] := by decide
  have hu : encodeRune 'u' = [0x75] := by decide
  simp only [escapeU, bytes_ofList, flatMap_cons, List.flatMap_nil, encodeRune_hexDigit, hslash,
    hu, cons_append, nil_append]

lemma hex4_hexByte {n : Nat} (hn : n < 65536) :
    hex4 (hexByte (n / 4096)) (hexByte (n / 256)) (hexByte (n / 16)) (hexByte n) = n := by
  simp only [hex4, foldl_cons, foldl_nil, hexVal_hexByte, getD_some]
  omega

lemma isString_escapeU (n : Nat) : IsString (escapeU n) := by
  rw [escapeU_eq]
  exact .unicode (by simp [hexVal_hexByte]) .nil

lemma isString_quoteRune (c : Char) : IsString (quoteRune c) := by
  have hescape : ∀ e : UInt8, isSimpleEscape e = true → IsString [0x5C, e] :=
    fun e he => .simple he .nil
  unfold quoteRune
  split_ifs with hquote hslash _ _ _ _ _ hctl
  · exact hescape 0x22 (by decide)
  · exact hescape 0x5C (by decide)
  · exact hescape 0x6E (by decide)
  · exact hescape 0x72 (by decide)
  · exact hescape 0x74 (by decide)
  · exact hescape 0x62 (by decide)
  · exact hescape 0x66 (by decide)
  · exact isString_escapeU _
  · exact isString_encodeRune (by omega) hquote hslash

/-- The literal that `Json.quote` writes between the quotes. -/
def quoted (s : String) : Bytes :=
  s.toList.flatMap quoteRune

lemma isString_quoted (s : String) : IsString (quoted s) :=
  .flatMap isString_quoteRune _

/-! ## Reading a written string back -/

lemma unicodeEscape_simple {e : UInt8} (he : e ≠ 0x75) (rest : Bytes) :
    unicodeEscape (0x5C :: e :: rest) = none := by
  unfold unicodeEscape
  split
  next heq =>
    simp only [List.cons.injEq] at heq
    obtain ⟨-, rfl, -⟩ := heq
    simp [he]
  next => rfl

lemma unquoteRunes_simple {e : UInt8} (he : e ≠ 0x75) (fuel : Nat) (rest : Bytes) :
    unquoteRunes (fuel + 1) (0x5C :: e :: rest) = simpleEscape e :: unquoteRunes fuel rest := by
  simp [unquoteRunes, unicodeEscape_simple he]

lemma unquoteRunes_escapeU (hc : c.toNat < 0xD800) (fuel : Nat) (rest : Bytes) :
    unquoteRunes (fuel + 1) (escapeU c.toNat ++ rest) = c :: unquoteRunes fuel rest := by
  have hval := hex4_hexByte (n := c.toNat) (by omega)
  have hlow : ¬ (0xD800 ≤ c.toNat ∧ c.toNat < 0xDC00) := by omega
  have hhigh : ¬ (0xDC00 ≤ c.toNat ∧ c.toNat < 0xE000) := by omega
  rw [escapeU_eq]
  simp [unquoteRunes, unicodeEscape, hval, hlow, hhigh, Char.ofNat_toNat]

lemma unquoteRunes_encodeRune (hslash : c ≠ '\\') (fuel : Nat) (rest : Bytes) :
    unquoteRunes (fuel + 1) (encodeRune c ++ rest) = c :: unquoteRunes fuel rest := by
  obtain ⟨b, tail, hbytes, hdecode⟩ := decodeRune_encodeRune c rest
  have hb : b ≠ 0x5C := by
    -- the byte of the backslash is the whole encoding of the backslash
    rintro rfl
    have hmem : (0x5C : UInt8) ∈ encodeRune c := by simp [hbytes]
    have hval := encodeRune_of_mem hmem (by decide)
    exact hslash (Char.toNat_inj.1 hval)
  rw [hbytes, cons_append]
  simp [unquoteRunes, hb, hdecode]

lemma unquoteRunes_quoteRune (c : Char) (fuel : Nat) (rest : Bytes) :
    unquoteRunes (fuel + 1) (quoteRune c ++ rest) = c :: unquoteRunes fuel rest := by
  unfold quoteRune
  split_ifs with _ hslash _ _ _ _ _ hctl
  · subst c; exact unquoteRunes_simple (e := 0x22) (by decide) fuel rest
  · subst c; exact unquoteRunes_simple (e := 0x5C) (by decide) fuel rest
  · subst c; exact unquoteRunes_simple (e := 0x6E) (by decide) fuel rest
  · subst c; exact unquoteRunes_simple (e := 0x72) (by decide) fuel rest
  · subst c; exact unquoteRunes_simple (e := 0x74) (by decide) fuel rest
  · subst c; exact unquoteRunes_simple (e := 0x62) (by decide) fuel rest
  · subst c; exact unquoteRunes_simple (e := 0x66) (by decide) fuel rest
  · refine unquoteRunes_escapeU ?_ fuel rest
    rcases hctl with hctl | rfl | rfl | rfl | hctl | hctl
    · omega
    · decide
    · decide
    · decide
    · omega
    · omega
  · exact unquoteRunes_encodeRune hslash fuel rest

lemma unquoteRunes_flatMap (cs : List Char) {fuel : Nat} (hfuel : cs.length ≤ fuel) :
    unquoteRunes fuel (cs.flatMap quoteRune) = cs := by
  induction cs generalizing fuel with
  | nil => cases fuel <;> rfl
  | cons c cs ih =>
    obtain ⟨fuel, rfl⟩ : ∃ n, fuel = n + 1 := Nat.exists_eq_succ_of_ne_zero (by
      rw [length_cons] at hfuel
      omega)
    rw [flatMap_cons, unquoteRunes_quoteRune, ih (by simpa using hfuel)]

lemma quoteRune_length_pos (c : Char) : 1 ≤ (quoteRune c).length := by
  by_contra hzero
  have hnil : quoteRune c = [] := List.length_eq_zero_iff.1 (by omega)
  have hread := unquoteRunes_quoteRune c 0 []
  rw [hnil] at hread
  cases hread

lemma length_le_flatMap_quoteRune (cs : List Char) : cs.length ≤ (cs.flatMap quoteRune).length := by
  induction cs with
  | nil => exact Nat.le_refl _
  | cons c cs ih =>
    have hc := quoteRune_length_pos c
    rw [flatMap_cons, length_append, length_cons]
    omega

@[simp] lemma unquote_quoted (s : String) : unquote (quoted s) = s := by
  have hfuel : s.toList.length ≤ (quoted s).length := length_le_flatMap_quoteRune s.toList
  have hrunes : unquoteRunes (quoted s).length (quoted s) = s.toList :=
    unquoteRunes_flatMap s.toList hfuel
  rw [unquote, hrunes, String.ofList_toList]

/-! ## Number literals -/

def IsDigits (ds : Bytes) : Prop :=
  ds ≠ [] ∧ ∀ b ∈ ds, isDigit b = true

def IsInt (ds : Bytes) : Prop :=
  ds = [0x30] ∨ (IsDigits ds ∧ ds.head? ≠ some 0x30)

def IsFrac (ds : Bytes) : Prop :=
  ds = [] ∨ ∃ digits, ds = 0x2E :: digits ∧ IsDigits digits

def IsExp (ds : Bytes) : Prop :=
  ds = [] ∨ ∃ e sign digits, ds = e :: (sign ++ digits) ∧ (e = 0x65 ∨ e = 0x45) ∧
    (sign = [] ∨ sign = [0x2B] ∨ sign = [0x2D]) ∧ IsDigits digits

def IsNumber (lit : Bytes) : Prop :=
  ∃ sign int frac exp, lit = sign ++ int ++ frac ++ exp ∧ (sign = [] ∨ sign = [0x2D]) ∧
    IsInt int ∧ IsFrac frac ∧ IsExp exp

lemma isNumber_digits (hne : lit ≠ []) (hdigits : lit.all isDigit = true)
    (hhead : lit.head? ≠ some 0x30) : IsNumber lit :=
  ⟨[], lit, [], [], by simp, .inl rfl, .inr ⟨⟨hne, all_eq_true.1 hdigits⟩, hhead⟩, .inl rfl,
    .inl rfl⟩

def Ends (rest : Bytes) : Prop :=
  ∀ b ∈ rest.head?, isDigit b = false ∧ b ≠ 0x2E ∧ b ≠ 0x65 ∧ b ≠ 0x45

lemma Ends.nil : Ends [] := by
  intro b hb
  cases hb

variable {ds : Bytes}

lemma takeWhile_digits (hds : ∀ b ∈ ds, isDigit b = true) (hrest : ∀ b ∈ rest.head?, isDigit b = false) :
    (ds ++ rest).takeWhile isDigit = ds ∧ (ds ++ rest).dropWhile isDigit = rest := by
  have hstop : rest.takeWhile isDigit = [] ∧ rest.dropWhile isDigit = rest := by
    cases rest with
    | nil => exact ⟨rfl, rfl⟩
    | cons b rest => simp [hrest b rfl]
  rw [List.takeWhile_append_of_pos hds, List.dropWhile_append_of_pos hds, hstop.1, hstop.2]
  exact ⟨append_nil ds, rfl⟩

lemma scanDigits_append (hds : IsDigits ds) (hrest : ∀ b ∈ rest.head?, isDigit b = false) :
    scanDigits (ds ++ rest) = some (ds, rest) := by
  obtain ⟨htake, hdrop⟩ := takeWhile_digits hds.2 hrest
  unfold scanDigits
  rw [htake, hdrop]
  cases ds with
  | nil => exact absurd rfl hds.1
  | cons b ds => rfl

lemma scanInt_append (hds : IsInt ds) (hrest : ∀ b ∈ rest.head?, isDigit b = false) :
    scanInt (ds ++ rest) = some (ds, rest) := by
  rcases hds with rfl | ⟨hds, hzero⟩
  · rfl
  · have hscan := scanDigits_append hds hrest
    cases ds with
    | nil => exact absurd rfl hds.1
    | cons b ds =>
      have hb : b ≠ 0x30 := fun h => hzero (congrArg some h)
      simpa [scanInt, hb] using hscan

lemma scanFrac_append (hds : IsFrac ds) (hrest : ∀ b ∈ rest.head?, isDigit b = false ∧ b ≠ 0x2E) :
    scanFrac (ds ++ rest) = some (ds, rest) := by
  rcases hds with rfl | ⟨digits, rfl, hdigits⟩
  · cases rest with
    | nil => rfl
    | cons b rest => simp [scanFrac, (hrest b rfl).2]
  · have hscan := scanDigits_append hdigits fun b hb => (hrest b hb).1
    simp [scanFrac, hscan]

lemma scanExp_append (hds : IsExp ds) (hrest : Ends rest) : scanExp (ds ++ rest) = some (ds, rest) := by
  rcases hds with rfl | ⟨e, sign, digits, rfl, he, hsign, hdigits⟩
  · cases rest with
    | nil => rfl
    | cons b rest =>
      obtain ⟨-, -, hlower, hupper⟩ := hrest b rfl
      simp [scanExp, hlower, hupper]
  · have hscan := scanDigits_append hdigits fun b hb => (hrest b hb).1
    have he : (e == 0x65 || e == 0x45) = true := by simpa using he
    rcases hsign with rfl | rfl | rfl
    · -- without a sign the first digit stands where a sign may stand
      obtain ⟨d, digits, rfl⟩ := List.exists_cons_of_ne_nil hdigits.1
      have hd : isDigit d = true := hdigits.2 d mem_cons_self
      have hplus : d ≠ 0x2B := by rintro rfl; exact absurd hd (by decide)
      have hminus : d ≠ 0x2D := by rintro rfl; exact absurd hd (by decide)
      rw [cons_append] at hscan
      simp [scanExp, he, hplus, hminus, hscan]
    · simp [scanExp, he, hscan]
    · simp [scanExp, he, hscan]

lemma IsInt.head (h : IsInt ds) : ∃ b tail, ds = b :: tail ∧ isDigit b = true := by
  rcases h with rfl | ⟨hds, -⟩
  · exact ⟨0x30, [], rfl, by decide⟩
  · obtain ⟨b, tail, rfl⟩ := List.exists_cons_of_ne_nil hds.1
    exact ⟨b, tail, rfl, hds.2 b mem_cons_self⟩

lemma IsExp.head (h : IsExp ds) (hrest : Ends rest) :
    ∀ b ∈ (ds ++ rest).head?, isDigit b = false ∧ b ≠ 0x2E := by
  intro b hb
  rcases h with rfl | ⟨e, sign, digits, rfl, he, -, -⟩
  · exact ⟨(hrest b hb).1, (hrest b hb).2.1⟩
  · cases hb
    rcases he with rfl | rfl <;> decide

lemma IsFrac.head (h : IsFrac ds) (hrest : ∀ b ∈ rest.head?, isDigit b = false) :
    ∀ b ∈ (ds ++ rest).head?, isDigit b = false := by
  intro b hb
  rcases h with rfl | ⟨digits, rfl, -⟩
  · exact hrest b hb
  · cases hb
    decide

lemma scanNumber_append (h : IsNumber lit) (hrest : Ends rest) :
    scanNumber (lit ++ rest) = some (lit, rest) := by
  obtain ⟨sign, int, frac, exp, rfl, hsign, hint, hfrac, hexp⟩ := h
  have hhead := hexp.head hrest
  have hscanExp := scanExp_append hexp hrest
  have hscanFrac := scanFrac_append hfrac hhead
  have hscanInt := scanInt_append hint (hfrac.head fun b hb => (hhead b hb).1)
  rcases hsign with rfl | rfl
  · obtain ⟨b, tail, rfl, hb⟩ := hint.head
    have hminus : b ≠ 0x2D := by rintro rfl; exact absurd hb (by decide)
    simp only [cons_append] at hscanInt
    simp [scanNumber, hminus, hscanInt, hscanFrac, hscanExp]
  · simp [scanNumber, hscanInt, hscanFrac, hscanExp]

lemma isDigits_of_scanDigits (h : scanDigits bs = some (ds, rest)) : IsDigits ds := by
  unfold scanDigits at h
  split at h
  next => cases h
  next hne =>
    cases h
    exact ⟨hne, all_eq_true.1 List.all_takeWhile⟩

lemma isInt_of_scanInt (h : scanInt bs = some (ds, rest)) : IsInt ds := by
  unfold scanInt at h
  split at h
  next => cases h
  next b tail =>
    split_ifs at h with hzero
    · cases h
      exact .inl (congrArg (fun b => [b]) (eq_of_beq hzero))
    · have hdigits := isDigits_of_scanDigits h
      refine .inr ⟨hdigits, fun hhead => hzero ?_⟩
      -- the run starts with the first byte of the text
      unfold scanDigits at h
      split at h
      next => cases h
      next =>
        cases h
        rw [List.takeWhile_cons] at hhead
        split_ifs at hhead
        · exact beq_iff_eq.2 (Option.some.inj hhead)
        · cases hhead

lemma isFrac_of_scanFrac (h : scanFrac bs = some (ds, rest)) : IsFrac ds := by
  unfold scanFrac at h
  split at h
  next =>
    cases h
    exact .inl rfl
  next b tail =>
    split_ifs at h with hpoint
    · obtain ⟨p, hp, heq⟩ := map_eq_some_iff.1 h
      cases heq
      exact .inr ⟨p.1, by rw [eq_of_beq hpoint], isDigits_of_scanDigits hp⟩
    · cases h
      exact .inl rfl

lemma isExp_of_scanExp (h : scanExp bs = some (ds, rest)) : IsExp ds := by
  unfold scanExp at h
  split at h
  next =>
    cases h
    exact .inl rfl
  next b tail =>
    split_ifs at h with he
    · have he : b = 0x65 ∨ b = 0x45 := by simpa using he
      split at h
      next s tail' =>
        split_ifs at h with hsign
        · obtain ⟨p, hp, heq⟩ := map_eq_some_iff.1 h
          cases heq
          have hsign : s = 0x2B ∨ s = 0x2D := by simpa using hsign
          refine .inr ⟨b, [s], p.1, rfl, he, .inr ?_, isDigits_of_scanDigits hp⟩
          exact hsign.imp (congrArg fun s => [s]) (congrArg fun s => [s])
        · obtain ⟨p, hp, heq⟩ := map_eq_some_iff.1 h
          cases heq
          exact .inr ⟨b, [], p.1, rfl, he, .inl rfl, isDigits_of_scanDigits hp⟩
      next => cases h
    · cases h
      exact .inl rfl

lemma isNumber_of_scanNumber (h : scanNumber bs = some (lit, rest)) : IsNumber lit := by
  unfold scanNumber at h
  split_ifs at h
  all_goals
    obtain ⟨⟨int, bs₁⟩, hint, h⟩ := bind_eq_some_iff.1 h
    obtain ⟨⟨frac, bs₂⟩, hfrac, h⟩ := bind_eq_some_iff.1 h
    obtain ⟨⟨exp, bs₃⟩, hexp, h⟩ := bind_eq_some_iff.1 h
    cases h
  · exact ⟨[0x2D], int, frac, exp, rfl, .inr rfl, isInt_of_scanInt hint, isFrac_of_scanFrac hfrac,
      isExp_of_scanExp hexp⟩
  · exact ⟨[], int, frac, exp, rfl, .inl rfl, isInt_of_scanInt hint, isFrac_of_scanFrac hfrac,
      isExp_of_scanExp hexp⟩

lemma IsNumber.head (h : IsNumber lit) : ∃ b tail, lit = b :: tail ∧ (b = 0x2D ∨ isDigit b = true) := by
  obtain ⟨sign, int, frac, exp, rfl, hsign, hint, -, -⟩ := h
  obtain ⟨b, tail, rfl, hb⟩ := hint.head
  rcases hsign with rfl | rfl
  · exact ⟨b, _, rfl, .inr hb⟩
  · exact ⟨0x2D, _, rfl, .inl rfl⟩

end Go.Json
