import McpGateway.Session.Token

/-!
# The lifetimes of tokens

`NewJWTManager` makes a duration of a number of minutes, in 64 bits.  A session token is accepted for
as long as its operator asked for when the product of the minutes does not wrap around, and the two
kinds of tokens that one manager signs are never taken for one another.
-/

namespace McpGateway.Session

open Go JWTManager

def minute : Int64 := 60000000000

def defaultSessionDuration : Duration := 24 * 60 * 60 * second

/-- `NewJWTManager`; `library` is the JWT library under a signing key. -/
def newJWTManager (library : String → Signer) (signingKey : String) (sessionLength : Int64) :
    Except String JWTManager :=
  if signingKey.utf8ByteSize < 32 then .error "signing key must be at least 32 bytes for HS256"
  else
    .ok ⟨library signingKey,
      if sessionLength ≠ 0 then (sessionLength * minute).toInt else defaultSessionDuration⟩

/-! ## Sessions -/

variable {library : String → Signer} {signingKey token : String} {sessionLength : Int64} {m : JWTManager}

/-- The nanoseconds that the operator asked for. -/
def askedDuration (sessionLength : Int64) : Int :=
  if sessionLength ≠ 0 then sessionLength.toInt * minute.toInt else defaultSessionDuration

lemma validate_session {t now : Time} {uuid : String}
    (hsigned : m.signer.verify token = some (m.sessionClaims t uuid)) (hnow : t ≤ now) :
    m.validate now token = .ok false ↔ (now : Int) < numericDate (t + m.duration) * second := by
  -- the token is not used before the second it was generated in
  have hbefore : numericDate t * second ≤ now := by
    have hcut := Int.ediv_mul_le (t : Int) (b := second) (by decide)
    exact hcut.trans (by exact_mod_cast hnow)
  have hvalid : (m.sessionClaims t uuid).validFor sessionAudience now =
      decide ((now : Int) < numericDate (t + m.duration) * second) := by
    simp [Claims.validFor, sessionClaims, hbefore]
  rw [validate, parseWithClaims, hsigned]
  dsimp only
  rw [hvalid]
  by_cases hlt : (now : Int) < numericDate (t + m.duration) * second <;> simp [hlt]

/-- From the time of its generation on, a session token is accepted until the given length is over, in
whole seconds. -/
def Lasts (m : JWTManager) (length : Int) : Prop :=
  ∀ (t now : Time) uuid token, m.signer.verify token = some (m.sessionClaims t uuid) → t ≤ now →
    (m.validate now token = .ok false ↔ (now : Int) < numericDate (t + length) * second)

lemma duration_of_accepted (hm : newJWTManager library signingKey sessionLength = .ok m) :
    m.duration = (askedDuration sessionLength).bmod (2 ^ 64) := by
  unfold newJWTManager at hm
  split_ifs at hm with hshort hzero
  · cases hm
    rw [askedDuration, if_pos hzero, Int64.toInt_mul]
  · cases hm
    rw [askedDuration, if_neg hzero]
    show defaultSessionDuration = _
    decide

lemma bmod_cases (x : Int) : ∃ q, x = 2 ^ 64 * q + x.bmod (2 ^ 64) ∧ -2 ^ 63 ≤ x.bmod (2 ^ 64) ∧
    x.bmod (2 ^ 64) < 2 ^ 63 := by
  obtain ⟨q, hq⟩ := Int.dvd_bmod_sub_self (x := x) (m := 2 ^ 64)
  have hle := Int.le_bmod (x := x) (m := 2 ^ 64) (by decide)
  have hlt := Int.bmod_lt (x := x) (m := 2 ^ 64) (by decide)
  exact ⟨-q, by omega, by omega, by omega⟩

/-- Two durations that end in the same seconds after the first second, where one is the other wrapped
around. -/
lemma eq_of_seconds {d x q : Int} (hq : x = 2 ^ 64 * q + d) (hlow : -2 ^ 63 ≤ d) (hhigh : d < 2 ^ 63)
    (hdiv : 60000000000 ∣ x) (hall : ∀ now : Nat, 999999999 ≤ now →
      ((now : Int) < (999999999 + d) / 1000000000 * 1000000000 ↔
        (now : Int) < (999999999 + x) / 1000000000 * 1000000000)) : d = x ∨ x ≤ 0 ∧ d ≤ 0 := by
  by_contra hne
  rcases lt_or_ge 0 x with hpos | hneg
  · -- the wrapped duration is over earlier
    have hless : d + 1000000000 ≤ x := by omega
    have hend : (999999999 + d) / 1000000000 + 1 ≤ (999999999 + x) / 1000000000 := by omega
    have hfirst : 1 ≤ (999999999 + x) / 1000000000 := by omega
    generalize (999999999 + d) / 1000000000 = e at hall hend
    generalize (999999999 + x) / 1000000000 = e' at hall hend hfirst
    have hlate := (hall (max 999999999 (e * 1000000000).toNat) (le_max_left _ _)).2
    omega
  · -- the wrapped duration is not over yet
    have hlong : 1 ≤ (999999999 + d) / 1000000000 := by omega
    have hearly := (hall 999999999 le_rfl).1
    omega

lemma lasts_of_duration {length : Int}
    (h : m.duration = length ∨ length ≤ 0 ∧ m.duration ≤ 0) : Lasts m length := by
  intro t now uuid token hsigned hnow
  rw [validate_session hsigned hnow]
  rcases h with rfl | ⟨hlength, hduration⟩
  · exact Iff.rfl
  · -- no later time is before the end of either
    have hle : (t : Int) ≤ now := by exact_mod_cast hnow
    have hnot : ∀ d : Int, d ≤ 0 → ¬ (now : Int) < numericDate (t + d) * second := by
      intro d hd hlt
      have hcut := Int.ediv_mul_le (t + d) (b := second) (by decide)
      unfold numericDate at hlt
      omega
    exact iff_of_false (hnot _ hduration) (hnot _ hlength)

/-- A wrapped duration shows at the end of the first second. -/
lemma duration_of_lasts {length : Int} (hlasts : Lasts m length) (hdiv : 60000000000 ∣ length)
    (hwrap : m.duration = length.bmod (2 ^ 64)) {uuid : String}
    (hsigned : m.signer.verify token = some (m.sessionClaims (second - 1) uuid)) :
    m.duration = length ∨ length ≤ 0 ∧ m.duration ≤ 0 := by
  obtain ⟨q, hq, hlow, hhigh⟩ := bmod_cases length
  rw [← hwrap] at hq hlow hhigh
  refine eq_of_seconds hq hlow hhigh hdiv fun now hnow => ?_
  have hlate : second - 1 ≤ now := by
    unfold second
    omega
  have hboth := (validate_session hsigned hlate).symm.trans (hlasts _ now uuid token hsigned hlate)
  simpa [numericDate, second] using hboth

/-- A session token lasts as long as was asked for exactly when the product of the minutes fits in 64
bits, or is no positive duration before and after it has wrapped around.  A token that is generated at the
end of a second shows the difference. -/
theorem session_lasts_iff (hm : newJWTManager library signingKey sessionLength = .ok m)
    {uuid : String} (hsigned : m.signer.verify token = some (m.sessionClaims (second - 1) uuid)) :
    Lasts m (askedDuration sessionLength) ↔
      (-2 ^ 63 ≤ askedDuration sessionLength ∧ askedDuration sessionLength < 2 ^ 63) ∨
      askedDuration sessionLength ≤ 0 ∧ (askedDuration sessionLength).bmod (2 ^ 64) ≤ 0 := by
  have hwrap := duration_of_accepted hm
  obtain ⟨q, hq, hlow, hhigh⟩ := bmod_cases (askedDuration sessionLength)
  have hfits : (-2 ^ 63 ≤ askedDuration sessionLength ∧ askedDuration sessionLength < 2 ^ 63) ↔
      (askedDuration sessionLength).bmod (2 ^ 64) = askedDuration sessionLength := by omega
  rw [hfits, ← hwrap]
  refine ⟨fun hlasts => ?_, lasts_of_duration⟩
  refine duration_of_lasts hlasts ?_ hwrap hsigned
  unfold askedDuration
  split_ifs
  · have hminute : minute.toInt = 60000000000 := by decide
    rw [hminute]
    exact Dvd.intro_left _ rfl
  · decide

/-- A library that has signed two tokens. -/
def twoTokens (c c' : Claims) : Signer where
  verify t := if t = "A" then some c else if t = "B" then some c' else none
  verify_compact h := by
    split_ifs at h with hA hB
    · subst hA
      decide
    · subst hB
      decide
  verify_empty := by simp

/-- A library that has signed a session of the given length, at the end of the first second. -/
def sessionLibrary (sessionLength : Int64) (_ : String) : Signer :=
  let claims := JWTManager.sessionClaims
    ⟨⟨fun _ => none, nofun, rfl⟩, (askedDuration sessionLength).bmod (2 ^ 64)⟩ (second - 1) "1"
  twoTokens claims claims

def demoKey : String := "0123456789abcdef0123456789abcdef"

lemma sessionLibrary_signs
    (hm : newJWTManager (sessionLibrary sessionLength) demoKey sessionLength = .ok m) :
    m.signer.verify "A" = some (m.sessionClaims (second - 1) "1") := by
  have hsigner : m.signer = sessionLibrary sessionLength demoKey := by
    unfold newJWTManager at hm
    split_ifs at hm <;> cases hm <;> rfl
  rw [hsigner, sessionClaims, duration_of_accepted hm]
  rfl

lemma demoKey_accepted (h : sessionLength ≠ 0) :
    newJWTManager (sessionLibrary sessionLength) demoKey sessionLength =
      .ok ⟨sessionLibrary sessionLength demoKey, (sessionLength * minute).toInt⟩ := by
  rw [newJWTManager, if_neg (by decide), if_pos h]

theorem session_lasts_iff_day : ∃ m, newJWTManager (sessionLibrary 1440) demoKey 1440 = .ok m ∧
    Lasts m (askedDuration 1440) := by
  have hm := demoKey_accepted (show (1440 : Int64) ≠ 0 by decide)
  exact ⟨_, hm, (session_lasts_iff hm (sessionLibrary_signs hm)).2 (.inl (by decide +kernel))⟩

/-- A session of 200000000 minutes is over before it has begun. -/
theorem longSession_refused : ∃ m, newJWTManager (sessionLibrary 200000000) demoKey 200000000 = .ok m ∧
    ¬ Lasts m (askedDuration 200000000) := by
  have hm := demoKey_accepted (show (200000000 : Int64) ≠ 0 by decide)
  refine ⟨_, hm, fun hlasts => ?_⟩
  have hsigned := sessionLibrary_signs hm
  have hiff := (validate_session hsigned le_rfl).symm.trans (hlasts _ _ "1" "A" hsigned le_rfl)
  have hneg : ((200000000 : Int64) * minute).toInt = -6446744073709551616 := by decide +kernel
  have hasked : askedDuration 200000000 = 12000000000000000000 := by decide +kernel
  rw [hneg, hasked] at hiff
  simp [numericDate, second] at hiff

/-! ## Two kinds of tokens -/

inductive TokenKind where
  | session
  | backendInit (host : String)
  deriving DecidableEq

def TokenKind.claims (m : JWTManager) (t : Time) (uuid : String) : TokenKind → Claims
  | .session => m.sessionClaims t uuid
  | .backendInit host => JWTManager.backendInitClaims host t uuid

structure Generated where
  kind : TokenKind
  time : Time
  token : String

/-- The tokens of a run of the manager; one for a host needs a host.  A token verifies to the claims that
were signed, and to no others. -/
def Run (m : JWTManager) (run : List Generated) : Prop :=
  ∀ g ∈ run, g.kind ≠ .backendInit "" ∧
    ∃ uuid, m.signer.verify g.token = some (g.kind.claims m g.time uuid)

variable {c : Claims}

lemma parse_other {audience : String} (hsigned : m.signer.verify token = some c)
    (hother : audience ∉ c.audience) (now : Time) : m.parseWithClaims audience now token = none := by
  have hinvalid : c.validFor audience now = false := by
    simp [Claims.validFor, hother]
  rw [parseWithClaims, hsigned]
  dsimp only
  rw [hinvalid, if_neg Bool.false_ne_true]

lemma validFor_end {audience : String} {now : Time} {e : Int}
    (h : c.validFor audience now = true) (he : c.expiresAt = some e) : (now : Int) < e * second := by
  rw [Claims.validFor, he, and_eq_true, and_eq_true] at h
  exact of_decide_eq_true h.1.2

lemma accepted_claims {expected : String} {now : Time}
    (hsigned : m.signer.verify token = some c)
    (hok : m.validateBackendInitToken now token expected = .ok ()) :
    c.validFor backendInitAudience now = true ∧ expected = c.host := by
  rw [validateBackendInitToken, parseWithClaims, hsigned] at hok
  dsimp only at hok
  split_ifs at hok with hvalid
  dsimp only at hok
  split_ifs at hok with hpurpose hhost
  exact ⟨hvalid, (not_ne_iff.1 (not_or.1 hhost).2).symm⟩

lemma backendInit_accepted {host expected uuid : String} {t now : Time}
    (hsigned : m.signer.verify token = some (backendInitClaims host t uuid))
    (hok : m.validateBackendInitToken now token expected = .ok ()) :
    expected = host ∧ now < t + 30 * second := by
  obtain ⟨hvalid, hhost⟩ := accepted_claims hsigned hok
  have hend := validFor_end hvalid rfl
  -- the end is cut to whole seconds
  have hcut := Int.ediv_mul_le (t + backendInitDuration : Int) (b := second) (by decide)
  unfold numericDate at hend
  unfold backendInitDuration at hend hcut
  refine ⟨hhost, Int.ofNat_lt.1 ?_⟩
  push_cast
  exact hend.trans_le hcut

/-- What the manager accepts of the tokens that it has generated. -/
structure Separated (m : JWTManager) (run : List Generated) : Prop where
  session : ∀ g ∈ run, g.kind = .session → ∀ now host, m.validateBackendInitToken now g.token host ≠ .ok ()
  backendInit : ∀ g ∈ run, ∀ host, g.kind = .backendInit host → (∀ now, m.validate now g.token ≠ .ok false) ∧
    ∀ now expected, m.validateBackendInitToken now g.token expected = .ok () →
      expected = host ∧ now ≤ g.time + 30 * second

theorem tokens_separated {run : List Generated} (h : Run m run) : Separated m run where
  session g hg hkind now host hok := by
    obtain ⟨-, uuid, hsigned⟩ := h g hg
    rw [hkind] at hsigned
    rw [JWTManager.validateBackendInitToken, parse_other hsigned
      (by simp +decide [TokenKind.claims, JWTManager.sessionClaims])] at hok
    cases hok
  backendInit g hg host hkind := by
    obtain ⟨-, uuid, hsigned⟩ := h g hg
    rw [hkind] at hsigned
    constructor
    · intro now hok
      rw [JWTManager.validate, parse_other hsigned (by simp +decide [TokenKind.claims, JWTManager.backendInitClaims])]
        at hok
      cases hok
    · intro now expected hok
      obtain ⟨hhost, hlt⟩ := backendInit_accepted hsigned hok
      exact ⟨hhost, hlt.le⟩

/-- A manager that has signed a session and a token for a host. -/
def demoManager : JWTManager :=
  ⟨twoTokens ⟨issuer, [sessionAudience], some 60, some 0, some 0, "1", "", ""⟩
    (JWTManager.backendInitClaims "weather.svc" 0 "2"), 60 * second⟩

def demoRun : List Generated := [⟨.backendInit "weather.svc", 0, "B"⟩, ⟨.session, 0, "A"⟩]

theorem tokens_separated_weather : Run demoManager demoRun ∧
    demoManager.validateBackendInitToken 0 "B" "weather.svc" = .ok () ∧ demoManager.validate 0 "A" = .ok false ∧
    Separated demoManager demoRun := by
  have hrun : Run demoManager demoRun := by
    intro g hg
    simp only [demoRun, List.mem_cons, List.not_mem_nil, or_false] at hg
    rcases hg with rfl | rfl
    · exact ⟨by decide, "2", by decide⟩
    · exact ⟨by decide, "1", by decide⟩
  exact ⟨hrun, by decide, by decide, tokens_separated hrun⟩

end McpGateway.Session
