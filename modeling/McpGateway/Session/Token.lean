import McpGateway.Foundation.Base64
import McpGateway.Foundation.Json

/-!
# Tokens

What the gateway reads out of a JWT it does not verify (`DecodePayload`, `ExtractSubClaim`,
`checkUpstreamJWTExpiry`), and the session and backend-init tokens it signs and verifies itself
(`JWTManager`).  The JWT library is a parameter: `Signer` says which claims it reads from a token
whose signature verifies, and what such a token looks like.
-/

namespace McpGateway.Session

open Go

abbrev Time := Nat

abbrev Duration := Int

def second : Nat := 1000000000

/-! ## Unverified tokens -/

def decodePayload (token : String) : Option Json :=
  match split token '.' with
  | [_, payload, _] => do Json.parse (← Base64.decodeString payload)
  | _ => none

/-- The error `ExtractSubClaim` returns for a JWT without a subject. -/
def noSubClaim : String := "JWT has no sub claim"

/-- The `sub` field of the payload, empty when it has none. -/
def subClaim (payload : Json) : Option String :=
  Struct.decode ["sub"] (fun _ v s => Struct.decodeString v s) payload ""

/-- The subject of a bearer JWT: empty when there is no such token, an error when the token has no
subject. -/
def extractSubClaim (authHeader : String) : Except String String :=
  if authHeader = "" then .ok ""
  else if hasPrefix authHeader "Bearer " = false then .ok ""
  else
    match (decodePayload (trimPrefix authHeader "Bearer ")).bind subClaim with
    | none => .ok ""
    | some "" => .error noSubClaim
    | some sub => .ok sub

/-- The `exp` field of the payload, when it is a number. -/
def expClaim (payload : Json) : Option (Option Float64) :=
  Struct.decode ["exp"]
    (fun _ v _ =>
      match v with
      | .null => some none
      | .num lit => (Json.toFloat64 lit).map some
      | _ => none)
    payload none

def unixToInternal : Int := 62135596800

/-- `time.Unix(sec, 0).Before(now)`; the internal clock has 64 bits and wraps around. -/
def unixBefore (sec : Int) (now : Time) : Bool :=
  (Int.bmod (sec + unixToInternal) (2 ^ 64) - unixToInternal) * second < now

def checkUpstreamJWTExpiry (token : String) (now : Time) : Bool :=
  match (decodePayload token).bind expClaim with
  | some (some exp) => unixBefore exp.toInt64 now
  | _ => false

/-- `time.Until(time.Unix(sec, 0))`, which keeps to the range of a duration. -/
def untilUnix (sec : Int) (now : Time) : Duration :=
  let exact := (Int.bmod (sec + unixToInternal) (2 ^ 64) - unixToInternal) * second - now
  max (-(2 ^ 63)) (min exact (2 ^ 63 - 1))

/-- How long a session token still lasts by its unverified payload; zero when it has expired or says
nothing about it. -/
def gatewaySessionTTL (gatewaySessionID : String) (now : Time) : Duration :=
  match (decodePayload gatewaySessionID).bind expClaim with
  | some (some exp) => if exp.mant = 0 then 0 else max 0 (untilUnix exp.toInt64 now)
  | _ => 0

/-! ## Signed tokens -/

/-- The claims the gateway puts in its tokens.  Dates are in seconds.  A session token has neither
purpose nor host. -/
structure Claims where
  issuer : String
  audience : List String
  expiresAt : Option Int
  notBefore : Option Int
  issuedAt : Option Int
  id : String
  purpose : String := ""
  host : String := ""
  deriving DecidableEq, Repr

def issuer : String := "mcp-gateway"
def sessionAudience : String := "mcp-gateway"
def backendInitAudience : String := "mcp-router"
def backendInitPurpose : String := "backend-init"
def backendInitDuration : Duration := 30 * second

/-- The characters of the compact form of a JWT: base64url segments and the dots between them,
with the line breaks the decoder skips. -/
def isCompactChar (c : Char) : Bool :=
  (Base64.sextet c).isSome || c == '.' || c == '\r' || c == '\n'

structure Signer where
  /-- The claims of a token whose HS256 signature verifies. -/
  verify : String → Option Claims
  /-- The library only reads the compact form. -/
  verify_compact : ∀ {t c}, verify t = some c → t.toList.all isCompactChar
  /-- Text without a signature does not verify. -/
  verify_empty : verify "" = none

/-- `jwt.NewNumericDate`: the time cut to whole seconds. -/
def numericDate (t : Int) : Int := t / second

def Claims.validFor (c : Claims) (audience : String) (now : Time) : Bool :=
  c.issuer = Session.issuer && c.audience.contains audience &&
    (match c.expiresAt with
      | some e => decide ((now : Int) < e * second)
      | none => false) &&
    (match c.notBefore with
      | some n => decide (n * second ≤ now)
      | none => true)

/-- `JWTManager`: the library under the signing key, and how long a session lasts. -/
structure JWTManager where
  signer : Signer
  duration : Duration

inductive TokenError where
  | parse
  | invalid
  | purpose
  | host
  deriving DecidableEq, Repr

namespace JWTManager

variable (m : JWTManager)

def sessionClaims (now : Time) (uuid : String) : Claims where
  issuer := issuer
  audience := [sessionAudience]
  expiresAt := some (numericDate (now + m.duration))
  notBefore := some (numericDate now)
  issuedAt := some (numericDate now)
  id := uuid

/-- The claims of a token that authenticates one backend initialization against `host`. -/
def backendInitClaims (host : String) (now : Time) (uuid : String) : Claims where
  issuer := issuer
  audience := [backendInitAudience]
  expiresAt := some (numericDate (now + backendInitDuration))
  notBefore := some (numericDate now)
  issuedAt := some (numericDate now)
  id := uuid
  purpose := backendInitPurpose
  host := host

def parseWithClaims (audience : String) (now : Time) (tokenValue : String) : Option Claims :=
  match m.signer.verify tokenValue with
  | some c => if c.validFor audience now then some c else none
  | none => none

def validate (now : Time) (tokenValue : String) : Except TokenError Bool :=
  match m.parseWithClaims sessionAudience now tokenValue with
  | some _ => .ok false
  | none => .error .parse

def getExpiresIn (now : Time) (tokenValue : String) : Except TokenError Int :=
  match m.parseWithClaims sessionAudience now tokenValue with
  | some c => .ok (c.expiresAt.getD 0)
  | none => .error .parse

def validateBackendInitToken (now : Time) (tokenValue expectedHost : String) : Except TokenError Unit :=
  match m.parseWithClaims backendInitAudience now tokenValue with
  | none => .error .parse
  | some c =>
    if c.purpose ≠ backendInitPurpose then .error .purpose
    else if expectedHost = "" ∨ c.host ≠ expectedHost then .error .host
    else .ok ()

end JWTManager

end McpGateway.Session
