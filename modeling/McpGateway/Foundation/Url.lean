import McpGateway.Foundation.Go

/-!
# URLs

`net/url.Parse`, following its order: control characters, fragment, scheme, query, authority, path.
Escapes are checked where the library checks them.  An escape stands for a byte, so the host and the
path of a parsed URL are bytes.
-/

namespace Go.Url

structure URL where
  scheme : String
  opaquePart : String
  user : Option Bytes
  host : Bytes
  path : Bytes
  rawQuery : String
  deriving DecidableEq, Repr

def isAlpha (c : Char) : Bool :=
  ('a' ≤ c && c ≤ 'z') || ('A' ≤ c && c ≤ 'Z')

def isNum (c : Char) : Bool :=
  '0' ≤ c && c ≤ '9'

def hexVal (c : Char) : Option Nat :=
  if '0' ≤ c ∧ c ≤ '9' then some (c.toNat - 48)
  else if 'A' ≤ c ∧ c ≤ 'F' then some (c.toNat - 55)
  else if 'a' ≤ c ∧ c ≤ 'f' then some (c.toNat - 87)
  else none

/-- Cut at the first character `sep`: what precedes it and, if it occurs, what follows it. -/
def cut (cs : List Char) (sep : Char) : List Char × Option (List Char) :=
  match cs.dropWhile (· != sep) with
  | [] => (cs, none)
  | _ :: rest => (cs.takeWhile (· != sep), some rest)

/-- Cut at the last character `sep`. -/
def cutLast (cs : List Char) (sep : Char) : Option (List Char × List Char) :=
  match cut cs.reverse sep with
  | (after, some before) => some (before.reverse, after.reverse)
  | (_, none) => none

/-- Resolve the percent escapes; `allowed` says which bytes an escape may give. -/
def unescape (allowed : Nat → Bool) : List Char → Option Bytes
  | [] => some []
  | '%' :: a :: b :: rest => do
    let n := (← hexVal a) * 16 + (← hexVal b)
    if allowed n then
      let bs ← unescape allowed rest
      some (n.toUInt8 :: bs)
    else none
  | '%' :: _ => none
  | c :: rest => (unescape allowed rest).map (encodeRune c ++ ·)

/-- Outside brackets a host name may only escape bytes that are not ASCII, and the percent sign. -/
def hostEscape (n : Nat) : Bool :=
  0x80 ≤ n || n == 0x25

def isHostChar (c : Char) : Bool :=
  isAlpha c || isNum c || 0x80 ≤ c.toNat || c == '%' ||
    "-_.~!$&'()*+,;=:[]<>\"".toList.contains c

def validOptionalPort : List Char → Bool
  | [] => true
  | c :: rest => c == ':' && rest.all isNum

def validUserinfo (cs : List Char) : Bool :=
  cs.all fun c => isAlpha c || isNum c || "-._:~!$&'()*+,;=%@".toList.contains c

/-- `parseHost`.  The address between brackets is not looked at further than its characters. -/
def parseHost (cs : List Char) : Option Bytes :=
  match cs with
  | '[' :: _ =>
    match cutLast cs ']' with
    | none => none
    | some (_, port) =>
      if validOptionalPort port && cs.all isHostChar then unescape (fun _ => true) cs else none
  | _ =>
    -- a bracket may only open the host, and what follows the first colon is the port
    let portOk := match (cut cs ':').2 with
      | none => true
      | some port => port.all isNum
    if portOk && !cs.contains '[' && cs.all isHostChar then unescape hostEscape cs else none

/-- `parseAuthority`: the optional user information and the host. -/
def parseAuthority (cs : List Char) : Option (Option Bytes × Bytes) :=
  match cutLast cs '@' with
  | none => (parseHost cs).map fun h => (none, h)
  | some (user, host) => do
    let h ← parseHost host
    if validUserinfo user then
      let u ← unescape (fun _ => true) user
      some (some u, h)
    else none

/-- The scheme before the first colon, and the rest; without a scheme the text stays whole. -/
def getScheme (cs : List Char) : Option (List Char × List Char) :=
  match cs with
  | [] => some ([], cs)
  | ':' :: _ => none
  | c :: _ =>
    if !isAlpha c then some ([], cs)
    else
      let scheme := cs.takeWhile fun c => isAlpha c || isNum c || c == '+' || c == '-' || c == '.'
      match cs.drop scheme.length with
      | ':' :: rest => some (scheme.map Char.toLower, rest)
      | _ => some ([], cs)

/-- `url.Parse(rawURL)`. -/
def parse (rawURL : String) : Option URL := do
  let (cs, frag) := cut rawURL.toList '#'
  let _ ← unescape (fun _ => true) (frag.getD [])
  if cs.any fun c => c.toNat < 0x20 || c.toNat == 0x7F then none
  else if cs = ['*'] then some ⟨"", "", none, [], bytes "*", ""⟩
  else
    let (scheme, rest) ← getScheme cs
    let (rest, query) := cut rest '?'
    let done (opq : List Char) (user : Option Bytes) (host path : Bytes) : URL :=
      ⟨String.ofList scheme, String.ofList opq, user, host, path, String.ofList (query.getD [])⟩
    if rest.head? ≠ some '/' ∧ scheme ≠ [] then some (done rest none [] [])
    else if rest.head? ≠ some '/' ∧ (cut rest '/').1.contains ':' then none
    else if "//".toList.isPrefixOf rest ∧ (scheme ≠ [] ∨ ¬ "///".toList.isPrefixOf rest) then
      let authority := (cut (rest.drop 2) '/').1
      let (user, host) ← parseAuthority authority
      let path ← unescape (fun _ => true) (rest.drop (2 + authority.length))
      some (done [] user host path)
    else
      let path ← unescape (fun _ => true) rest
      some (done [] none [] path)

def unbracket (host : Bytes) : Bytes :=
  if host.head? = some 0x5B ∧ host.getLast? = some 0x5D then host.tail.dropLast else host

/-- `u.Hostname()`: the host without its port and without brackets. -/
def URL.hostname (u : URL) : Bytes :=
  let colon : UInt8 := 0x3A
  let port := (u.host.reverse.takeWhile (· != colon)).reverse
  if u.host.contains colon && port.all fun b => 0x30 ≤ b.toNat && b.toNat ≤ 0x39 then
    unbracket (u.host.take (u.host.length - port.length - 1))
  else unbracket u.host

def queryEscapeByte (b : UInt8) : List Char :=
  let c := Char.ofNat b.toNat
  let hex (n : Nat) : Char := (Nat.digitChar n).toUpper
  if isAlpha c || isNum c || c == '-' || c == '_' || c == '.' || c == '~' then [c]
  else if c == ' ' then ['+']
  else ['%', hex (b.toNat / 16), hex (b.toNat % 16)]

/-- `url.QueryEscape(s)`. -/
def queryEscape (s : String) : String :=
  String.ofList ((bytes s).flatMap queryEscapeByte)

end Go.Url
