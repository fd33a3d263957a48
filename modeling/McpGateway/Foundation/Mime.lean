import McpGateway.Foundation.Go

/-!
# Media types

`mime.ParseMediaType` as far as its callers here look at it: the media type, or that there is none.
The parameters are read, because a malformed one makes the whole value an error, and then dropped.

`infix_of_parseMediaType`: the media type of a value is part of the value in lower case, so a test
for that text cannot miss it.
-/

namespace Go

open Go

/-- `unicode.IsSpace`. -/
def isSpaceRune (c : Char) : Bool :=
  let n := c.toNat
  (9 ≤ n && n ≤ 13) || n == 0x20 || n == 0x85 || n == 0xA0 || n == 0x1680 ||
    (0x2000 ≤ n && n ≤ 0x200A) || n == 0x2028 || n == 0x2029 || n == 0x202F || n == 0x205F ||
    n == 0x3000

/-- `strings.TrimLeftFunc(s, unicode.IsSpace)`. -/
def trimLeftSpace (cs : List Char) : List Char :=
  cs.dropWhile isSpaceRune

/-- `strings.TrimSpace`. -/
def trimSpace (cs : List Char) : List Char :=
  (trimLeftSpace (trimLeftSpace cs).reverse).reverse

lemma isInfix_trimSpace (cs : List Char) : trimSpace cs <:+: cs := by
  have hright : trimSpace cs <+: trimLeftSpace cs := by
    have h := List.reverse_prefix.2 (List.dropWhile_suffix isSpaceRune (l := (trimLeftSpace cs).reverse))
    rwa [List.reverse_reverse] at h
  exact hright.isInfix.trans (List.dropWhile_suffix _).isInfix

lemma contains_iff {s sub : String} : contains s sub = true ↔ sub.toList <:+: s.toList := by
  simp only [contains, List.any_eq_true, List.mem_tails, List.isPrefixOf_iff_prefix]
  constructor
  · rintro ⟨t, hsuffix, hstart⟩
    exact hstart.isInfix.trans hsuffix.isInfix
  · rintro ⟨left, right, h⟩
    exact ⟨sub.toList ++ right, ⟨left, by rw [← h, append_assoc]⟩, prefix_append _ _⟩

namespace Mime

def isTSpecial (c : Char) : Bool :=
  "()<>@,;:\\\"/[]?=".toList.contains c

def isTokenChar (c : Char) : Bool :=
  0x20 < c.toNat && c.toNat < 0x7F && !isTSpecial c

def consumeToken (v : List Char) : List Char × List Char :=
  (v.takeWhile isTokenChar, v.dropWhile isTokenChar)

def checkMediaTypeDisposition (s : List Char) : Bool :=
  let (typ, rest) := consumeToken s
  if typ.isEmpty then false
  else
    match rest with
    | [] => true
    | '/' :: rest =>
      let (subtype, rest) := consumeToken rest
      !subtype.isEmpty && rest.isEmpty
    | _ => false

/-- A quoted string after its opening quote.  A backslash only escapes a special character; any
other one stands for itself. -/
def consumeQuoted : List Char → Option (List Char × List Char)
  | [] => none
  | '"' :: rest => some ([], rest)
  | '\\' :: d :: rest =>
    if isTSpecial d then (consumeQuoted rest).map fun r => (d :: r.1, r.2)
    else (consumeQuoted (d :: rest)).map fun r => ('\\' :: r.1, r.2)
  | c :: rest =>
    if c = '\r' ∨ c = '\n' then none
    else (consumeQuoted rest).map fun r => (c :: r.1, r.2)

def consumeValue : List Char → Option (List Char × List Char)
  | '"' :: rest => consumeQuoted rest
  | v =>
    let (token, rest) := consumeToken v
    if token.isEmpty then none else some (token, rest)

/-- One parameter with the semicolon before it: its name in lower case, its value, and the rest. -/
def consumeMediaParam (v : List Char) : Option (List Char × List Char × List Char) :=
  match trimLeftSpace v with
  | ';' :: rest =>
    let (param, rest) := consumeToken (trimLeftSpace rest)
    if param.isEmpty then none
    else
      match trimLeftSpace rest with
      | '=' :: rest =>
        (consumeValue (trimLeftSpace rest)).map fun r => (param.map lowerRune, r.1, r.2)
      | _ => none
  | _ => none

/-! ## Each parameter shortens the text -/

lemma length_dropWhile_le {α : Type} (p : α → Bool) (l : List α) : (l.dropWhile p).length ≤ l.length :=
  (List.dropWhile_suffix p).length_le

lemma length_consumeToken {v token rest : List Char} (h : consumeToken v = (token, rest)) :
    rest.length ≤ v.length := by
  cases h
  exact length_dropWhile_le _ _

variable {v value rest : List Char}

lemma length_consumeQuoted
    (h : consumeQuoted v = some (value, rest)) : rest.length ≤ v.length := by
  fun_induction consumeQuoted v generalizing value with
  | case1 => cases h
  | case2 rest' =>
    cases h
    exact Nat.le_succ _
  | case3 d rest' hd ih =>
    obtain ⟨r, hr, heq⟩ := map_eq_some_iff.1 h
    cases heq
    exact Nat.le_succ_of_le (Nat.le_succ_of_le (ih hr))
  | case4 d rest' hd ih =>
    obtain ⟨r, hr, heq⟩ := map_eq_some_iff.1 h
    cases heq
    exact Nat.le_succ_of_le (ih hr)
  | case5 c rest' hquote hescape hline => cases h
  | case6 c rest' hquote hescape hline ih =>
    obtain ⟨r, hr, heq⟩ := map_eq_some_iff.1 h
    cases heq
    exact Nat.le_succ_of_le (ih hr)

lemma length_consumeValue
    (h : consumeValue v = some (value, rest)) : rest.length ≤ v.length := by
  unfold consumeValue at h
  split at h
  · exact Nat.le_succ_of_le (length_consumeQuoted h)
  · split at h
    next token after htoken =>
      split_ifs at h
      cases h
      exact length_consumeToken htoken

lemma length_consumeMediaParam {v key value rest : List Char}
    (h : consumeMediaParam v = some (key, value, rest)) : rest.length < v.length := by
  unfold consumeMediaParam at h
  split at h
  next after hsemicolon =>
    split at h
    next param tail htoken =>
      split_ifs at h
      split at h
      next text hequals =>
        obtain ⟨r, hr, heq⟩ := map_eq_some_iff.1 h
        cases heq
        -- the semicolon and the equals sign are gone, and nothing was put back
        have hstart := length_dropWhile_le isSpaceRune v
        have hafter := (length_consumeToken htoken).trans (length_dropWhile_le isSpaceRune after)
        have htail := length_dropWhile_le isSpaceRune tail
        have hvalue := (length_consumeValue hr).trans (length_dropWhile_le isSpaceRune text)
        rw [trimLeftSpace] at hequals hsemicolon
        rw [hsemicolon, length_cons] at hstart
        rw [hequals, length_cons] at htail
        omega
      next => cases h
  next => cases h

/-! ## The whole value -/

/-- Whether the parameters are well formed.  `seen` are the ones read so far: a name may come again
only with the same value.  A last semicolon may stand alone. -/
def checkParams (seen : List (List Char × List Char)) (v : List Char) : Bool :=
  match _hparam : consumeMediaParam v with
  | none => trimSpace v == [] || trimSpace v == [';']
  | some (key, value, rest) =>
    if (seen.lookup key).any (· != value) then false
    else checkParams ((key, value) :: seen) rest
termination_by v.length
decreasing_by exact length_consumeMediaParam _hparam

/-- `mime.ParseMediaType`: the media type in lower case, when the value is well formed. -/
def parseMediaType (v : String) : Option String :=
  let base := v.toList.takeWhile (· ≠ ';')
  let mediatype := trimSpace (base.map lowerRune)
  if !checkMediaTypeDisposition mediatype then none
  else if checkParams [] (v.toList.dropWhile (· ≠ ';')) then some (String.ofList mediatype)
  else none

lemma infix_of_parseMediaType {v m : String} (h : parseMediaType v = some m) :
    m.toList <:+: (toLower v).toList := by
  simp only [parseMediaType] at h
  split_ifs at h
  cases h
  have hbase : (v.toList.takeWhile (· ≠ ';')).map lowerRune <+: v.toList.map lowerRune :=
    (List.takeWhile_prefix _).map _
  simp only [toLower, String.toList_ofList]
  exact (isInfix_trimSpace _).trans hbase.isInfix

lemma contains_of_parseMediaType {v m : String} (h : parseMediaType v = some m) :
    contains (toLower v) m = true :=
  contains_iff.2 (infix_of_parseMediaType h)

end Mime

end Go
