import McpGateway.Foundation.Float64

/-!
# JSON as `encoding/json` reads and writes it

`Json.parse` is the syntax check and the reading of a text into a tree that still holds every string
and number as it was written, which is what `json.RawMessage` keeps.  `Any` is what decoding into an
`any` gives.  Objects are matched against struct fields by name, first exactly and then with case
folded, and later keys of one object act after earlier ones; `Struct.foldFields` is that walk.
-/

namespace Go

inductive Json where
  | null
  | bool (b : Bool)
  | num (lit : Bytes)
  | str (lit : Bytes)
  | arr (elems : List Json)
  | obj (fields : List (Bytes × Json))

namespace Json

/-! ## Reading -/

def isSpace (b : UInt8) : Bool :=
  b == 0x20 || b == 0x09 || b == 0x0A || b == 0x0D

def isDigit (b : UInt8) : Bool :=
  0x30 ≤ b.toNat && b.toNat ≤ 0x39

def hexVal (b : UInt8) : Option Nat :=
  let n := b.toNat
  if 0x30 ≤ n ∧ n ≤ 0x39 then some (n - 0x30)
  else if 0x41 ≤ n ∧ n ≤ 0x46 then some (n - 0x37)
  else if 0x61 ≤ n ∧ n ≤ 0x66 then some (n - 0x57)
  else none

def isSimpleEscape (b : UInt8) : Bool :=
  bytes "bfnrt\\/\"" |>.contains b

def scanString : Bytes → Option (Bytes × Bytes)
  | [] => none
  | b :: rest =>
    if b == 0x22 then some ([], rest)
    else if b.toNat < 0x20 then none
    else if b == 0x5C then
      match rest with
      | [] => none
      | e :: rest =>
        if isSimpleEscape e then (scanString rest).map fun p => (b :: e :: p.1, p.2)
        else if e == 0x75 then
          match rest with
          | h₁ :: h₂ :: h₃ :: h₄ :: rest =>
            if [h₁, h₂, h₃, h₄].all fun h => (hexVal h).isSome then
              (scanString rest).map fun p => (b :: e :: h₁ :: h₂ :: h₃ :: h₄ :: p.1, p.2)
            else none
          | _ => none
        else none
    else (scanString rest).map fun p => (b :: p.1, p.2)

def scanDigits (bs : Bytes) : Option (Bytes × Bytes) :=
  match bs.takeWhile isDigit with
  | [] => none
  | ds => some (ds, bs.dropWhile isDigit)

def scanInt : Bytes → Option (Bytes × Bytes)
  | [] => none
  | b :: rest => if b == 0x30 then some ([b], rest) else scanDigits (b :: rest)

def scanFrac : Bytes → Option (Bytes × Bytes)
  | [] => some ([], [])
  | b :: rest =>
    if b == 0x2E then (scanDigits rest).map fun p => (b :: p.1, p.2) else some ([], b :: rest)

def scanExp : Bytes → Option (Bytes × Bytes)
  | [] => some ([], [])
  | b :: rest =>
    if b == 0x65 || b == 0x45 then
      match rest with
      | s :: rest' =>
        if s == 0x2B || s == 0x2D then (scanDigits rest').map fun p => (b :: s :: p.1, p.2)
        else (scanDigits rest).map fun p => (b :: p.1, p.2)
      | [] => none
    else some ([], b :: rest)

def scanNumber (bs : Bytes) : Option (Bytes × Bytes) := do
  let (sign, bs) := if bs.head? = some 0x2D then ([(0x2D : UInt8)], bs.drop 1) else ([], bs)
  let (int, bs) ← scanInt bs
  let (frac, bs) ← scanFrac bs
  let (exp, bs) ← scanExp bs
  some (sign ++ int ++ frac ++ exp, bs)

/-- The rest of the text after the word `w`. -/
def scanWord (w : String) (bs : Bytes) : Option Bytes :=
  if (bytes w).isPrefixOf bs then some (bs.drop (bytes w).length) else none

def skipSpace (bs : Bytes) : Bytes :=
  bs.dropWhile isSpace

mutual

/-- One value; `depth` is how many more brackets may be opened. -/
def scanValue : Nat → Nat → Bytes → Option (Json × Bytes)
  | 0, _, _ => none
  | fuel + 1, depth, bs =>
    match skipSpace bs with
    | [] => none
    | b :: rest =>
      if b == 0x7B then
        if depth = 0 then none
        else match skipSpace rest with
          | [] => none
          | c :: rest' =>
            if c == 0x7D then some (.obj [], rest')
            else (scanFields fuel (depth - 1) (c :: rest')).map fun p => (.obj p.1, p.2)
      else if b == 0x5B then
        if depth = 0 then none
        else match skipSpace rest with
          | [] => none
          | c :: rest' =>
            if c == 0x5D then some (.arr [], rest')
            else (scanElems fuel (depth - 1) (c :: rest')).map fun p => (.arr p.1, p.2)
      else if b == 0x22 then (scanString rest).map fun p => (.str p.1, p.2)
      else if b == 0x74 then (scanWord "true" (b :: rest)).map fun r => (.bool true, r)
      else if b == 0x66 then (scanWord "false" (b :: rest)).map fun r => (.bool false, r)
      else if b == 0x6E then (scanWord "null" (b :: rest)).map fun r => (.null, r)
      else (scanNumber (b :: rest)).map fun p => (.num p.1, p.2)

def scanElems : Nat → Nat → Bytes → Option (List Json × Bytes)
  | 0, _, _ => none
  | fuel + 1, depth, bs => do
    let (v, rest) ← scanValue fuel depth bs
    match skipSpace rest with
    | [] => none
    | c :: rest' =>
      if c == 0x5D then some ([v], rest')
      else if c == 0x2C then
        let (vs, rest'') ← scanElems fuel depth rest'
        some (v :: vs, rest'')
      else none

def scanFields : Nat → Nat → Bytes → Option (List (Bytes × Json) × Bytes)
  | 0, _, _ => none
  | fuel + 1, depth, bs =>
    match skipSpace bs with
    | [] => none
    | q :: rest =>
      if q == 0x22 then do
        let (key, rest) ← scanString rest
        match skipSpace rest with
        | [] => none
        | colon :: rest =>
          if colon == 0x3A then do
            let (v, rest) ← scanValue fuel depth rest
            match skipSpace rest with
            | [] => none
            | c :: rest' =>
              if c == 0x7D then some ([(key, v)], rest')
              else if c == 0x2C then
                let (fs, rest'') ← scanFields fuel depth rest'
                some ((key, v) :: fs, rest'')
              else none
          else none
      else none

end

/-- `encoding/json` refuses texts nested deeper than this. -/
def maxNestingDepth : Nat := 10000

/-- Read a whole text.  Every call of the readers eats a byte before it is repeated, so twice the
length is enough fuel. -/
def parse (bs : Bytes) : Option Json := do
  let (v, rest) ← scanValue (2 * bs.length + 2) maxNestingDepth bs
  if (skipSpace rest).isEmpty then some v else none

/-! ## Strings and numbers -/

def hex4 (h₁ h₂ h₃ h₄ : UInt8) : Nat :=
  [h₁, h₂, h₃, h₄].foldl (fun acc h => acc * 16 + (hexVal h).getD 0) 0

def simpleEscape (b : UInt8) : Char :=
  if b == 0x62 then Char.ofNat 8
  else if b == 0x66 then Char.ofNat 12
  else if b == 0x6E then '\n'
  else if b == 0x72 then '\r'
  else if b == 0x74 then '\t'
  else Char.ofNat b.toNat

/-- The `\u` escape at the head of a literal, and what follows it. -/
def unicodeEscape : Bytes → Option (Nat × Bytes)
  | a :: b :: h₁ :: h₂ :: h₃ :: h₄ :: rest =>
    if a == 0x5C && b == 0x75 then some (hex4 h₁ h₂ h₃ h₄, rest) else none
  | _ => none

/-- The runes of a string literal.  A lone surrogate and a byte that is not UTF-8 become the
replacement rune. -/
def unquoteRunes : Nat → Bytes → List Char
  | 0, _ => []
  | _ + 1, [] => []
  | fuel + 1, b :: rest =>
    if b == 0x5C then
      match unicodeEscape (b :: rest) with
      | some (u, rest) =>
        if 0xD800 ≤ u ∧ u < 0xDC00 then
          match unicodeEscape rest with
          | some (l, rest') =>
            if 0xDC00 ≤ l ∧ l < 0xE000 then
              Char.ofNat ((u - 0xD800) * 1024 + (l - 0xDC00) + 0x10000) :: unquoteRunes fuel rest'
            else runeError :: unquoteRunes fuel rest
          | none => runeError :: unquoteRunes fuel rest
        else if 0xDC00 ≤ u ∧ u < 0xE000 then runeError :: unquoteRunes fuel rest
        else Char.ofNat u :: unquoteRunes fuel rest
      | none =>
        match rest with
        | [] => []
        | e :: rest => simpleEscape e :: unquoteRunes fuel rest
    else
      let (c, n) := decodeRune b rest
      c :: unquoteRunes fuel (rest.drop n)

def unquote (lit : Bytes) : String :=
  String.ofList (unquoteRunes lit.length lit)

def natOfDigits (ds : Bytes) : Nat :=
  ds.foldl (fun acc d => acc * 10 + (d.toNat - 0x30)) 0

/-- The double a number literal stands for; `none` when it is out of range. -/
def toFloat64 (lit : Bytes) : Option Float64 :=
  let neg := lit.head? = some 0x2D
  let lit := if neg then lit.drop 1 else lit
  let mantissa := lit.takeWhile fun b => !(b == 0x65 || b == 0x45)
  let exponent := (lit.drop mantissa.length).drop 1
  let int := mantissa.takeWhile isDigit
  let frac := (mantissa.drop int.length).drop 1
  let expAbs := natOfDigits (exponent.filter isDigit)
  let exp : Int := if exponent.head? = some 0x2D then -(expAbs : Int) else expAbs
  Float64.ofDecimal neg (natOfDigits (int ++ frac)) (exp - frac.length)

end Json

/-! ## Values of type `any` -/

/-- What a JSON text becomes when it is decoded into an `any`. -/
inductive Any where
  | nil
  | bool (b : Bool)
  | float64 (f : Float64)
  | string (s : String)
  | slice (elems : List Any)
  | map (fields : List (String × Any))

namespace Any

def setKey (k : String) (v : Any) (fields : List (String × Any)) : List (String × Any) :=
  fields.filter (fun f => f.1 != k) ++ [(k, v)]

mutual

/-- Decode into an `any`; a number that no double can hold is an error. -/
def ofJson : Json → Option Any
  | .null => some .nil
  | .bool b => some (.bool b)
  | .num lit => (Json.toFloat64 lit).map .float64
  | .str lit => some (.string (Json.unquote lit))
  | .arr elems => (ofElems elems).map .slice
  | .obj fields => (ofFields fields []).map .map

def ofElems : List Json → Option (List Any)
  | [] => some []
  | v :: vs => do
    let a ← ofJson v
    let as ← ofElems vs
    some (a :: as)

def ofFields : List (Bytes × Json) → List (String × Any) → Option (List (String × Any))
  | [], acc => some acc
  | (k, v) :: rest, acc => do
    let a ← ofJson v
    ofFields rest (setKey (Json.unquote k) a acc)

end

mutual

/-- Decode into an `any` and drop the error: a number that no double can hold is left nil. -/
def ofJsonLossy : Json → Any
  | .null => .nil
  | .bool b => .bool b
  | .num lit => ((Json.toFloat64 lit).map .float64).getD .nil
  | .str lit => .string (Json.unquote lit)
  | .arr elems => .slice (ofElemsLossy elems)
  | .obj fields => .map (ofFieldsLossy fields [])

def ofElemsLossy : List Json → List Any
  | [] => []
  | v :: vs => ofJsonLossy v :: ofElemsLossy vs

def ofFieldsLossy : List (Bytes × Json) → List (String × Any) → List (String × Any)
  | [], acc => acc
  | (k, v) :: rest, acc => ofFieldsLossy rest (setKey (Json.unquote k) (ofJsonLossy v) acc)

end

/-- `v.(string)`. -/
def asString : Any → Option String
  | .string s => some s
  | _ => none

/-- `v.(map[string]any)`. -/
def asMap : Any → Option (List (String × Any))
  | .map fields => some fields
  | _ => none

/-- `v == nil`. -/
def isNil : Any → Bool
  | .nil => true
  | _ => false

/-- The dynamic type, as `%T` prints it. -/
def typeName : Any → String
  | .nil => "<nil>"
  | .bool _ => "bool"
  | .float64 _ => "float64"
  | .string _ => "string"
  | .slice _ => "[]interface \x7b\x7d"
  | .map _ => "map[string]interface \x7b\x7d"

end Any

/-! ## Struct fields -/

namespace Struct

/-- The least rune that is the same up to case, for the runes that fold to an ASCII letter. -/
def foldRune (c : Char) : Char :=
  if c = Char.ofNat 0x17F then 'S'
  else if c = Char.ofNat 0x212A then 'K'
  else c.toUpper

def foldName (s : String) : List Char :=
  s.toList.map foldRune

/-- The field a key of the text is decoded into: the one of exactly that name, or else the first
one of that name up to case. -/
def fieldFor (names : List String) (key : String) : Option String :=
  if names.contains key then some key
  else names.find? fun n => foldName n = foldName key

variable {σ : Type}

/-- Decode the fields of an object one after the other into `s`; `set` stores a value into the named
field and fails on a value of the wrong type.  Keys that match no field are skipped. -/
def foldFields (names : List String) (set : String → Json → σ → Option σ) :
    List (Bytes × Json) → σ → Option σ
  | [], s => some s
  | (k, v) :: rest, s =>
    match fieldFor names (Json.unquote k) with
    | none => foldFields names set rest s
    | some n => set n v s >>= foldFields names set rest

/-- Decode a value into a struct: `null` leaves it as it is. -/
def decode (names : List String) (set : String → Json → σ → Option σ) (v : Json) (s : σ) : Option σ :=
  match v with
  | .null => some s
  | .obj fields => foldFields names set fields s
  | _ => none

variable {set : String → Json → σ → Option σ} {names : List String} {P : σ → Prop} {s s' : σ}

variable {fields : List (Bytes × Json)}

lemma foldFields_keeps_mem (hset : ∀ kv ∈ fields, ∀ n s s', set n kv.2 s = some s' → P s → P s')
    (h : foldFields names set fields s = some s') (hs : P s) : P s' := by
  induction fields generalizing s with
  | nil =>
    cases h
    exact hs
  | cons kv rest ih =>
    obtain ⟨k, v⟩ := kv
    have hrest : ∀ kv ∈ rest, ∀ n s s', set n kv.2 s = some s' → P s → P s' :=
      fun kv hkv => hset kv (List.mem_cons_of_mem _ hkv)
    simp only [foldFields] at h
    split at h
    next => exact ih hrest h hs
    next n _ =>
      obtain ⟨s₁, hs₁, h⟩ := Option.bind_eq_some_iff.1 h
      exact ih hrest h (hset (k, v) List.mem_cons_self n s s₁ hs₁ hs)

lemma foldFields_keeps
    (hset : ∀ n v s s', set n v s = some s' → P s → P s')
    (h : foldFields names set fields s = some s') (hs : P s) : P s' :=
  foldFields_keeps_mem (fun kv _ n => hset n kv.2) h hs

lemma decode_keeps
    (hset : ∀ n v s s', set n v s = some s' → P s → P s') {v : Json}
    (h : decode names set v s = some s') (hs : P s) : P s' := by
  unfold decode at h
  split at h
  next =>
    cases h
    exact hs
  next => exact foldFields_keeps hset h hs
  next => cases h

/-- Decode a value into a string field holding `s`. -/
def decodeString (v : Json) (s : String) : Option String :=
  match v with
  | .null => some s
  | .str lit => some (Json.unquote lit)
  | _ => none

/-- A slice of structs: the first `len` elements of its array.  What a decoded text leaves behind them
comes back when a later text makes the slice longer. -/
structure Slice (α : Type) where
  array : List α := []
  len : Nat := 0

def Slice.elems {α : Type} (s : Slice α) : List α := s.array.take s.len

/-- Decode the elements of a list into an array, each into the element that is there already. -/
def decodeElems {α : Type} (dec : Json → α → Option α) (zero : α) : List Json → List α → Option (List α)
  | [], array => some array
  | v :: vs, array => do
    let a ← dec v (array.headD zero)
    let as ← decodeElems dec zero vs array.tail
    some (a :: as)

def decodeSlice {α : Type} (dec : Json → α → Option α) (zero : α) (v : Json) (s : Slice α) :
    Option (Slice α) :=
  match v with
  | .null | .arr [] => some {}
  | .arr elems => (decodeElems dec zero elems s.array).map fun array => ⟨array, elems.length⟩
  | _ => none

/-- `strings.EqualFold(s, t)` for an ASCII text `t`. -/
def equalFold (s t : String) : Bool := foldName s = foldName t

/-- Decode a value into a field of type `map[string]any`: the entries are added to the map the field
already holds. -/
def decodeMap (v : Json) (m : Option (GoMap Any)) : Option (Option (GoMap Any)) :=
  match v with
  | .null => some none
  | .obj fields => do
    let kvs ← Any.ofFields fields []
    some (some (kvs.foldl (fun m kv => AList.insert kv.1 kv.2 m) (m.getD ∅)))
  | _ => none

end Struct

/-! ## Writing -/

namespace Json

def hexDigit (n : Nat) : Char :=
  Nat.digitChar (n % 16)

/-- `\u00xx`. -/
def escapeU (n : Nat) : Bytes :=
  bytes (String.ofList ['\\', 'u', hexDigit (n / 4096), hexDigit (n / 256), hexDigit (n / 16),
    hexDigit n])

/-- One rune inside a string written by `json.Marshal`, with the HTML characters escaped. -/
def quoteRune (c : Char) : Bytes :=
  if c = '"' then bytes "\\\""
  else if c = '\\' then bytes "\\\\"
  else if c = '\n' then bytes "\\n"
  else if c = '\r' then bytes "\\r"
  else if c = '\t' then bytes "\\t"
  else if c = Char.ofNat 8 then bytes "\\b"
  else if c = Char.ofNat 12 then bytes "\\f"
  else if c.toNat < 0x20 ∨ c = '<' ∨ c = '>' ∨ c = '&' ∨ c.toNat = 0x2028 ∨ c.toNat = 0x2029 then
    escapeU c.toNat
  else encodeRune c

/-- A string as `json.Marshal` writes it. -/
def quote (s : String) : Bytes :=
  bytes "\"" ++ s.toList.flatMap quoteRune ++ bytes "\""

def bracket (left right : String) (items : List Bytes) : Bytes :=
  bytes left ++ (items.intersperse (bytes ",")).flatten ++ bytes right

/-- A string literal copied out of a `json.RawMessage`, with the HTML characters escaped. -/
def escapeLiteral : Bytes → Bytes
  | [] => []
  | b :: rest =>
    if b == 0x3C || b == 0x3E || b == 0x26 then escapeU b.toNat ++ escapeLiteral rest
    else if b == 0xE2 && (rest.take 2 = [0x80, 0xA8] || rest.take 2 = [0x80, 0xA9]) then
      escapeU (0x2028 + ((rest[1]?.getD 0).toNat - 0xA8)) ++ escapeTail rest
    else b :: escapeLiteral rest
where
  /-- Skip the two bytes that follow the lead byte of U+2028 and U+2029. -/
  escapeTail : Bytes → Bytes
    | _ :: _ :: rest => escapeLiteral rest
    | _ => []

mutual

/-- A tree written without white space, as `json.Marshal` copies a `json.RawMessage`. -/
def compact : Json → Bytes
  | .null => bytes "null"
  | .bool b => bytes (if b then "true" else "false")
  | .num lit => lit
  | .str lit => bytes "\"" ++ escapeLiteral lit ++ bytes "\""
  | .arr elems => bracket "[" "]" (compactElems elems)
  | .obj fields => bracket "\x7b" "\x7d" (compactFields fields)

def compactElems : List Json → List Bytes
  | [] => []
  | v :: vs => compact v :: compactElems vs

def compactFields : List (Bytes × Json) → List Bytes
  | [] => []
  | (k, v) :: rest =>
    (bytes "\"" ++ escapeLiteral k ++ bytes "\":" ++ compact v) :: compactFields rest

end

end Json

namespace Any

def keyLe (a b : String) : Bool :=
  !(List.lex (bytes b) (bytes a) fun x y => x.toNat < y.toNat)

def insertField {α : Type} (f : String × α) : List (String × α) → List (String × α)
  | [] => [f]
  | g :: rest => if keyLe f.1 g.1 then f :: g :: rest else g :: insertField f rest

def writeObject (fields : List (String × Bytes)) : Bytes :=
  Json.bracket "\x7b" "\x7d"
    ((fields.foldr insertField []).map fun f => Json.quote f.1 ++ bytes ":" ++ f.2)

mutual

/-- `json.Marshal` of an `any`. -/
def marshal : Any → Bytes
  | .nil => bytes "null"
  | .bool b => bytes (if b then "true" else "false")
  | .float64 f => bytes f.toJson
  | .string s => Json.quote s
  | .slice elems => Json.bracket "[" "]" (marshalElems elems)
  | .map fields => writeObject (marshalFields fields)

def marshalElems : List Any → List Bytes
  | [] => []
  | v :: vs => marshal v :: marshalElems vs

def marshalFields : List (String × Any) → List (String × Bytes)
  | [] => []
  | (k, v) :: rest => (k, marshal v) :: marshalFields rest

end

/-- `json.Marshal` of a `map[string]any`. -/
def marshalMap (m : GoMap Any) : Bytes :=
  writeObject (marshalFields m.pairs)

mutual

/-- `fmt.Sprint` of an `any`. -/
def sprint : Any → String
  | .nil => "<nil>"
  | .bool b => if b then "true" else "false"
  | .float64 f => f.toGo
  | .string s => s
  | .slice elems => "[" ++ " ".intercalate (sprintElems elems) ++ "]"
  | .map fields =>
    "map[" ++ " ".intercalate
      (((sprintFields fields).foldr insertField []).map fun f => f.1 ++ ":" ++ f.2) ++ "]"

def sprintElems : List Any → List String
  | [] => []
  | v :: vs => sprint v :: sprintElems vs

def sprintFields : List (String × Any) → List (String × String)
  | [] => []
  | (k, v) :: rest => (k, sprint v) :: sprintFields rest

end

end Any

end Go
