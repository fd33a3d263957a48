import McpGateway.Routing.Effects

/-!
# Rewriting elicitation requests in event streams

`sseRewriter`: a streamed tool answer is cut into lines, and in every complete line that carries an
`elicitation/create` request the backend's id is replaced by one the gateway assigned and recorded.
-/

namespace McpGateway.ExtProc

open Go Routing

/-- The state of a rewriter: what has been received of an unfinished line, and the ids it has
assigned. -/
structure SseRewriter where
  req : MCPRequest
  buf : Bytes := []
  gatewayIDs : List String := []

def dataPrefix : Bytes := bytes "data:"

/-- The characters that `unicode.IsSpace` accepts, in UTF-8. -/
def spaces : List Bytes :=
  [[0x20], [0x09], [0x0A], [0x0B], [0x0C], [0x0D], [0xC2, 0x85], [0xC2, 0xA0], [0xE1, 0x9A, 0x80],
    [0xE2, 0x80, 0xA8], [0xE2, 0x80, 0xA9], [0xE2, 0x80, 0xAF], [0xE2, 0x81, 0x9F], [0xE3, 0x80, 0x80]] ++
    (List.range 11).map fun n => [0xE2, 0x80, UInt8.ofNat (0x80 + n)]

def trimStart (spaces : List Bytes) : Nat → Bytes → Bytes
  | 0, bs => bs
  | fuel + 1, bs =>
    match spaces.find? fun s => s.isPrefixOf bs with
    | none => bs
    | some s => trimStart spaces fuel (bs.drop s.length)

/-- `bytes.TrimSpace`. -/
def trimSpace (bs : Bytes) : Bytes :=
  let bs := trimStart spaces bs.length bs
  (trimStart (spaces.map List.reverse) bs.length bs.reverse).reverse

/-- A message in the stream; parameters, result and error are kept as they were written. -/
structure RpcMessage where
  jsonrpc : String := ""
  method : String := ""
  id : Any := .nil
  params : Option Json := none
  result : Option Json := none
  error : Option Json := none

namespace RpcMessage

def setField (field : String) (v : Json) (m : RpcMessage) : Option RpcMessage :=
  match field with
  | "jsonrpc" => (Struct.decodeString v m.jsonrpc).map fun s => { m with jsonrpc := s }
  | "method" => (Struct.decodeString v m.method).map fun s => { m with method := s }
  | "id" => (Any.ofJson v).map fun a => { m with id := a }
  | "params" => some { m with params := some v }
  | "result" => some { m with result := some v }
  | "error" => some { m with error := some v }
  | _ => some m

def unmarshal (text : Bytes) : Option RpcMessage := do
  let v ← Json.parse text
  Struct.decode ["jsonrpc", "method", "id", "params", "result", "error"] setField v {}

/-- `json.Marshal`; only the version is written when it is empty. -/
def marshal (m : RpcMessage) : Bytes :=
  let raw (name : String) (v : Option Json) : List Bytes :=
    match v with
    | some v => [MCPRequest.jsonField name v.compact]
    | none => []
  Json.bracket "\x7b" "\x7d" <|
    [MCPRequest.jsonField "jsonrpc" (Json.quote m.jsonrpc)] ++
    (if m.method = "" then [] else [MCPRequest.jsonField "method" (Json.quote m.method)]) ++
    (if m.id.isNil then [] else [MCPRequest.jsonField "id" m.id.marshal]) ++
    raw "params" m.params ++ raw "result" m.result ++ raw "error" m.error

end RpcMessage

def elicitationIn (line : Bytes) : Option RpcMessage :=
  let text := (trimSpace line).drop dataPrefix.length
  let text := if text.head? = some 0x20 then text.drop 1 else text
  match RpcMessage.unmarshal text with
  | some msg => if msg.method = "elicitation/create" ∧ msg.id.isNil = false then some msg else none
  | none => none

namespace SseRewriter

variable (w : SseRewriter)

def maybeRewriteElicitation (line : Bytes) : Gw (Bytes × SseRewriter) :=
  match elicitationIn line with
  | none => pure (line, w)
  | some msg => do
    match ← op (.idStore ⟨msg.id, w.req.serverName, w.req.backendSessionID, w.req.getSessionID⟩) with
    | .error _ => pure (line, w)
    | .ok gatewayID =>
      pure (dataPrefix ++ bytes " " ++ ({ msg with id := .string gatewayID }).marshal ++ bytes "\n",
        { w with gatewayIDs := w.gatewayIDs ++ [gatewayID] })

def rewriteLine (line : Bytes) : Gw (Bytes × SseRewriter) :=
  if dataPrefix.isPrefixOf (trimSpace line) then w.maybeRewriteElicitation line
  else pure (line, w)

def cutLines : Bytes → List Bytes × Bytes
  | [] => ([], [])
  | b :: rest =>
    let (lines, tail) := cutLines rest
    if b == 0x0A then ([b] :: lines, tail)
    else
      match lines with
      | [] => ([], b :: tail)
      | line :: more => ((b :: line) :: more, tail)

def rewriteLines : SseRewriter → List Bytes → Gw (Bytes × SseRewriter)
  | w, [] => pure ([], w)
  | w, line :: rest => do
    let (out, w) ← w.rewriteLine line
    let (more, w) ← rewriteLines w rest
    pure (out ++ more, w)

def process (chunk : Bytes) : Gw (Bytes × SseRewriter) :=
  let (lines, tail) := cutLines (w.buf ++ chunk)
  ({ w with buf := tail }).rewriteLines lines

def removeIDs : List String → Gw Unit
  | [] => pure ()
  | id :: rest => do
    op (.idRemove id)
    removeIDs rest

def rewriteRemaining : Gw (Bytes × SseRewriter) :=
  if w.buf.isEmpty then pure (w.buf, w) else w.rewriteLine w.buf

def flush : Gw (Bytes × SseRewriter) := do
  let (out, w') ← w.rewriteRemaining
  removeIDs w'.gatewayIDs
  pure (out, { w' with buf := [], gatewayIDs := [] })

end SseRewriter

end McpGateway.ExtProc
