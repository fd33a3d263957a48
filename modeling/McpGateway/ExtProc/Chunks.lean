import McpGateway.ExtProc.Serve

/-!
# Streams cut into chunks

However a stream is cut into chunks, the rewriter makes the same calls in the same order, and what it
writes are the lines of the stream one after the other, each rewritten by itself.  A line with white space
before its `data:` is no data line of an event stream; the rewriter takes it for one.

- `rewriteChunks_flatten`: the cutting does not matter.
- `rewriteLine_mapped`, `rewriteChunks_mapped`: what one line becomes, and the whole stream.
- `indentedLine_changed`: a line that is no data line, rewritten.
-/

namespace McpGateway.ExtProc

open Go Effect Routing SseRewriter

/-! ## Lines -/

/-- What stands behind `data:`. -/
def dataText (line : Bytes) : Bytes :=
  let text := (trimSpace line).drop dataPrefix.length
  if text.head? = some 0x20 then text.drop 1 else text

lemma elicitationIn_eq {line : Bytes} : elicitationIn line = (RpcMessage.unmarshal (dataText line)).bind fun msg =>
    if msg.method = "elicitation/create" ∧ msg.id.isNil = false then some msg else none := by
  unfold elicitationIn dataText
  dsimp only
  generalize RpcMessage.unmarshal _ = read
  cases read <;> rfl

lemma cutLines_append (a b : Bytes) : cutLines (a ++ b) =
    ((cutLines a).1 ++ (cutLines ((cutLines a).2 ++ b)).1,
    (cutLines ((cutLines a).2 ++ b)).2) := by
  induction a with
  | nil => rfl
  | cons c a ih =>
    rw [cons_append, cutLines, cutLines, ih]
    dsimp only
    split_ifs with hfeed
    · rfl
    · cases hlines : (cutLines a).1 with
      | nil =>
        rw [nil_append, nil_append, cons_append, cutLines]
        dsimp only
        rw [if_neg hfeed]
      | cons line more => rfl

/-- The complete lines of a text and, last, what stands behind them. -/
def linesOf (text : Bytes) : List Bytes :=
  (SseRewriter.cutLines text).1 ++ [(SseRewriter.cutLines text).2]

/-- The ids that the calls have stored, in order. -/
def storedIDs (tr : List GwEv) : List String :=
  tr.filterMap fun ev => match ev with
    | ⟨.idStore _, .ok y⟩ => some y
    | _ => none

lemma storedIDs_append (tr tr' : List GwEv) : storedIDs (tr ++ tr') = storedIDs tr ++ storedIDs tr' :=
  List.filterMap_append

namespace SseRewriter

variable (w : SseRewriter)

/-- A whole response: what `Process` writes for its chunks, followed by what `Flush` writes. -/
def rewriteChunks : SseRewriter → List Bytes → Gw Bytes
  | w, [] => do
    let (out, _) ← w.flush
    pure out
  | w, chunk :: rest => do
    let (out, w) ← w.process chunk
    let more ← rewriteChunks w rest
    pure (out ++ more)

/-! ## The buffer and the lines -/

lemma rewriteLine_buf (buf line : Bytes) : ({ w with buf := buf }).rewriteLine line =
    w.rewriteLine line >>= fun r => pure (r.1, { r.2 with buf := buf }) := by
  unfold rewriteLine maybeRewriteElicitation
  split_ifs
  · cases elicitationIn line with
    | none => rfl
    | some msg =>
      refine congrArg (Prog.vis _) (funext fun r => ?_)
      cases r <;> rfl
  · rfl

lemma rewriteLines_buf (buf : Bytes) (lines : List Bytes) :
    ({ w with buf := buf }).rewriteLines lines =
      w.rewriteLines lines >>= fun r => pure (r.1, { r.2 with buf := buf }) := by
  induction lines generalizing w with
  | nil => rfl
  | cons line rest ih =>
    simp only [rewriteLines, rewriteLine_buf, ih, Prog.bind_assoc, pure_eq, ret_bind]

lemma rewriteLines_append (lines more : List Bytes) : w.rewriteLines (lines ++ more) =
    w.rewriteLines lines >>= fun r => r.2.rewriteLines more >>= fun r' => pure (r.1 ++ r'.1, r'.2) := by
  induction lines generalizing w with
  | nil => exact (Prog.bind_pure _).symm
  | cons line rest ih =>
    simp only [cons_append, rewriteLines, ih, Prog.bind_assoc, pure_eq, ret_bind,
      append_assoc]

lemma process_eq (chunk : Bytes) : w.process chunk = w.rewriteLines (cutLines (w.buf ++ chunk)).1 >>=
    fun r => pure (r.1, { r.2 with buf := (cutLines (w.buf ++ chunk)).2 }) :=
  rewriteLines_buf w _ _

lemma process_append (a b : Bytes) : w.process (a ++ b) =
    w.process a >>= fun r => r.2.process b >>= fun r' => pure (r.1 ++ r'.1, r'.2) := by
  rw [process_eq, process_eq, ← append_assoc, cutLines_append]
  simp only [rewriteLines_append, process_eq, rewriteLines_buf, Prog.bind_assoc, pure_eq, ret_bind]

lemma rewriteChunks_cons (chunk : Bytes) (rest : List Bytes) :
    w.rewriteChunks (chunk :: rest) = w.rewriteChunks [(chunk :: rest).flatten] := by
  induction rest generalizing w chunk with
  | nil => rw [List.flatten_singleton]
  | cons next rest ih =>
    have hnext : w.rewriteChunks (chunk :: next :: rest) = w.process chunk >>= fun r =>
        r.2.rewriteChunks [(next :: rest).flatten] >>= fun more => pure (r.1 ++ more) :=
      congrArg _ (funext fun r : Bytes × SseRewriter => congrArg (Prog.bind · _) (ih r.2 next))
    rw [hnext]
    simp only [rewriteChunks, List.flatten_cons, process_append, Prog.bind_assoc, pure_eq, ret_bind,
      append_assoc]

/-- What is done with a response does not depend on how it is cut. -/
lemma rewriteChunks_flatten (req : MCPRequest) (chunks : List Bytes) :
    ({ req := req } : SseRewriter).rewriteChunks chunks =
      ({ req := req } : SseRewriter).rewriteChunks [chunks.flatten] := by
  cases chunks with
  | nil => rfl
  | cons chunk rest => exact rewriteChunks_cons _ _ _

end SseRewriter

/-! ## One line -/

/-- The line carries an `elicitation/create` request with an id: with the white space around it taken
away it starts with `data:`, and what follows decodes to such a message. -/
structure Carries (line : Bytes) : Prop where
  data : dataPrefix.isPrefixOf (trimSpace line) = true
  request : ∃ msg, RpcMessage.unmarshal (dataText line) = some msg ∧ msg.method = "elicitation/create" ∧
    msg.id.isNil = false

/-- The mapping that is stored for the request `msg` of a server. -/
def entryOf (req : MCPRequest) (msg : RpcMessage) : IdEntry :=
  ⟨msg.id, req.serverName, req.backendSessionID, req.getSessionID⟩

/-- The calls for one line and what is written for it, given which lines carry a request.  A line that
does not is written as it is, without a call.  For one that does the id is stored, and the request is
written under the new id; it is left as it is only if it could not be stored. -/
inductive LineMapped (carries : Bytes → Prop) (req : MCPRequest) (line : Bytes) :
    List GwEv → Bytes → Prop where
  | kept (h : ¬ carries line) : LineMapped carries req line [] line
  | unstored {msg : RpcMessage} {err : String} (h : carries line)
      (hmsg : RpcMessage.unmarshal (dataText line) = some msg) :
      LineMapped carries req line [⟨.idStore (entryOf req msg), .error err⟩] line
  | replaced {msg : RpcMessage} {y : String} (h : carries line)
      (hmsg : RpcMessage.unmarshal (dataText line) = some msg) :
      LineMapped carries req line [⟨.idStore (entryOf req msg), .ok y⟩]
        (dataPrefix ++ bytes " " ++ ({ msg with id := .string y }).marshal ++ bytes "\n")

namespace SseRewriter

variable {w : SseRewriter} {line : Bytes} {lines : List Bytes} {tr : List GwEv} {res : Bytes × SseRewriter}

lemma rewriteLine_mapped (h : (w.rewriteLine line).Outcome tr res) :
    LineMapped Carries w.req line tr res.1 ∧ res.2.req = w.req ∧
      res.2.gatewayIDs = w.gatewayIDs ++ storedIDs tr := by
  unfold rewriteLine maybeRewriteElicitation at h
  split_ifs at h with hdata
  · cases hmsg : elicitationIn line with
    | none =>
      rw [hmsg] at h
      obtain ⟨rfl, rfl⟩ := outcome_ret_iff.1 h
      refine ⟨.kept fun hcarries => ?_, rfl, (append_nil _).symm⟩
      obtain ⟨-, msg, hread, hcreate⟩ := hcarries
      rw [elicitationIn_eq, hread, Option.bind_some, if_pos hcreate] at hmsg
      cases hmsg
    | some msg =>
      rw [hmsg] at h
      rw [elicitationIn_eq] at hmsg
      obtain ⟨msg', hread, hmsg⟩ := bind_eq_some_iff.1 hmsg
      split_ifs at hmsg with hcreate
      cases hmsg
      have hcarries : Carries line := ⟨hdata, msg, hread, hcreate⟩
      obtain ⟨r, tr', rfl, hrest⟩ := outcome_op_iff.1 h
      cases r with
      | error e =>
        obtain ⟨rfl, rfl⟩ := outcome_ret_iff.1 hrest
        exact ⟨.unstored hcarries hread, rfl, (append_nil _).symm⟩
      | ok y =>
        obtain ⟨rfl, rfl⟩ := outcome_ret_iff.1 hrest
        exact ⟨.replaced hcarries hread, rfl, rfl⟩
  · obtain ⟨rfl, rfl⟩ := outcome_ret_iff.1 h
    exact ⟨.kept fun hcarries => hdata hcarries.data, rfl, (append_nil _).symm⟩

/-! ## All lines -/

end SseRewriter

/-- The calls for the lines, and what is written for them, one after the other. -/
def LinesMapped (carries : Bytes → Prop) (req : MCPRequest) (lines : List Bytes) (tr : List GwEv)
    (out : Bytes) : Prop :=
  ∃ pieces : List (List GwEv × Bytes),
    List.Forall₂ (fun line p => LineMapped carries req line p.1 p.2) lines pieces ∧
      tr = (pieces.map Prod.fst).flatten ∧ out = (pieces.map Prod.snd).flatten

lemma LinesMapped.append {carries : Bytes → Prop} {req : MCPRequest} {lines lines' : List Bytes}
    {tr tr' : List GwEv} {out out' : Bytes} (h : LinesMapped carries req lines tr out)
    (h' : LinesMapped carries req lines' tr' out') :
    LinesMapped carries req (lines ++ lines') (tr ++ tr') (out ++ out') := by
  obtain ⟨pieces, hpieces, rfl, rfl⟩ := h
  obtain ⟨pieces', hpieces', rfl, rfl⟩ := h'
  exact ⟨pieces ++ pieces', List.rel_append hpieces hpieces', by simp, by simp⟩

lemma LineMapped.eq_of_not {carries : Bytes → Prop} {req : MCPRequest} {line out : Bytes}
    {tr : List GwEv} (h : LineMapped carries req line tr out) (hline : ¬ carries line) : out = line := by
  cases h with
  | kept | unstored => rfl
  | replaced h => exact absurd h hline

lemma LineMapped.single {carries : Bytes → Prop} {req : MCPRequest} {line out : Bytes}
    {tr : List GwEv} (h : LineMapped carries req line tr out) : LinesMapped carries req [line] tr out :=
  ⟨[(tr, out)], .cons h .nil, by simp, by simp⟩

namespace SseRewriter

variable {w : SseRewriter} {line : Bytes} {lines : List Bytes} {tr : List GwEv} {res : Bytes × SseRewriter}

lemma rewriteLines_mapped (h : (w.rewriteLines lines).Outcome tr res) :
    LinesMapped Carries w.req lines tr res.1 ∧ res.2.req = w.req ∧
      res.2.gatewayIDs = w.gatewayIDs ++ storedIDs tr := by
  induction lines generalizing w tr res with
  | nil =>
    obtain ⟨rfl, rfl⟩ := outcome_ret_iff.1 h
    exact ⟨⟨[], .nil, rfl, rfl⟩, rfl, (append_nil _).symm⟩
  | cons line rest ih =>
    obtain ⟨first, tr₁, tr₂, rfl, hfirst, h⟩ := outcome_bind_iff.1 h
    obtain ⟨more, tr₃, tr₄, rfl, hmore, h⟩ := outcome_bind_iff.1 h
    obtain ⟨rfl, rfl⟩ := outcome_ret_iff.1 h
    obtain ⟨hline, hreq, hids⟩ := rewriteLine_mapped hfirst
    obtain ⟨hlines, hreq', hids'⟩ := ih hmore
    rw [hreq] at hlines hreq'
    rw [append_nil]
    exact ⟨hline.single.append hlines, hreq', by rw [hids', hids, storedIDs_append, append_assoc]⟩

/-- The calls that remove the ids at the end of a stream. -/
def removals (ids : List String) : List GwEv :=
  ids.map fun id => ⟨.idRemove id, ()⟩

lemma removeIDs_calls {ids : List String} {u : Unit} (h : (removeIDs ids).Outcome tr u) :
    tr = removals ids := by
  induction ids generalizing tr with
  | nil => exact (outcome_ret_iff.1 h).1
  | cons id rest ih =>
    obtain ⟨r, tr', rfl, hrest⟩ := outcome_op_iff.1 h
    rw [ih hrest]
    rfl

lemma not_carries_nil : ¬ Carries [] := fun h => absurd h.data (by decide)

lemma flush_mapped (h : w.flush.Outcome tr res) : ∃ calls,
    tr = calls ++ removals (w.gatewayIDs ++ storedIDs calls) ∧ LineMapped Carries w.req w.buf calls res.1 := by
  obtain ⟨rest, tr₁, tr₂, rfl, hrest, h⟩ := outcome_bind_iff.1 h
  obtain ⟨u, tr₃, tr₄, rfl, hremove, h⟩ := outcome_bind_iff.1 h
  obtain ⟨rfl, rfl⟩ := outcome_ret_iff.1 h
  rw [append_nil, removeIDs_calls hremove]
  unfold rewriteRemaining at hrest
  split_ifs at hrest with hempty
  · obtain ⟨rfl, rfl⟩ := outcome_ret_iff.1 hrest
    refine ⟨[], by rw [show storedIDs [] = [] from rfl, append_nil], .kept ?_⟩
    rw [List.isEmpty_iff.1 hempty]
    exact not_carries_nil
  · obtain ⟨hline, -, hids⟩ := rewriteLine_mapped hrest
    exact ⟨tr₁, by rw [hids], hline⟩

lemma rewriteChunks_mapped {req : MCPRequest} {stream out : Bytes}
    (h : (({ req := req } : SseRewriter).rewriteChunks [stream]).Outcome tr out) :
    ∃ calls, tr = calls ++ removals (storedIDs calls) ∧
      LinesMapped Carries req (linesOf stream) calls out := by
  obtain ⟨first, tr₁, tr₂, rfl, hfirst, h⟩ := outcome_bind_iff.1 h
  obtain ⟨more, tr₃, tr₄, rfl, hmore, h⟩ := outcome_bind_iff.1 h
  obtain ⟨rfl, rfl⟩ := outcome_ret_iff.1 h
  obtain ⟨last, tr₅, tr₆, rfl, hlast, h⟩ := outcome_bind_iff.1 hmore
  obtain ⟨rfl, rfl⟩ := outcome_ret_iff.1 h
  rw [process_eq] at hfirst
  obtain ⟨read, tr₇, tr₈, rfl, hread, h⟩ := outcome_bind_iff.1 hfirst
  obtain ⟨rfl, rfl⟩ := outcome_ret_iff.1 h
  rw [nil_append] at hread hlast
  obtain ⟨hlines, hreq, hids⟩ := rewriteLines_mapped hread
  obtain ⟨calls, rfl, hline⟩ := flush_mapped hlast
  dsimp only at hline
  rw [hreq] at hline
  refine ⟨tr₇ ++ calls, ?_, hlines.append hline.single⟩
  rw [storedIDs_append, hids]
  simp

end SseRewriter

/-! ## The stream -/

lemma flatten_linesOf (stream : Bytes) : (linesOf stream).flatten = stream := by
  unfold linesOf
  induction stream with
  | nil => rfl
  | cons b rest ih =>
    rw [cutLines]
    dsimp only
    split_ifs with hfeed
    · exact congrArg (b :: ·) ih
    · cases hlines : (cutLines rest).1 with
      | nil =>
        rw [hlines] at ih
        exact congrArg (b :: ·) ih
      | cons line more =>
        rw [hlines] at ih
        exact congrArg (b :: ·) ih

/-- What the rewriter makes of a stream, given which lines carry a request: the calls and the bytes are
the same for all ways to cut it, the stream is its lines, and each line is mapped by itself; at the end
the ids that were stored are removed. -/
structure Rewritten (carries : Bytes → Prop) (req : MCPRequest) (stream : Bytes) : Prop where
  cut : ∀ chunks : List Bytes, chunks.flatten = stream →
    ({ req := req } : SseRewriter).rewriteChunks chunks =
      ({ req := req } : SseRewriter).rewriteChunks [stream]
  lines : (linesOf stream).flatten = stream
  mapped : ∀ tr out, (({ req := req } : SseRewriter).rewriteChunks [stream]).Outcome tr out →
    ∃ calls, tr = calls ++ SseRewriter.removals (storedIDs calls) ∧
      LinesMapped carries req (linesOf stream) calls out

theorem rewriteChunks_rewritten (req : MCPRequest) (stream : Bytes) : Rewritten Carries req stream where
  cut := by
    rintro chunks rfl
    exact SseRewriter.rewriteChunks_flatten req chunks
  lines := flatten_linesOf stream
  mapped := by
    intro tr out h
    exact SseRewriter.rewriteChunks_mapped h

/-- A line of an event stream with a field `data`. -/
def isDataLine (line : Bytes) : Bool := dataPrefix.isPrefixOf line

/-- Not a data line: its field is called ` data`. -/
def indentedLine : Bytes :=
  bytes " data: \x7b\"jsonrpc\":\"2.0\",\"method\":\"elicitation/create\",\"id\":1\x7d\n"

/-- A map that assigns the id `g`. -/
def assignsG (_ : Unit) : (o : Op) → Option (o.Resp × Unit)
  | .idStore _ => some (.ok "g", ())
  | .idRemove _ => some ((), ())
  | _ => none

theorem indentedLine_changed : isDataLine indentedLine = false ∧
    (∃ tr out, (({ req := {} } : SseRewriter).rewriteChunks [indentedLine]).Outcome tr out ∧
      out ≠ indentedLine) ∧
    ¬ Rewritten (fun line => isDataLine line = true ∧ Carries line) {} indentedLine := by
  have hrun : ((({ req := {} } : SseRewriter).rewriteChunks [indentedLine]).exec assignsG ()).any
      (fun res => decide (res.2 ≠ indentedLine)) = true := by decide +kernel
  obtain ⟨⟨tr, out⟩, hexec, hne⟩ := (any_eq_true _ _).1 hrun
  have hout := Prog.outcome_exec hexec
  refine ⟨by decide, ⟨tr, out, hout, of_decide_eq_true hne⟩, fun h => of_decide_eq_true hne ?_⟩
  obtain ⟨calls, -, pieces, hpieces, -, rfl⟩ := h.mapped tr out hout
  have hlines : linesOf indentedLine = [indentedLine, []] := by decide +kernel
  rw [hlines] at hpieces
  rcases hpieces with _ | ⟨hfirst, _ | ⟨hlast, ⟨⟩⟩⟩
  -- neither line counts as a data line, so both would stand
  have hfirst' := hfirst.eq_of_not fun hline => absurd hline.1 (by decide)
  have hlast' := hlast.eq_of_not fun hline => absurd hline.1 (by decide)
  simp [hfirst', hlast']

end McpGateway.ExtProc
