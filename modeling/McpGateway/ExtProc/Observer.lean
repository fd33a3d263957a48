import McpGateway.ExtProc.Chunks
import McpGateway.Foundation.Sse

/-!
# Observing task streams

`a2aSSEObserver` reads the answer to a streaming A2A request next to the client, who gets it unchanged.  It
goes by lines: what it ends with is a function of the lines of the whole answer, so it does not depend on
how the answer is cut.  An event with several data lines is read line by line too, and nothing is observed
if the message is spread over them.
-/

namespace McpGateway.ExtProc

open Go Effect Server

/-! ## Envelopes -/

/-- The ids and the state of a task, as far as an event tells them. -/
structure TaskView where
  taskID : String := ""
  contextID : String := ""
  state : String := ""
  deriving DecidableEq

namespace TaskView

def setStatus (v : Json) (t : TaskView) : Option TaskView :=
  Struct.decode ["state"] (fun _ v t => (Struct.decodeString v t.state).map fun s => { t with state := s }) v t

/-- Decode one field of an object whose task id is called `idName`. -/
def setField (idName field : String) (v : Json) (t : TaskView) : Option TaskView :=
  if field = idName then (Struct.decodeString v t.taskID).map fun s => { t with taskID := s }
  else if field = "contextId" then (Struct.decodeString v t.contextID).map fun s => { t with contextID := s }
  else setStatus v t

/-- Decode into a pointer: `null` clears it. -/
def decode (idName : String) (names : List String) (v : Json) (t : Option TaskView) :
    Option (Option TaskView) :=
  match v with
  | .null => some none
  | v => (Struct.decode names (setField idName) v (t.getD {})).map some

end TaskView

/-- `a2aStreamEnvelope`: at most one of the three is given by an agent that keeps to the protocol. -/
structure StreamEnvelope where
  task : Option TaskView := none
  statusUpdate : Option TaskView := none
  artifactUpdate : Option TaskView := none

namespace StreamEnvelope

def setResult (field : String) (v : Json) (e : StreamEnvelope) : Option StreamEnvelope :=
  match field with
  | "task" =>
    (TaskView.decode "id" ["id", "contextId", "status"] v e.task).map fun t => { e with task := t }
  | "statusUpdate" =>
    (TaskView.decode "taskId" ["taskId", "contextId", "status"] v e.statusUpdate).map fun t =>
      { e with statusUpdate := t }
  | "artifactUpdate" =>
    (TaskView.decode "taskId" ["taskId", "contextId"] v e.artifactUpdate).map fun t =>
      { e with artifactUpdate := t }
  | _ => some e

def unmarshal (text : Bytes) : Option StreamEnvelope := do
  let v ← Json.parse text
  Struct.decode ["result"] (fun _ v e =>
    Struct.decode ["task", "statusUpdate", "artifactUpdate"] setResult v e) v {}

def view (e : StreamEnvelope) : Option TaskView :=
  e.task.or (e.statusUpdate.or e.artifactUpdate)

end StreamEnvelope

/-- What a message tells about its task. -/
def viewOf (text : Bytes) : Option TaskView :=
  (StreamEnvelope.unmarshal (trimSpace text)).bind StreamEnvelope.view

/-! ## The observer -/

structure A2aSSEObserver where
  buf : Bytes := []
  taskID : String := ""
  contextID : String := ""
  lastState : String := ""

namespace A2aSSEObserver

variable (o : A2aSSEObserver)

/-- A repeated state is not logged again; the one that is kept is the same either way. -/
def note (v : TaskView) : A2aSSEObserver :=
  if v.taskID = "" ∧ v.contextID = "" then o
  else
    { o with
      taskID := if o.taskID = "" then v.taskID else o.taskID
      contextID := if o.contextID = "" then v.contextID else o.contextID
      lastState := v.state }

def viewOfLine (line : Bytes) : Option TaskView :=
  if dataPrefix.isPrefixOf (trimSpace line) then viewOf ((trimSpace line).drop dataPrefix.length) else none

def observe (line : Bytes) : A2aSSEObserver :=
  match viewOfLine line with
  | some v => o.note v
  | none => o

def process (chunk : Bytes) : A2aSSEObserver :=
  let (lines, tail) := SseRewriter.cutLines (o.buf ++ chunk)
  { lines.foldl observe o with buf := tail }

def flush : A2aSSEObserver :=
  let o' := { o with buf := [] }
  if o.buf.isEmpty then o' else o'.observe o.buf

end A2aSSEObserver

open A2aSSEObserver

/-- The body phases of an observed answer: what is sent, and the observer when `Process` returns.  Without a
last part the loop ends because nothing more is received. -/
def Server.relay : Stream → A2aSSEObserver → List (Bytes × Bool) → Gw (List ProcessingResponse × A2aSSEObserver)
  | _, o, [] => pure ([], o.flush)
  | st, o, (body, eos) :: rest => do
    let o := o.process body
    let o := if eos then o.flush else o
    let (resp, next) ← onResponseBody st body eos
    match next with
    | none => pure ([resp], o.flush)
    | some st => do
      let (more, o) ← relay st o rest
      pure (resp :: more, o)

/-- The parts of a body, of which the last one is marked. -/
def bodyParts : List Bytes → List (Bytes × Bool)
  | [] => []
  | [last] => [(last, true)]
  | part :: rest => (part, false) :: bodyParts rest

/-! ## Lines -/

namespace A2aSSEObserver

variable (o : A2aSSEObserver) (buf : Bytes)

lemma observe_buf (line : Bytes) :
    ({ o with buf := buf }).observe line = { o.observe line with buf := buf } := by
  unfold observe
  cases viewOfLine line with
  | none => rfl
  | some v =>
    dsimp only [note]
    split_ifs <;> rfl

lemma foldl_buf (lines : List Bytes) :
    lines.foldl observe { o with buf := buf } = { lines.foldl observe o with buf := buf } := by
  induction lines generalizing o with
  | nil => rfl
  | cons line rest ih => rw [foldl_cons, foldl_cons, observe_buf, ih]

lemma process_append (a b : Bytes) : o.process (a ++ b) = (o.process a).process b := by
  unfold process
  dsimp only
  -- the lines of the first part leave an observer whose buffer is the start of the second
  rw [← append_assoc, cutLines_append, foldl_append,
    foldl_buf ((SseRewriter.cutLines (o.buf ++ a)).1.foldl observe o) (SseRewriter.cutLines (o.buf ++ a)).2]

lemma foldl_process (part : Bytes) (rest : List Bytes) :
    (part :: rest).foldl process o = o.process (part :: rest).flatten := by
  induction rest generalizing part with
  | nil => rw [List.flatten_singleton, foldl_cons, foldl_nil]
  | cons next rest ih =>
    have hjoin := ih (part ++ next)
    rw [foldl_cons, process_append] at hjoin
    rw [foldl_cons, foldl_cons, hjoin, List.flatten_cons, List.flatten_cons, List.flatten_cons,
      append_assoc]

/-- The end of the answer: the lines that are complete, and what was left. -/
lemma flush_process (text : Bytes) :
    (o.process text).flush = { (linesOf (o.buf ++ text)).foldl observe o with buf := [] } := by
  unfold flush process linesOf
  dsimp only
  rw [foldl_append]
  split_ifs with hempty
  · rw [List.isEmpty_iff.1 hempty]
    rfl
  · rw [observe_buf, observe_buf]
    rfl

lemma flush_flush : o.flush.flush = o.flush := by
  have hbuf : o.flush.buf = [] := by
    unfold flush
    dsimp only
    split_ifs
    · rfl
    · rw [observe_buf]
  have hagain : ∀ o : A2aSSEObserver, o.buf = [] → o.flush = o := by
    rintro ⟨_, taskID, contextID, lastState⟩ ⟨⟩
    rfl
  exact hagain _ hbuf

end A2aSSEObserver

/-- What is observed of a whole answer. -/
def observed (text : Bytes) : A2aSSEObserver :=
  { (linesOf text).foldl A2aSSEObserver.observe {} with buf := [] }

lemma relay_eq {st : Stream} (hw : st.rewriter = none) (o : A2aSSEObserver) (parts : List Bytes) :
    relay st o (bodyParts parts) =
      pure (parts.map .responseBody, (parts.foldl process o).flush) := by
  induction parts generalizing o with
  | nil => rfl
  | cons part rest ih =>
    cases rest with
    | nil =>
      -- the last part is flushed by its mark and once more when `Process` returns
      simp only [bodyParts, relay, onResponseBody, hw, if_true, pure_eq, ret_bind,
        flush_flush]
      rfl
    | cons next rest =>
      have hrest := ih (o.process part)
      simp only [bodyParts, relay, onResponseBody, hw, false_eq_true, if_false, pure_eq,
        ret_bind, hrest]
      rfl

lemma observed_parts (parts : List Bytes) :
    (parts.foldl process {}).flush = observed parts.flatten := by
  cases parts with
  | nil => rfl
  | cons part rest =>
    rw [foldl_process, flush_process]
    rfl

/-! ## The first ids -/

def firstNonempty (ids : List String) : String := (ids.find? (· ≠ "")).getD ""

lemma firstNonempty_cons (id : String) (ids : List String) :
    firstNonempty (id :: ids) = if id = "" then firstNonempty ids else id := by
  unfold firstNonempty
  split_ifs with h
  · rw [List.find?_cons_of_neg (by simp [h])]
  · rw [List.find?_cons_of_pos (by simp [h]), getD_some]

/-- The tasks that the lines tell of, one line at a time. -/
def lineViews (lines : List Bytes) : List TaskView := lines.filterMap A2aSSEObserver.viewOfLine

lemma foldl_first {get : A2aSSEObserver → String} {id : TaskView → String}
    (hnote : ∀ o v, get (o.note v) = if get o = "" then id v else get o) (lines : List Bytes)
    (o : A2aSSEObserver) :
    get (lines.foldl observe o) =
      if get o = "" then firstNonempty ((lineViews lines).map id) else get o := by
  induction lines generalizing o with
  | nil =>
    rw [foldl_nil]
    split_ifs with h
    · exact h
    · rfl
  | cons line rest ih =>
    have hviews : lineViews (line :: rest) =
        (viewOfLine line).toList ++ lineViews rest := by
      rw [lineViews, List.filterMap_cons]
      cases viewOfLine line <;> rfl
    rw [foldl_cons, ih, hviews, observe]
    cases viewOfLine line with
    | none => rfl
    | some v =>
      dsimp only
      rw [hnote, Option.toList_some, List.singleton_append, map_cons, firstNonempty_cons]
      by_cases h : get o = ""
      · simp only [h, if_true]
      · simp only [h, if_false]

lemma note_taskID (o : A2aSSEObserver) (v : TaskView) :
    (o.note v).taskID = if o.taskID = "" then v.taskID else o.taskID := by
  unfold note
  split_ifs with hnone hempty
  · rw [hempty, hnone.1]
  all_goals rfl

lemma note_contextID (o : A2aSSEObserver) (v : TaskView) :
    (o.note v).contextID = if o.contextID = "" then v.contextID else o.contextID := by
  unfold note
  split_ifs with hnone hempty
  · rw [hempty, hnone.2]
  all_goals rfl

/-- The client of a streaming A2A request gets the parts of the answer as they are.  The observer ends the
same however the answer is cut, with the first ids that are not empty among the data lines. -/
theorem a2a_relayed (s : Server) (st : Stream) (h : HttpHeaders) {a : A2AState} {reqHeaders : HttpHeaders}
    (hreq : st.localRequestHeaders = some reqHeaders) (ha : st.a2a = some a) (hw : st.rewriter = none)
    (hstreaming : a.streaming = true) (hstatus : getSingleValueHeader h.headers ":status" = "200")
    (parts : List Bytes) :
    ∃ st', s.onResponseHeaders st (some h) = pure (.responseHeaders none true, some st') ∧
      Server.relay st' {} (bodyParts parts) =
        pure (parts.map .responseBody, observed parts.flatten) ∧
      (observed parts.flatten).taskID =
        firstNonempty ((lineViews (linesOf parts.flatten)).map TaskView.taskID) ∧
      (observed parts.flatten).contextID =
        firstNonempty ((lineViews (linesOf parts.flatten)).map TaskView.contextID) := by
  refine ⟨{ st with a2aObserved := true }, ?_, ?_, ?_, ?_⟩
  · simp [Server.onResponseHeaders, hreq, ha, hstreaming, hstatus]
  · rw [relay_eq (by exact hw), observed_parts]
  · exact foldl_first note_taskID _ {}
  · exact foldl_first note_contextID _ {}

def taskEvent : List Bytes :=
  [bytes "data: \x7b\"result\":", bytes "\x7b\"task\":\x7b\"id\":\"t1\"\x7d\x7d\x7d\n\n"]

theorem a2a_relayed_task : ∃ st', Server.relay st' {} (bodyParts taskEvent) =
      pure (taskEvent.map .responseBody, observed taskEvent.flatten) ∧
    (observed taskEvent.flatten).taskID = "t1" := by
  obtain ⟨st', -, hrelay, htask, -⟩ := a2a_relayed Server.echoServer
    { localRequestHeaders := some ⟨none, false⟩, a2a := some { streaming := true } }
    ⟨some [(":status", "200")], false⟩ rfl rfl rfl rfl (by decide) taskEvent
  exact ⟨st', hrelay, htask.trans (by decide +kernel)⟩

/-- One event with a message on two data lines. -/
def foldedEvent : Bytes :=
  bytes "data: \x7b\"result\":\ndata: \x7b\"task\":\x7b\"id\":\"t1\"\x7d\x7d\x7d\n\n"

theorem foldedEvent_unseen :
    firstNonempty (((Sse.payloads foldedEvent).filterMap viewOf).map TaskView.taskID) = "t1" ∧
      (observed foldedEvent).taskID = "" := by
  decide +kernel

end McpGateway.ExtProc
