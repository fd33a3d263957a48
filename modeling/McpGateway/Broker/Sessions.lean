import McpGateway.Broker.State
import McpGateway.Routing.Effects

/-!
# Gateway sessions in the broker

The broker issues session tokens, checks them before it serves a request, forgets a session on a
DELETE, and releases what a session held once it has ended.  The tool scope of a session is part of
the broker's own state and is not touched here.
-/

namespace McpGateway.Broker

open Go Effect Session

structure HttpReply where
  status : Nat
  body : String := ""
  deriving DecidableEq, Repr

/-- `JWTManager.Generate`: a new session id, empty when it cannot be signed. -/
def generate (m : JWTManager) : Gw String := do
  let now ← op .now
  let uuid ← op .uuid
  match ← op (.sign (m.sessionClaims now uuid)) with
  | .ok token => pure token
  | .error _ => pure ""

/-- `JWTManager.Terminate`: whether ending the session is refused, which it never is. -/
def terminate (sessionID : String) : Gw (Except String Bool) := do
  match ← op (.deleteSessions [sessionID]) with
  | .error e => pure (.error ("error clearing out associated sessions : " ++ e))
  | .ok _ => pure (.ok false)

def checkSession (m : JWTManager) (sid : String) : Gw (Option HttpReply) := do
  let now ← op .now
  match m.validate now sid with
  | .error _ => pure (some ⟨404, "Invalid session ID\n"⟩)
  | .ok true => pure (some ⟨404, "Session terminated\n"⟩)
  | .ok false => pure none

def dropSession (sid : String) : Gw Unit :=
  if sid = "" then pure () else op (.dropServerSession sid)

def serveDELETE (sid : String) : Gw HttpReply := do
  match ← terminate sid with
  | .error e => pure ⟨500, "Session termination failed: " ++ e ++ "\n"⟩
  | .ok true => pure ⟨405, "Session termination not allowed\n"⟩
  | .ok false => do
    dropSession sid
    pure ⟨200, ""⟩

/-! ## The end of a session -/

def userSessionKey (gatewaySessionID serverName : String) : String :=
  gatewaySessionID ++ "/" ++ serverName

def closePoolEntry (key : String) : Gw Unit := do
  match ← op (.poolDelete key) with
  | some session => op (.closeClient session)
  | none => pure ()

def closePoolEntries : List String → Gw Unit
  | [] => pure ()
  | key :: rest => do
    closePoolEntry key
    closePoolEntries rest

def evictUserSessions (gatewaySessionID : String) : Gw Unit := do
  let keys ← op .poolKeys
  closePoolEntries (keys.filter fun k => hasPrefix k (gatewaySessionID ++ "/"))

def onGatewaySessionEnd (sessionID : String) : Gw Unit := do
  evictUserSessions sessionID
  let _ ← terminate sessionID
  pure ()

/-! ## Their protocols -/

def MintProtocol (m : JWTManager) (tr : List GwEv) : Op → Prop
  | .now | .uuid => True
  | .sign c => ∃ now uuid, Answered tr .now now ∧ c = m.sessionClaims now uuid
  | _ => False

lemma generate_obeys {m : JWTManager} : (generate m).Obeys (MintProtocol m) (fun _ _ => True) [] := by
  refine obeys_op.2 ⟨trivial, fun now => obeys_op.2 ⟨trivial, fun uuid => obeys_op.2 ⟨?_, fun res => ?_⟩⟩⟩
  · exact ⟨now, uuid, (answered_append [] .now now).mono (prefix_append _ _), rfl⟩
  · cases res <;> exact trivial

def EndProtocol (sid : String) (_ : List GwEv) : Op → Prop
  | .poolKeys | .closeClient _ | .dropServerSession _ => True
  | .poolDelete key => hasPrefix key (sid ++ "/") = true
  | .deleteSessions keys => keys = [sid]
  | _ => False

variable {sid : String} {tr : List GwEv}

lemma terminate_obeys : (terminate sid).Obeys (EndProtocol sid) (fun _ _ => True) tr := by
  refine obeys_op.2 ⟨rfl, fun res => ?_⟩
  cases res <;> exact trivial

lemma serveDELETE_obeys : (serveDELETE sid).Obeys (EndProtocol sid) (fun _ _ => True) tr := by
  refine obeys_seq terminate_obeys fun res tr' _ _ => ?_
  rcases res with e | _ | _
  · exact trivial
  · unfold dropSession
    dsimp only
    split_ifs with hsid
    · exact trivial
    · exact obeys_op.2 ⟨trivial, fun _ => trivial⟩
  · exact trivial

lemma closePoolEntry_obeys {A : List GwEv → Op → Prop} {key : String}
    (hdelete : ∀ tr, A tr (.poolDelete key)) (hclose : ∀ tr s, A tr (.closeClient s)) :
    (closePoolEntry key).Obeys A (fun _ _ => True) tr := by
  refine obeys_op.2 ⟨hdelete tr, fun res => ?_⟩
  cases res with
  | none => exact trivial
  | some session => exact ⟨hclose _ session, fun _ => trivial⟩

lemma onGatewaySessionEnd_obeys :
    (onGatewaySessionEnd sid).Obeys (EndProtocol sid) (fun _ _ => True) tr := by
  have hentries : ∀ (keys : List String) (tr : List GwEv),
      (∀ key ∈ keys, hasPrefix key (sid ++ "/") = true) →
      (closePoolEntries keys).Obeys (EndProtocol sid) (fun _ _ => True) tr := by
    intro keys
    induction keys with
    | nil => exact fun _ _ => trivial
    | cons key rest ih =>
      intro tr hkeys
      have hkey := hkeys key mem_cons_self
      refine obeys_seq (closePoolEntry_obeys (fun _ => hkey) fun _ _ => trivial) ?_
      exact fun _ tr' _ _ => ih tr' fun k hk => hkeys k (mem_cons_of_mem _ hk)
  have hevict : (evictUserSessions sid).Obeys (EndProtocol sid) (fun _ _ => True) tr := by
    refine obeys_op.2 ⟨trivial, fun keys => hentries _ _ fun key hkey => ?_⟩
    exact (mem_filter.1 hkey).2
  refine obeys_seq hevict fun _ tr' _ _ => ?_
  exact obeys_seq terminate_obeys fun _ _ _ _ => trivial

end McpGateway.Broker
