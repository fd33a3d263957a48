import McpGateway.ExtProc.HeaderFlow
import McpGateway.Foundation.Threads
import McpGateway.Gateway.World

/-!
# The gateway as a system of tasks

Everything the gateway does for its clients is a task: an exchange of the external processor, the
part of a `tools/list` request that asks one user-specific server, a token submission, a DELETE, the
end of a session, the timer that closes an upstream session, the issue of a session token, and the
recording and deletion of task owners, which the source exports and does not call yet.  The tasks run
at once over one `World`.

- `Task.Protocol` says what a task may call, `code_obeys` that its code keeps to it.
- `system` is the gateway; a client can present only tokens that the gateway has signed.
-/

namespace McpGateway

open Go Effect Routing Session ExtProc Broker

inductive Task where
  | request (client : ClientRequest)
  | listTools (srv : Broker.UserSpecificServer) (headers : Broker.HttpHeader)
  | submitToken (post : Broker.TokenPost)
  | delete (sid : String)
  | sessionEnd (sid : String)
  | expire (client : ClientSession) (sid : String)
  | mint
  | storeTaskRecord (agent id principal : String)
  | deleteTaskRecord (agent id : String)

namespace Task

def code (g : Gateway) : Task → Gw Unit
  | .request client => g.server.serve client
  | .listTools srv headers => do
    let _ ← Broker.serveToolsList srv g.jwtManager g.invalidToolPolicy headers
    pure ()
  | .submitToken post => do
    let _ ← Broker.handlePost post
    pure ()
  | .delete sid => do
    let _ ← Broker.serveDELETE sid
    pure ()
  | .sessionEnd sid => Broker.onGatewaySessionEnd sid
  | .expire client sid => Router.sessionCloser client sid
  | .mint => do
    let _ ← Broker.generate g.jwtManager
    pure ()
  | .storeTaskRecord agent id principal => do
    let _ ← op (.storeTaskRecord agent id principal)
    pure ()
  | .deleteTaskRecord agent id => do
    let _ ← op (.deleteTaskRecord agent id)
    pure ()

/-- The string a client put in the session header, or the session the task was started for. -/
def sessionID : Task → String
  | .request client => client.sessionID
  | .listTools _ headers => Broker.headerGet headers Broker.gatewaySessionHeader
  | .delete sid | .sessionEnd sid | .expire _ sid => sid
  | _ => ""

def Protocol (g : Gateway) : Task → List GwEv → Op → Prop
  | .request client => ExchangeProtocol g.signer g.server client
  | .listTools srv headers =>
    Broker.FetchProtocol g.signer srv (Broker.headerGet headers Broker.gatewaySessionHeader)
  | .submitToken _ => Broker.SubmitProtocol
  | .delete sid | .sessionEnd sid | .expire _ sid => Broker.EndProtocol sid
  | .mint => Broker.MintProtocol g.jwtManager
  | .storeTaskRecord agent id principal => fun _ o => o = .storeTaskRecord agent id principal
  | .deleteTaskRecord agent id => fun _ o => o = .deleteTaskRecord agent id

lemma code_obeys (g : Gateway) (task : Task) :
    (task.code g).Obeys (task.Protocol g) (fun _ _ => True) [] := by
  have hsigner : ∀ m, some g.jwtManager = some m → m.signer = g.signer := by
    intro m hm
    cases hm
    rfl
  cases task with
  | request client => exact serve_obeys hsigner hsigner
  | listTools srv headers => exact obeys_seq serveToolsList_obeys fun _ _ _ _ => trivial
  | submitToken post => exact obeys_seq handlePost_obeys fun _ _ _ _ => trivial
  | delete sid => exact obeys_seq serveDELETE_obeys fun _ _ _ _ => trivial
  | sessionEnd sid => exact onGatewaySessionEnd_obeys
  | expire client sid =>
    exact obeys_op.2 ⟨trivial, fun _ => obeys_op.2 ⟨rfl, fun _ => trivial⟩⟩
  | mint => exact obeys_seq generate_obeys fun _ _ _ _ => trivial
  | storeTaskRecord | deleteTaskRecord => exact obeys_op.2 ⟨rfl, fun _ => trivial⟩

end Task

abbrev GwConfig := Config gatewaySig Task World

abbrev GwThread := Thread gatewaySig Task

namespace Gateway

variable (g : Gateway)

/-- Which tasks can be started.  Signatures cannot be forged: what a client presents as a token of
the gateway has claims that the gateway has signed.  A timer runs once its time has come. -/
def Starts (c : GwConfig) : Task → Prop
  | .request client => ∀ h ∈ client.headers, ∀ claims, g.signer.verify h.2 = some claims →
      ∃ token, System.Happened c (fun _ => True) ⟨.sign claims, .ok token⟩
  | .expire client sid => ∃ due, (due, client, sid) ∈ c.world.timers ∧ due ≤ c.world.now
  | _ => True

def system : System gatewaySig Task World where
  code := Task.code g
  Init := World.Fresh
  Answers := World.Answers g
  Env := World.Env
  Starts := g.Starts

/-! ## A small gateway -/

def demoSigner : Signer where
  verify t :=
    if t = sessionJWT then
      some { issuer, audience := [sessionAudience], expiresAt := some 60, notBefore := some 0,
             issuedAt := some 0, id := "1" }
    else if t = "b1" then some (JWTManager.backendInitClaims "weather.svc" 0 "2")
    else none
  verify_compact h := by
    split_ifs at h with hs hb
    · subst hs
      decide
    · subst hb
      decide
  verify_empty := rfl

def demoGateway : Gateway where
  jwtManager := ⟨demoSigner, 60 * second⟩
  elicitationEnabled := true
  maxRequestBodySize := 0
  a2aBroker := none
  invalidToolPolicy := .filterOut
  elicitationTTL := 60 * second

end Gateway

end McpGateway
