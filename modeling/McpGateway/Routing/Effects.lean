import McpGateway.Foundation.Effect
import McpGateway.Routing.Table
import McpGateway.Session.Token
import McpGateway.Upstream.Validate

/-!
# What the gateway's code calls

The operations through which the router, the response handler and the broker's per-session code
touch anything outside their own variables: the clock, the published routing table and
configuration, the session cache, the singleflight group, the two elicitation maps, the pool of
per-user upstream sessions, the upstream servers and Envoy.  Every program of the gateway is a `Gw`.
-/

namespace McpGateway

open Go Effect Config Routing

/-- An open client session with an upstream server; `id` is the upstream's session id. -/
structure ClientSession where
  handle : Nat
  id : String
  deriving DecidableEq, Repr

structure IdEntry where
  backendID : Any
  serverName : String
  sessionID : String
  gatewaySessionID : String

structure ElicitationEntry where
  sessionID : String
  serverName : String
  sub : String
  deriving DecidableEq, Repr

/-- What `singleflight.Group.Do` finds for a key: this caller runs the function, or waits for the
caller that does. -/
inductive FlightRole where
  | leader (call : Nat)
  | follower (call : Nat)
  deriving DecidableEq, Repr

/-- The answer to a forwarded request: its headers and, when it is streamed, its chunks. -/
structure Answer where
  statusCode : String
  sessionID : String
  chunks : List Bytes

inductive Op where
  | panic (p : Panic)
  | now
  | uuid
  | loadTable
  | loadConfig
  | sign (c : Session.Claims)
  | getSession (key : String)
  | addSession (key mcpServerID mcpSession : String) (ttl : Session.Duration)
  | deleteSessions (keys : List String)
  | removeServerSession (key mcpServerID : String)
  | setClientElicitation (gatewaySessionID : String) (ttl : Session.Duration)
  | getClientElicitation (gatewaySessionID : String)
  | setUserToken (sessionID serverName token : String) (ttl : Session.Duration)
  | getUserToken (sessionID serverName : String)
  | deleteUserToken (sessionID serverName : String)
  | storeTaskRecord (agent id principal : String)
  | deleteTaskRecord (agent id : String)
  | flightJoin (key : String)
  | flightWait (call : Nat)
  | flightDone (key : String) (call : Nat) (result : Except RouterError String)
  | initForClient (gatewayHost : String) (conf : MCPServer) (headers : GoMap String)
      (clientElicitation : Bool)
  | closeClient (s : ClientSession)
  | afterFunc (ttl : Session.Duration) (s : ClientSession) (sessionID : String)
  | idStore (e : IdEntry)
  | idLookup (gatewayID : String)
  | idRemove (gatewayID : String)
  | elicitationStore (e : ElicitationEntry)
  | elicitationClaim (elicitationID : String)
  | poolLoad (key : String) (headers : GoMap String)
  | poolLoadOrStore (key : String) (s : ClientSession) (headers : GoMap String)
  | poolDelete (key : String)
  | poolKeys
  | connectUser (url : String) (headers : GoMap String)
  | listTools (s : ClientSession)
  | dropServerSession (sessionID : String)
  | send (req : MCPRequest) (d : Decision)
  | awaitAnswer (req : MCPRequest) (d : Decision)

/-- The type each call answers with.  Stores that can be remote answer with an error text when they
fail; a panic has no answer. -/
@[reducible] def Op.Resp : Op → Type
  | .panic _ => Empty
  | .now => Session.Time
  | .uuid => String
  | .loadTable => Table
  | .loadConfig => MCPServersConfig
  | .sign _ => Except String String
  | .getSession _ => Except String (GoMap String)
  | .addSession .. => Except String Bool
  | .deleteSessions _ => Except String Unit
  | .removeServerSession .. => Except String Unit
  | .setClientElicitation .. => Except String Unit
  | .getClientElicitation _ => Except String Bool
  | .setUserToken .. => Except String Unit
  | .getUserToken .. => Except String (Option String)
  | .deleteUserToken .. => Except String Unit
  | .storeTaskRecord .. => Except String (String × Bool)
  | .deleteTaskRecord .. => Except String Unit
  | .flightJoin _ => FlightRole
  | .flightWait _ => Except RouterError String
  | .flightDone .. => Unit
  | .initForClient .. => Except String ClientSession
  | .closeClient _ => Unit
  | .afterFunc .. => Unit
  | .idStore _ => Except String String
  | .idLookup _ => Except String (Option IdEntry)
  | .idRemove _ => Unit
  | .elicitationStore _ => Except String String
  | .elicitationClaim _ => Except String (Option ElicitationEntry)
  | .poolLoad .. => Option ClientSession
  | .poolLoadOrStore .. => ClientSession × Bool
  | .poolDelete _ => Option ClientSession
  | .poolKeys => List String
  | .connectUser .. => Except String ClientSession
  | .listTools _ => Except String (List (Option Upstream.Tool))
  | .dropServerSession _ => Unit
  | .send .. => Unit
  | .awaitAnswer .. => Answer

@[reducible] def gatewaySig : Sig := ⟨Op, Op.Resp⟩

abbrev Gw := Prog gatewaySig

abbrev GwEv := Ev gatewaySig

def op (o : Op) : Gw o.Resp := Prog.call (S := gatewaySig) o

def panic {α : Type} (p : Panic) : Gw α :=
  Prog.vis (S := gatewaySig) (.panic p) fun e => e.elim

variable {o : Op} {tr : List GwEv} {α : Type} {f : o.Resp → Gw α}

lemma outcome_op_iff {a : α} :
    (op o >>= f).Outcome tr a ↔ ∃ r tr', tr = ⟨o, r⟩ :: tr' ∧ (f r).Outcome tr' a :=
  Prog.outcome_vis_iff

variable {A : List GwEv → Op → Prop} {Q : α → List GwEv → Prop}

lemma obeys_op :
    Prog.Obeys A Q (op o >>= f) tr ↔ A tr o ∧ ∀ r, Prog.Obeys A Q (f r) (tr ++ [⟨o, r⟩]) :=
  Iff.rfl

lemma obeys_panic
    {p : Panic} (h : A tr (.panic p)) : Prog.Obeys A Q (panic p) tr :=
  ⟨h, fun e => e.elim⟩

/-- The call `o` has been answered with `r`. -/
def Answered (tr : List GwEv) (o : Op) (r : o.Resp) : Prop :=
  (⟨o, r⟩ : GwEv) ∈ tr

lemma Answered.mono {tr' : List GwEv} {r : o.Resp} (h : Answered tr o r)
    (hp : tr <+: tr') : Answered tr' o r :=
  hp.subset h

lemma answered_append (tr : List GwEv) (o : Op) (r : o.Resp) : Answered (tr ++ [⟨o, r⟩]) o r :=
  mem_append_right _ (mem_singleton.2 rfl)

end McpGateway
