import McpGateway.Foundation.Redis
import McpGateway.Session.Cache
import McpGateway.Session.Crypto

/-!
# The session cache in Redis

The methods of `Cache` when it has a Redis client: a session's map is a hash, the flag of a client that
supports elicitation and the owner of a task id are strings.  Tokens are encrypted when the cache has a key.
A method returns an error where the command or the cipher does; the life of a key (`EXPIRE`, `PX`) is left
out, since keys do not expire here.
-/

namespace McpGateway.Session

open Go

/-- The ciphers and the key of a cache in Redis mode; without a key tokens are stored as they are. -/
structure TokenCipher where
  ciphers : Ciphers
  encryptionKey : Option Bytes

namespace TokenCipher

variable (E : TokenCipher)

def store (rand : Rand) (token : String) : Except String String :=
  match E.encryptionKey with
  | none => .ok token
  | some key => (E.ciphers.encrypt rand key token).mapError ("encrypting user token: " ++ ·)

def load (raw : String) : Except String String :=
  match E.encryptionKey with
  | none => .ok raw
  | some key => (E.ciphers.decrypt key raw).mapError ("decrypting user token: " ++ ·)

def Correct : Prop := ∀ key, E.encryptionKey = some key → key.length = 32

variable {E}

lemma load_store (hE : E.Correct) {rand : Rand} (hrand : ∀ n, ∃ bs, rand n = .ok bs) (token : String) :
    ∃ raw, E.store rand token = .ok raw ∧ E.load raw = .ok token := by
  unfold store load
  cases hkey : E.encryptionKey with
  | none => exact ⟨token, rfl, rfl⟩
  | some key =>
    obtain ⟨raw, hencrypt, hdecrypt⟩ := E.ciphers.decrypt_encrypt (hE key hkey) hrand token
    refine ⟨raw, ?_, ?_⟩
    · simp only [hencrypt, Except.mapError]
    · simp only [hdecrypt, Except.mapError]

end TokenCipher

/-! ## Methods -/

namespace RedisCache

variable (r : Redis.Keyspace)

def keyExists (key : String) : Bool :=
  r.contains key

def getSession (key : String) : Except String (GoMap String) :=
  r.hgetall key

def deleteSessions (keys : List String) : Except String Redis.Keyspace :=
  r.del (keys.flatMap fun k => [k, clientElicitationPrefix ++ k])

def addSession (key mcpServerID mcpSession : String) : Except String Redis.Keyspace :=
  r.hset key mcpServerID mcpSession

def removeServerSession (key mcpServerID : String) : Except String Redis.Keyspace :=
  r.hdel key mcpServerID

def setClientElicitation (gatewaySessionID : String) : Redis.Keyspace :=
  r.set (clientElicitationPrefix ++ gatewaySessionID) "1"

def getClientElicitation (gatewaySessionID : String) : Except String Bool := do
  match ← r.get (clientElicitationPrefix ++ gatewaySessionID) with
  | none => .ok false
  | some val => .ok (val == "1")

def setUserToken (E : TokenCipher) (rand : Rand) (sessionID serverName token : String) :
    Except String Redis.Keyspace := do
  let value ← E.store rand token
  r.hset sessionID (userTokenFieldPrefix ++ serverName) value

def deleteUserToken (sessionID serverName : String) : Except String Redis.Keyspace :=
  r.hdel sessionID (userTokenFieldPrefix ++ serverName)

/-- The stored token and what is left; one that has expired is deleted and counts as missing. -/
def getUserToken (E : TokenCipher) (now : Time) (sessionID serverName : String) :
    Except String (Option String) × Redis.Keyspace :=
  match r.hget sessionID (userTokenFieldPrefix ++ serverName) with
  | .error e => (.error e, r)
  | .ok none => (.ok none, r)
  | .ok (some raw) =>
    match E.load raw with
    | .error e => (.error e, r)
    | .ok token =>
      if checkUpstreamJWTExpiry token now then
        -- whether the deletion succeeds is not looked at
        match deleteUserToken r sessionID serverName with
        | .ok r' => (.ok none, r')
        | .error _ => (.ok none, r)
      else (.ok (some token), r)

def storeTaskRecord (agent id principal : String) : Except String (String × Bool) × Redis.Keyspace :=
  match r.setNX (Cache.taskRecordKey agent id) principal with
  | (true, r') => (.ok (principal, true), r')
  | (false, r') =>
    match r'.get (Cache.taskRecordKey agent id) with
    | .error e => (.error e, r')
    | .ok none => (.ok ("", false), r')
    | .ok (some owner) => (.ok (owner, false), r')

def lookupTaskRecord (agent id : String) : Except String (Option String) :=
  r.get (Cache.taskRecordKey agent id)

def deleteTaskRecord (agent id : String) : Except String Redis.Keyspace :=
  r.del [Cache.taskRecordKey agent id]

end RedisCache

end McpGateway.Session
