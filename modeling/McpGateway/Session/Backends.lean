import McpGateway.Session.RedisCache

/-!
# The two backends of the cache

The cache works on a map in memory or on Redis, and the same calls are to have the same answers.  In memory
a session's map stays when its last field is removed; in Redis the hash is gone.
-/

namespace McpGateway.Session

open Go Redis.Keyspace Cache RedisCache

def Colonless (s : String) : Prop := ':' ∉ s.toList

instance (s : String) : Decidable (Colonless s) := inferInstanceAs (Decidable (':' ∉ s.toList))

/-! ## Calls -/

/-- A call on the session cache. -/
inductive CacheOp where
  | addSession (key mcpServerID mcpSession : String)
  | removeServerSession (key mcpServerID : String)
  /-- with the random bytes that are drawn when the token is encrypted -/
  | setUserToken (sessionID serverName token : String) (rand : Rand)
  | getUserToken (now : Time) (sessionID serverName : String)
  | deleteUserToken (sessionID serverName : String)
  | setClientElicitation (gatewaySessionID : String)
  | deleteSessions (keys : List String)
  | storeTaskRecord (agent id principal : String)
  | deleteTaskRecord (agent id : String)

namespace CacheOp

/-- The session ids and server names of the call have no colon, and random bytes can be drawn. -/
def Proper : CacheOp → Prop
  | .addSession key S _ | .removeServerSession key S | .getUserToken _ key S | .deleteUserToken key S =>
    Colonless key ∧ Colonless S
  | .setUserToken sid S _ rand => Colonless sid ∧ Colonless S ∧ ∀ n, ∃ bs, rand n = .ok bs
  | .setClientElicitation sid => Colonless sid
  | .deleteSessions keys => ∀ k ∈ keys, Colonless k
  | .storeTaskRecord .. | .deleteTaskRecord .. => True

def inMemory (c : Cache) : CacheOp → Except Panic Cache
  | .addSession key S u => c.addSession key S u
  | .removeServerSession key S => c.removeServerSession key S
  | .setUserToken sid S token _ => c.setUserToken sid S token
  | .getUserToken now sid S => do
    let (_, c') ← c.getUserToken now sid S
    .ok c'
  | .deleteUserToken sid S => c.deleteUserToken sid S
  | .setClientElicitation sid => .ok (c.setClientElicitation sid)
  | .deleteSessions keys => .ok (c.deleteSessions keys)
  | .storeTaskRecord agent id principal => do
    let (_, c') ← c.storeTaskRecord agent id principal
    .ok c'
  | .deleteTaskRecord agent id => .ok (c.deleteTaskRecord agent id)

def afterwards (r : Redis.Keyspace) : Except String Redis.Keyspace → Redis.Keyspace
  | .ok r' => r'
  | .error _ => r

def redis (E : TokenCipher) (r : Redis.Keyspace) : CacheOp → Redis.Keyspace
  | .addSession key S u => afterwards r (RedisCache.addSession r key S u)
  | .removeServerSession key S => afterwards r (RedisCache.removeServerSession r key S)
  | .setUserToken sid S token rand => afterwards r (RedisCache.setUserToken r E rand sid S token)
  | .getUserToken now sid S => (RedisCache.getUserToken r E now sid S).2
  | .deleteUserToken sid S => afterwards r (RedisCache.deleteUserToken r sid S)
  | .setClientElicitation sid => RedisCache.setClientElicitation r sid
  | .deleteSessions keys => afterwards r (RedisCache.deleteSessions r keys)
  | .storeTaskRecord agent id principal => (RedisCache.storeTaskRecord r agent id principal).2
  | .deleteTaskRecord agent id => afterwards r (RedisCache.deleteTaskRecord r agent id)

end CacheOp

def inMemoryRun (ops : List CacheOp) : Except Panic Cache := ops.foldlM CacheOp.inMemory ∅

def redisRun (E : TokenCipher) (ops : List CacheOp) : Redis.Keyspace :=
  ops.foldl (CacheOp.redis E) Redis.Keyspace.empty

/-! ## Related states -/

inductive Kind where
  | session
  | flag
  | owner
  deriving DecidableEq

def kindOf (key : String) : Kind :=
  if hasPrefix key clientElicitationPrefix then .flag
  else if hasPrefix key taskRecordPrefix then .owner
  else .session

def CacheValue.kind : CacheValue → Kind
  | .session _ => .session
  | .flag => .flag
  | .owner _ => .owner

/-- Redis has a user token encrypted, every other value as it is. -/
def FieldAgrees (E : TokenCipher) (f : String) : Option String → Option String → Prop
  | none, none => True
  | some v, some raw => if hasPrefix f userTokenFieldPrefix then E.load raw = .ok v else raw = v
  | _, _ => False

def EntryAgrees (E : TokenCipher) (r : Redis.Keyspace) (key : String) : Option CacheValue → Prop
  | none => r.value key = none
  | some (.session m) =>
    ∃ h, r.hgetall key = .ok h ∧ ∀ f, FieldAgrees E f (m.lookup f) (h.lookup f)
  | some .flag => r.value key = some (.string "1")
  | some (.owner p) => r.value key = some (.string p)

/-- Redis holds what the memory holds. -/
structure Simulates (E : TokenCipher) (c : Cache) (r : Redis.Keyspace) : Prop where
  entries : ∀ key, EntryAgrees E r key (c.lookup key)
  typed : ∀ key v, c.lookup key = some v → v.kind = kindOf key

variable {E : TokenCipher} {c c' : Cache} {r r' : Redis.Keyspace} {key f v : String}

lemma Colonless.not_hasPrefix {s p : String} (h : Colonless s) (hp : ':' ∈ p.toList) :
    hasPrefix s p = false := by
  rw [Bool.eq_false_iff, Ne, hasPrefix_iff]
  exact fun hpre => h (hpre.subset hp)

lemma Colonless.kindOf {s : String} (h : Colonless s) : Session.kindOf s = .session := by
  unfold Session.kindOf
  rw [h.not_hasPrefix (by decide), h.not_hasPrefix (by decide)]
  rfl

lemma kindOf_flag (sid : String) : kindOf (clientElicitationPrefix ++ sid) = .flag := by
  rw [kindOf, hasPrefix_append, if_pos rfl]

lemma kindOf_owner (agent id : String) : kindOf (taskRecordKey agent id) = .owner := by
  have hflag : hasPrefix (taskRecordKey agent id) clientElicitationPrefix = false := by
    rw [Bool.eq_false_iff, Ne, hasPrefix_iff]
    simp [taskRecordKey, taskRecordPrefix, clientElicitationPrefix]
  have howner : hasPrefix (taskRecordKey agent id) taskRecordPrefix = true := by
    rw [taskRecordKey, String.append_assoc, String.append_assoc, hasPrefix_append]
  rw [kindOf, hflag, howner]
  rfl

lemma EntryAgrees.congr {e : Option CacheValue} (h : EntryAgrees E r key e)
    (hsame : r'.value key = r.value key) : EntryAgrees E r' key e := by
  rcases e with _ | m | _ | p
  · exact hsame.trans h
  · obtain ⟨m', hm', hf⟩ := h
    exact ⟨m', (hgetall_congr hsame).trans hm', hf⟩
  · exact hsame.trans h
  · exact hsame.trans h

namespace Simulates

lemma init : Simulates E ∅ empty where
  entries _ := rfl
  typed key v hv := by cases hv

variable (h : Simulates E c r)

include h

lemma update (key : String) (e : Option CacheValue)
    (hkey : EntryAgrees E r' key e) (hkind : ∀ v, e = some v → v.kind = kindOf key)
    (hmem : ∀ k, c'.lookup k = if k = key then e else c.lookup k)
    (hredis : ∀ k, k ≠ key → r'.value k = r.value k) : Simulates E c' r' where
  entries k := by
    rw [hmem]
    split_ifs with hk
    · subst hk
      exact hkey
    · exact (h.entries k).congr (hredis k hk)
  typed k w hw := by
    rw [hmem] at hw
    split_ifs at hw with hk
    · subst hk
      exact hkind w hw
    · exact h.typed k w hw

lemma session (hkey : Colonless key) : ∃ m hash, c.sessionMap key = .ok m ∧
    r.hgetall key = .ok hash ∧ ∀ f, FieldAgrees E f ((m.getD ∅).lookup f) (hash.lookup f) := by
  have hentry := h.entries key
  have htyped := h.typed key
  unfold sessionMap
  cases hlookup : c.lookup key with
  | none =>
    rw [hlookup] at hentry
    refine ⟨none, ∅, rfl, ?_, fun f => trivial⟩
    rw [hgetall, show r.value key = none from hentry]
  | some e =>
    rw [hlookup] at hentry
    have hkind := htyped e hlookup
    rw [hkey.kindOf] at hkind
    cases e with
    | session m =>
      obtain ⟨hash, hhash, hfields⟩ := hentry
      exact ⟨some m, hash, rfl, hhash, hfields⟩
    | flag => cases hkind
    | owner p => cases hkind

lemma setField (hkey : Colonless key) {raw : String}
    (hfield : FieldAgrees E f (some v) (some raw)) :
    ∃ c' r', c.setField key f v = .ok c' ∧ r.hset key f raw = .ok r' ∧ Simulates E c' r' := by
  obtain ⟨m, hash, hm, hhash, hfields⟩ := h.session hkey
  obtain ⟨r', hset, hhash', hother⟩ := Redis.Keyspace.hset_spec (f := f) (v := raw) hhash
  refine ⟨AList.insert key (.session (AList.insert f v (m.getD ∅))) c, r', ?_, hset, ?_⟩
  · simp only [Cache.setField, hm, bind, Except.bind]
  · refine h.update key (some (.session (AList.insert f v (m.getD ∅)))) ⟨_, hhash', ?_⟩ ?_
      (fun k => lookup_insert ..) hother
    · intro g
      rw [lookup_insert, lookup_insert]
      split_ifs with hg
      · subst hg
        exact hfield
      · exact hfields g
    · intro w hw
      cases hw
      exact hkey.kindOf.symm

lemma deleteField (hkey : Colonless key) (f : String) :
    ∃ c' r', c.deleteField key f = .ok c' ∧ r.hdel key f = .ok r' ∧ Simulates E c' r' := by
  obtain ⟨m, hash, hm, hhash, hfields⟩ := h.session hkey
  obtain ⟨r', hdel, hhash', hother⟩ := Redis.Keyspace.hdel_spec (f := f) hhash
  have hlookup := Cache.sessionMap_cases hm
  cases m with
  | none =>
    refine ⟨c, r', by simp only [Cache.deleteField, hm, bind, Except.bind], hdel, ?_⟩
    refine h.update key none ?_ (fun v hv => by cases hv) (fun k => ?_) hother
    · -- the key was missing and is missing
      have hmissing : r.value key = none := by
        have hentry := h.entries key
        rw [hlookup] at hentry
        exact hentry
      have hempty : hash = ∅ := by
        rw [Redis.Keyspace.hgetall, hmissing] at hhash
        exact (Except.ok.inj hhash).symm
      have hgone : ¬ r'.contains key = true := by
        rw [Redis.Keyspace.contains_iff hhash', hempty]
        exact fun hne => hne rfl
      change r'.value key = none
      simpa [Redis.Keyspace.contains] using hgone
    · split_ifs with hk
      · rw [hk]
        exact hlookup
      · rfl
  | some m =>
    refine ⟨AList.insert key (.session (AList.erase f m)) c, r', ?_, hdel, ?_⟩
    · simp only [Cache.deleteField, hm, bind, Except.bind]
    · refine h.update key (some (.session (AList.erase f m))) ⟨_, hhash', ?_⟩ ?_
        (fun k => lookup_insert ..) hother
      · intro g
        rw [lookup_erase, lookup_erase]
        split_ifs with hg
        · trivial
        · exact hfields g
      · intro w hw
        cases hw
        exact hkey.kindOf.symm

lemma string {e : CacheValue} {s : String} (hkind : e.kind = kindOf key)
    (hvalue : ∀ r' : Redis.Keyspace, r'.value key = some (.string s) → EntryAgrees E r' key (some e)) :
    Simulates E (AList.insert key e c) (r.set key s) := by
  refine h.update key (some e) (hvalue _ ?_) ?_ (fun k => lookup_insert ..) ?_
  · exact value_set.trans (if_pos rfl)
  · intro w hw
    cases hw
    exact hkind
  · intro k hk
    exact value_set.trans (if_neg hk)

lemma deleteSessions (keys : List String) :
    Simulates E (c.deleteSessions keys) (CacheOp.afterwards r (RedisCache.deleteSessions r keys)) := by
  have hvalue : ∀ k, (CacheOp.afterwards r (RedisCache.deleteSessions r keys)).value k =
      if ∃ key ∈ keys, k = key ∨ k = clientElicitationPrefix ++ key then none else r.value k := by
    intro k
    cases keys with
    | nil => simp [RedisCache.deleteSessions, Redis.Keyspace.del, CacheOp.afterwards]
    | cons key keys =>
      rw [RedisCache.deleteSessions, flatMap_cons, cons_append]
      refine (Redis.Keyspace.value_drops _).trans (if_congr ?_ rfl rfl)
      simp [or_assoc]
  constructor
  · intro k
    rw [Cache.lookup_deleteSessions]
    split_ifs with hk
    · exact (hvalue k).trans (if_pos hk)
    · exact (h.entries k).congr ((hvalue k).trans (if_neg hk))
  · intro k w hw
    rw [Cache.lookup_deleteSessions] at hw
    split_ifs at hw
    exact h.typed k w hw

lemma owner (agent id : String) :
    ∃ o, c.ownerValue (Cache.taskRecordKey agent id) = .ok o ∧ r.get (Cache.taskRecordKey agent id) = .ok o ∧
      r.contains (Cache.taskRecordKey agent id) = o.isSome := by
  have hentry := h.entries (Cache.taskRecordKey agent id)
  have htyped := h.typed (Cache.taskRecordKey agent id)
  unfold Cache.ownerValue Redis.Keyspace.get Redis.Keyspace.contains
  cases hlookup : c.lookup (Cache.taskRecordKey agent id) with
  | none =>
    rw [hlookup] at hentry
    rw [show r.value _ = none from hentry]
    exact ⟨none, rfl, rfl, rfl⟩
  | some e =>
    rw [hlookup] at hentry
    have hkind := htyped e hlookup
    rw [kindOf_owner] at hkind
    cases e with
    | owner p =>
      rw [show r.value _ = some (.string p) from hentry]
      exact ⟨some p, rfl, rfl, rfl⟩
    | session m => cases hkind
    | flag => cases hkind

lemma storeTaskRecord (agent id principal : String) :
    ∃ res c', c.storeTaskRecord agent id principal = .ok (res, c') ∧
      (RedisCache.storeTaskRecord r agent id principal).1 = .ok res ∧
      Simulates E c' (RedisCache.storeTaskRecord r agent id principal).2 := by
  obtain ⟨o, howner, hget, hcontains⟩ := h.owner agent id
  unfold Cache.storeTaskRecord RedisCache.storeTaskRecord Redis.Keyspace.setNX
  rw [howner, hcontains]
  cases o with
  | none =>
    refine ⟨_, _, rfl, rfl, h.string (kindOf_owner agent id).symm fun r' hr' => hr'⟩
  | some p =>
    simp only [Option.isSome_some, if_true, hget]
    exact ⟨_, _, rfl, rfl, h⟩

lemma deleteTaskRecord (agent id : String) :
    Simulates E (c.deleteTaskRecord agent id)
      (CacheOp.afterwards r (deleteTaskRecord r agent id)) := by
  refine h.update (taskRecordKey agent id) none ?_ (fun v hv => by cases hv)
    (fun k => lookup_erase ..) ?_
  · exact value_drop.trans (if_pos rfl)
  · intro k hk
    exact value_drop.trans (if_neg hk)

lemma getUserToken {sid : String} (hsid : Colonless sid) (now : Time) (S : String) :
    ∃ answer c', c.getUserToken now sid S = .ok (answer, c') ∧
      (RedisCache.getUserToken r E now sid S).1 = .ok answer ∧
      Simulates E c' (RedisCache.getUserToken r E now sid S).2 := by
  obtain ⟨m, hash, hm, hhash, hfields⟩ := h.session hsid
  have hfield := hfields (userTokenFieldPrefix ++ S)
  unfold Cache.getUserToken Cache.getSession RedisCache.getUserToken Redis.Keyspace.hget
  simp only [hm, hhash, bind, Except.bind]
  cases htoken : (m.getD ∅).lookup (userTokenFieldPrefix ++ S) with
  | none =>
    cases hraw : hash.lookup (userTokenFieldPrefix ++ S) with
    | none => exact ⟨none, c, rfl, rfl, h⟩
    | some raw =>
      rw [htoken, hraw] at hfield
      exact hfield.elim
  | some token =>
    cases hraw : hash.lookup (userTokenFieldPrefix ++ S) with
    | none =>
      rw [htoken, hraw] at hfield
      exact hfield.elim
    | some raw =>
      have hload : E.load raw = .ok token := by
        rw [htoken, hraw] at hfield
        simpa [FieldAgrees] using hfield
      simp only [hload]
      split_ifs with hexpired
      · obtain ⟨c', r', hc', hr', hsim⟩ := h.deleteField hsid (userTokenFieldPrefix ++ S)
        simp only [Cache.deleteUserToken, RedisCache.deleteUserToken, hc', hr']
        exact ⟨none, c', rfl, rfl, hsim⟩
      · exact ⟨some token, c, rfl, rfl, h⟩

end Simulates

variable {op : CacheOp}

lemma simulates_step (hE : E.Correct) (h : Simulates E c r) (hop : op.Proper) :
    ∃ c', op.inMemory c = .ok c' ∧ Simulates E c' (op.redis E r) := by
  cases op with
  | addSession key S u =>
    have hfield : FieldAgrees E S (some u) (some u) := by
      simp [FieldAgrees, hop.2.not_hasPrefix (p := userTokenFieldPrefix) (by decide)]
    obtain ⟨c', r', hc', hr', hsim⟩ := h.setField hop.1 hfield
    refine ⟨c', hc', ?_⟩
    simp only [CacheOp.redis, RedisCache.addSession, hr', CacheOp.afterwards]
    exact hsim
  | removeServerSession key S =>
    obtain ⟨c', r', hc', hr', hsim⟩ := h.deleteField hop.1 S
    refine ⟨c', hc', ?_⟩
    simp only [CacheOp.redis, RedisCache.removeServerSession, hr', CacheOp.afterwards]
    exact hsim
  | setUserToken sid S token rand =>
    obtain ⟨hsid, -, hrand⟩ := hop
    obtain ⟨raw, hstore, hload⟩ := TokenCipher.load_store hE hrand token
    have hfield : FieldAgrees E (userTokenFieldPrefix ++ S) (some token) (some raw) := by
      simpa [FieldAgrees] using hload
    obtain ⟨c', r', hc', hr', hsim⟩ := h.setField hsid hfield
    refine ⟨c', hc', ?_⟩
    simp only [CacheOp.redis, RedisCache.setUserToken, hstore, bind, Except.bind, hr', CacheOp.afterwards]
    exact hsim
  | getUserToken now sid S =>
    obtain ⟨answer, c', hc', -, hsim⟩ := h.getUserToken hop.1 now S
    refine ⟨c', ?_, hsim⟩
    simp only [CacheOp.inMemory, hc', bind, Except.bind]
  | deleteUserToken sid S =>
    obtain ⟨c', r', hc', hr', hsim⟩ := h.deleteField hop.1 (userTokenFieldPrefix ++ S)
    refine ⟨c', hc', ?_⟩
    simp only [CacheOp.redis, RedisCache.deleteUserToken, hr', CacheOp.afterwards]
    exact hsim
  | setClientElicitation sid =>
    exact ⟨_, rfl, h.string (kindOf_flag sid).symm fun r' hr' => hr'⟩
  | deleteSessions keys => exact ⟨_, rfl, h.deleteSessions keys⟩
  | storeTaskRecord agent id principal =>
    obtain ⟨res, c', hc', -, hsim⟩ := h.storeTaskRecord agent id principal
    refine ⟨c', ?_, hsim⟩
    simp only [CacheOp.inMemory, hc', bind, Except.bind]
  | deleteTaskRecord agent id => exact ⟨_, rfl, h.deleteTaskRecord agent id⟩

lemma inMemoryRun_snoc {ops : List CacheOp} (h : inMemoryRun ops = .ok c) :
    inMemoryRun (ops ++ [op]) = op.inMemory c := by
  rw [inMemoryRun, List.foldlM_append, show List.foldlM CacheOp.inMemory ∅ ops = .ok c from h]
  change (op.inMemory c >>= pure) = op.inMemory c
  exact bind_pure _

lemma redisRun_snoc (ops : List CacheOp) (op : CacheOp) :
    redisRun E (ops ++ [op]) = op.redis E (redisRun E ops) := by
  simp [redisRun]

lemma simulates_run (hE : E.Correct) {ops : List CacheOp} (hops : ∀ op ∈ ops, op.Proper) :
    ∃ c, inMemoryRun ops = .ok c ∧ Simulates E c (redisRun E ops) := by
  induction ops using List.reverseRecOn with
  | nil => exact ⟨∅, rfl, .init⟩
  | append_singleton ops op ih =>
    rw [List.forall_mem_append] at hops
    obtain ⟨c, hc, hsim⟩ := ih hops.1
    obtain ⟨c', hc', hsim'⟩ := simulates_step hE hsim (hops.2 op mem_cons_self)
    refine ⟨c', (inMemoryRun_snoc hc).trans hc', ?_⟩
    rw [redisRun_snoc]
    exact hsim'

/-! ## Answers -/

/-- The same answers, but for `KeyExists`. -/
structure Agrees (E : TokenCipher) (c : Cache) (r : Redis.Keyspace) : Prop where
  /-- every upstream session id of a session -/
  sessions : ∀ key, Colonless key → ∃ m hash, c.getSession key = .ok m ∧
    RedisCache.getSession r key = .ok hash ∧
    ∀ f, hasPrefix f userTokenFieldPrefix = false → m.lookup f = hash.lookup f
  tokens : ∀ now sid S, Colonless sid → Colonless S → ∃ answer c',
    c.getUserToken now sid S = .ok (answer, c') ∧ (RedisCache.getUserToken r E now sid S).1 = .ok answer
  elicitation : ∀ sid, Colonless sid →
    RedisCache.getClientElicitation r sid = .ok (c.getClientElicitation sid)
  records : ∀ agent id, ∃ owner, c.lookupTaskRecord agent id = .ok owner ∧
    RedisCache.lookupTaskRecord r agent id = .ok owner

lemma Simulates.agrees (h : Simulates E c r) : Agrees E c r where
  sessions key hkey := by
    obtain ⟨m, hash, hm, hhash, hfields⟩ := h.session hkey
    refine ⟨m.getD ∅, hash, by simp only [Cache.getSession, hm, bind, Except.bind], hhash, ?_⟩
    intro f hf
    have hfield := hfields f
    cases hv : (m.getD ∅).lookup f with
    | none =>
      cases hraw : hash.lookup f with
      | none => rfl
      | some raw =>
        rw [hv, hraw] at hfield
        exact hfield.elim
    | some v =>
      cases hraw : hash.lookup f with
      | none =>
        rw [hv, hraw] at hfield
        exact hfield.elim
      | some raw =>
        rw [hv, hraw] at hfield
        simp only [FieldAgrees, hf] at hfield
        exact congrArg some hfield.symm
  tokens now sid S hsid _ := by
    obtain ⟨answer, c', hc', hr', -⟩ := h.getUserToken hsid now S
    exact ⟨answer, c', hc', hr'⟩
  elicitation sid _ := by
    -- a key with this prefix holds a flag, which Redis has as the string "1"
    have hentry := h.entries (clientElicitationPrefix ++ sid)
    have htyped := h.typed (clientElicitationPrefix ++ sid)
    unfold RedisCache.getClientElicitation Redis.Keyspace.get Cache.getClientElicitation
    cases hlookup : c.lookup (clientElicitationPrefix ++ sid) with
    | none =>
      rw [hlookup] at hentry
      rw [show r.value _ = none from hentry]
      rfl
    | some e =>
      rw [hlookup] at hentry
      have hkind := htyped e hlookup
      rw [kindOf_flag] at hkind
      cases e with
      | flag =>
        rw [show r.value _ = some (.string "1") from hentry]
        rfl
      | session m => cases hkind
      | owner p => cases hkind
  records agent id := by
    obtain ⟨o, howner, hget, -⟩ := h.owner agent id
    exact ⟨o, howner, hget⟩

/-! ## Existing keys -/

def CacheOp.Removes (c : Cache) : CacheOp → String → String → Prop
  | .removeServerSession key S, k, f => k = key ∧ f = S
  | .deleteUserToken sid S, k, f => k = sid ∧ f = userTokenFieldPrefix ++ S
  | .getUserToken now sid S, k, f => k = sid ∧ f = userTokenFieldPrefix ++ S ∧
      -- a token that is found expired
      ∃ token, c.field sid f = some token ∧ checkUpstreamJWTExpiry token now = true
  | _, _, _ => False

/-- The call does not remove the last field of a session. -/
def CacheOp.KeepsField (c : Cache) (op : CacheOp) : Prop :=
  ∀ key f, op.Removes c key f → ∀ m, c.lookup key = some (.session m) → ∃ g, g ≠ f ∧ (m.lookup g).isSome

def SameKeys (c : Cache) (r : Redis.Keyspace) : Prop :=
  ∀ key, c.keyExists key = RedisCache.keyExists r key

def NoEmptyMap (c : Cache) : Prop := ∀ key m, c.lookup key = some (.session m) → m.entries ≠ []

lemma entries_ne_nil_iff {m : GoMap String} : m.entries ≠ [] ↔ ∃ f, (m.lookup f).isSome := by
  constructor
  · intro h
    obtain ⟨⟨f, v⟩, hmem⟩ := List.exists_mem_of_ne_nil _ h
    exact ⟨f, by rw [AList.mem_lookup_iff.2 hmem]; rfl⟩
  · rintro ⟨f, hf⟩ hnil
    obtain ⟨v, hv⟩ := isSome_iff_exists.1 hf
    have hmem := AList.mem_lookup_iff.1 hv
    rw [hnil] at hmem
    cases hmem

lemma Simulates.sameKeys_iff (h : Simulates E c r) : SameKeys c r ↔ NoEmptyMap c := by
  -- the fields of related maps are the same
  have hfields : ∀ {m hash : GoMap String}, (∀ f, FieldAgrees E f (m.lookup f) (hash.lookup f)) →
      (m.entries ≠ [] ↔ hash.entries ≠ []) := by
    intro m hash hagree
    rw [entries_ne_nil_iff, entries_ne_nil_iff]
    refine exists_congr fun f => ?_
    have hf := hagree f
    cases hv : m.lookup f <;> cases hraw : hash.lookup f <;> rw [hv, hraw] at hf <;>
      simp [FieldAgrees] at hf ⊢
  constructor
  · intro hsame key m hm
    have hentry := h.entries key
    rw [hm] at hentry
    obtain ⟨hash, hhash, hagree⟩ := hentry
    have hexists : r.contains key = true := by
      rw [← show c.keyExists key = r.contains key from hsame key, Cache.keyExists, hm]
      rfl
    exact (hfields hagree).2 ((Redis.Keyspace.contains_iff hhash).1 hexists)
  · intro hfull key
    have hentry := h.entries key
    unfold Cache.keyExists RedisCache.keyExists
    cases hlookup : c.lookup key with
    | none =>
      rw [hlookup] at hentry
      rw [Redis.Keyspace.contains, show r.value key = none from hentry]
      rfl
    | some e =>
      rw [hlookup] at hentry
      symm
      cases e with
      | session m =>
        obtain ⟨hash, hhash, hagree⟩ := hentry
        exact (Redis.Keyspace.contains_iff hhash).2 ((hfields hagree).1 (hfull key m hlookup))
      | flag | owner p =>
        rw [Redis.Keyspace.contains, show r.value key = _ from hentry]
        rfl

lemma NoEmptyMap.init : NoEmptyMap ∅ := fun key m hm => by cases hm

lemma NoEmptyMap.mono (h : NoEmptyMap c)
    (hold : ∀ key m, c'.lookup key = some (.session m) → c.lookup key = some (.session m)) :
    NoEmptyMap c' := fun key m hm => h key m (hold key m hm)

lemma NoEmptyMap.setField (h : NoEmptyMap c) (hset : c.setField key f v = .ok c') : NoEmptyMap c' := by
  obtain ⟨m, -, rfl⟩ := setField_cases hset
  intro k m' hm'
  rw [lookup_insert] at hm'
  split_ifs at hm' with hk
  · cases hm'
    exact List.cons_ne_nil _ _
  · exact h k m' hm'

lemma NoEmptyMap.deleteField_iff (h : NoEmptyMap c) (hdelete : c.deleteField key f = .ok c') :
    NoEmptyMap c' ↔ ∀ m, c.lookup key = some (.session m) → ∃ g, g ≠ f ∧ (m.lookup g).isSome := by
  rcases deleteField_cases hdelete with ⟨hnone, rfl⟩ | ⟨m, hm, rfl⟩
  · refine iff_of_true h ?_
    intro m hm
    rw [hnone] at hm
    cases hm
  · have herased : (AList.erase f m).entries ≠ [] ↔ ∃ g, g ≠ f ∧ (m.lookup g).isSome := by
      rw [entries_ne_nil_iff]
      refine exists_congr fun g => ?_
      rw [lookup_erase]
      split_ifs with hg
      · simp [hg]
      · simp [hg]
    constructor
    · intro hfull m' hm'
      rw [hm] at hm'
      cases hm'
      exact herased.1 (hfull key _ ((lookup_insert ..).trans (if_pos rfl)))
    · intro hother k m' hm'
      rw [lookup_insert] at hm'
      split_ifs at hm' with hk
      · cases hm'
        exact herased.2 (hother m hm)
      · exact h k m' hm'

lemma NoEmptyMap.step_iff (h : NoEmptyMap c) (hop : op.inMemory c = .ok c') :
    NoEmptyMap c' ↔ op.KeepsField c := by
  cases op with
  | addSession | setUserToken =>
    exact iff_of_true (h.setField hop) fun _ _ hremoves => hremoves.elim
  | removeServerSession key S | deleteUserToken key S =>
    rw [h.deleteField_iff hop]
    constructor
    · rintro hkeeps _ _ ⟨rfl, rfl⟩
      exact hkeeps
    · intro hkeeps
      exact hkeeps key _ ⟨rfl, rfl⟩
  | getUserToken now sid S =>
    cases hread : c.getUserToken now sid S with
    | error e => simp [CacheOp.inMemory, hread, bind, Except.bind] at hop
    | ok res =>
      simp only [CacheOp.inMemory, hread, bind, Except.bind] at hop
      cases hop
      -- reading an expired token deletes its field
      rcases Cache.getUserToken_cases hread with ⟨⟨hsame, hlive⟩, -⟩ | ⟨-, hdelete, hstored⟩
      · rw [hsame]
        refine iff_of_true h ?_
        rintro _ _ ⟨rfl, rfl, token, htoken, hexpired⟩
        cases (hlive token htoken).symm.trans hexpired
      · rw [h.deleteField_iff hdelete]
        constructor
        · rintro hkeeps _ _ ⟨rfl, rfl, -⟩
          exact hkeeps
        · intro hkeeps
          exact hkeeps sid _ ⟨rfl, rfl, hstored⟩
  | setClientElicitation sid =>
    cases hop
    refine iff_of_true (h.mono fun key m hm => ?_) fun _ _ hremoves => hremoves.elim
    rw [Cache.setClientElicitation, lookup_insert] at hm
    split_ifs at hm
    · cases hm
    · exact hm
  | deleteSessions keys =>
    cases hop
    refine iff_of_true (h.mono fun key m hm => ?_) fun _ _ hremoves => hremoves.elim
    rw [Cache.lookup_deleteSessions] at hm
    split_ifs at hm
    exact hm
  | storeTaskRecord agent id principal =>
    cases hstore : c.storeTaskRecord agent id principal with
    | error e => simp [CacheOp.inMemory, hstore, bind, Except.bind] at hop
    | ok res =>
      simp only [CacheOp.inMemory, hstore, bind, Except.bind] at hop
      cases hop
      refine iff_of_true (h.mono fun key m hm => ?_) fun _ _ hremoves => hremoves.elim
      rcases Cache.storeTaskRecord_cases hstore with hsame | ⟨-, hinsert⟩
      · rw [← hsame]
        exact hm
      · rw [hinsert, lookup_insert] at hm
        split_ifs at hm
        · cases hm
        · exact hm
  | deleteTaskRecord agent id =>
    cases hop
    refine iff_of_true (h.mono fun key m hm => ?_) fun _ _ hremoves => hremoves.elim
    rw [Cache.deleteTaskRecord, lookup_erase] at hm
    split_ifs at hm
    exact hm

/-! ## Agreement -/

/-- Over every sequence of calls the answers agree, and `KeyExists` agrees at each point of the sequence
exactly when no call removes the last field of a session's map. -/
theorem backends_agree (E : TokenCipher) (hE : E.Correct) (ops : List CacheOp) (hops : ∀ op ∈ ops, op.Proper) :
    (∃ c, inMemoryRun ops = .ok c ∧ Agrees E c (redisRun E ops)) ∧
    ((∀ pre, pre <+: ops → ∀ c, inMemoryRun pre = .ok c → SameKeys c (redisRun E pre)) ↔
      ∀ pre op, pre ++ [op] <+: ops → ∀ c, inMemoryRun pre = .ok c → op.KeepsField c) := by
  have hrun : ∀ pre, pre <+: ops → ∃ c, inMemoryRun pre = .ok c ∧ Simulates E c (redisRun E pre) :=
    fun pre hpre => simulates_run hE fun op hop => hops op (hpre.subset hop)
  constructor
  · obtain ⟨c, hc, hsim⟩ := hrun ops List.prefix_rfl
    exact ⟨c, hc, hsim.agrees⟩
  · constructor
    · -- the keys agree before the call and after it
      intro hsame pre op hpre c hc
      have hbefore : pre <+: ops := (List.prefix_append _ _).trans hpre
      obtain ⟨c₁, hc₁, hsim⟩ := hrun pre hbefore
      obtain rfl : c₁ = c := Except.ok.inj (hc₁.symm.trans hc)
      obtain ⟨c₂, hc₂, hsim₂⟩ := hrun _ hpre
      have hfull := hsim.sameKeys_iff.1 (hsame pre hbefore _ hc)
      refine (hfull.step_iff ((inMemoryRun_snoc hc).symm.trans hc₂)).1 ?_
      exact hsim₂.sameKeys_iff.1 (hsame _ hpre c₂ hc₂)
    · -- by induction on the calls so far no map is empty
      intro hkeeps pre hpre
      have hfull : ∀ c, inMemoryRun pre = .ok c → NoEmptyMap c := by
        induction pre using List.reverseRecOn with
        | nil =>
          intro c hc
          cases hc
          exact .init
        | append_singleton pre op ih =>
          intro c hc
          have hbefore : pre <+: ops := (List.prefix_append _ _).trans hpre
          obtain ⟨c₁, hc₁, -⟩ := hrun pre hbefore
          rw [inMemoryRun_snoc hc₁] at hc
          exact ((ih hbefore c₁ hc₁).step_iff hc).2 (hkeeps pre op hpre c₁ hc₁)
      intro c hc
      obtain ⟨c₁, hc₁, hsim⟩ := hrun pre hpre
      obtain rfl : c₁ = c := Except.ok.inj (hc₁.symm.trans hc)
      exact hsim.sameKeys_iff.2 (hfull _ hc)

def mirror : Aead where
  nonceSize := 2
  sealText _ plaintext := plaintext.reverse
  openText _ sealed := .ok sealed.reverse
  openText_sealText _ plaintext _ := by rw [List.reverse_reverse]

def mirrorCipher : TokenCipher where
  ciphers :=
    { Block := Unit
      newCipher := fun _ => .ok ()
      newGCM := fun _ => .ok mirror
      newGCM_ok := fun _ _ => ⟨(), mirror, rfl, rfl⟩
      hkdf := fun _ _ n => .ok ⟨List.replicate n 0, List.length_replicate⟩ }
  encryptionKey := some (List.replicate 32 7)

lemma mirrorCipher_correct : mirrorCipher.Correct := by
  intro key hkey
  cases hkey
  rfl

def zeros : Rand := fun n => .ok ⟨List.replicate n 0, List.length_replicate⟩

def lastingOps : List CacheOp :=
  [.addSession "g" "weather" "u1", .setUserToken "g" "mail" "t0k" zeros, .setClientElicitation "g",
    .storeTaskRecord "travel" "1:2" "alice", .removeServerSession "g" "weather"]

lemma lastingOps_proper : ∀ op ∈ lastingOps, op.Proper := by
  simp only [lastingOps, forall_mem_cons, CacheOp.Proper]
  exact ⟨by decide, ⟨by decide, by decide, fun n => ⟨_, rfl⟩⟩, by decide, trivial, by decide,
    fun op hop => absurd hop not_mem_nil⟩

theorem backends_agree_lasting :
    (∃ c, inMemoryRun lastingOps = .ok c ∧ Agrees mirrorCipher c (redisRun mirrorCipher lastingOps)) ∧
    (RedisCache.getUserToken (redisRun mirrorCipher lastingOps) mirrorCipher 0 "g" "mail").1 =
      .ok (some "t0k") ∧
    RedisCache.keyExists (redisRun mirrorCipher lastingOps) "g" = true :=
  ⟨(backends_agree mirrorCipher mirrorCipher_correct lastingOps lastingOps_proper).1, by decide +kernel,
    by decide +kernel⟩

/-- The only upstream session is removed: in memory an empty map stays, in Redis the key is gone. -/
def emptyingOps : List CacheOp := [.addSession "g" "weather" "u1", .removeServerSession "g" "weather"]

theorem emptied_differs : (∀ op ∈ emptyingOps, op.Proper) ∧
    (∃ c, inMemoryRun emptyingOps = .ok c ∧ c.keyExists "g" = true) ∧
    RedisCache.keyExists (redisRun mirrorCipher emptyingOps) "g" = false := by
  refine ⟨?_, ⟨_, rfl, by decide +kernel⟩, by decide +kernel⟩
  simp only [emptyingOps, List.forall_mem_cons, CacheOp.Proper]
  exact ⟨by decide, by decide, fun op hop => absurd hop List.not_mem_nil⟩

end McpGateway.Session
