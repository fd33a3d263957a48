import McpGateway.Broker.Tokens
import McpGateway.Broker.UserTools
import McpGateway.ExtProc.Serve
import McpGateway.Session.Cache

/-!
# What the gateway's code shares

The objects that the code of all requests works on: the clock, the published routing table and
configuration, the in-memory session cache, the singleflight group, the id map, the elicitation map,
the pool of per-user connections and the timers.  `Answers` says how they answer a call; what comes
from outside the gateway, such as the answer of an upstream, is left open.

`Change` lists once what a call can do to them, and `Answers.change` says that the list is complete.
-/

namespace McpGateway

open Go Effect Config Routing Session Upstream Cache

/-- The gateway as its main program wires it: router, response handler and broker share one signing
key. -/
structure Gateway where
  jwtManager : JWTManager
  elicitationEnabled : Bool
  maxRequestBodySize : Nat
  a2aBroker : Option (String → String → Option ExtProc.A2AAgent)
  invalidToolPolicy : InvalidToolPolicy
  /-- how long an elicitation can be claimed -/
  elicitationTTL : Time

namespace Gateway

def signer (g : Gateway) : Signer := g.jwtManager.signer

def server (g : Gateway) : ExtProc.Server where
  router := ⟨some g.jwtManager, g.elicitationEnabled⟩
  responseHandler := ⟨some g.jwtManager, g.elicitationEnabled⟩
  maxRequestBodySize := g.maxRequestBodySize
  a2aBroker := g.a2aBroker

end Gateway

structure World where
  now : Time
  table : Table
  config : MCPServersConfig
  cache : Cache := ∅
  /-- the call in flight for a key -/
  flights : GoMap Nat := ∅
  /-- the calls that have ended -/
  results : List (Nat × Except RouterError String) := []
  nextCall : Nat := 0
  ids : GoMap IdEntry := ∅
  /-- an entry and when it expires -/
  elicitations : GoMap (ElicitationEntry × Time) := ∅
  /-- a connection and the headers its requests carry -/
  pool : GoMap (ClientSession × GoMap String) := ∅
  /-- when to close a session and forget the gateway session it was opened for -/
  timers : List (Int × ClientSession × String) := []

namespace World

/-- The prefixes are a map in the source, which iterates in any order. -/
def SameTable (t t' : Table) : Prop :=
  t'.tools = t.tools ∧ t'.prompts = t.prompts ∧ t'.prefixes.Perm t.prefixes ∧
    t'.brokerTools = t.brokerTools ∧ t'.annotations = t.annotations

lemma SameTable.refl (t : Table) : SameTable t t :=
  ⟨rfl, rfl, List.Perm.refl _, rfl, rfl⟩

lemma SameTable.mem_routes {t t' : Table} (h : SameTable t t') {route : ServerRoute} :
    route ∈ t'.routes ↔ route ∈ t.routes := by
  obtain ⟨htools, hprompts, hprefixes, -, -⟩ := h
  simp only [Table.routes, htools, hprompts, mem_append, mem_map, hprefixes.mem_iff]

def liveElicitation (w : World) (id : String) : Option ElicitationEntry :=
  (w.elicitations.lookup id).bind fun e => if e.2 < w.now then none else some e.1

/-- How the shared objects answer a call.  A call of the cache on which a type assertion panics has
no answer. -/
def Answers (g : Gateway) (w : World) : (o : Op) → o.Resp → World → Prop
  | .panic _, r, _ => r.elim
  | .now, t, w' => t = w.now ∧ w' = w
  | .uuid, _, w' => w' = w
  | .loadTable, t, w' => SameTable w.table t ∧ w' = w
  | .loadConfig, cfg, w' => cfg = w.config ∧ w' = w
  | .sign c, r, w' => (∀ t, r = .ok t → g.signer.verify t = some c) ∧ w' = w
  | .getSession key, r, w' => ∃ m, w.cache.getSession key = .ok m ∧ r = .ok m ∧ w' = w
  | .addSession key S u _, r, w' => ∃ c, w.cache.addSession key S u = .ok c ∧ r = .ok true ∧
      w' = { w with cache := c }
  | .deleteSessions keys, r, w' => r = .ok () ∧
      w' = { w with cache := w.cache.deleteSessions keys }
  | .removeServerSession key S, r, w' => ∃ c, w.cache.removeServerSession key S = .ok c ∧
      r = .ok () ∧ w' = { w with cache := c }
  | .setClientElicitation sid _, r, w' => r = .ok () ∧
      w' = { w with cache := w.cache.setClientElicitation sid }
  | .getClientElicitation sid, r, w' => r = .ok (w.cache.getClientElicitation sid) ∧ w' = w
  | .setUserToken sid S token _, r, w' => ∃ c, w.cache.setUserToken sid S token = .ok c ∧
      r = .ok () ∧ w' = { w with cache := c }
  | .getUserToken sid S, r, w' => ∃ token c, w.cache.getUserToken w.now sid S = .ok (token, c) ∧
      r = .ok token ∧ w' = { w with cache := c }
  | .deleteUserToken sid S, r, w' => ∃ c, w.cache.deleteUserToken sid S = .ok c ∧ r = .ok () ∧
      w' = { w with cache := c }
  | .storeTaskRecord agent id principal, r, w' => ∃ res c,
      w.cache.storeTaskRecord agent id principal = .ok (res, c) ∧ r = .ok res ∧
      w' = { w with cache := c }
  | .deleteTaskRecord agent id, r, w' => r = .ok () ∧
      w' = { w with cache := w.cache.deleteTaskRecord agent id }
  | .flightJoin key, r, w' =>
    match w.flights.lookup key with
    | some call => r = .follower call ∧ w' = w
    | none => r = .leader w.nextCall ∧
        w' = { w with flights := AList.insert key w.nextCall w.flights, nextCall := w.nextCall + 1 }
  | .flightWait call, r, w' => (call, r) ∈ w.results ∧ w' = w
  | .flightDone key call res, _, w' => w' = { w with
      flights := if w.flights.lookup key = some call then AList.erase key w.flights else w.flights
      results := (call, res) :: w.results }
  | .idStore e, r, w' => ∃ id, w.ids.lookup id = none ∧ r = .ok id ∧
      w' = { w with ids := AList.insert id e w.ids }
  | .idLookup id, r, w' => r = .ok (w.ids.lookup id) ∧ w' = w
  | .idRemove id, _, w' => w' = { w with ids := AList.erase id w.ids }
  | .elicitationStore e, r, w' => ∃ id, w.elicitations.lookup id = none ∧ r = .ok id ∧
      w' = { w with elicitations := AList.insert id (e, w.now + g.elicitationTTL) w.elicitations }
  | .elicitationClaim id, r, w' => r = .ok (w.liveElicitation id) ∧
      w' = { w with elicitations := AList.erase id w.elicitations }
  | .poolLoad key headers, r, w' =>
    match w.pool.lookup key with
    | some (s, _) => r = some s ∧ w' = { w with pool := AList.insert key (s, headers) w.pool }
    | none => r = none ∧ w' = w
  | .poolLoadOrStore key s headers, r, w' =>
    match w.pool.lookup key with
    | some (s', _) =>
      r = (s', true) ∧ w' = { w with pool := AList.insert key (s', headers) w.pool }
    | none => r = (s, false) ∧ w' = { w with pool := AList.insert key (s, headers) w.pool }
  | .poolDelete key, r, w' => r = (w.pool.lookup key).map Prod.fst ∧
      w' = { w with pool := AList.erase key w.pool }
  | .poolKeys, r, w' => r = w.pool.pairs.map Prod.fst ∧ w' = w
  | .afterFunc ttl s sid, _, w' => w' = { w with timers := (w.now + ttl, s, sid) :: w.timers }
  | .initForClient .., _, w' | .closeClient _, _, w' | .connectUser .., _, w'
  | .listTools _, _, w' | .dropServerSession _, _, w' | .send .., _, w'
  | .awaitAnswer .., _, w' => w' = w

/-- What changes without a call: time passes, the broker publishes a table, a configuration is
loaded, and the elicitation map drops entries that have expired. -/
inductive Env (w : World) : World → Prop where
  | tick {t : Time} (h : w.now ≤ t) : Env w { w with now := t }
  | publish (table : Table) : Env w { w with table := table }
  | configure (config : MCPServersConfig) : Env w { w with config := config }
  | reap {id : String} {e : ElicitationEntry × Time} (hid : w.elicitations.lookup id = some e)
      (hexpired : e.2 < w.now) : Env w { w with elicitations := AList.erase id w.elicitations }

/-- Nothing has happened yet. -/
def Fresh (w : World) : Prop :=
  w = { now := w.now, table := w.table, config := w.config }

/-! ## Which calls change which object -/

inductive CacheWrite (c : Cache) : Op → Cache → Prop where
  | addSession {key S u : String} {ttl : Duration} {c' : Cache}
      (h : c.addSession key S u = .ok c') : CacheWrite c (.addSession key S u ttl) c'
  | deleteSessions (keys : List String) :
      CacheWrite c (.deleteSessions keys) (c.deleteSessions keys)
  | removeServerSession {key S : String} {c' : Cache}
      (h : c.removeServerSession key S = .ok c') : CacheWrite c (.removeServerSession key S) c'
  | setClientElicitation (sid : String) (ttl : Duration) :
      CacheWrite c (.setClientElicitation sid ttl) (c.setClientElicitation sid)
  | setUserToken {sid S token : String} {ttl : Duration} {c' : Cache}
      (h : c.setUserToken sid S token = .ok c') : CacheWrite c (.setUserToken sid S token ttl) c'
  | expireToken {sid S : String} {c' : Cache} (h : c.deleteUserToken sid S = .ok c') :
      CacheWrite c (.getUserToken sid S) c'
  | deleteUserToken {sid S : String} {c' : Cache} (h : c.deleteUserToken sid S = .ok c') :
      CacheWrite c (.deleteUserToken sid S) c'
  | storeTaskRecord {agent id principal : String} (h : c.lookup (Cache.taskRecordKey agent id) = none) :
      CacheWrite c (.storeTaskRecord agent id principal)
        (AList.insert (Cache.taskRecordKey agent id) (.owner principal) c)
  | deleteTaskRecord (agent id : String) :
      CacheWrite c (.deleteTaskRecord agent id) (c.deleteTaskRecord agent id)

def Writes : Op → String → Prop
  | .addSession key .., k | .removeServerSession key _, k | .setUserToken key .., k
  | .getUserToken key _, k | .deleteUserToken key _, k => k = key
  | .deleteSessions keys, k => ∃ key ∈ keys, k = key ∨ k = clientElicitationPrefix ++ key
  | .setClientElicitation sid _, k => k = clientElicitationPrefix ++ sid
  | .storeTaskRecord agent id _, k | .deleteTaskRecord agent id, k =>
    k = Cache.taskRecordKey agent id
  | _, _ => False

inductive FieldWrite (key f : String) : Op → Option String → Prop where
  | addSession (u : String) (ttl : Duration) : FieldWrite key f (.addSession key f u ttl) (some u)
  | setUserToken {S : String} (token : String) (ttl : Duration) (hf : f = userTokenFieldPrefix ++ S) :
      FieldWrite key f (.setUserToken key S token ttl) (some token)
  | removeServerSession : FieldWrite key f (.removeServerSession key f) none
  | deleteUserToken {S : String} (hf : f = userTokenFieldPrefix ++ S) :
      FieldWrite key f (.deleteUserToken key S) none
  | expireToken {S : String} (hf : f = userTokenFieldPrefix ++ S) :
      FieldWrite key f (.getUserToken key S) none
  /-- the whole entry is overwritten or deleted -/
  | entry {o : Op} (hw : Writes o key) (ho : (∃ keys, o = .deleteSessions keys) ∨
      (∃ sid ttl, o = .setClientElicitation sid ttl) ∨
      (∃ agent id p, o = .storeTaskRecord agent id p) ∨ ∃ agent id, o = .deleteTaskRecord agent id) :
      FieldWrite key f o none

inductive Change (g : Gateway) (w : World) : GwEv → World → Prop where
  | idle (e : GwEv) : Change g w e w
  | cache {o : Op} {r : o.Resp} {c : Cache} (h : CacheWrite w.cache o c) :
      Change g w ⟨o, r⟩ { w with cache := c }
  /-- a call takes off for a key without one -/
  | lead {key : String} (h : w.flights.lookup key = none) :
      Change g w ⟨.flightJoin key, .leader w.nextCall⟩
        { w with flights := AList.insert key w.nextCall w.flights, nextCall := w.nextCall + 1 }
  | land (key : String) (call : Nat) (res : Except RouterError String) :
      Change g w ⟨.flightDone key call res, ()⟩
        { w with
          flights :=
            if w.flights.lookup key = some call then AList.erase key w.flights else w.flights
          results := (call, res) :: w.results }
  | idStore {id : String} (e : IdEntry) (h : w.ids.lookup id = none) :
      Change g w ⟨.idStore e, .ok id⟩ { w with ids := AList.insert id e w.ids }
  | idRemove (id : String) :
      Change g w ⟨.idRemove id, ()⟩ { w with ids := AList.erase id w.ids }
  | elicitationStore {id : String} (e : ElicitationEntry) (h : w.elicitations.lookup id = none) :
      Change g w ⟨.elicitationStore e, .ok id⟩
        { w with elicitations := AList.insert id (e, w.now + g.elicitationTTL) w.elicitations }
  | elicitationClaim (id : String) :
      Change g w ⟨.elicitationClaim id, .ok (w.liveElicitation id)⟩
        { w with elicitations := AList.erase id w.elicitations }
  | pool (e : GwEv) (p : GoMap (ClientSession × GoMap String)) :
      Change g w e { w with pool := p }
  | afterFunc (ttl : Duration) (s : ClientSession) (sid : String) :
      Change g w ⟨.afterFunc ttl s sid, ()⟩ { w with timers := (w.now + ttl, s, sid) :: w.timers }

lemma CacheWrite.lookup_eq {c c' : Cache} {o : Op} (h : CacheWrite c o c') {k : String}
    (hk : ¬ Writes o k) : c'.lookup k = c.lookup k := by
  have hset : ∀ {key f v : String}, c.setField key f v = .ok c' → k ≠ key →
      c'.lookup k = c.lookup k := by
    rintro key f v hset hne
    obtain ⟨m, -, rfl⟩ := setField_cases hset
    rw [lookup_insert, if_neg hne]
  have hdelete : ∀ {key f : String}, c.deleteField key f = .ok c' → k ≠ key →
      c'.lookup k = c.lookup k := by
    rintro key f hdelete hne
    rcases deleteField_cases hdelete with ⟨-, rfl⟩ | ⟨m, -, rfl⟩
    · rfl
    · rw [lookup_insert, if_neg hne]
  cases h with
  | addSession h | setUserToken h => exact hset h hk
  | removeServerSession h | expireToken h | deleteUserToken h => exact hdelete h hk
  | deleteSessions keys => exact (lookup_deleteSessions ..).trans (if_neg hk)
  | setClientElicitation sid ttl | storeTaskRecord => exact (lookup_insert ..).trans (if_neg hk)
  | deleteTaskRecord agent id => exact (lookup_erase ..).trans (if_neg hk)

lemma CacheWrite.field {c c' : Cache} {o : Op} (h : CacheWrite c o c') (key f : String) :
    c'.field key f = c.field key f ∨ FieldWrite key f o (c'.field key f) := by
  by_cases hw : Writes o key
  · cases h with
    | @addSession key' S u ttl _ h =>
      rw [Cache.field_setField h]
      split_ifs with hkf
      · obtain ⟨rfl, rfl⟩ := hkf
        exact .inr (.addSession u ttl)
      · exact .inl rfl
    | @setUserToken sid S token ttl _ h =>
      rw [Cache.field_setField h]
      split_ifs with hkf
      · obtain ⟨rfl, hf⟩ := hkf
        exact .inr (.setUserToken token ttl hf)
      · exact .inl rfl
    | @removeServerSession key' S _ h =>
      rw [Cache.field_deleteField h]
      split_ifs with hkf
      · obtain ⟨rfl, rfl⟩ := hkf
        exact .inr .removeServerSession
      · exact .inl rfl
    | expireToken h =>
      rw [Cache.field_deleteField h]
      split_ifs with hkf
      · obtain ⟨rfl, hf⟩ := hkf
        exact .inr (.expireToken hf)
      · exact .inl rfl
    | deleteUserToken h =>
      rw [Cache.field_deleteField h]
      split_ifs with hkf
      · obtain ⟨rfl, hf⟩ := hkf
        exact .inr (.deleteUserToken hf)
      · exact .inl rfl
    | deleteSessions keys =>
      rw [(Cache.field_deleteSessions keys key f).trans (if_pos hw)]
      exact .inr (.entry hw (.inl ⟨keys, rfl⟩))
    | setClientElicitation sid ttl =>
      rw [(Cache.field_setClientElicitation sid key f).trans (if_pos hw)]
      exact .inr (.entry hw (.inr (.inl ⟨sid, ttl, rfl⟩)))
    | @storeTaskRecord agent id p =>
      rw [(Cache.field_insert_owner _ p key f).trans (if_pos hw)]
      exact .inr (.entry hw (.inr (.inr (.inl ⟨_, _, _, rfl⟩))))
    | deleteTaskRecord agent id =>
      rw [(Cache.field_deleteTaskRecord agent id key f).trans (if_pos hw)]
      exact .inr (.entry hw (.inr (.inr (.inr ⟨agent, id, rfl⟩))))
  · -- another key's entry
    refine .inl ?_
    unfold Cache.field
    rw [h.lookup_eq hw]

variable {g : Gateway} {w w' : World} {e : GwEv}

lemma Answers.change (h : w.Answers g e.op e.resp w') : Change g w e w' := by
  obtain ⟨o, r⟩ := e
  cases o with
  | panic _ => exact r.elim
  | now | loadTable | loadConfig | sign _ | getClientElicitation _ | flightWait _ | idLookup _
  | poolKeys =>
    obtain ⟨-, rfl⟩ := h
    exact .idle _
  | getSession key =>
    obtain ⟨m, -, -, rfl⟩ := h
    exact .idle _
  | addSession key S u ttl =>
    obtain ⟨c, hc, -, rfl⟩ := h
    exact .cache (.addSession hc)
  | deleteSessions keys =>
    obtain ⟨-, rfl⟩ := h
    exact .cache (.deleteSessions keys)
  | removeServerSession key S =>
    obtain ⟨c, hc, -, rfl⟩ := h
    exact .cache (.removeServerSession hc)
  | setClientElicitation sid ttl =>
    obtain ⟨-, rfl⟩ := h
    exact .cache (.setClientElicitation sid ttl)
  | setUserToken sid S token ttl =>
    obtain ⟨c, hc, -, rfl⟩ := h
    exact .cache (.setUserToken hc)
  | getUserToken sid S =>
    -- an expired token is deleted by the read
    obtain ⟨token, c, hc, -, rfl⟩ := h
    rcases getUserToken_cases hc with ⟨⟨rfl, -⟩, -⟩ | ⟨-, hdelete, -⟩
    · exact .idle _
    · exact .cache (.expireToken hdelete)
  | deleteUserToken sid S =>
    obtain ⟨c, hc, -, rfl⟩ := h
    exact .cache (.deleteUserToken hc)
  | storeTaskRecord agent id principal =>
    obtain ⟨res, c, hc, -, rfl⟩ := h
    rcases storeTaskRecord_cases hc with rfl | ⟨hnone, rfl⟩
    · exact .idle _
    · exact .cache (.storeTaskRecord hnone)
  | deleteTaskRecord agent id =>
    obtain ⟨-, rfl⟩ := h
    exact .cache (.deleteTaskRecord agent id)
  | flightJoin key =>
    simp only [Answers] at h
    split at h
    next call hcall =>
      obtain ⟨rfl, rfl⟩ := h
      exact .idle _
    next hnone =>
      obtain ⟨rfl, rfl⟩ := h
      exact .lead hnone
  | flightDone key call res =>
    cases h
    exact .land key call res
  | idStore entry =>
    obtain ⟨id, hid, rfl, rfl⟩ := h
    exact .idStore entry hid
  | idRemove id =>
    cases h
    exact .idRemove id
  | elicitationStore entry =>
    obtain ⟨id, hid, rfl, rfl⟩ := h
    exact .elicitationStore entry hid
  | elicitationClaim id =>
    obtain ⟨rfl, rfl⟩ := h
    exact .elicitationClaim id
  | poolLoad key headers =>
    simp only [Answers] at h
    split at h
    next s _ _ =>
      obtain ⟨rfl, rfl⟩ := h
      exact .pool _ _
    next =>
      obtain ⟨rfl, rfl⟩ := h
      exact .idle _
  | poolLoadOrStore key s headers =>
    simp only [Answers] at h
    split at h
    next =>
      obtain ⟨rfl, rfl⟩ := h
      exact .pool _ _
    next =>
      obtain ⟨rfl, rfl⟩ := h
      exact .pool _ _
  | poolDelete key =>
    obtain ⟨rfl, rfl⟩ := h
    exact .pool _ _
  | afterFunc ttl s sid =>
    cases h
    exact .afterFunc ttl s sid
  | uuid | initForClient _ _ _ _ | closeClient _ | connectUser _ _ | listTools _
  | dropServerSession _ | send _ _ | awaitAnswer _ _ =>
    cases h
    exact .idle _

lemma Answers.field (h : w.Answers g e.op e.resp w') (key f : String) :
    w'.cache.field key f = w.cache.field key f ∨ FieldWrite key f e.op (w'.cache.field key f) := by
  have hchange := h.change
  cases hchange with
  | cache hw => exact hw.field key f
  | _ => exact .inl rfl

end World

end McpGateway
