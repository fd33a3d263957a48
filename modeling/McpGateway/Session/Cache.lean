import McpGateway.Session.Token

/-!
# The in-memory session cache

`Cache` is one `sync.Map` that holds values of three Go types in one key space: a session's map of
upstream session ids and user tokens, the flag that a session's client supports elicitation, and
the owner of an agent-assigned id.  A read that asserts the type of the value it finds panics on
any other type, so every method is partial.
-/

namespace McpGateway.Session

open Go

def clientElicitationPrefix : String := "clientelicitation:"
def userTokenFieldPrefix : String := "token:"
def taskRecordPrefix : String := "taskowner:"

inductive CacheValue where
  /-- `map[string]string` -/
  | session (m : GoMap String)
  /-- the `true` stored by `SetClientElicitation` -/
  | flag
  /-- the `string` stored by `StoreTaskRecord` -/
  | owner (principal : String)
  deriving DecidableEq

abbrev Cache := GoMap CacheValue

namespace Cache

variable (c : Cache)

/-- `val.(map[string]string)` on what the key holds. -/
def sessionMap (key : String) : Except Panic (Option (GoMap String)) :=
  match c.lookup key with
  | none => .ok none
  | some (.session m) => .ok (some m)
  | some _ => .error .typeAssertion

/-- `val.(string)` on what the key holds. -/
def ownerValue (key : String) : Except Panic (Option String) :=
  match c.lookup key with
  | none => .ok none
  | some (.owner p) => .ok (some p)
  | some _ => .error .typeAssertion

def keyExists (key : String) : Bool :=
  (c.lookup key).isSome

def getSession (key : String) : Except Panic (GoMap String) := do
  let m ← c.sessionMap key
  .ok (m.getD ∅)

def deleteSession (key : String) : Cache :=
  (AList.erase key c).erase (clientElicitationPrefix ++ key)

def deleteSessions (keys : List String) : Cache :=
  keys.foldl deleteSession c

def setField (key field value : String) : Except Panic Cache := do
  let existing ← c.sessionMap key
  .ok (AList.insert key (.session (AList.insert field value (existing.getD ∅))) c)

def deleteField (key field : String) : Except Panic Cache := do
  match ← c.sessionMap key with
  | none => .ok c
  | some m => .ok (AList.insert key (.session (AList.erase field m)) c)

def addSession (key mcpServerID mcpSession : String) : Except Panic Cache :=
  c.setField key mcpServerID mcpSession

def removeServerSession (key mcpServerID : String) : Except Panic Cache :=
  c.deleteField key mcpServerID

def setClientElicitation (gatewaySessionID : String) : Cache :=
  AList.insert (clientElicitationPrefix ++ gatewaySessionID) .flag c

def getClientElicitation (gatewaySessionID : String) : Bool :=
  (c.lookup (clientElicitationPrefix ++ gatewaySessionID)).isSome

def setUserToken (sessionID serverName token : String) : Except Panic Cache :=
  c.setField sessionID (userTokenFieldPrefix ++ serverName) token

def deleteUserToken (sessionID serverName : String) : Except Panic Cache :=
  c.deleteField sessionID (userTokenFieldPrefix ++ serverName)

def getUserToken (now : Time) (sessionID serverName : String) :
    Except Panic (Option String × Cache) := do
  let m ← c.getSession sessionID
  match m.lookup (userTokenFieldPrefix ++ serverName) with
  | none => .ok (none, c)
  | some token =>
    if checkUpstreamJWTExpiry token now then
      let c' ← c.deleteUserToken sessionID serverName
      .ok (none, c')
    else .ok (some token, c)

def taskRecordKey (agent id : String) : String :=
  taskRecordPrefix ++ agent ++ ":" ++ id

def storeTaskRecord (agent id principal : String) : Except Panic ((String × Bool) × Cache) := do
  match ← c.ownerValue (taskRecordKey agent id) with
  | some p => .ok ((p, false), c)
  | none => .ok ((principal, true), AList.insert (taskRecordKey agent id) (.owner principal) c)

def lookupTaskRecord (agent id : String) : Except Panic (Option String) :=
  c.ownerValue (taskRecordKey agent id)

def deleteTaskRecord (agent id : String) : Cache :=
  AList.erase (taskRecordKey agent id) c

/-! ## What an update changes -/

def field (key f : String) : Option String :=
  match c.lookup key with
  | some (.session m) => m.lookup f
  | _ => none

def isForeign (key : String) : Bool :=
  match c.lookup key with
  | some .flag | some (.owner _) => true
  | _ => false

variable {c}

lemma lookup_deleteSession (key k : String) : (c.deleteSession key).lookup k = if k = key ∨ k =
    clientElicitationPrefix ++ key then none else c.lookup k := by
  rw [deleteSession, lookup_erase, lookup_erase]
  by_cases hflag : k = clientElicitationPrefix ++ key
  · rw [if_pos hflag, if_pos (.inr hflag)]
  · by_cases hkey : k = key
    · rw [if_neg hflag, if_pos hkey, if_pos (.inl hkey)]
    · rw [if_neg hflag, if_neg hkey, if_neg (not_or.2 ⟨hkey, hflag⟩)]

lemma lookup_deleteSessions (keys : List String) (k : String) : (c.deleteSessions keys).lookup k =
    if ∃ key ∈ keys, k = key ∨ k = clientElicitationPrefix ++ key then none else c.lookup k := by
  induction keys generalizing c with
  | nil => simp [deleteSessions]
  | cons key keys ih =>
    refine (ih (c := c.deleteSession key)).trans ?_
    rw [lookup_deleteSession]
    by_cases hrest : ∃ key ∈ keys, k = key ∨ k = clientElicitationPrefix ++ key
    · rw [if_pos hrest, if_pos (List.exists_mem_cons_of_exists hrest)]
    · simp only [hrest, List.exists_mem_cons_iff, or_false, if_false]

lemma field_deleteSessions (keys : List String) (k f : String) : (c.deleteSessions keys).field k f =
    if ∃ key ∈ keys, k = key ∨ k = clientElicitationPrefix ++ key then none else c.field k f := by
  unfold field
  rw [lookup_deleteSessions]
  split_ifs <;> rfl

variable {m : Option (GoMap String)}

lemma sessionMap_cases {key : String}
    (h : c.sessionMap key = .ok m) : c.lookup key = m.map CacheValue.session := by
  unfold sessionMap at h
  split at h
  next hnone =>
    cases h
    exact hnone
  next m' hsome =>
    cases h
    exact hsome
  next => cases h

lemma sessionMap_ok_iff (key : String) : (∃ m, c.sessionMap key = .ok m) ↔ c.isForeign key = false := by
  unfold sessionMap isForeign
  cases c.lookup key with
  | none => simp
  | some v => cases v <;> simp

lemma field_of_sessionMap {key : String}
    (h : c.sessionMap key = .ok m) (f : String) : c.field key f = (m.getD ∅).lookup f := by
  rw [field, sessionMap_cases h]
  cases m with
  | none => rfl
  | some m => rfl

lemma getSession_field {key : String} {m : GoMap String} (h : c.getSession key = .ok m)
    (f : String) : m.lookup f = c.field key f := by
  unfold getSession at h
  cases hm : c.sessionMap key with
  | error p => simp [hm, bind, Except.bind] at h
  | ok m' =>
    simp only [hm, bind, Except.bind, Except.ok.injEq] at h
    rw [field_of_sessionMap hm, h]

variable {c' : Cache} {key f v : String}

lemma setField_cases (h : c.setField key f v = .ok c') : ∃ m, c.sessionMap key = .ok m ∧ c' =
    AList.insert key (.session (AList.insert f v (m.getD ∅))) c := by
  unfold setField at h
  cases hm : c.sessionMap key with
  | error p => simp [hm, bind, Except.bind] at h
  | ok m =>
    simp only [hm, bind, Except.bind, Except.ok.injEq] at h
    exact ⟨m, rfl, h.symm⟩

lemma field_setField (h : c.setField key f v = .ok c') (k g : String) :
    c'.field k g = if k = key ∧ g = f then some v else c.field k g := by
  obtain ⟨m, hm, rfl⟩ := setField_cases h
  by_cases hk : k = key
  · subst hk
    rw [field_of_sessionMap hm]
    simp only [field, lookup_insert, if_true, true_and]
  · simp only [field, lookup_insert, hk, false_and, if_false]

lemma deleteField_cases (h : c.deleteField key f = .ok c') : (c.lookup key = none ∧ c' = c) ∨ ∃ m,
    c.lookup key = some (.session m) ∧ c' = AList.insert key (.session (AList.erase f m)) c := by
  unfold deleteField at h
  cases hm : c.sessionMap key with
  | error p => simp [hm, bind, Except.bind] at h
  | ok m =>
    have hlookup := sessionMap_cases hm
    cases m with
    | none =>
      simp only [hm, bind, Except.bind, Except.ok.injEq] at h
      exact .inl ⟨hlookup, h.symm⟩
    | some m =>
      simp only [hm, bind, Except.bind, Except.ok.injEq] at h
      exact .inr ⟨m, hlookup, h.symm⟩

lemma deleteField_ok_iff : (∃ c', c.deleteField key f = .ok c') ↔ ∃ m, c.sessionMap key = .ok m := by
  unfold deleteField
  cases hm : c.sessionMap key with
  | error p => simp [bind, Except.bind]
  | ok m => cases m <;> simp [bind, Except.bind]

lemma field_deleteField (h : c.deleteField key f = .ok c') (k g : String) :
    c'.field k g = if k = key ∧ g = f then none else c.field k g := by
  rcases deleteField_cases h with ⟨hnone, rfl⟩ | ⟨m, hsome, rfl⟩
  · split_ifs with hkg
    · rw [field, hkg.1, hnone]
    · rfl
  · by_cases hk : k = key
    · subst hk
      simp only [field, lookup_insert, if_true, true_and, hsome, lookup_erase]
    · simp only [field, lookup_insert, hk, false_and, if_false]

lemma field_setClientElicitation (sid k f : String) : (c.setClientElicitation sid).field k f = if k =
    clientElicitationPrefix ++ sid then none else c.field k f := by
  unfold field setClientElicitation
  rw [lookup_insert]
  split_ifs <;> rfl

lemma field_insert_owner (k p key f : String) :
    field (AList.insert k (.owner p) c) key f = if key = k then none else c.field key f := by
  unfold field
  rw [lookup_insert]
  split_ifs <;> rfl

lemma field_deleteTaskRecord (agent id key f : String) : (c.deleteTaskRecord agent id).field key f =
    if key = taskRecordKey agent id then none else c.field key f := by
  unfold field deleteTaskRecord
  rw [lookup_erase]
  split_ifs <;> rfl

lemma getUserToken_congr {sid : String} (h : c'.lookup sid = c.lookup sid) (now : Time) (S : String) :
    (c'.getUserToken now sid S).map Prod.fst = (c.getUserToken now sid S).map Prod.fst := by
  have hmap : c'.sessionMap sid = c.sessionMap sid := by
    unfold sessionMap
    rw [h]
  unfold getUserToken getSession deleteUserToken deleteField
  rw [hmap]
  cases c.sessionMap sid with
  | error p => rfl
  | ok m =>
    simp only [bind, Except.bind]
    cases (m.getD ∅).lookup (userTokenFieldPrefix ++ S) with
    | none => rfl
    | some token =>
      dsimp only
      split_ifs
      · cases m <;> rfl
      · rfl

/-- The token is what the session holds, unless that has expired, which deletes it. -/
lemma getUserToken_cases {now : Time} {sid S : String} {r : Option String}
    (h : c.getUserToken now sid S = .ok (r, c')) :
    (c' = c ∧ ∀ t, c.field sid (userTokenFieldPrefix ++ S) = some t →
      checkUpstreamJWTExpiry t now = false) ∧ (∀ t, r = some t →
        c.field sid (userTokenFieldPrefix ++ S) = some t) ∨
    r = none ∧ c.deleteUserToken sid S = .ok c' ∧ ∃ t,
      c.field sid (userTokenFieldPrefix ++ S) = some t ∧ checkUpstreamJWTExpiry t now = true := by
  unfold getUserToken at h
  cases hm : c.getSession sid with
  | error p => simp [hm, bind, Except.bind] at h
  | ok m =>
    rw [← getSession_field hm]
    simp only [hm, bind, Except.bind] at h
    cases htoken : m.lookup (userTokenFieldPrefix ++ S) with
    | none =>
      simp only [htoken] at h
      cases h
      exact .inl ⟨⟨rfl, nofun⟩, nofun⟩
    | some token =>
      simp only [htoken] at h
      split_ifs at h with hexpired
      · cases hdelete : c.deleteUserToken sid S with
        | error p => simp [hdelete] at h
        | ok c₁ =>
          simp only [hdelete] at h
          cases h
          exact .inr ⟨rfl, rfl, token, rfl, hexpired⟩
      · cases h
        rw [Bool.not_eq_true] at hexpired
        exact .inl ⟨⟨rfl, fun t ht => Option.some.inj ht ▸ hexpired⟩, fun t ht => ht⟩

lemma storeTaskRecord_cases {agent id principal : String} {r : String × Bool}
    (h : c.storeTaskRecord agent id principal = .ok (r, c')) :
    c' = c ∨ (c.lookup (taskRecordKey agent id) = none ∧
      c' = AList.insert (taskRecordKey agent id) (.owner principal) c) := by
  unfold storeTaskRecord ownerValue at h
  cases hv : c.lookup (taskRecordKey agent id) with
  | none =>
    simp only [hv, bind, Except.bind, Except.ok.injEq, Prod.mk.injEq] at h
    exact .inr ⟨rfl, h.2.symm⟩
  | some v =>
    cases v with
    | owner p =>
      simp only [hv, bind, Except.bind, Except.ok.injEq, Prod.mk.injEq] at h
      exact .inl h.2.symm
    | session m | flag => simp [hv, bind, Except.bind] at h

end Cache

end McpGateway.Session
