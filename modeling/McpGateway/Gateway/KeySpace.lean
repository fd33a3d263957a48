import McpGateway.Gateway.Origins
import McpGateway.Gateway.Play

/-!
# The key space of the cache

Session maps, elicitation flags and task owners live in one map, and two code paths reach it with a
session header that nothing has checked: the broker's DELETE and the router's handling of a 404.
-/

namespace McpGateway

open Go Effect Routing Session ExtProc Cache

variable {signer : Signer} {t : String}

lemma Routing.IsToken.not_mem (h : IsToken signer t) {ch : Char}
    (hch : isCompactChar ch = false) : ch ∉ t.toList := by
  obtain ⟨claims, hv⟩ := h
  intro hmem
  have hall := all_eq_true.1 (signer.verify_compact hv) ch hmem
  rw [hch] at hall
  cases hall

lemma Routing.IsToken.ne_flagKey (h : IsToken signer t)
    (sid : String) : t ≠ clientElicitationPrefix ++ sid := by
  rintro rfl
  exact h.not_mem (show isCompactChar ':' = false by decide) (by simp [clientElicitationPrefix])

lemma Routing.IsToken.ne_taskKey (h : IsToken signer t)
    (agent id : String) : t ≠ taskRecordKey agent id := by
  rintro rfl
  exact h.not_mem (show isCompactChar ':' = false by decide) (by simp [taskRecordKey, taskRecordPrefix])

lemma Session.Cache.flagKey_ne_taskKey (sid agent id : String) :
    clientElicitationPrefix ++ sid ≠ taskRecordKey agent id := by
  intro h
  have hlist := congrArg String.toList h
  simp [clientElicitationPrefix, taskRecordKey, taskRecordPrefix] at hlist

namespace Gateway

/-! ## What a key can hold -/

/-- The key has the form that entries of this kind are stored under. -/
def WellKeyed (signer : Signer) (key : String) : CacheValue → Prop
  | .session _ => IsToken signer key
  | .flag => ∃ sid, IsToken signer sid ∧ key = clientElicitationPrefix ++ sid
  | .owner _ => ∃ agent id, key = Cache.taskRecordKey agent id

def Typed (signer : Signer) (c : Cache) : Prop :=
  ∀ key v, c.lookup key = some v → WellKeyed signer key v

variable {g : Gateway} {G : GwConfig → Label gatewaySig Task → Prop} {c : GwConfig}
  {cache cache' : Cache} (h : Typed g.signer cache)

include h

lemma Typed.setField {key f v : String} (hkey : IsToken g.signer key)
    (hset : cache.setField key f v = .ok cache') : Typed g.signer cache' := by
  obtain ⟨m, -, rfl⟩ := setField_cases hset
  intro k value hk
  rw [lookup_insert] at hk
  split_ifs at hk with hsame
  · cases hk
    exact hsame ▸ hkey
  · exact h k value hk

lemma Typed.deleteField {key f : String}
    (hdelete : cache.deleteField key f = .ok cache') : Typed g.signer cache' := by
  rcases deleteField_cases hdelete with ⟨-, rfl⟩ | ⟨m, hm, rfl⟩
  · exact h
  · intro k value hk
    rw [lookup_insert] at hk
    split_ifs at hk with hsame
    · cases hk
      have htoken : IsToken g.signer key := h key _ hm
      exact hsame ▸ htoken
    · exact h k value hk

lemma Typed.deleteSession (sid : String) :
    Typed g.signer (cache.deleteSession sid) := by
  intro k value hk
  rw [lookup_deleteSession] at hk
  split_ifs at hk
  exact h k value hk

lemma Typed.write {t : GwThread} {o : Op} (hready : Ready g t o)
    (hclaimed : ∀ id e, Answered t.trace (.elicitationClaim id) (.ok (some e)) →
    IsToken g.signer e.sessionID) (hwrite : World.CacheWrite cache o cache') : Typed g.signer cache' := by
  cases hwrite with
  | addSession hadd => exact h.setField (addSession_cases hready).1 hadd
  | deleteSessions keys =>
    rw [deleteSessions_cases hready]
    exact h.deleteSession _
  | removeServerSession hremove => exact h.deleteField hremove
  | setClientElicitation sid ttl =>
    intro k value hk
    rw [setClientElicitation, lookup_insert] at hk
    split_ifs at hk with hsame
    · cases hk
      exact ⟨sid, setClientElicitation_cases hready, hsame⟩
    · exact h k value hk
  | setUserToken hset =>
    obtain ⟨-, id, e, hclaim, rfl, -⟩ := setUserToken_cases hready
    exact h.setField (hclaimed id e hclaim) hset
  | expireToken hdelete => exact h.deleteField hdelete
  | deleteUserToken hdelete => exact h.deleteField hdelete
  | @storeTaskRecord agent id principal hnone =>
    intro k value hk
    rw [lookup_insert] at hk
    split_ifs at hk with hsame
    · cases hk
      exact ⟨agent, id, hsame⟩
    · exact h k value hk
  | deleteTaskRecord agent id =>
    intro k value hk
    rw [deleteTaskRecord, lookup_erase] at hk
    split_ifs at hk
    exact h k value hk

omit h

lemma cache_typed (h : g.system.Reachable G c) : Typed g.signer c.world.cache := by
  refine h.invariant ?_ ?_
  · intro w hw key v hv
    rw [hw] at hv
    simp at hv
  · intro c l c' hc ih _ hs
    cases l with
    | start task =>
      cases hs with
      | start => exact ih
    | env =>
      cases hs with
      | env hw => cases hw <;> exact ih
    | call i e =>
      obtain ⟨t, hi, ht, hready, hans⟩ := caller hc hs
      have hclaimed : ∀ id e, Answered t.trace (.elicitationClaim id) (.ok (some e)) →
          IsToken g.signer e.sessionID := fun id e he =>
        (claimed_elicited hc ht he).isToken hc
      have hchange := hans.change
      generalize c'.world = w' at hchange ⊢
      cases hchange with
      | cache hwrite => exact ih.write hready hclaimed hwrite
      | _ => exact ih

/-! ## Forgetting a session -/

/-- All other sessions and all task records read as before. -/
def OthersUnchanged (signer : Signer) (sid : String) (c c' : Cache) : Prop :=
  (∀ T, IsToken signer T → T ≠ sid → c'.getSession T = c.getSession T ∧
    (∀ now S, (c'.getUserToken now T S).map Prod.fst = (c.getUserToken now T S).map Prod.fst) ∧
    c'.getClientElicitation T = c.getClientElicitation T) ∧
  ∀ agent id, c'.lookupTaskRecord agent id = c.lookupTaskRecord agent id

/-- The call does not panic, and however it is answered it only concerns the session `sid`. -/
def Contained (g : Gateway) (w : World) (sid : String) (o : Op) : Prop :=
  (∃ r w', w.Answers g o r w') ∧
    ∀ r w', w.Answers g o r w' → OthersUnchanged g.signer sid w.cache w'.cache

/-- The call with which a DELETE ends its session, and the one with which an exchange forgets an
upstream session that has answered 404. -/
inductive Forgets : Task → Op → Prop where
  | delete (sid : String) (keys : List String) : Forgets (.delete sid) (.deleteSessions keys)
  | gone (client : ClientRequest) (key S : String) :
      Forgets (.request client) (.removeServerSession key S)

/-- A session id of the cache that reads as a key of another kind. -/
def spellsPrefixedKey (c : Cache) (sid : String) : Bool :=
  (c.lookup sid).isSome &&
    (hasPrefix sid clientElicitationPrefix || hasPrefix sid taskRecordPrefix)

lemma hasPrefix_taskRecordKey (agent id : String) :
    hasPrefix (taskRecordKey agent id) taskRecordPrefix = true := by
  rw [taskRecordKey, String.append_assoc, String.append_assoc]
  exact hasPrefix_append _ _

lemma isToken_no_prefix {p : String} (h : IsToken signer t)
    (hp : ':' ∈ p.toList) : hasPrefix t p = false := by
  rw [Bool.eq_false_iff]
  intro hprefix
  exact h.not_mem (by decide) ((hasPrefix_iff.1 hprefix).subset hp)

variable (h : Typed g.signer cache)

include h

lemma spellsPrefixedKey_iff (sid : String) :
    spellsPrefixedKey cache sid = true ↔
      (∃ T, IsToken g.signer T ∧ sid = clientElicitationPrefix ++ T ∧
        cache.lookup sid = some .flag) ∨
      ∃ agent id p, sid = taskRecordKey agent id ∧ cache.lookup sid = some (.owner p) := by
  unfold spellsPrefixedKey
  cases hv : cache.lookup sid with
  | none => simp
  | some v =>
    have hkeyed := h sid v hv
    cases v with
    | session m =>
      have hflag := isToken_no_prefix (p := clientElicitationPrefix) hkeyed (by decide)
      have htask := isToken_no_prefix (p := taskRecordPrefix) hkeyed (by decide)
      simp [hflag, htask]
    | flag =>
      obtain ⟨T, hT, rfl⟩ := hkeyed
      simp only [Option.isSome_some, hasPrefix_append, Bool.true_or, Bool.and_self, true_iff]
      exact .inl ⟨T, hT, rfl, trivial⟩
    | owner p =>
      obtain ⟨agent, id, rfl⟩ := hkeyed
      simp only [Option.isSome_some, hasPrefix_taskRecordKey, Bool.or_true, Bool.and_self, true_iff]
      exact .inr ⟨agent, id, p, rfl, rfl⟩

omit h in
lemma othersUnchanged_of_lookup {sid : String}
    (hsession : ∀ T, IsToken signer T → T ≠ sid → cache'.lookup T = cache.lookup T)
    (hflag : ∀ T, T ≠ sid → cache'.lookup (clientElicitationPrefix ++ T) =
      cache.lookup (clientElicitationPrefix ++ T))
    (htask : ∀ agent id, cache'.lookup (taskRecordKey agent id) =
      cache.lookup (taskRecordKey agent id)) : OthersUnchanged signer sid cache cache' := by
  refine ⟨fun T hT hne => ⟨?_, fun now S => ?_, ?_⟩, fun agent id => ?_⟩
  · simp only [getSession, sessionMap, hsession T hT hne]
  · exact getUserToken_congr (hsession T hT hne) now S
  · simp only [getClientElicitation, hflag T hne]
  · simp only [lookupTaskRecord, ownerValue, htask]

lemma Typed.flagKey (T : String) :
    cache.lookup (clientElicitationPrefix ++ T) = none ∨
      (IsToken g.signer T ∧ cache.lookup (clientElicitationPrefix ++ T) = some .flag) := by
  cases hv : cache.lookup (clientElicitationPrefix ++ T) with
  | none => exact .inl rfl
  | some v =>
    have hkeyed := h _ v hv
    cases v with
    | session m => exact absurd rfl (IsToken.ne_flagKey hkeyed T)
    | owner p =>
      obtain ⟨agent, id, heq⟩ := hkeyed
      exact absurd heq (flagKey_ne_taskKey T agent id)
    | flag =>
      obtain ⟨T', hT', heq⟩ := hkeyed
      exact .inr ⟨append_left_cancel heq ▸ hT', rfl⟩

lemma Typed.taskKey (agent id : String) :
    cache.lookup (taskRecordKey agent id) = none ∨
      ∃ p, cache.lookup (taskRecordKey agent id) = some (.owner p) := by
  cases hv : cache.lookup (taskRecordKey agent id) with
  | none => exact .inl rfl
  | some v =>
    have hkeyed := h _ v hv
    cases v with
    | session m => exact absurd rfl (IsToken.ne_taskKey hkeyed agent id)
    | flag =>
      obtain ⟨T, -, heq⟩ := hkeyed
      exact absurd heq.symm (flagKey_ne_taskKey T agent id)
    | owner p => exact .inr ⟨p, rfl⟩

lemma deleteSession_unchanged_iff (sid : String) :
    OthersUnchanged g.signer sid cache (cache.deleteSession sid) ↔ spellsPrefixedKey cache sid = false := by
  rw [← Bool.not_eq_true, spellsPrefixedKey_iff h]
  constructor
  · rintro ⟨hsessions, htasks⟩ (⟨T, hT, rfl, hv⟩ | ⟨agent, id, p, rfl, hv⟩)
    · -- the flag of `T` is gone
      have hflag := (hsessions T hT (hT.ne_flagKey T)).2.2
      simp [getClientElicitation, lookup_deleteSession, hv] at hflag
    · -- the owner is gone
      have howner := htasks agent id
      simp [lookupTaskRecord, ownerValue, lookup_deleteSession, hv] at howner
  · intro hforeign
    rw [not_or] at hforeign
    refine othersUnchanged_of_lookup ?_ ?_ ?_
    · intro T hT hne
      rw [lookup_deleteSession, if_neg (not_or.2 ⟨hne, hT.ne_flagKey sid⟩)]
    · intro T hne
      rw [lookup_deleteSession]
      split_ifs with hsame
      · rcases hsame with hkey | hkey
        · rcases h.flagKey T with hnone | ⟨hT, hflag⟩
          · exact hnone.symm
          · exact absurd ⟨T, hT, hkey.symm, hkey ▸ hflag⟩ hforeign.1
        · exact absurd (append_left_cancel hkey) hne
      · rfl
    · intro agent id
      rw [lookup_deleteSession]
      split_ifs with hsame
      · rcases hsame with hkey | hkey
        · rcases h.taskKey agent id with hnone | ⟨p, howner⟩
          · exact hnone.symm
          · exact absurd ⟨agent, id, p, hkey.symm, hkey ▸ howner⟩ hforeign.2
        · exact absurd hkey.symm (flagKey_ne_taskKey sid agent id)
      · rfl

lemma deleteField_unchanged {sid f : String}
    (hdelete : cache.deleteField sid f = .ok cache') : OthersUnchanged g.signer sid cache cache' := by
  rcases deleteField_cases hdelete with ⟨-, rfl⟩ | ⟨m, hm, rfl⟩
  · exact othersUnchanged_of_lookup (fun _ _ _ => rfl) (fun _ _ => rfl) fun _ _ => rfl
  · have htoken : IsToken g.signer sid := h sid _ hm
    refine othersUnchanged_of_lookup (fun T _ hne => ?_) (fun T _ => ?_) fun agent id => ?_
    · exact (lookup_insert ..).trans (if_neg hne)
    · exact (lookup_insert ..).trans (if_neg (htoken.ne_flagKey T).symm)
    · exact (lookup_insert ..).trans (if_neg (htoken.ne_taskKey agent id).symm)

lemma isForeign_eq_spellsPrefixedKey (sid : String) :
    cache.isForeign sid = spellsPrefixedKey cache sid := by
  rw [Bool.eq_iff_iff, spellsPrefixedKey_iff h]
  unfold isForeign
  cases hv : cache.lookup sid with
  | none => simp
  | some v =>
    have hkeyed := h sid v hv
    cases v with
    | session m => simp
    | flag =>
      obtain ⟨T, hT, rfl⟩ := hkeyed
      exact iff_of_true rfl (.inl ⟨T, hT, rfl, rfl⟩)
    | owner p =>
      obtain ⟨agent, id, rfl⟩ := hkeyed
      exact iff_of_true rfl (.inr ⟨agent, id, p, rfl, rfl⟩)

omit h

/-- Forgetting a session for a client neither panics nor reaches beyond the session exactly when the
client's header does not spell a prefixed key of the cache. -/
theorem forget_contained_iff (h : g.system.Reachable System.Free c) {t : GwThread}
    (ht : t ∈ c.threads) {o : Op} {k : o.Resp → Gw Unit} (hrest : t.rest = .vis o k)
    (ho : Forgets t.task o) :
    Contained g c.world t.task.sessionID o ↔
      spellsPrefixedKey c.world.cache t.task.sessionID = false := by
  have htyped := cache_typed h
  have hready := ready h ht hrest
  cases htask : t.task with
  | delete sid =>
    rw [htask] at ho
    cases ho with
    | delete _ keys =>
      have hkeys := deleteSessions_cases hready
      rw [htask] at hkeys
      subst hkeys
      rw [← deleteSession_unchanged_iff htyped]
      constructor
      · rintro ⟨-, hframe⟩
        exact hframe (.ok ()) _ ⟨rfl, rfl⟩
      · intro hframe
        refine ⟨⟨.ok (), _, rfl, rfl⟩, ?_⟩
        rintro r w' ⟨-, rfl⟩
        exact hframe
  | request client =>
    rw [htask] at ho
    cases ho with
    | gone _ key S =>
      have hkey := (removeServerSession_cases hready).1
      rw [htask] at hkey
      subst hkey
      -- the removal panics on an entry that is no session
      rw [← isForeign_eq_spellsPrefixedKey htyped, ← Cache.sessionMap_ok_iff]
      constructor
      · rintro ⟨⟨r, w', cache', hremove, -⟩, -⟩
        exact Cache.deleteField_ok_iff.1 ⟨cache', hremove⟩
      · intro hmap
        obtain ⟨cache', hremove⟩ := Cache.deleteField_ok_iff.2 hmap
        refine ⟨⟨.ok (), _, cache', hremove, rfl, rfl⟩, ?_⟩
        rintro r w' ⟨cache'', hremove', -, rfl⟩
        exact deleteField_unchanged htyped hremove'
  | _ =>
    rw [htask] at ho
    cases ho

/-! ## A header that spells a key -/

def elicitingInitialize : ClientRequest where
  headers := [(":method", "POST"), (":path", "/mcp"), ("content-type", "application/json")]
  endOfStream := false
  body := some (bytes ("\x7b\"jsonrpc\":\"2.0\",\"id\":1,\"method\":\"initialize\"," ++
    "\"params\":\x7b\"capabilities\":\x7b\"elicitation\":\x7b\x7d\x7d\x7d\x7d"))

/-- A `tools/list` request whose session header spells the flag key of the session. -/
def spelledList : ClientRequest := toolsList [("mcp-session-id", clientElicitationPrefix ++ sessionJWT)]

def demoWorld : World where
  now := 0
  table := {}
  config := {}

def flagScript : Script where
  answer req _ := if req.method = "initialize" then ⟨"200", sessionJWT, []⟩ else ⟨"404", "", []⟩

/-- A client with elicitation support has opened its session. -/
def opening : List (System.Move Task) :=
  .start .mint :: System.calls 0 3 ++ .start (.request elicitingInitialize) :: System.calls 1 9

def flaggedConfig (more : List (System.Move Task)) : GwConfig :=
  (freePlayer flagScript).play ⟨demoWorld, []⟩ (opening ++ more)

lemma flagged_reachable (more : List (System.Move Task)) :
    demoGateway.system.Reachable System.Free (flaggedConfig more) :=
  played _ demoWorld rfl _

/-- With the flag key of another session in its header, a DELETE deletes that flag and the handling of
a 404 panics. -/
theorem prefixedHeader_escapes : ∃ (c : GwConfig) (t t' : GwThread) (o o' : Op) (k : o.Resp → Gw Unit)
    (k' : o'.Resp → Gw Unit), demoGateway.system.Reachable System.Free c ∧
      (t ∈ c.threads ∧ t.task = .delete (clientElicitationPrefix ++ sessionJWT) ∧ t.rest = .vis o k ∧
        Forgets t.task o ∧ ¬ Contained demoGateway c.world t.task.sessionID o) ∧
      (t' ∈ c.threads ∧ t'.task = .request spelledList ∧ t'.rest = .vis o' k' ∧
        Forgets t'.task o' ∧ ¬ ∃ r w', c.world.Answers demoGateway o' r w') := by
  obtain ⟨c, hreach, hthread, hflag, hfails⟩ : ∃ c : GwConfig,
      demoGateway.system.Reachable System.Free c ∧
      (c.threads[2]?.any fun t => decide (client t.task = some spelledList ∧
        removes t = some (clientElicitationPrefix ++ sessionJWT, ""))) = true ∧
      (c.world.cache.deleteSessions [clientElicitationPrefix ++ sessionJWT]).getClientElicitation
        sessionJWT ≠ c.world.cache.getClientElicitation sessionJWT ∧
      (c.world.cache.removeServerSession (clientElicitationPrefix ++ sessionJWT) "").toOption.isNone = true :=
    ⟨flaggedConfig (.start (.request spelledList) :: System.calls 2 4), flagged_reachable _,
      by decide +kernel, by decide +kernel, by decide +kernel⟩
  have hdeleting := System.Reachable.step hreach trivial
    (.start (show demoGateway.system.Starts _ (.delete (clientElicitationPrefix ++ sessionJWT)) from trivial))
  obtain ⟨t', ht', hp⟩ := (Option.any_eq_true _ _).1 hthread
  obtain ⟨htask', hremoves⟩ := of_decide_eq_true hp
  have htask' := eq_request htask'
  obtain ⟨k', hk'⟩ := rest_of_removes hremoves
  refine ⟨_, _, t', _, .removeServerSession _ _, _, k', hdeleting,
    ⟨List.mem_append_right _ (List.mem_singleton.2 rfl), rfl, rfl, .delete _ _, ?_⟩,
    List.mem_append_left _ (List.mem_of_getElem? ht'), htask', hk', htask' ▸ Forgets.gone _ _ _, ?_⟩
  · rintro ⟨-, hframe⟩
    have htoken : IsToken demoSigner sessionJWT := ⟨_, rfl⟩
    exact hflag ((hframe (.ok ()) _ ⟨rfl, rfl⟩).1 sessionJWT htoken (by decide)).2.2
  · rintro ⟨r, w', cache', hremove, -⟩
    rw [show c.world.cache.removeServerSession _ _ = _ from hremove] at hfails
    cases hfails

/-- A client that ends its own session with a DELETE. -/
theorem ownHeader_contained : ∃ (c : GwConfig) (t : GwThread) (o : Op) (k : o.Resp → Gw Unit),
    demoGateway.system.Reachable System.Free c ∧ t ∈ c.threads ∧ t.rest = .vis o k ∧
      Forgets t.task o ∧ t.task.sessionID = sessionJWT ∧ c.world.cache.getClientElicitation sessionJWT = true ∧
      Contained demoGateway c.world t.task.sessionID o := by
  obtain ⟨c, hflagged, hflag, hspells⟩ : ∃ c : GwConfig, demoGateway.system.Reachable System.Free c ∧
      c.world.cache.getClientElicitation sessionJWT = true ∧
      spellsPrefixedKey c.world.cache sessionJWT = false :=
    ⟨flaggedConfig [], flagged_reachable [], by decide +kernel, by decide +kernel⟩
  have hdeleting := System.Reachable.step hflagged trivial
    (.start (show demoGateway.system.Starts _ (.delete sessionJWT) from trivial))
  let t : GwThread := ⟨.delete sessionJWT, [], demoGateway.system.code (.delete sessionJWT)⟩
  have hmem : t ∈ c.threads ++ [t] := List.mem_append_right _ (List.mem_singleton.2 rfl)
  have ho : Forgets (.delete sessionJWT) (.deleteSessions [sessionJWT]) := .delete _ _
  exact ⟨_, t, _, _, hdeleting, hmem, rfl, ho, rfl, hflag,
    (forget_contained_iff hdeleting hmem rfl ho).2 hspells⟩

end Gateway

end McpGateway
