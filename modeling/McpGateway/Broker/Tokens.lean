import McpGateway.Broker.Sessions

/-!
# The token page

A user who was asked for a token submits it with the id of the elicitation.  The id can be claimed
once, and the claimed entry says for which session and server the token is stored.
-/

namespace McpGateway.Broker

open Go Effect Session

def maxTokenLength : Nat := 2048

structure TokenForm where
  elicitationID : String
  token : String
  csrfToken : String

structure TokenPost where
  form : Option TokenForm
  csrfCookie : Option String
  /-- the subject the router verified, empty when the header is missing -/
  verifiedSub : String

def tokenError (status : Nat) (message : String) : HttpReply :=
  ⟨status, "\x7b\"error\":\"" ++ message ++ "\"\x7d\n"⟩

def isValidToken (token : String) : Bool :=
  token.toList.all fun c => !(c = '\r' || c = '\n' || (decide (c.toNat < 0x20) && c ≠ '\t'))

def checkForm (post : TokenPost) : Except HttpReply TokenForm :=
  match post.form with
  | none => .error (tokenError 400 "invalid form data")
  | some form =>
    match post.csrfCookie with
    | none | some "" => .error (tokenError 403 "missing CSRF token")
    | some cookie =>
      if form.csrfToken = "" ∨ form.csrfToken ≠ cookie then
        .error (tokenError 403 "CSRF validation failed")
      else if form.elicitationID = "" then .error (tokenError 400 "missing elicitation_id")
      else if form.token = "" then .error (tokenError 400 "missing token")
      else if maxTokenLength < (bytes form.token).length then
        .error (tokenError 400 "token exceeds maximum length")
      else if isValidToken form.token = false then
        .error (tokenError 400 "token contains invalid characters")
      else .ok form

def checkSub (entry : ElicitationEntry) (verifiedSub : String) : Option HttpReply :=
  if entry.sub = "" then none
  else if verifiedSub = "" then some (tokenError 403 "no identity found in request")
  else if verifiedSub ≠ entry.sub then some (tokenError 403 "identity mismatch")
  else none

def storeToken (entry : ElicitationEntry) (token : String) : Gw HttpReply := do
  let now ← op .now
  let ttl := gatewaySessionTTL entry.sessionID now
  if ttl ≤ 0 then pure (tokenError 400 "invalid or expired session")
  else do
    match ← op (.setUserToken entry.sessionID entry.serverName token ttl) with
    | .error _ => pure (tokenError 500 "failed to store token")
    | .ok _ => pure ⟨200, ""⟩

def handlePost (post : TokenPost) : Gw HttpReply :=
  match checkForm post with
  | .error reply => pure reply
  | .ok form => do
    match ← op (.elicitationClaim form.elicitationID) with
    | .error _ => pure (tokenError 500 "internal error")
    | .ok none => pure (tokenError 400 "invalid or expired elicitation_id")
    | .ok (some entry) =>
      match checkSub entry post.verifiedSub with
      | some reply => pure reply
      | none => storeToken entry form.token

/-- What a submission may call: it stores a token only for the session and the server of an
elicitation that it has claimed. -/
def SubmitProtocol (tr : List GwEv) : Op → Prop
  | .now | .elicitationClaim _ => True
  | .setUserToken sid S _ _ => ∃ id entry, Answered tr (.elicitationClaim id) (.ok (some entry)) ∧
      entry.sessionID = sid ∧ entry.serverName = S
  | _ => False

variable {post : TokenPost}

lemma checkForm_ok {form : TokenForm} (h : checkForm post = .ok form) :
    post.form = some form ∧ (post.csrfCookie = some form.csrfToken ∧ form.csrfToken ≠ "") ∧
      (bytes form.token).length ≤ maxTokenLength ∧ isValidToken form.token = true := by
  unfold checkForm at h
  split at h
  · cases h
  next form' hform =>
    split at h
    · cases h
    · cases h
    next cookie _ hcookie =>
      split_ifs at h with hcsrf hid htoken hlen hvalid
      cases h
      rw [not_or, not_not] at hcsrf
      refine ⟨hform, ⟨by rw [hcookie, hcsrf.2], hcsrf.1⟩, ?_, ?_⟩
      · omega
      · simpa using hvalid

lemma tab_of_isValidToken {token : String} (h : isValidToken token = true) {ch : Char}
    (hch : ch ∈ token.toList) (hlow : ch.toNat < 0x20) : ch = '\t' := by
  by_contra hne
  have hvalid := all_eq_true.1 h ch hch
  simp [hlow, hne] at hvalid

lemma checkSub_none {entry : ElicitationEntry} {verifiedSub : String} :
    checkSub entry verifiedSub = none ↔ entry.sub = "" ∨ verifiedSub = entry.sub := by
  unfold checkSub
  constructor
  · intro h
    split_ifs at h with hsub hnone hne
    · exact .inl hsub
    · exact .inr (not_not.1 hne)
  · rintro (hsub | hsub)
    · rw [if_pos hsub]
    · by_cases hempty : entry.sub = ""
      · rw [if_pos hempty]
      · rw [if_neg hempty, if_neg (by rwa [hsub]), if_neg (not_not.2 hsub)]

def SubmitOrder (post : TokenPost) (tr : List GwEv) : Op → Prop
  | .elicitationClaim id => tr = [] ∧ ∃ form, checkForm post = .ok form ∧ id = form.elicitationID
  | .now => ∃ form entry, checkForm post = .ok form ∧ checkSub entry post.verifiedSub = none ∧
      tr = [⟨.elicitationClaim form.elicitationID, .ok (some entry)⟩]
  | .setUserToken sid S token ttl => ∃ form entry now, checkForm post = .ok form ∧
      checkSub entry post.verifiedSub = none ∧
      tr = [⟨.elicitationClaim form.elicitationID, .ok (some entry)⟩, ⟨.now, now⟩] ∧
      sid = entry.sessionID ∧ S = entry.serverName ∧ token = form.token ∧
      ttl = gatewaySessionTTL entry.sessionID now ∧ 0 < ttl
  | _ => False

/-- Why a submission that has claimed an entry can fail: it is not by the user that was asked, the session
is over, or the token could not be stored. -/
def Spoiled (post : TokenPost) (entry : ElicitationEntry) (tr : List GwEv) : Prop :=
  checkSub entry post.verifiedSub ≠ none ∨
    (∃ now, Answered tr .now now ∧ gatewaySessionTTL entry.sessionID now ≤ 0) ∨
    ∃ sid S token ttl e, Answered tr (.setUserToken sid S token ttl) (.error e)

lemma handlePost_orders (post : TokenPost) :
    (handlePost post).Obeys (SubmitOrder post) (fun reply tr => reply.status = 200 ∨
      ∀ id entry, Answered tr (.elicitationClaim id) (.ok (some entry)) → Spoiled post entry tr) [] := by
  unfold handlePost
  cases hform : checkForm post with
  | error reply => exact .inr fun id entry h => absurd h not_mem_nil
  | ok form =>
    refine obeys_op.2 ⟨⟨rfl, form, hform, rfl⟩, fun claimed => ?_⟩
    rcases claimed with e | _ | entry
    · exact .inr fun id entry h => by simp [Answered] at h
    · exact .inr fun id entry h => by simp [Answered] at h
    · dsimp only
      cases hsub : checkSub entry post.verifiedSub with
      | some reply =>
        refine .inr fun id entry' h => .inl ?_
        obtain ⟨-, rfl⟩ : id = form.elicitationID ∧ entry' = entry := by simpa [Answered] using h
        rw [hsub]
        exact Option.some_ne_none reply
      | none =>
        refine obeys_op.2 ⟨⟨form, entry, hform, hsub, rfl⟩, fun now => ?_⟩
        dsimp only
        split_ifs with httl
        · refine .inr fun id entry' h => .inr (.inl ⟨now, by simp [Answered], ?_⟩)
          obtain ⟨-, rfl⟩ : id = form.elicitationID ∧ entry' = entry := by simpa [Answered] using h
          exact httl
        · refine obeys_op.2 ⟨⟨form, entry, now, hform, hsub, rfl, rfl, rfl, rfl, rfl, ?_⟩, fun res => ?_⟩
          · exact not_le.1 httl
          · cases res with
            | error e =>
              exact .inr fun id entry' _ => .inr (.inr ⟨_, _, _, _, e, answered_append _ _ _⟩)
            | ok u => exact .inl rfl

lemma handlePost_stores {form : TokenForm} {e : ElicitationEntry} {now : Time}
    (hform : checkForm post = .ok form) (hsub : checkSub e post.verifiedSub = none)
    (httl : 0 < gatewaySessionTTL e.sessionID now) : (handlePost post).Outcome
      [⟨.elicitationClaim form.elicitationID, .ok (some e)⟩, ⟨.now, now⟩,
        ⟨.setUserToken e.sessionID e.serverName form.token
          (gatewaySessionTTL e.sessionID now), .ok ()⟩] ⟨200, ""⟩ := by
  unfold handlePost
  rw [hform]
  refine outcome_op_iff.2 ⟨.ok (some e), _, rfl, ?_⟩
  dsimp only
  rw [hsub]
  refine outcome_op_iff.2 ⟨now, _, rfl, ?_⟩
  dsimp only
  rw [if_neg (not_le.2 httl)]
  exact outcome_op_iff.2 ⟨.ok (), [], rfl, .ret _⟩

lemma handlePost_obeys {tr : List GwEv} :
    (handlePost post).Obeys SubmitProtocol (fun _ _ => True) tr := by
  unfold handlePost
  cases checkForm post with
  | error reply => exact trivial
  | ok form =>
    refine obeys_op.2 ⟨trivial, fun claimed => ?_⟩
    rcases claimed with e | _ | entry
    · exact trivial
    · exact trivial
    · dsimp only
      cases checkSub entry post.verifiedSub with
      | some reply => exact trivial
      | none =>
        refine obeys_op.2 ⟨trivial, fun now => ?_⟩
        dsimp only
        split_ifs with httl
        · exact trivial
        · refine obeys_op.2 ⟨⟨form.elicitationID, entry, ?_, rfl, rfl⟩, fun res => ?_⟩
          · exact (answered_append _ _ _).mono (prefix_append _ _)
          · cases res <;> exact trivial

end McpGateway.Broker
