import McpGateway.Routing.Protocol

/-!
# Routing a response

How the response of a client to an elicitation is routed: `ReplyOutcome` lists the ways, with the calls
that were answered.
-/

namespace McpGateway.Routing

open Go Effect Config

/-- How a response is routed, with the calls that were answered: the session is not valid; the id is
unknown or assigned to another session; the server is not configured or has no path; or the response is
forwarded, after the id was removed. -/
inductive ReplyOutcome (req : MCPRequest) : List GwEv → Decision → MCPRequest → Prop where
  | invalid {tr : List GwEv} {d : Decision} (hnow : ∀ e ∈ tr, e.op = .now) (herr : d.error ≠ none) :
      ReplyOutcome req tr d req
  | unmatched {tr : List GwEv} {found : Except String (Option IdEntry)} {d : Decision}
      (hnow : ∀ e ∈ tr, e.op = .now)
      (hfound : ∀ e, found = .ok (some e) → e.gatewaySessionID ≠ req.getSessionID)
      (herr : d.error ≠ none) : ReplyOutcome req (tr ++ [⟨.idLookup req.id.sprint, found⟩]) d req
  | unserved {tr : List GwEv} {e : IdEntry} {cfg : MCPServersConfig} {d : Decision}
      (hnow : ∀ e ∈ tr, e.op = .now) (hown : e.gatewaySessionID = req.getSessionID)
      (hserver : (cfg.getServerConfigByName e.serverName).bind MCPServer.path = none)
      (herr : d.error ≠ none) :
      ReplyOutcome req (tr ++ [⟨.idLookup req.id.sprint, .ok (some e)⟩, ⟨.loadConfig, cfg⟩]) d
        { req with id := e.backendID }
  | forwarded {tr : List GwEv} {e : IdEntry} {cfg : MCPServersConfig} {conf : MCPServer} {path : String}
      (hnow : ∀ e ∈ tr, e.op = .now) (hown : e.gatewaySessionID = req.getSessionID)
      (hconf : cfg.getServerConfigByName e.serverName = some conf) (hpath : conf.path = some path) :
      ReplyOutcome req (tr ++ [⟨.idLookup req.id.sprint, .ok (some e)⟩, ⟨.loadConfig, cfg⟩,
          ⟨.idRemove req.id.sprint, ()⟩])
        (Router.elicitationDecision conf path e ({ req with id := e.backendID } : MCPRequest).toBytes)
        { req with id := e.backendID }

variable {req req' : MCPRequest} {tr : List GwEv} {d : Decision}

namespace Router

variable {r : Router}

lemma validateSession_now {sid : String} {res : Option RouterError}
    (h : (r.validateSession sid).Outcome tr res) : ∀ e ∈ tr, e.op = .now := by
  unfold validateSession at h
  split_ifs at h
  · obtain ⟨rfl, -⟩ := outcome_ret_iff.1 h
    exact fun e he => absurd he not_mem_nil
  · split at h
    next =>
      obtain ⟨e, -⟩ := Prog.outcome_vis_iff.1 h
      exact e.elim
    next =>
      obtain ⟨now, tr', rfl, hrest⟩ := outcome_op_iff.1 h
      have hend : tr' = [] := by
        split at hrest <;> exact (outcome_ret_iff.1 hrest).1
      subst hend
      intro e he
      rw [mem_singleton.1 he]

lemma routeElicitationResponse_cases
    (h : (r.routeElicitationResponse req).Outcome tr (d, req')) : ReplyOutcome req tr d req' := by
  have hreject : ∀ code text, (Decision.reject code text).error ≠ none := fun code text => by
    simp [Decision.reject]
  obtain ⟨valid, tr₁, tr₂, rfl, hvalid, h⟩ := outcome_bind_iff.1 h
  have hnow := validateSession_now hvalid
  cases valid with
  | some e =>
    obtain ⟨rfl, heq⟩ := outcome_ret_iff.1 h
    cases heq
    rw [append_nil]
    exact .invalid hnow (hreject _ _)
  | none =>
    dsimp only at h
    obtain ⟨found, tr₃, rfl, hrest⟩ := outcome_op_iff.1 h
    clear h
    rcases found with e | _ | entry
    · obtain ⟨rfl, heq⟩ := outcome_ret_iff.1 hrest
      cases heq
      exact .unmatched hnow (fun e he => by cases he) (hreject _ _)
    · obtain ⟨rfl, heq⟩ := outcome_ret_iff.1 hrest
      cases heq
      exact .unmatched hnow (fun e he => by cases he) (hreject _ _)
    · dsimp only at hrest
      -- the entry may be one of another session
      split_ifs at hrest with hother
      · obtain ⟨rfl, heq⟩ := outcome_ret_iff.1 hrest
        cases heq
        exact .unmatched hnow (fun e he => by cases he; exact hother) (hreject _ _)
      · have hown : entry.gatewaySessionID = req.getSessionID := not_not.1 hother
        obtain ⟨cfg, tr₄, rfl, hserve⟩ := outcome_op_iff.1 hrest
        cases hconf : cfg.getServerConfigByName entry.serverName with
        | none =>
          rw [hconf] at hserve
          obtain ⟨rfl, heq⟩ := outcome_ret_iff.1 hserve
          cases heq
          exact .unserved hnow hown (by rw [hconf]; rfl) (hreject _ _)
        | some conf =>
          rw [hconf] at hserve
          dsimp only at hserve
          cases hpath : conf.path with
          | none =>
            rw [hpath] at hserve
            obtain ⟨rfl, heq⟩ := outcome_ret_iff.1 hserve
            cases heq
            exact .unserved hnow hown (by rw [hconf]; exact hpath) (hreject _ _)
          | some path =>
            rw [hpath] at hserve
            obtain ⟨u, tr₅, rfl, hdone⟩ := outcome_op_iff.1 hserve
            obtain ⟨rfl, heq⟩ := outcome_ret_iff.1 hdone
            cases heq
            exact .forwarded hnow hown hconf hpath

end Router

/-- An entry that a forwarded response has found is one of its session. -/
lemma ReplyOutcome.session (h : ReplyOutcome req tr d req') (herr : d.error = none) {e : IdEntry}
    (hfound : Answered tr (.idLookup req.id.sprint) (.ok (some e))) :
    e.gatewaySessionID = req.getSessionID := by
  cases h with
  | invalid _ hrefused | unmatched _ _ hrefused | unserved _ _ _ hrefused => exact absurd herr hrefused
  | forwarded hnow hown =>
    rcases List.mem_append.1 hfound with hmem | hmem
    · cases hnow _ hmem
    · simp only [mem_cons, not_mem_nil, or_false] at hmem
      rcases hmem with heq | heq | heq <;> cases heq
      exact hown

end McpGateway.Routing
