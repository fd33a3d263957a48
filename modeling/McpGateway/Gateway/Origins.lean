import McpGateway.Gateway.Calls

/-!
# Where shared entries come from

Facts about every run of the gateway that trace an entry of a shared map, or an answer read from it,
back to the call that put it there.

- `claimed_elicited`: a claimed elicitation was issued to a request of its session.
- `led_unique`: a call of the singleflight group has one leader and one key.
- `follower_led`: whoever waits for a call joined it under its key.
-/

namespace McpGateway

open Go Effect Routing Session World.Answers

namespace Gateway

variable {g : Gateway} {G : GwConfig → Label gatewaySig Task → Prop} {c c' : GwConfig}
  {l : Label gatewaySig Task}

/-! ## Elicitations -/

variable {id : String} {e : ElicitationEntry}

lemma elicitations_cases (hs : g.system.Step c l c') :
    (∃ i e id, l = .call i ⟨.elicitationStore e, .ok id⟩ ∧ c.world.elicitations.lookup id = none ∧
      c'.world.now = c.world.now ∧ c'.world.elicitations =
        AList.insert id (e, c.world.now + g.elicitationTTL) c.world.elicitations) ∨
    (∃ i id r, l = .call i ⟨.elicitationClaim id, r⟩ ∧ r = .ok (c.world.liveElicitation id) ∧
      c'.world.now = c.world.now ∧ c'.world.elicitations = AList.erase id c.world.elicitations) ∨
    (∃ id e, l = .env ∧ c.world.elicitations.lookup id = some e ∧ e.2 < c.world.now ∧
      c'.world.elicitations = AList.erase id c.world.elicitations) ∨
    (c'.world.elicitations = c.world.elicitations ∧ (∀ i e r, l ≠ .call i ⟨.elicitationStore e, r⟩) ∧
      ∀ i id r, l ≠ .call i ⟨.elicitationClaim id, r⟩) := by
  cases hs with
  | @call i t o k r w hi hrest hans =>
    have hans' : World.Answers g c.world o r w := hans
    cases o with
    | elicitationStore entry =>
      obtain ⟨id, hid, rfl, rfl⟩ := hans'
      exact .inl ⟨i, entry, id, rfl, hid, rfl, rfl⟩
    | elicitationClaim id =>
      obtain ⟨rfl, rfl⟩ := hans'
      exact .inr (.inl ⟨i, id, _, rfl, rfl, rfl, rfl⟩)
    | _ =>
      refine .inr (.inr (.inr ⟨?_, (fun _ _ _ h => by cases h), (fun _ _ _ h => by cases h)⟩))
      have hchange : World.Change g c.world ⟨_, r⟩ w := change hans'
      cases hchange <;> rfl
  | env hw =>
    cases hw with
    | reap hid hexpired => exact .inr (.inr (.inl ⟨_, _, rfl, hid, hexpired, rfl⟩))
    | _ => exact .inr (.inr (.inr ⟨rfl, (fun _ _ _ h => by cases h), (fun _ _ _ h => by cases h)⟩))
  | start =>
    exact .inr (.inr (.inr ⟨rfl, (fun _ _ _ h => by cases h), (fun _ _ _ h => by cases h)⟩))

lemma liveElicitation_eq {w : World} : w.liveElicitation id = some e ↔
    ∃ due, w.elicitations.lookup id = some (e, due) ∧ w.now ≤ due := by
  rw [World.liveElicitation, bind_eq_some_iff]
  constructor
  · rintro ⟨⟨e', due⟩, hlookup, hlive⟩
    split_ifs at hlive with hexpired
    cases hlive
    exact ⟨due, hlookup, not_lt.1 hexpired⟩
  · rintro ⟨due, hlookup, hlive⟩
    exact ⟨(e, due), hlookup, if_neg (not_lt.2 hlive)⟩

/-- The entry was stored under the id, to last until `due`. -/
def StoredUntil (g : Gateway) (G : GwConfig → Label gatewaySig Task → Prop) (c : GwConfig) (id : String)
    (e : ElicitationEntry) (due : Time) : Prop :=
  ∃ k c₀ c₁, g.system.Reachable G c₀ ∧ g.system.Step c₀ (.call k ⟨.elicitationStore e, .ok id⟩) c₁ ∧
    g.system.Leads G c₁ c ∧ due = c₀.world.now + g.elicitationTTL

lemma stored_until (h : g.system.Reachable G c) {due : Time}
    (he : c.world.elicitations.lookup id = some (e, due)) : StoredUntil g G c id e due := by
  induction h with
  | @init w hw =>
    rw [show w = _ from hw] at he
    cases he
  | @step c c' l hc hg hs ih =>
    have hbefore : c.world.elicitations.lookup id = some (e, due) → StoredUntil g G c' id e due := by
      intro hold
      obtain ⟨k, c₀, c₁, hc₀, hs₀, hleads, hdue⟩ := ih hold
      exact ⟨k, c₀, c₁, hc₀, hs₀, .step hleads hg hs, hdue⟩
    rcases elicitations_cases hs with ⟨i, e', id', rfl, -, -, hmap⟩ | ⟨i, id', r, -, -, -, hmap⟩ |
      ⟨id', e', -, -, -, hmap⟩ | ⟨hmap, -, -⟩
    · rw [hmap, lookup_insert] at he
      split_ifs at he with hid
      · cases he
        rw [hid]
        exact ⟨i, c, c', hc, hs, .refl, rfl⟩
      · exact hbefore he
    · rw [hmap, lookup_erase] at he
      split_ifs at he
      exact hbefore he
    · rw [hmap, lookup_erase] at he
      split_ifs at he
      exact hbefore he
    · rw [hmap] at he
      exact hbefore he

def Elicited (c : GwConfig) (id : String) (e : ElicitationEntry) : Prop :=
  System.Happened c (fun task => (∃ client, task = .request client) ∧ task.sessionID = e.sessionID)
    ⟨.elicitationStore e, .ok id⟩

variable {t : GwThread}

lemma claimed_elicited (h : g.system.Reachable G c) (ht : t ∈ c.threads)
    (he : Answered t.trace (.elicitationClaim id) (.ok (some e))) : Elicited c id e := by
  refine h.answered ht he (fun _ _ _ hs ih => ih.step hs) fun c i c' hc _ hs => ?_
  obtain ⟨-, -, -, -, hans⟩ := caller hc hs
  obtain ⟨due, hlookup, -⟩ := liveElicitation_eq.1 (Except.ok.inj hans.1).symm
  obtain ⟨k, c₀, c₁, hc₀, hs₀, hleads, -⟩ := stored_until hc hlookup
  obtain ⟨t, hi, -, hready, -⟩ := caller hc₀ hs₀
  obtain ⟨hrequest, hown, -⟩ := elicitationStore_cases hready
  have hstored : Elicited c₁ id e := hs₀.happened hi ⟨hrequest, hown.symm⟩
  exact (hleads.invariant (I := fun c => Elicited c id e) hstored fun _ _ _ ih _ hs => ih.step hs).step hs

lemma Elicited.isToken (h : g.system.Reachable G c)
    (he : Elicited c id e) : IsToken g.signer e.sessionID := by
  obtain ⟨t, ht, -, hmem⟩ := he
  obtain ⟨tr, -, hready⟩ := ready_of_mem (justified h ht) hmem
  exact (elicitationStore_cases hready).2.2

/-! ## The id map -/

section

variable {y : String} {e : IdEntry}

def Assigned (c : GwConfig) (y : String) (e : IdEntry) : Prop :=
  System.Happened c (fun _ => True) ⟨.idStore e, .ok y⟩

lemma ids_cases (hs : g.system.Step c l c') : (∃ i e y, l = .call i ⟨.idStore e, .ok y⟩ ∧
    c'.world.ids = AList.insert y e c.world.ids) ∨ (∃ i y, l = .call i ⟨.idRemove y, ()⟩ ∧
    c'.world.ids = AList.erase y c.world.ids) ∨ (c'.world.ids = c.world.ids ∧ (∀ i e y,
    l ≠ .call i ⟨.idStore e, .ok y⟩) ∧ ∀ i y, l ≠ .call i ⟨.idRemove y, ()⟩) := by
  cases hs with
  | @call i t o k r w hi hrest hans =>
    have hans' : World.Answers g c.world o r w := hans
    cases o with
    | idStore entry =>
      obtain ⟨y, -, rfl, rfl⟩ := hans'
      exact .inl ⟨i, entry, y, rfl, rfl⟩
    | idRemove y =>
      cases hans'
      exact .inr (.inl ⟨i, y, rfl, rfl⟩)
    | _ =>
      refine .inr (.inr ⟨?_, (fun _ _ _ h => by cases h), (fun _ _ h => by cases h)⟩)
      have hchange : World.Change g c.world ⟨_, r⟩ w := change hans'
      cases hchange <;> rfl
  | env hw =>
    refine .inr (.inr ⟨?_, (fun _ _ _ h => by cases h), (fun _ _ h => by cases h)⟩)
    cases hw <;> rfl
  | start => exact .inr (.inr ⟨rfl, (fun _ _ _ h => by cases h), (fun _ _ h => by cases h)⟩)

lemma ids_assigned (h : g.system.Reachable G c) (he : c.world.ids.lookup y = some e) :
    Assigned c y e := by
  induction h with
  | @init w hw =>
    have hempty : w.ids = ∅ := by rw [show w = _ from hw]
    rw [hempty] at he
    cases he
  | @step c c' l _ _ hs ih =>
    rcases ids_cases hs with ⟨i, e', y', rfl, hids⟩ | ⟨i, y', rfl, hids⟩ | ⟨hids, -, -⟩
    · rw [hids, lookup_insert] at he
      split_ifs at he with hy
      · cases he
        obtain ⟨t, _, hi, -⟩ := hs.caller rfl
        rw [hy]
        exact hs.happened hi trivial
      · exact (ih he).step hs
    · rw [hids, lookup_erase] at he
      split_ifs at he
      exact (ih he).step hs
    · rw [hids] at he
      exact (ih he).step hs

lemma lookup_assigned (h : g.system.Reachable G c) (ht : t ∈ c.threads)
    (hfound : Answered t.trace (.idLookup y) (.ok (some e))) : Assigned c y e := by
  refine h.answered ht hfound (fun _ _ _ hs ih => ih.step hs) fun c i c' hc _ hs => ?_
  obtain ⟨-, -, -, -, hans⟩ := caller hc hs
  exact (ids_assigned hc (Except.ok.inj hans.1).symm).step hs

end

/-! ## Flights -/

def Led (c : GwConfig) (key : String) (call : Nat) : Prop :=
  System.Happened c (fun _ => True) ⟨.flightJoin key, .leader call⟩

variable {key : String} {call : Nat}

lemma leader_eq {w w' : World} (h : w.Answers g (.flightJoin key) (.leader call) w') :
    w.flights.lookup key = none ∧ call = w.nextCall ∧
      w' = { w with flights := AList.insert key w.nextCall w.flights, nextCall := w.nextCall + 1 } := by
  simp only [World.Answers] at h
  split at h
  next => cases h.1
  next hnone =>
    obtain ⟨hcall, hw⟩ := h
    cases hcall
    exact ⟨hnone, rfl, hw⟩

lemma nextCall_mono (hs : g.system.Step c l c') :
    c.world.nextCall ≤ c'.world.nextCall := by
  cases hs with
  | start => exact le_refl _
  | env hw => cases hw <;> exact le_refl _
  | @call i t o k r w hi hrest hans =>
    have hchange : World.Change g c.world ⟨o, r⟩ w := change hans
    cases hchange with
    | lead => exact Nat.le_succ _
    | _ => exact le_refl _

variable (h : g.system.Reachable G c)

include h

lemma led_lt (hled : Led c key call) : call < c.world.nextCall := by
  obtain ⟨t, ht, -, hmem⟩ := hled
  refine h.answered ht hmem (fun _ _ _ hs ih => lt_of_lt_of_le ih (nextCall_mono hs))
    fun c i c' hc _ hs => ?_
  obtain ⟨-, -, -, -, hans⟩ := caller hc hs
  obtain ⟨-, rfl, hw⟩ := leader_eq hans
  rw [hw]
  exact Nat.lt_succ_self _

lemma led_unique {i j : Nat} {t' : GwThread} {key' : String} (hi : c.threads[i]? = some t) (hj : c.threads[j]? = some t')
    (hm : Answered t.trace (.flightJoin key) (.leader call))
    (hm' : Answered t'.trace (.flightJoin key') (.leader call)) : i = j ∧ key = key' := by
  induction h generalizing t t' with
  | init _ => cases hi
  | @step c c' l hc _ hs ih =>
    -- a call that takes off now has a number that no earlier call has
    have hnew : ∀ {n m : Nat} {u : GwThread} {k k' : String}, c.threads[n]? = some u →
        Answered u.trace (.flightJoin k) (.leader call) →
        l ≠ .call m ⟨.flightJoin k', .leader call⟩ := by
      rintro n m u k k' hn hold rfl
      obtain ⟨-, -, -, -, hans⟩ := caller hc hs
      have hlt := led_lt hc ⟨u, mem_of_getElem? hn, trivial, hold⟩
      rw [(leader_eq hans).2.1] at hlt
      exact lt_irrefl _ hlt
    obtain ⟨u, hu, -, hold | hl⟩ := hs.mem_trace hi hm
    · obtain ⟨u', hu', -, hold' | hl'⟩ := hs.mem_trace hj hm'
      · exact ih hu hu' hold hold'
      · exact absurd hl' (hnew hu hold)
    · obtain ⟨u', hu', -, hold' | hl'⟩ := hs.mem_trace hj hm'
      · exact absurd hl (hnew hu' hold')
      · cases hl.symm.trans hl'
        exact ⟨rfl, rfl⟩

lemma Led.key_unique {key' : String}
    (hled : Led c key call) (hled' : Led c key' call) : key = key' := by
  obtain ⟨t, ht, -, hm⟩ := hled
  obtain ⟨t', ht', -, hm'⟩ := hled'
  obtain ⟨i, hi⟩ := mem_iff_getElem?.1 ht
  obtain ⟨j, hj⟩ := mem_iff_getElem?.1 ht'
  exact (led_unique h hi hj hm hm').2

lemma flights_led
    (hf : c.world.flights.lookup key = some call) : Led c key call := by
  refine System.Reachable.explained
    (W := fun (x : String × Nat) w => w.flights.lookup x.1 = some x.2)
    (H := fun x c => Led c x.1 x.2) ?_ ?_ (fun _ _ _ _ hs hled => hled.step hs) ?_ h (key, call) hf
  · intro w x hw hx
    rw [hw] at hx
    simp at hx
  · intro w w' x henv hx
    cases henv <;> exact hx
  · rintro c i ev c' ⟨key, call⟩ hc _ hs hx
    obtain ⟨t, hi, ht, hready, hans⟩ := caller hc hs
    have hchange := hans.change
    generalize c'.world = w' at hchange hx
    cases hchange with
    | @lead key' hnone =>
      rw [lookup_insert] at hx
      split_ifs at hx with hkey
      · cases hx
        exact .inr (hkey ▸ hs.happened hi trivial)
      · exact .inl hx
    | land key' call' res =>
      dsimp only at hx
      split_ifs at hx
      · rw [lookup_erase] at hx
        split_ifs at hx
        exact .inl hx
      · exact .inl hx
    | _ => exact .inl hx

lemma follower_led (ht : t ∈ c.threads) (hf : Answered t.trace (.flightJoin key) (.follower call)) : Led c key call := by
  refine h.answered ht hf (fun _ _ _ hs ih => ih.step hs) fun c i c' hc _ hs => ?_
  obtain ⟨-, -, -, -, hans⟩ := caller hc hs
  simp only [World.Answers] at hans
  split at hans
  next call' hcall =>
    cases hans.1
    exact (flights_led hc hcall).step hs
  next => cases hans.1

end Gateway

end McpGateway
