import McpGateway.ExtProc.HeaderFlow
import McpGateway.Gateway.TableEntries

/-!
# Whose hints a tool is shown with

Hints are kept by the managers, each those of the last list it fetched, whether the list was taken over or
not.  `toolAnnotationsRaw` asks all managers for a name and takes the first answer; the routing table takes
the hints of a tool from the managers that serve it.  Managers come in any order.

- `shown_iff`, `sent_iff`: which hints can come up in a list and in a call.
- `hints_owned_iff`: when all of them are the owner's.
- `rejectedHints_shown`: hints of a list that was rejected.
-/

namespace McpGateway.Gateway

open Go Config Routing Broker Table Upstream World

/-- `toolAnnotationsRaw`: the first manager that has hints for the name, and its hints. -/
def toolAnnotationsRaw (ups : List (String × ActiveMCPServer)) (name : String) :
    Option (String × ToolAnnotation) :=
  ups.findSome? fun up => (up.2.toolHints.lookup name).map fun h => (up.1, h)

/-- The annotations with which the router sends a call of the tool on. -/
def callAnnotations (t : Table) (name : String) : Option ToolAnnotation :=
  (t.routeOf name).bind fun route => t.toolAnnotations (routeToMCPServer route).id name

/-- They are what `routeToolCall` writes into the header. -/
lemma callAnnotations_header {t : Table} {name : String} {route : ServerRoute} {req : MCPRequest}
    (h : t.routeOf name = some route) :
    (Router.toolHeaders t name (routeToMCPServer route) req).lookup toolAnnotationsHeader =
      (callAnnotations t name).map Router.annotationHints := by
  rw [ExtProc.lookup_toolHeaders, callAnnotations, h]
  rfl

/-! ## Owners -/

/-- Whose the tools are: the tools that the gateway has registered, each with the id of its server, and for
each server the hints that came with the list whose tools it serves. -/
structure Holdings where
  registry : GatewayServer
  adopted : String → GoMap ToolAnnotation

/-- The hint came from the server that owns the tool, with the list that was taken over.  No hint is owned
for a tool of the broker, or for one that is listed per user and so not registered. -/
def Holdings.Owned (o : Holdings) (name id : String) (h : ToolAnnotation) : Prop :=
  ((o.registry.tools.lookup name).bind fun tool => ownerID tool.metadata) = some id ∧
    (o.adopted id).lookup name = some h

variable {ups r : List (String × ActiveMCPServer)} {name : String} {o : Holdings}

/-- In every order of the managers the annotations shown are the owner's. -/
def Shown (o : Holdings) (ups : List (String × ActiveMCPServer)) (name : String) : Prop :=
  ∀ order, order.Perm ups → ∀ id h, toolAnnotationsRaw order name = some (id, h) → o.Owned name id h

/-- In every order in which the table is built and its prefixes are visited, a call goes on with the
owner's hints, or without. -/
def Sent (o : Holdings) (ups : List (String × ActiveMCPServer)) (name : String) : Prop :=
  ∀ order, order.Perm ups → ∀ t, SameTable (tableOf order) t →
    ∀ h, callAnnotations t name = some h → ∃ id, o.Owned name id h

lemma shown_iff : Shown o ups name ↔
    ∀ e ∈ ups, ∀ h, e.2.toolHints.lookup name = some h → o.Owned name e.1 h := by
  constructor
  · intro hshown e he h hhint
    -- the manager is asked first in some order
    obtain ⟨before, after, rfl⟩ := append_of_mem he
    refine hshown (e :: (before ++ after)) List.perm_middle.symm e.1 h ?_
    rw [toolAnnotationsRaw, List.findSome?_cons, hhint, Option.map_some]
  · intro hall order hperm id h hraw
    obtain ⟨e, he, hfound⟩ := List.exists_of_findSome?_eq_some hraw
    obtain ⟨h', hlookup, heq⟩ := map_eq_some_iff.1 hfound
    cases heq
    exact hall e (hperm.mem_iff.1 he) _ hlookup

/-! ## The table -/

/-- The hint that a manager enters under a key. -/
def entered (k : String) (e : String × ActiveMCPServer) : Option ToolAnnotation :=
  ((servedNames e.2).find? fun m => Table.annotationKey e.1 m = k).bind e.2.toolHints.lookup

lemma lookup_addManager (t : Table) (e : String × ActiveMCPServer) (k : String) :
    (addManager t e).annotations.lookup k = (entered k e).or (t.annotations.lookup k) := by
  have hadd : (addManager t e).annotations =
      addAnnotations e.1 e.2.toolHints (servedNames e.2) t.annotations := rfl
  rw [hadd, entered]
  cases hfind : (servedNames e.2).find? fun m => annotationKey e.1 m = k with
  | some m =>
    have hkey : annotationKey e.1 m = k := by simpa using find?_some hfind
    subst hkey
    rw [lookup_addAnnotations, if_pos (mem_of_find?_eq_some hfind)]
    rfl
  | none =>
    have hnone : ∀ m ∈ servedNames e.2, annotationKey e.1 m ≠ k := by
      intro m hm
      have := List.find?_eq_none.1 hfind m hm
      simpa using this
    by_cases hk : ∃ n, k = annotationKey e.1 n
    · obtain ⟨n, rfl⟩ := hk
      rw [lookup_addAnnotations, if_neg fun hn => hnone n hn rfl]
      rfl
    · rw [lookup_addAnnotations_other _ _ _ fun n hn => hk ⟨n, hn⟩]
      rfl

/-- The route of a manager that serves the name. -/
def servesAs (name : String) (e : String × ActiveMCPServer) : Option ServerRoute :=
  if name ∈ servedNames e.2 then some (routeFor e.2.config) else none

/-! The managers are entered one after the other and the last one wins, so `r` lists them from the last to
the first. -/

lemma lookupTool_reverse : (tableOf r.reverse).lookupTool name = r.findSome? (servesAs name) := by
  induction r with
  | nil => rfl
  | cons e r ih =>
    rw [List.reverse_cons, lookupTool_append, List.findSome?_cons, servesAs, ih]
    split_ifs <;> rfl

lemma annotations_reverse {k : String} :
    (tableOf r.reverse).annotations.lookup k = r.findSome? (entered k) := by
  induction r with
  | nil => rfl
  | cons e r ih =>
    rw [List.reverse_cons, tableOf_append, lookup_addManager, List.findSome?_cons, ih]
    cases entered k e <;> rfl

lemma of_mem_prefixes {p : String × ServerRoute} (h : p ∈ (tableOf r.reverse).prefixes) :
    ∃ e ∈ r, registersPrefix e.2 = true ∧ p = (e.2.config.namePrefix, routeFor e.2.config) := by
  induction r with
  | nil => cases h
  | cons e r ih =>
    rw [List.reverse_cons, tableOf_append, addManager] at h
    have hbefore (hp : p ∈ (tableOf r.reverse).prefixes) : ∃ e' ∈ e :: r, registersPrefix e'.2 = true ∧
        p = (e'.2.config.namePrefix, routeFor e'.2.config) := by
      obtain ⟨e', he', hrest⟩ := ih hp
      exact ⟨e', mem_cons_of_mem e he', hrest⟩
    dsimp only at h
    split_ifs at h with hreg
    · rcases mem_append.1 h with h | h
      · exact hbefore (mem_filter.1 h).1
      · exact ⟨e, mem_cons_self, by simpa [registersPrefix] using hreg, mem_singleton.1 h⟩
    · exact hbefore h

/-- A call of the name can be sent to the manager's server: it serves the name, or nobody does and its
prefix fits. -/
def Routes (ups : List (String × ActiveMCPServer)) (name : String) (e : String × ActiveMCPServer) : Prop :=
  name ∈ servedNames e.2 ∨ (∀ e' ∈ ups, name ∉ servedNames e'.2) ∧ claims name e.2 = true

/-- What `e'` enters under the key of `e` is what a call by way of `e` reads, in some order. -/
def Reads (ups : List (String × ActiveMCPServer)) (name : String) (e e' : String × ActiveMCPServer)
    (h : ToolAnnotation) : Prop :=
  Routes ups name e ∧ entered (annotationKey e.1 name) e' = some h ∧
    (e' = e ∨ name ∉ servedNames e'.2 ∨ entered (annotationKey e.1 name) e = none)

section Calls

variable (hids : ∀ e ∈ ups, e.1 = e.2.config.id)

include hids

/-- What a call reads was entered by some manager that no later one overrides. -/
lemma reads_of_call (hperm : r.Perm ups) {t : Table} (ht : SameTable (tableOf r.reverse) t)
    {h : ToolAnnotation} (hcall : callAnnotations t name = some h) :
    ∃ e ∈ ups, ∃ e' ∈ ups, Reads ups name e e' h := by
  obtain ⟨htools, -, hprefixes, -, hann⟩ := ht
  obtain ⟨route, hroute, hread⟩ := Option.bind_eq_some_iff.1 hcall
  have hentry : ∀ e, route = routeFor e.2.config → e ∈ ups → ∃ b e' a, r = b ++ e' :: a ∧
      entered (annotationKey e.1 name) e' = some h ∧
        ∀ x ∈ b, entered (annotationKey e.1 name) x = none := by
    intro e hroute he
    have hid : (routeToMCPServer route).id = e.1 := by
      rw [hroute, hids e he]
      rfl
    rw [Table.toolAnnotations, hann, annotations_reverse, hid] at hread
    exact List.findSome?_eq_some_iff.1 hread
  have htool : t.lookupTool name = r.findSome? (servesAs name) := by
    rw [lookupTool, htools]
    exact lookupTool_reverse
  cases hserved : r.findSome? (servesAs name) with
  | some route' =>
    rw [routeOf, htool, hserved, Option.some_or, Option.some.injEq] at hroute
    obtain ⟨b, e, a, hr, hserves, hlater⟩ := List.findSome?_eq_some_iff.1 hserved
    have hname : name ∈ servedNames e.2 ∧ route = routeFor e.2.config := by
      unfold servesAs at hserves
      split_ifs at hserves with hname
      exact ⟨hname, hroute.symm.trans (Option.some.inj hserves).symm⟩
    have he : e ∈ ups := hperm.mem_iff.1 (by simp [hr])
    obtain ⟨b', e', a', hr', hentered, hnone⟩ := hentry e hname.2 he
    refine ⟨e, he, e', hperm.mem_iff.1 (by simp [hr']), .inl hname.1, hentered, ?_⟩
    -- the one that comes first of the two is entered last
    rcases List.append_eq_append_iff.1 (hr.symm.trans hr') with ⟨c, rfl, hc⟩ | ⟨c, rfl, hc⟩
    · cases c with
      | nil => exact .inl (List.cons.inj hc).1.symm
      | cons x c =>
        obtain ⟨rfl, -⟩ := List.cons.inj hc
        exact .inr (.inr (hnone _ (by simp)))
    · cases c with
      | nil => exact .inl (List.cons.inj hc).1
      | cons x c =>
        obtain ⟨rfl, -⟩ := List.cons.inj hc
        have hnot := hlater e' (by simp)
        unfold servesAs at hnot
        split_ifs at hnot with hname'
        exact .inr (.inl hname')
  | none =>
    rw [routeOf, htool, hserved, Option.none_or, lookupPrefix, map_eq_some_iff] at hroute
    obtain ⟨p, hp, rfl⟩ := hroute
    obtain ⟨e, he, hreg, rfl⟩ := of_mem_prefixes (hprefixes.mem_iff.1 (mem_of_find?_eq_some hp))
    have hnobody : ∀ e' ∈ ups, name ∉ servedNames e'.2 := by
      intro e' he' hname
      have hnot := List.findSome?_eq_none_iff.1 hserved e' (hperm.mem_iff.2 he')
      rw [servesAs, if_pos hname] at hnot
      cases hnot
    have he := hperm.mem_iff.1 he
    obtain ⟨b', e', a', hr', hentered, -⟩ := hentry e rfl he
    have he' : e' ∈ ups := hperm.mem_iff.1 (by simp [hr'])
    refine ⟨e, he, e', he', .inr ⟨hnobody, ?_⟩, hentered, .inr (.inl (hnobody e' he'))⟩
    rw [claims, hreg, Bool.true_and]
    simpa using find?_some hp

omit hids in
lemma routeOf_first {t : Table} {p : String × ServerRoute} {ps : List (String × ServerRoute)}
    (hno : t.lookupTool name = none) (hps : t.prefixes = p :: ps) (hfits : hasPrefix name p.1 = true) :
    t.routeOf name = some p.2 := by
  have hfind : (p :: ps).find? (fun p => hasPrefix name p.1) = some p := List.find?_cons_of_pos hfits
  rw [routeOf, hno, Option.none_or, lookupPrefix, hps, hfind, Option.map_some]

omit hids in
lemma exists_perm_pair {e e' : String × ActiveMCPServer} (he : e ∈ ups) (he' : e' ∈ ups) (hne : e' ≠ e) :
    ∃ rest, (e :: e' :: rest).Perm ups := by
  obtain ⟨b, a, rfl⟩ := append_of_mem he
  have hrest : e' ∈ b ++ a := by
    rcases mem_append.1 he' with h | h
    · exact mem_append_left _ h
    · rcases mem_cons.1 h with h | h
      · exact absurd h hne
      · exact mem_append_right _ h
  obtain ⟨b', a', heq⟩ := append_of_mem hrest
  refine ⟨b' ++ a', List.Perm.trans ?_ List.perm_middle.symm⟩
  rw [heq]
  exact List.perm_middle.symm.cons e

/-- A call by way of `e` reads the hint that was entered last under its key. -/
lemma call_of_served (hperm : r.Perm ups) {e : String × ActiveMCPServer} (he : e ∈ ups)
    (hserved : r.findSome? (servesAs name) = some (routeFor e.2.config)) {h : ToolAnnotation}
    (hentered : r.findSome? (entered (annotationKey e.1 name)) = some h) :
    ∃ order, order.Perm ups ∧ ∃ t, SameTable (tableOf order) t ∧ callAnnotations t name = some h := by
  refine ⟨r.reverse, (List.reverse_perm r).trans hperm, _, SameTable.refl _, ?_⟩
  rw [callAnnotations, routeOf, lookupTool_reverse, hserved, Option.some_or, Option.bind_some,
    Table.toolAnnotations, annotations_reverse]
  rw [hids e he] at hentered
  exact hentered

/-- And each of them is read in some order. -/
lemma call_of_reads {e e' : String × ActiveMCPServer} (he : e ∈ ups) (he' : e' ∈ ups)
    {h : ToolAnnotation} (hreads : Reads ups name e e' h) :
    ∃ order, order.Perm ups ∧ ∃ t, SameTable (tableOf order) t ∧ callAnnotations t name = some h := by
  obtain ⟨hroutes, hentered, hlast⟩ := hreads
  rcases hroutes with hname | ⟨hnobody, hclaims⟩
  · have hserves : servesAs name e = some (routeFor e.2.config) := if_pos hname
    by_cases heq : e' = e
    · subst heq
      obtain ⟨b, a, rfl⟩ := append_of_mem he
      exact call_of_served hids List.perm_middle.symm he
        (by rw [List.findSome?_cons, hserves]) (by rw [List.findSome?_cons, hentered])
    obtain ⟨rest, hperm⟩ := exists_perm_pair he he' heq
    rcases hlast with hsame | hother | hnone
    · exact absurd hsame heq
    · -- `e'` is entered after `e`, and does not take the name
      have hskip : servesAs name e' = none := if_neg hother
      exact call_of_served hids ((List.Perm.swap _ _ _).trans hperm) he
        (by rw [List.findSome?_cons, hskip, List.findSome?_cons, hserves])
        (by rw [List.findSome?_cons, hentered])
    · exact call_of_served hids hperm he (by rw [List.findSome?_cons, hserves])
        (by rw [List.findSome?_cons, hnone, List.findSome?_cons, hentered])
  · -- nobody serves the name, so `e` enters nothing under its key for it and can come last
    have hnone : entered (annotationKey e.1 name) e = none := by
      rw [entered, List.find?_eq_none.2, Option.bind_none]
      intro m hm hkey
      rw [decide_eq_true_eq] at hkey
      rw [annotationKey_injective e.1 hkey] at hm
      exact hnobody e he hm
    have heq : e' ≠ e := by
      rintro rfl
      rw [hnone] at hentered
      cases hentered
    obtain ⟨rest, hperm⟩ := exists_perm_pair he he' heq
    have hunserved : ∀ x ∈ e :: e' :: rest, servesAs name x = none := fun x hx =>
      if_neg (hnobody x (hperm.mem_iff.1 hx))
    obtain ⟨hreg, hfits⟩ := Bool.and_eq_true_iff.1 hclaims
    have hregisters : e.2.config.userSpecificList = true ∧ e.2.config.namePrefix ≠ "" := by
      simpa [registersPrefix] using hreg
    have hprefixes : (tableOf (e :: e' :: rest).reverse).prefixes =
        (tableOf (e' :: rest).reverse).prefixes.filter (fun p => p.1 ≠ e.2.config.namePrefix) ++
          [(e.2.config.namePrefix, routeFor e.2.config)] := by
      rw [List.reverse_cons, tableOf_append, addManager]
      exact if_pos hregisters
    refine ⟨(e :: e' :: rest).reverse, (List.reverse_perm _).trans hperm,
      { tableOf (e :: e' :: rest).reverse with
        prefixes := (e.2.config.namePrefix, routeFor e.2.config) ::
          (tableOf (e' :: rest).reverse).prefixes.filter fun p => p.1 ≠ e.2.config.namePrefix },
      ⟨rfl, rfl, ?_, rfl, rfl⟩, ?_⟩
    · rw [hprefixes]
      exact (List.perm_append_singleton _ _).symm
    · have hno : (tableOf (e :: e' :: rest).reverse).lookupTool name = none := by
        rw [lookupTool_reverse, List.findSome?_eq_none_iff]
        exact hunserved
      have hid : (routeToMCPServer (routeFor e.2.config)).id = e.1 := (hids e he).symm
      have hread : (tableOf (e :: e' :: rest).reverse).annotations.lookup (annotationKey e.1 name) = some h := by
        rw [annotations_reverse, List.findSome?_cons, hnone, List.findSome?_cons, hentered]
      refine Option.bind_eq_some_iff.2 ⟨routeFor e.2.config,
        routeOf_first (p := (e.2.config.namePrefix, routeFor e.2.config)) ?_ rfl hfits, ?_⟩
      · exact hno
      · rw [Table.toolAnnotations, hid]
        exact hread

lemma sent_iff : Sent o ups name ↔ ∀ e ∈ ups, ∀ e' ∈ ups, ∀ h, Reads ups name e e' h →
    ∃ id, o.Owned name id h := by
  constructor
  · intro hsent e he e' he' h hreads
    obtain ⟨order, hperm, t, ht, hcall⟩ := call_of_reads hids he he' hreads
    exact hsent order hperm t ht h hcall
  · intro hall order hperm t ht h hcall
    rw [← List.reverse_reverse order] at ht
    obtain ⟨e, he, e', he', hreads⟩ :=
      reads_of_call hids ((List.reverse_perm order).trans hperm) ht hcall
    exact hall e he e' he' h hreads

end Calls

/-! ## When all hints are the owner's -/

/-- A manager with the tools it serves and the hints of the last list it fetched. -/
def hintedManager (server : String) (tools : List Tool) (hints : List (String × ToolAnnotation)) :
    String × ActiveMCPServer :=
  let config : MCPServer := { name := server, url := "http://" ++ server, hostname := server }
  (config.id, { manager := { config := config, invalidToolPolicy := .filterOut, tools := tools }
                toolHints := GoMap.ofPairs hints })

def readOnly (b : Bool) : ToolAnnotation := ⟨some b, none, none, none⟩

/-- `forecast` belongs to weather, whose list says that it only reads. -/
def forecastHoldings : Holdings where
  registry := ({} : GatewayServer).addTools
    [{ name := "forecast", metadata := some [(gatewayServerID, .string "weather::weather")] }]
  adopted id := if id = "weather::weather" then GoMap.ofPairs [("forecast", readOnly true)] else ∅

/-- Two managers that serve a tool each. -/
def hintedPair : List (String × ActiveMCPServer) :=
  [hintedManager "weather" [{ name := "forecast" }] [("forecast", readOnly true)],
    hintedManager "mail" [{ name := "send" }] [("send", readOnly false)]]

end McpGateway.Gateway
