import McpGateway.A2A.Discovery
import McpGateway.ExtProc.A2A
import McpGateway.Foundation.JsonText
import McpGateway.Foundation.Members
import Mathlib.Data.List.DropRight
import Mathlib.Data.List.Sort
import Mathlib.Data.String.Basic

/-!
# Serving cards and the catalog

`ServeAgentCard` gives out a cached card, `ServeAPICatalog` lists the agents whose card can be served.
The key of an agent is written and read in four places: in the index, in the catalog, in the path of a
card and in the path of a call.  `catalog_served` says that they agree for every listed agent.
-/

namespace McpGateway.A2A

open Go Effect Config

/-! ## Handlers -/

def apiCatalogPath : String := "/.well-known/api-catalog"
def linksetContentType : String := "application/linkset+json"
def a2aPathPrefix : String := "/a2a/"

structure Reply where
  status : Nat := 200
  contentType : String := ""
  etag : String := ""
  body : Bytes := []
  deriving DecidableEq, Repr

/-- `http.Error(w, msg, code)`. -/
def httpError (msg : String) (code : Nat) : Reply where
  status := code
  contentType := "text/plain; charset=utf-8"
  body := bytes (msg ++ "\n")

/-- `http.NotFound(w, r)`. -/
def notFound : Reply := httpError "404 page not found" 404

/-- The namespace and the prefix of `/a2a/{namespace}/{prefix}/.well-known/agent-card.json`. -/
def parseCardPath (path : String) : Option (String × String) := do
  let rest ← cutPrefix path a2aPathPrefix
  let rest ← cutSuffix rest wellKnownAgentCard
  let parts := cutSlash rest
  if '/' ∉ rest.toList ∨ parts.1 = "" ∨ parts.2 = "" ∨ '/' ∈ parts.2.toList then none else some parts

namespace World

variable (w : World)

def getAgentByPath (ns agentPrefix : String) : Option A2AAgent :=
  w.broker.agents.lookup (storeKey ns agentPrefix)

def cardRejected (ns agentPrefix : String) : Bool :=
  (w.broker.invalid.lookup (storeKey ns agentPrefix)).isSome

def serveAgentCard (path : String) : Reply :=
  match parseCardPath path with
  | none => notFound
  | some (ns, agentPrefix) =>
    if (w.getAgentByPath ns agentPrefix).isNone then notFound
    else if w.cardRejected ns agentPrefix then httpError "agent card failed validation" 503
    else
      match w.card ns agentPrefix with
      | none => httpError "agent card not available yet" 503
      | some entry => { contentType := "application/json", etag := entry.etag, body := entry.raw }

def listed (key : String) : Bool :=
  (w.broker.invalid.lookup key).isNone && (w.card (splitKey key).1 (splitKey key).2).isSome

def catalogHrefs : List String :=
  ((w.broker.agents.keys.filter w.listed).map (a2aPathPrefix ++ ·)).insertionSort
    fun a b => a.toList ≤ b.toList

def serveAPICatalog : Reply :=
  let field (name : String) (value : Bytes) : Bytes := Json.quote name ++ bytes ":" ++ value
  let object (items : List Bytes) : Bytes := Json.bracket "\x7b" "\x7d" items
  let array (items : List Bytes) : Bytes := Json.bracket "[" "]" items
  let item (href : String) : Bytes := object [field "href" (Json.quote href)]
  { contentType := linksetContentType
    body := object [field "linkset" (array [object [field "anchor" (Json.quote apiCatalogPath),
      field "item" (array (w.catalogHrefs.map item))]])] ++ bytes "\n" }

lemma mem_catalogHrefs {href : String} : href ∈ w.catalogHrefs ↔ ∃ key,
    (w.broker.agents.lookup key).isSome ∧ w.listed key = true ∧ href = a2aPathPrefix ++ key := by
  simp only [catalogHrefs, List.mem_insertionSort, mem_map, mem_filter, AList.mem_keys,
    AList.lookup_isSome]
  constructor
  · rintro ⟨key, ⟨hmem, hlisted⟩, rfl⟩
    exact ⟨key, hmem, hlisted, rfl⟩
  · rintro ⟨key, hmem, hlisted, rfl⟩
    exact ⟨key, ⟨hmem, hlisted⟩, rfl⟩

end World

/-! ### The catalog as a client reads it -/

def contextItems : Json → List Json
  | .obj context => Json.elemsOf "item" context
  | _ => []

def itemHref : Json → String
  | .obj item => Json.textOf "href" item
  | _ => ""

/-- The links that a client reads in the catalog. -/
def catalogLinks (body : Bytes) : List String :=
  match Json.parse body with
  | some (.obj fields) => ((Json.elemsOf "linkset" fields).flatMap contextItems).map itemHref
  | _ => []

/-- An item of the catalog, as a tree. -/
def linkItem (href : String) : Json :=
  .obj [(Json.quoted "href", .str (Json.quoted href))]

lemma linkItems (hrefs : List String) : Json.ValidElems (hrefs.map linkItem) ∧
    Json.depthElems (hrefs.map linkItem) ≤ 1 ∧ (hrefs.map linkItem).map itemHref = hrefs ∧
    Json.renderElems (hrefs.map linkItem) = hrefs.map fun href =>
      Json.bracket "\x7b" "\x7d" [Json.quote "href" ++ bytes ":" ++ Json.quote href] := by
  induction hrefs with
  | nil => exact ⟨trivial, Nat.zero_le _, rfl, rfl⟩
  | cons href rest ih =>
    obtain ⟨hvalid, hdepth, hread, hrender⟩ := ih
    refine ⟨⟨⟨Json.isString_quoted _, Json.isString_quoted _, trivial⟩, hvalid⟩, ?_, ?_, ?_⟩
    · exact max_le (Nat.le_refl 1) hdepth
    · rw [map_cons, map_cons, hread]
      simp [itemHref, linkItem, Json.textOf, Json.member]
    · rw [map_cons, Json.renderElems, hrender]
      rfl

/-- The catalog is read as it was written. -/
lemma catalogLinks_serveAPICatalog (w : World) : catalogLinks w.serveAPICatalog.body = w.catalogHrefs := by
  obtain ⟨hvalid, hdepth, hread, hrender⟩ := linkItems w.catalogHrefs
  have hstr := Json.isString_quoted
  let context : List (Bytes × Json) := [(Json.quoted "anchor", .str (Json.quoted apiCatalogPath)),
    (Json.quoted "item", .arr (w.catalogHrefs.map linkItem))]
  let tree : List (Bytes × Json) := [(Json.quoted "linkset", .arr [.obj context])]
  have hbody : w.serveAPICatalog.body = Json.render (.obj tree) ++ bytes "\n" := by
    simp only [World.serveAPICatalog, tree, context, Json.render, Json.renderElems, Json.renderFields,
      hrender]
    rfl
  have htree : Json.Valid (.obj tree) :=
    ⟨hstr _, ⟨⟨hstr _, hstr _, hstr _, hvalid, trivial⟩, trivial⟩, trivial⟩
  have hlevels : Json.depth (.obj tree) ≤ Json.maxNestingDepth := by
    simp only [tree, context, Json.depth, Json.depthElems, Json.depthFields, Json.maxNestingDepth]
    omega
  have hlinkset : Json.elemsOf "linkset" tree = [.obj context] := by
    simp [Json.elemsOf, Json.member, tree]
  have hitems : Json.elemsOf "item" context = w.catalogHrefs.map linkItem := by
    simp [Json.elemsOf, Json.member, context]
  rw [catalogLinks, hbody, Json.parse_render_line htree hlevels]
  simp only [hlinkset, List.flatMap_cons, List.flatMap_nil, contextItems, hitems, append_nil, hread]

/-! ## Paths -/

/-- A text that stands for one segment of a path: not empty, without a slash and without the start of a
query. -/
def Segment (seg : String) : Prop := seg ≠ "" ∧ '/' ∉ seg.toList ∧ '?' ∉ seg.toList

lemma parseCardPath_storeKey {ns agentPrefix : String} (hns : Segment ns) (hseg : Segment agentPrefix) :
    parseCardPath (a2aPathPrefix ++ storeKey ns agentPrefix ++ wellKnownAgentCard) = some (ns,
    agentPrefix) := by
  have hcut : cutSlash (storeKey ns agentPrefix) = (ns, agentPrefix) := splitKey_storeKey hns.2.1
  have hslash : '/' ∈ (storeKey ns agentPrefix).toList := slash_mem_storeKey ns agentPrefix
  simp only [parseCardPath, String.append_assoc, cutPrefix_append, cutSuffix_append, Option.bind_eq_bind,
    Option.bind_some, hcut]
  rw [if_neg]
  simp only [hslash, hns.1, hseg.1, hseg.2.1]
  simp

lemma trimSlashes_append (front tail : List Char) {a b : Char} (ha : front.head? = some a)
    (hb : front.getLast? = some b) (ha' : a ≠ '/') (hb' : b ≠ '/') :
    ExtProc.trimSlashes (front ++ tail) = front ++ tail.rdropWhile (· == '/') := by
  have hdrop : (front ++ tail).dropWhile (· == '/') = front ++ tail := by
    cases front with
    | nil => cases ha
    | cons c rest =>
      cases ha
      simp [ha']
  rw [ExtProc.trimSlashes, hdrop]
  show (front ++ tail).rdropWhile (· == '/') = _
  induction tail using List.reverseRecOn with
  | nil =>
    rcases List.getLast?_eq_some_iff.1 hb with ⟨init, rfl⟩
    rw [append_nil, List.rdropWhile_nil, append_nil,
      List.rdropWhile_concat_neg _ _ _ (by simpa using hb')]
  | append_singleton tail c ih =>
    rw [← append_assoc]
    by_cases hc : c = '/'
    · have hkeep : (front ++ tail).dropWhile (· == '/') = front ++ tail := by
        cases front with
        | nil => cases ha
        | cons d rest =>
          cases ha
          simp [ha']
      rw [List.rdropWhile_concat_pos _ _ _ (by simpa using hc),
        List.rdropWhile_concat_pos _ _ _ (by simpa using hc), ih hkeep]
    · rw [List.rdropWhile_concat_neg _ _ _ (by simpa using hc),
        List.rdropWhile_concat_neg _ _ _ (by simpa using hc), append_assoc]

/-- What may follow an agent's path in the target of a request: nothing, further segments, a query. -/
def PathTail (tail : String) : Prop :=
  tail = "" ∨ ∃ c rest, tail.toList = c :: rest ∧ (c = '/' ∨ c = '?')

lemma PathTail.segments {tail : String} (h : PathTail tail) : ∃ more,
    (tail.toList.takeWhile (· != '?')).rdropWhile (· == '/') = more ∧ (more = [] ∨ ∃ rest,
    more = '/' :: rest) := by
  refine ⟨_, rfl, ?_⟩
  have hpre := List.rdropWhile_prefix (· == '/') (tail.toList.takeWhile (· != '?'))
  generalize (tail.toList.takeWhile (· != '?')).rdropWhile (· == '/') = more at hpre
  cases more with
  | nil => exact .inl rfl
  | cons d rest =>
    refine .inr ⟨rest, ?_⟩
    have hmore := hpre.trans (List.takeWhile_prefix _)
    rcases h with rfl | ⟨c, cs, hcs, hc⟩
    · simp at hmore
    · rw [hcs] at hmore hpre
      rw [List.cons_prefix_cons] at hmore
      rcases hmore with ⟨rfl, -⟩
      rcases hc with rfl | rfl
      · rfl
      · simp at hpre

lemma resolveA2APath_storeKey {ns agentPrefix tail : String} (hns : Segment ns)
    (hseg : Segment agentPrefix) (htail : PathTail tail) :
    ExtProc.resolveA2APath (a2aPathPrefix ++ storeKey ns agentPrefix ++ tail) =
      some (ns, agentPrefix) := by
  have hns' : ns.toList ≠ [] := by simpa using hns.1
  have hseg' : agentPrefix.toList ≠ [] := by simpa using hseg.1
  obtain ⟨a, as, hhead⟩ := List.exists_cons_of_ne_nil hns'
  have hlast : agentPrefix.toList.getLast? = some (agentPrefix.toList.getLast hseg') :=
    List.getLast?_eq_some_getLast hseg'
  -- the query is cut off, and what is left of the tail only adds segments
  have hquery : (storeKey ns agentPrefix ++ tail).toList.takeWhile (· != '?') =
      (storeKey ns agentPrefix).toList ++ tail.toList.takeWhile (· != '?') := by
    rw [String.toList_append, List.takeWhile_append_of_pos]
    intro c hc
    rw [bne_iff_ne]
    rintro rfl
    simp [storeKey, hns.2.2, hseg.2.2] at hc
  have htrim := trimSlashes_append (storeKey ns agentPrefix).toList
    (tail.toList.takeWhile (· != '?')) (a := a)
    (b := agentPrefix.toList.getLast hseg') (by simp [storeKey, hhead])
    (by simp [storeKey, List.getLast?_cons, hlast]) (fun h => hns.2.1 (by simp [hhead, h]))
    (fun h => hseg.2.1 (h ▸ List.getLast_mem hseg'))
  rcases htail.segments with ⟨more, hmore, hshape⟩
  have hslashes : ∀ {seg : String}, Segment seg → ∀ c ∈ seg.toList, (c == '/') = false := by
    intro seg hseg c hc
    simpa using ne_of_mem_of_not_mem hc hseg.2.1
  have hpieces : ∃ rest, splitList (· == '/') ((storeKey ns agentPrefix).toList ++ more) =
      ns.toList :: agentPrefix.toList :: rest := by
    have hsplit : splitList (· == '/') ((storeKey ns agentPrefix).toList ++ more) =
        ns.toList :: splitList (· == '/') (agentPrefix.toList ++ more) := by
      rw [← splitList_append_cons _ (hslashes hns) (by rfl : ('/' == '/') = true)]
      simp [storeKey]
    rw [hsplit]
    rcases hshape with rfl | ⟨rest, rfl⟩
    · rw [append_nil, splitList_of_none (hslashes hseg)]
      exact ⟨[], rfl⟩
    · rw [splitList_append_cons _ (hslashes hseg) rfl]
      exact ⟨_, rfl⟩
  rcases hpieces with ⟨rest, hpieces⟩
  have hpath : ExtProc.trimSlashes
      ((trimPrefix (a2aPathPrefix ++ storeKey ns agentPrefix ++ tail) ExtProc.a2aPathPrefix).toList.takeWhile
        (· != '?')) = (storeKey ns agentPrefix).toList ++ more := by
    rw [show ExtProc.a2aPathPrefix = a2aPathPrefix from rfl, String.append_assoc, trimPrefix_append,
      hquery, htrim, hmore]
  unfold ExtProc.resolveA2APath
  simp only [hpath, hpieces]
  rw [if_neg (by simp [hns', hseg'])]
  simp

/-! ## The names of the cluster -/

def validNamespace (ns : String) : Bool :=
  let alnum (c : Char) : Bool := c.isLower || c.isDigit
  ns.toList.length ≤ 63 && ns.toList.all (fun c => alnum c || c = '-') &&
    (ns.toList.head?.map alnum).getD false && (ns.toList.getLast?.map alnum).getD false

/-- The prefixes a registration accepts: `^[a-z0-9][a-z0-9_]*$`. -/
def validAgentPrefix (p : String) : Bool :=
  match p.toList with
  | [] => false
  | c :: rest => (c.isLower || c.isDigit) && rest.all fun d => d.isLower || d.isDigit || d = '_'

lemma segment_of_all {seg : String} {p : Char → Bool} (hne : seg ≠ "")
    (hall : ∀ c ∈ seg.toList, p c = true) (hslash : p '/' = false) (hquery : p '?' = false) :
    Segment seg := by
  refine ⟨hne, fun h => ?_, fun h => ?_⟩
  · rw [hall _ h] at hslash
    cases hslash
  · rw [hall _ h] at hquery
    cases hquery

lemma segment_of_validNamespace {ns : String} (h : validNamespace ns = true) : Segment ns := by
  simp only [validNamespace, and_eq_true, all_eq_true] at h
  refine segment_of_all ?_ h.1.1.2 (by decide) (by decide)
  rintro rfl
  exact absurd h.1.2 (by decide)

lemma segment_of_validAgentPrefix {p : String} (h : validAgentPrefix p = true) : Segment p := by
  refine segment_of_all (p := fun d => d.isLower || d.isDigit || d = '_') ?_ ?_ (by decide) (by decide)
  · rintro rfl
    cases h
  · intro c hc
    unfold validAgentPrefix at h
    cases hp : p.toList with
    | nil => simp [hp] at hc
    | cons d rest =>
      rw [hp] at h hc
      simp only [and_eq_true, all_eq_true] at h
      rcases mem_cons.1 hc with rfl | hmem
      · rw [h.1]
        rfl
      · exact h.2 c hmem

/-- The agent is named `{namespace}/{name}` with a valid namespace, and has a valid prefix. -/
def WellNamed (a : A2AAgent) : Prop :=
  (∃ ns name, a.name = ns ++ "/" ++ name ∧ validNamespace ns = true) ∧
    validAgentPrefix a.agentPrefix = true

lemma WellNamed.segments {a : A2AAgent} (h : WellNamed a) :
    Segment (agentNamespace a) ∧ Segment a.agentPrefix := by
  rcases h with ⟨⟨ns, name, hname, hns⟩, hvalid⟩
  have hseg := segment_of_validNamespace hns
  have hcut : agentNamespace a = ns := by
    have hsplit : cutSlash (storeKey ns name) = (ns, name) := splitKey_storeKey hseg.2.1
    rw [agentNamespace, hname, show ns ++ "/" ++ name = storeKey ns name from rfl, hsplit]
  exact ⟨hcut ▸ hseg, segment_of_validAgentPrefix hvalid⟩

/-! ## The catalog -/

variable {s : Setup} {G : A2AState → Label brokerSig Task → Prop} {c : A2AState}

lemma Task.swap_index {task : Task} {tr : List BrokerEv} {next : GoMap A2AAgent}
    (h : task.Protocol s tr (.swapAgents next)) : ∃ agents, next = agentIndex agents := by
  cases task with
  | load conf => exact False.elim h
  | onConfigChange =>
    cases h with
    | set _ hset => exact ⟨_, hset.1⟩
  | setAgents agents => exact ⟨agents, h.1⟩
  | refreshAll | refreshCards =>
    cases h with
    | read hread => cases hread

lemma agents_of_change {w w' : World} {e : BrokerEv} (h : World.Change w e w') :
    w'.broker.agents = w.broker.agents ∨ ∃ next prev, e = swaps next prev ∧
      w'.broker.agents = next := by
  cases h with
  | swap next => exact .inr ⟨next, _, rfl, rfl⟩
  | idle | configure | notify | lock | unlock | client | store | fail | delete | spawn =>
    exact .inl rfl

lemma keyed_of_reachable (h : (system s).Reachable G c) : Keyed c.world.broker.agents := by
  refine h.invariant ?_ ?_
  · intro w hw
    rw [show w = {} from hw]
    exact keyed_empty
  · intro c l c' hc ih _ hs
    cases l with
    | call i e =>
      rcases change_of_step hs with ⟨t, k, hi, hrest, hchg⟩
      rcases agents_of_change hchg with hsame | ⟨next, prev, rfl, hnext⟩
      · rwa [hsame]
      · have hproto : t.task.Protocol s t.trace (.swapAgents next) :=
          protocol_of hc (mem_of_getElem? hi) hrest
        rcases Task.swap_index hproto with ⟨agents, rfl⟩
        rw [hnext]
        exact keyed_agentIndex agents
    | env =>
      cases hs with
      | env henv =>
        cases henv with
        | tick ht => exact ih
    | start task =>
      cases hs with
      | start _ => exact ih

/-- Every link of the catalog leads to the card and to the agent it stands for: the card is served, the
router and the broker read the same namespace and prefix off its path, whatever follows it in the
target of a call, and the agent under them has that key. -/
theorem catalog_served (h : (system s).Reachable System.Free c)
    (hnames : ∀ key a, c.world.broker.agents.lookup key = some a → WellNamed a) :
    ∀ href ∈ catalogLinks c.world.serveAPICatalog.body, ∃ ns agentPrefix entry agent,
      c.world.card ns agentPrefix = some entry ∧
      (c.world.serveAgentCard (href ++ wellKnownAgentCard)).status = 200 ∧
      (c.world.serveAgentCard (href ++ wellKnownAgentCard)).body = entry.raw ∧
      parseCardPath (href ++ wellKnownAgentCard) = some (ns, agentPrefix) ∧
      (∀ tail, PathTail tail → ExtProc.resolveA2APath (href ++ tail) = some (ns, agentPrefix)) ∧
      c.world.getAgentByPath ns agentPrefix = some agent ∧
      splitKey (pathKey agent) = (ns, agentPrefix) := by
  intro href hhref
  rw [catalogLinks_serveAPICatalog] at hhref
  rcases c.world.mem_catalogHrefs.1 hhref with ⟨key, hreg, hlisted, rfl⟩
  obtain ⟨agent, hagent⟩ := Option.isSome_iff_exists.1 hreg
  have hkey : key = pathKey agent := keyed_of_reachable h key agent hagent
  subst hkey
  have hsplit := splitKey_pathKey agent
  rcases (hnames _ agent hagent).segments with ⟨hns, hseg⟩
  simp only [World.listed, Bool.and_eq_true, Option.isNone_iff_eq_none, hsplit] at hlisted
  rcases hlisted with ⟨hvalid, hcached⟩
  obtain ⟨entry, hentry⟩ := Option.isSome_iff_exists.1 hcached
  have hparse := parseCardPath_storeKey hns hseg
  have hfound : c.world.getAgentByPath (agentNamespace agent) agent.agentPrefix = some agent := hagent
  have hserve : c.world.serveAgentCard (a2aPathPrefix ++ pathKey agent ++ wellKnownAgentCard) =
      { contentType := "application/json", etag := entry.etag, body := entry.raw } := by
    have hrejected : c.world.cardRejected (agentNamespace agent) agent.agentPrefix = false := by
      rw [World.cardRejected, show storeKey _ _ = pathKey agent from rfl, hvalid]
      rfl
    unfold World.serveAgentCard
    rw [show pathKey agent = storeKey (agentNamespace agent) agent.agentPrefix from rfl, hparse]
    simp [hfound, hrejected, hentry]
  refine ⟨agentNamespace agent, agent.agentPrefix, entry, agent, hentry, ?_, ?_, hparse, ?_, hfound,
    hsplit⟩
  · rw [hserve]
  · rw [hserve]
  · intro tail htail
    exact resolveA2APath_storeKey hns hseg htail

def weatherFetched : A2AState :=
  (freePlayer demoSetup demoUpstream).play started
    (fetchMoves (demoConfig "gw.example" [weatherAgent]) weatherAgent)

theorem catalog_served_weather :
    catalogLinks weatherFetched.world.serveAPICatalog.body = ["/a2a/mcp-test/weather"] ∧
      ∃ ns agentPrefix entry agent, weatherFetched.world.card ns agentPrefix = some entry ∧
        (weatherFetched.world.serveAgentCard
          ("/a2a/mcp-test/weather" ++ wellKnownAgentCard)).body = entry.raw ∧
        ExtProc.resolveA2APath ("/a2a/mcp-test/weather" ++ "/x?y=/z") = some (ns, agentPrefix) ∧
        weatherFetched.world.getAgentByPath ns agentPrefix = some agent := by
  have hhrefs : catalogLinks weatherFetched.world.serveAPICatalog.body = ["/a2a/mcp-test/weather"] := by
    decide +kernel
  have hpairs : weatherFetched.world.broker.agents.pairs = [("mcp-test/weather", weatherAgent)] := by
    decide +kernel
  have hnames : ∀ key a, weatherFetched.world.broker.agents.lookup key = some a → WellNamed a := by
    intro key a ha
    have hmem := mem_pairs_iff.2 ha
    rw [hpairs, List.mem_singleton] at hmem
    cases hmem
    exact ⟨⟨"mcp-test", "weather-agent", by decide, by decide⟩, by decide⟩
  have hmem : "/a2a/mcp-test/weather" ∈ catalogLinks weatherFetched.world.serveAPICatalog.body := by
    rw [hhrefs]
    exact List.mem_singleton_self _
  rcases catalog_served (s := demoSetup) (c := weatherFetched)
    (System.Player.reachable_play _ reachable_started _) hnames _ hmem with
    ⟨ns, agentPrefix, entry, agent, hentry, _, hbody, _, hresolve, hagent, _⟩
  exact ⟨hhrefs, ns, agentPrefix, entry, agent, hentry, hbody,
    hresolve _ (.inr ⟨'/', "x?y=/z".toList, rfl, .inl rfl⟩), hagent⟩

end McpGateway.A2A
