import Mathlib.Data.List.Perm.Subperm
import McpGateway.Foundation.Url

/-!
# Configuration

The server entries of the gateway configuration and the questions the router and the broker ask of
them.
-/

namespace McpGateway.Config

open Go

structure TokenURLElicitationConfig where
  url : String
  deriving DecidableEq, Repr

structure MCPServer where
  name : String
  url : String := ""
  hostname : String := ""
  namePrefix : String := ""
  credential : String := ""
  caCert : String := ""
  state : String := ""
  tokenURLElicitation : Option TokenURLElicitationConfig := none
  userSpecificList : Bool := false
  category : List String := []
  hint : String := ""
  tags : List String := []
  deriving DecidableEq, Repr

namespace MCPServer

/-- `name:prefix:hostname`, the key of the server's manager. -/
def id (s : MCPServer) : String :=
  s.name ++ ":" ++ s.namePrefix ++ ":" ++ s.hostname

def path (s : MCPServer) : Option String :=
  (Url.parse s.url).map fun u => text u.path

def normalizeState (state : String) : String :=
  if state = "" then "Enabled" else state

/-- `counts[t] += d`. -/
def addCount (d : Int) (counts : GoMap Int) (t : String) : GoMap Int :=
  counts.insert t ((counts.lookup t).getD 0 + d)

/-- The loop over the second list, which ends early when a count falls below zero. -/
def countDown : GoMap Int → List String → Bool
  | _, [] => true
  | counts, t :: b =>
    if ((addCount (-1) counts t).lookup t).getD 0 < 0 then false else countDown (addCount (-1) counts t) b

def tagsEqual (a b : List String) : Bool :=
  if a.length ≠ b.length then false
  else if a.length = 0 then true
  else countDown (a.foldl (addCount 1) ∅) b

/-- Whether the entry differs from the existing one in a way that matters to the gateway. -/
def configChanged (s existing : MCPServer) : Bool :=
  existing.name ≠ s.name || existing.namePrefix ≠ s.namePrefix || existing.url ≠ s.url ||
    existing.hostname ≠ s.hostname || existing.credential ≠ s.credential ||
    existing.caCert ≠ s.caCert || normalizeState existing.state ≠ normalizeState s.state ||
    existing.userSpecificList ≠ s.userSpecificList || existing.hint ≠ s.hint ||
    s.tokenURLElicitation ≠ existing.tokenURLElicitation ||
    existing.category ≠ s.category || !tagsEqual s.tags existing.tags

lemma lookup_addCount (d : Int) (counts : GoMap Int) (t t' : String) :
    ((addCount d counts t).lookup t').getD 0 = (counts.lookup t').getD 0 + if t' = t then d else 0 := by
  rw [addCount, lookup_insert]
  split_ifs with ht
  · subst ht
    simp
  · simp

lemma lookup_addCounts (a : List String) (counts : GoMap Int) (t : String) :
    ((a.foldl (addCount 1) counts).lookup t).getD 0 = (counts.lookup t).getD 0 + a.count t := by
  induction a generalizing counts with
  | nil => simp
  | cons t' a ih =>
    rw [foldl_cons, ih, lookup_addCount, List.count_cons]
    simp only [beq_iff_eq, eq_comm (a := t')]
    split_ifs <;> omega

lemma countDown_iff {counts : GoMap Int} (b : List String) (h : ∀ t, 0 ≤ (counts.lookup t).getD 0) :
    countDown counts b = true ↔ ∀ t, b.count t ≤ (counts.lookup t).getD 0 := by
  induction b generalizing counts with
  | nil => simpa [countDown] using h
  | cons t b ih =>
    have ht := lookup_addCount (-1) counts t
    rw [countDown]
    split_ifs with hneg
    · -- the tag comes once more than it was counted
      refine iff_of_false (by simp) fun hall => ?_
      have := hall t
      rw [ht, if_pos rfl] at hneg
      rw [List.count_cons_self] at this
      omega
    · have hnext : ∀ t', 0 ≤ ((addCount (-1) counts t).lookup t').getD 0 := by
        intro t'
        by_cases heq : t' = t
        · rw [heq]
          omega
        · rw [ht, if_neg heq, add_zero]
          exact h t'
      rw [ih hnext]
      refine forall_congr' fun t' => ?_
      rw [ht, List.count_cons]
      simp only [beq_iff_eq, eq_comm (a := t)]
      split_ifs <;> omega

lemma tagsEqual_iff {a b : List String} : tagsEqual a b = true ↔ b.Perm a := by
  rw [tagsEqual]
  split_ifs with hlength hzero
  · refine iff_of_false (by simp) fun hperm => hlength hperm.length_eq.symm
  · obtain rfl := List.length_eq_zero_iff.1 hzero
    simpa [eq_comm] using hlength
  · rw [countDown_iff b (by simp [lookup_addCounts])]
    simp only [lookup_addCounts]
    constructor
    · intro hcount
      have hsub : b.Subperm a := List.subperm_ext_iff.2 fun t _ => by simpa using hcount t
      exact hsub.perm_of_length_le (not_not.1 hlength).le
    · intro hperm t
      simp [hperm.count_eq t]

/-- The entries are equal up to the order of the tags and an empty state for `Enabled`. -/
structure Same (s existing : MCPServer) : Prop where
  fields : existing = { s with state := existing.state, tags := existing.tags }
  state : normalizeState existing.state = normalizeState s.state
  tags : existing.tags.Perm s.tags

lemma configChanged_eq_false {s existing : MCPServer} :
    s.configChanged existing = false ↔ s.Same existing := by
  cases s
  cases existing
  constructor
  · intro h
    simp only [configChanged, Bool.or_eq_false_iff, decide_eq_false_iff_not, not_not,
      Bool.not_eq_false', tagsEqual_iff] at h
    obtain ⟨⟨⟨⟨⟨⟨⟨⟨⟨⟨⟨rfl, rfl⟩, rfl⟩, rfl⟩, rfl⟩, rfl⟩, hstate⟩, rfl⟩, rfl⟩, rfl⟩, rfl⟩, htags⟩ := h
    exact ⟨rfl, hstate, htags⟩
  · rintro ⟨hfields, hstate, htags⟩
    cases hfields
    simpa [configChanged, tagsEqual_iff] using ⟨hstate, htags⟩

lemma Same.refl (s : MCPServer) : s.Same s := ⟨rfl, rfl, .refl _⟩

variable {s t : MCPServer}

lemma Same.symm (h : s.Same t) : t.Same s where
  fields := by
    rw [h.fields]
  state := h.state.symm
  tags := h.tags.symm

lemma Same.trans {s t u : MCPServer} (h : s.Same t) (h' : t.Same u) : s.Same u where
  fields := by
    rw [h'.fields, h.fields]
  state := h'.state.trans h.state
  tags := h'.tags.trans h.tags

/-- An entry is unchanged exactly when every field agrees, with an empty state for `Enabled` and the
tags in any order. -/
theorem unchanged_iff_agree :
    (∀ s t : MCPServer, s.configChanged t = false ↔
      s.name = t.name ∧ s.namePrefix = t.namePrefix ∧ s.url = t.url ∧ s.hostname = t.hostname ∧
        s.credential = t.credential ∧ s.caCert = t.caCert ∧ s.userSpecificList = t.userSpecificList ∧
        s.hint = t.hint ∧ s.tokenURLElicitation = t.tokenURLElicitation ∧
        normalizeState s.state = normalizeState t.state ∧ s.category = t.category ∧
        s.tags.Perm t.tags) ∧
    Equivalence fun s t : MCPServer => s.configChanged t = false := by
  simp only [configChanged_eq_false]
  refine ⟨fun s t => ⟨?_, ?_⟩, Same.refl, Same.symm, Same.trans⟩
  · rintro ⟨hfields, hstate, htags⟩
    rw [hfields]
    exact ⟨rfl, rfl, rfl, rfl, rfl, rfl, rfl, rfl, rfl, hstate.symm, rfl, htags.symm⟩
  · rintro ⟨h₁, h₂, h₃, h₄, h₅, h₆, h₇, h₈, h₉, hstate, h₁₀, htags⟩
    refine ⟨?_, hstate.symm, htags.symm⟩
    simp only [h₁, h₂, h₃, h₄, h₅, h₆, h₇, h₈, h₉, h₁₀]

lemma Same.id_eq (h : s.Same t) : t.id = s.id := by
  rw [h.fields]
  rfl

lemma Same.url_eq (h : s.Same t) : t.url = s.url := by
  rw [h.fields]

end MCPServer

structure VirtualServer where
  name : String
  tools : List String
  prompts : List String
  deriving DecidableEq, Repr

/-- A snapshot of the configuration.  The entries of the slices are pointers in the source; the
loader never stores a nil one. -/
structure MCPServersConfig where
  servers : List MCPServer := []
  virtualServers : List VirtualServer := []
  mcpGatewayExternalHostname : String := ""
  mcpGatewayInternalHostname : String := ""
  gatewayCACertPEM : String := ""
  deriving DecidableEq, Repr

def MCPServersConfig.getServerConfigByName (c : MCPServersConfig) (serverName : String) :
    Option MCPServer :=
  c.servers.find? fun s => s.name = serverName

/-- The error text of a failed `GetServerConfigByName`. -/
def unknownServer : String := "unknown server"

variable {c : MCPServersConfig}

lemma MCPServersConfig.getServerConfigByName_mem {n : String}
    {s : MCPServer} (h : c.getServerConfigByName n = some s) : s ∈ c.servers :=
  mem_of_find?_eq_some h

lemma MCPServersConfig.getServerConfigByName_name {n : String}
    {s : MCPServer} (h : c.getServerConfigByName n = some s) : s.name = n := by
  simpa using find?_some h

end McpGateway.Config
