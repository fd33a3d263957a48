import Mathlib.Data.List.TakeWhile
import McpGateway.Foundation.Go

/-!
# Registered agents

The agent entries of the configuration, the key under which an agent is routed to and its card is
stored, and the index that `SetAgents` builds from a list of entries.
-/

namespace McpGateway

open Go

namespace Config

/-- An upstream A2A agent.  Its `auth` block is left out: the A2A broker does not read it. -/
structure A2AAgent where
  name : String
  url : String := ""
  hostname : String := ""
  agentPrefix : String := ""
  credential : String := ""
  agentCardURL : String := ""
  caCert : String := ""
  state : String := ""
  deriving DecidableEq, Repr

end Config

namespace A2A

open Config

/-! ## Keys -/

/-- `strings.Cut(s, "/")`; without a slash the second part is empty. -/
def cutSlash (s : String) : String × String :=
  (String.ofList (s.toList.takeWhile (· != '/')),
    String.ofList ((s.toList.dropWhile (· != '/')).drop 1))

def splitKey (key : String) : String × String := cutSlash key

def storeKey (ns agent : String) : String := ns ++ "/" ++ agent

def agentNamespace (a : A2AAgent) : String := (cutSlash a.name).1

def pathKey (a : A2AAgent) : String := storeKey (agentNamespace a) a.agentPrefix

lemma storeKey_splitKey {key : String} (h : '/' ∈ key.toList) :
    storeKey (splitKey key).1 (splitKey key).2 = key := by
  have hne : key.toList.dropWhile (· != '/') ≠ [] := by
    rw [Ne, List.dropWhile_eq_nil_iff]
    intro hall
    simpa using hall '/' h
  obtain ⟨c, rest, hdrop⟩ := List.exists_cons_of_ne_nil hne
  have hc : c = '/' := by
    have hhead := List.head_dropWhile_not (· != '/') hne
    simpa [hdrop] using hhead
  have hsplit := List.takeWhile_append_dropWhile (p := (· != '/')) (l := key.toList)
  rw [hdrop, hc] at hsplit
  apply String.toList_injective
  simp only [storeKey, splitKey, cutSlash, hdrop, String.toList_append, String.toList_ofList]
  simpa using hsplit

lemma slash_mem_storeKey (ns agent : String) : '/' ∈ (storeKey ns agent).toList := by
  simp [storeKey]

lemma splitKey_storeKey {ns agent : String} (h : '/' ∉ ns.toList) :
    splitKey (storeKey ns agent) = (ns, agent) := by
  have hall : ∀ c ∈ ns.toList, (c != '/') = true := by
    intro c hc
    simpa using ne_of_mem_of_not_mem hc h
  have htake : (storeKey ns agent).toList.takeWhile (· != '/') = ns.toList := by
    simp [storeKey, append_assoc, List.takeWhile_append_of_pos hall]
  have hdrop : (storeKey ns agent).toList.dropWhile (· != '/') = '/' :: agent.toList := by
    simp [storeKey, append_assoc, List.dropWhile_append_of_pos hall]
  simp [splitKey, cutSlash, htake, hdrop]

lemma slash_not_mem_agentNamespace (a : A2AAgent) : '/' ∉ (agentNamespace a).toList := by
  intro hmem
  have hpos := List.mem_takeWhile_imp (p := (· != '/')) (l := a.name.toList)
    (by simpa [agentNamespace, cutSlash] using hmem)
  simp at hpos

lemma splitKey_pathKey (a : A2AAgent) : splitKey (pathKey a) = (agentNamespace a, a.agentPrefix) :=
  splitKey_storeKey (slash_not_mem_agentNamespace a)

/-! ## What a card fetch depends on -/

def wellKnownAgentCard : String := "/.well-known/agent-card.json"

/-- `strings.TrimRight(s, "/")`. -/
def trimRightSlashes (s : String) : String :=
  String.ofList (s.toList.reverse.dropWhile (· == '/')).reverse

/-- The URL of the agent's card: the override, or the well-known path under the agent's URL. -/
def cardURL (a : A2AAgent) : String :=
  if a.agentCardURL ≠ "" then a.agentCardURL else trimRightSlashes a.url ++ wellKnownAgentCard

def nul : Char := Char.ofNat 0

def agentFingerprint (a : A2AAgent) : String :=
  cardURL a ++ String.singleton nul ++ a.credential ++ String.singleton nul ++ a.caCert

def fetchInputsChanged (old cur : A2AAgent) : Bool :=
  agentFingerprint old ≠ agentFingerprint cur

def separable (a : A2AAgent) : Bool :=
  !(cardURL a).toList.contains nul && !a.credential.toList.contains nul && !a.caCert.toList.contains nul

lemma fingerprint_injective {a b : A2AAgent} (ha : separable a = true)
    (h : agentFingerprint a = agentFingerprint b) :
    cardURL a = cardURL b ∧ a.credential = b.credential ∧ a.caCert = b.caCert := by
  simp only [separable, and_eq_true, not_eq_true', List.contains_eq_mem,
    decide_eq_false_iff_not] at ha
  rcases ha with ⟨⟨haurl, hacredential⟩, haca⟩
  have hlist := congrArg String.toList h
  simp only [agentFingerprint, String.toList_append, String.toList_singleton, append_assoc,
    List.singleton_append] at hlist
  have hcount := congrArg (List.count nul) hlist
  simp only [List.count_append, List.count_cons_self, List.count_eq_zero_of_not_mem haurl,
    List.count_eq_zero_of_not_mem hacredential, List.count_eq_zero_of_not_mem haca] at hcount
  have hburl : nul ∉ (cardURL b).toList := List.count_eq_zero.1 (by omega)
  have hbcredential : nul ∉ b.credential.toList := List.count_eq_zero.1 (by omega)
  rcases append_cons_inj haurl hburl hlist with ⟨hurl, hrest⟩
  rcases append_cons_inj hacredential hbcredential hrest with ⟨hcredential, hca⟩
  exact ⟨String.toList_injective hurl, String.toList_injective hcredential, String.toList_injective hca⟩

/-! ## The index -/

def agentEnabled (a : A2AAgent) : Bool := a.state = "" || a.state = "Enabled"

def addAgent (next : GoMap A2AAgent) : Option A2AAgent → GoMap A2AAgent
  | none => next
  | some a => if agentEnabled a then AList.insert (pathKey a) a next else next

def agentIndex (agents : List (Option A2AAgent)) : GoMap A2AAgent :=
  agents.foldl addAgent ∅

def Keyed (m : GoMap A2AAgent) : Prop :=
  ∀ key a, m.lookup key = some a → key = pathKey a

lemma keyed_empty : Keyed ∅ := by
  intro key a h
  cases h

lemma Keyed.addAgent {m : GoMap A2AAgent} (h : Keyed m) (entry : Option A2AAgent) :
    Keyed (addAgent m entry) := by
  unfold A2A.addAgent
  cases entry with
  | none => exact h
  | some a =>
    dsimp only
    split_ifs
    · intro key b hb
      rw [lookup_insert] at hb
      split_ifs at hb with hkey
      · cases hb
        exact hkey
      · exact h key b hb
    · exact h

lemma keyed_agentIndex (agents : List (Option A2AAgent)) : Keyed (agentIndex agents) := by
  have hfold : ∀ m, Keyed m → Keyed (agents.foldl addAgent m) := by
    induction agents with
    | nil => exact fun m hm => hm
    | cons entry rest ih => exact fun m hm => ih _ (hm.addAgent entry)
  exact hfold ∅ keyed_empty

lemma slash_mem_of_keyed {m : GoMap A2AAgent} (h : Keyed m) {key : String} {a : A2AAgent}
    (ha : m.lookup key = some a) : '/' ∈ key.toList := by
  rw [h key a ha]
  exact slash_mem_storeKey _ _

end A2A

end McpGateway
