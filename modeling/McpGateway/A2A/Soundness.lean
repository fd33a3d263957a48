import McpGateway.A2A.Serving
import McpGateway.Foundation.Reference

/-!
# What an accepted card tells a client

A client reads the names in a card as they are written, follows a URL as it is written, and reaches
whatever agent the router finds in the target of its request.  `soundCard` says what the card should
tell such a client; `validateCard` decodes names up to case, unescapes paths, and looks at the top-level
URL only when no interface is listed.

- `validateCard_sound_iff`: when a plainly written card that is accepted is sound.
- `accepted_unsound`: three accepted cards that lead elsewhere.
-/

namespace McpGateway.A2A

open Go Json Struct Url

/-! ## The client's reading -/

/-- Following the URL leads to the agent behind the gateway: it is an HTTP URL of the gateway's host
name, and the router finds the agent in the target. -/
def leadsTo (host ns agent url : String) : Bool :=
  match Url.Reference.ofString url with
  | none => false
  | some r =>
    (toLower (String.ofList r.scheme) = "http" || toLower (String.ofList r.scheme) = "https") &&
      bytes (String.ofList r.hostName) = hostOnly host &&
      ExtProc.resolveA2APath (String.ofList r.target) = some (ns, agent)

def soundInterface (host ns agent : String) : Json → Bool
  | .obj fields =>
    let binding := Json.textOf "protocolBinding" fields
    let version := Json.textOf "protocolVersion" fields
    leadsTo host ns agent (Json.textOf "url" fields) && (binding = "" || binding = "JSONRPC") &&
      (version = "" || version = "1" || hasPrefix version "1.")
  | _ => false

/-- What clients need of a served card: every URL in it leads to the agent through the gateway. -/
def soundCard (host ns agent : String) : Json → Bool
  | .obj fields =>
    let url := Json.textOf "url" fields
    (Json.elemsOf "supportedInterfaces" fields).all (soundInterface host ns agent) &&
      (url = "" || leadsTo host ns agent url)
  | _ => false

/-! ## Plainly written cards -/

/-- No percent escape stands in the host or in the path; the user information and the query may hold some. -/
def escapeFree (url : String) : Bool :=
  (Url.Reference.ofString url).all fun r => !r.hostPort.contains '%' && !r.path.contains '%'

/-- The names of the interface are the exact ones and not repeated, and its URL is not escaped. -/
def plainInterface : Json → Bool
  | .obj fields => Struct.plain AgentInterface.fields fields && escapeFree (Json.textOf "url" fields)
  | _ => true

/-- The card is written plainly throughout.  A top-level URL next to listed interfaces is not looked at and
may be anything. -/
def plainCard : Json → Bool
  | .obj fields =>
    let interfaces := Json.elemsOf "supportedInterfaces" fields
    Struct.plain AgentInterfaces.fields fields && interfaces.all plainInterface &&
      (!interfaces.isEmpty || escapeFree (Json.textOf "url" fields))
  | _ => true

/-- The binding is not another spelling of `JSONRPC`. -/
def spelledInterface : Json → Bool
  | .obj fields =>
    let binding := Json.textOf "protocolBinding" fields
    binding = "JSONRPC" || !Struct.equalFold binding "JSONRPC"
  | _ => true

/-- The bindings are spelled as they should be, and a top-level URL next to listed interfaces leads to the
agent. -/
def careful (host ns agent : String) : Json → Bool
  | .obj fields =>
    let url := Json.textOf "url" fields
    let interfaces := Json.elemsOf "supportedInterfaces" fields
    interfaces.all spelledInterface && (interfaces.isEmpty || url = "" || leadsTo host ns agent url)
  | _ => true

/-! ## Accepted interfaces -/

lemma ne_empty_of_append {s t : String} (hs : s ≠ "") : s ++ t ≠ "" := by
  intro h
  exact hs (String.append_eq_empty_iff.1 h).1

lemma validateInterface_eq_empty {iface : AgentInterface} {wantPath : String} {wantHost : Bytes}
    (h : validateInterface iface wantPath wantHost = "") :
    ∃ u, parse iface.url = some u ∧ u.host ≠ [] ∧
      (toLower u.scheme = "http" ∨ toLower u.scheme = "https") ∧
      trimRightPath u.path = bytes wantPath ∧ (wantHost = [] ∨ u.hostname = wantHost) ∧
      (iface.protocolBinding = "" ∨ equalFold iface.protocolBinding "JSONRPC" = true) ∧
      (iface.protocolVersion = "" ∨ iface.protocolVersion = "1" ∨
        hasPrefix iface.protocolVersion "1." = true) := by
  unfold validateInterface at h
  cases hparse : parse iface.url with
  | none =>
    rw [hparse] at h
    exact absurd h (ne_empty_of_append (by decide))
  | some u =>
    rw [hparse] at h
    dsimp only at h
    split_ifs at h with hhost hscheme hpath hname hbinding hversion
    · exact absurd h (ne_empty_of_append (by decide))
    · exact absurd h (ne_empty_of_append (by decide))
    · exact absurd h (ne_empty_of_append (ne_empty_of_append (ne_empty_of_append
        (ne_empty_of_append (by decide)))))
    · exact absurd h (ne_empty_of_append (ne_empty_of_append (ne_empty_of_append (by decide))))
    · exact absurd h (ne_empty_of_append (ne_empty_of_append (by decide)))
    · exact absurd h (ne_empty_of_append (ne_empty_of_append (by decide)))
    · refine ⟨u, rfl, hhost, ?_, not_not.1 hpath, ?_, ?_, ?_⟩
      · by_contra hnot
        exact hscheme (not_or.1 hnot)
      · by_contra hnot
        exact hname (not_or.1 hnot)
      · by_contra hnot
        rw [not_or, Bool.not_eq_true] at hnot
        exact hbinding hnot
      · by_contra hnot
        rw [not_or, not_or, Bool.not_eq_true] at hnot
        exact hversion hnot

/-! ## Accepted URLs -/

lemma lowerRune_toLower {c : Char} (h : isSchemeChar c = true) :
    lowerRune c.toLower = lowerRune c := by
  have hascii : c.toNat < 128 := by
    by_contra hge
    have hchar : ∀ d : Char, d.toNat < 128 → c ≠ d := by
      rintro d hd rfl
      exact hge hd
    simp only [isSchemeChar, isAlpha, isNum, or_eq_true, and_eq_true,
      decide_eq_true_eq, beq_iff_eq] at h
    rcases h with ((((⟨-, hz⟩ | ⟨-, hz⟩) | ⟨-, hz⟩) | hz) | hz) | hz
    · exact hge (lt_of_le_of_lt (show c.toNat ≤ 'z'.toNat from hz) (by decide))
    · exact hge (lt_of_le_of_lt (show c.toNat ≤ 'Z'.toNat from hz) (by decide))
    · exact hge (lt_of_le_of_lt (show c.toNat ≤ '9'.toNat from hz) (by decide))
    · exact hchar '+' (by decide) hz
    · exact hchar '-' (by decide) hz
    · exact hchar '.' (by decide) hz
  have hall : ∀ n : Fin 128, lowerRune (Char.ofNat n).toLower = lowerRune (Char.ofNat n) := by
    decide +kernel
  have hc := hall ⟨c.toNat, hascii⟩
  rwa [Char.ofNat_toNat] at hc

lemma path_of_trimRight {path : List Char} {want : String}
    (h : trimRightPath (bytes (String.ofList path)) = bytes want) :
    ∃ k, path = want.toList ++ List.replicate k '/' := by
  have hsplit := List.rdropWhile_append_rtakeWhile (p := (· == (0x2F : UInt8)))
    (l := bytes (String.ofList path))
  have hslashes : ∃ k, (bytes (String.ofList path)).rtakeWhile (· == (0x2F : UInt8)) =
      List.replicate k 0x2F := by
    refine ⟨_, List.eq_replicate_iff.2 ⟨rfl, fun b hb => ?_⟩⟩
    simpa using List.mem_rtakeWhile_imp hb
  rcases hslashes with ⟨k, hk⟩
  have hdrop : (bytes (String.ofList path)).rdropWhile (· == (0x2F : UInt8)) = bytes want := h
  have hbytes : bytes (String.ofList path) = bytes (want ++ String.ofList (List.replicate k '/')) := by
    rw [← hsplit, hdrop, hk, bytes_append, bytes_ofList, List.flatMap_replicate]
    simp [encodeRune]
  refine ⟨k, ?_⟩
  have hchars := congrArg String.toList (bytes_injective hbytes)
  simpa using hchars

lemma leadsTo_of_accepted {host ns agent url : String} (hns : Segment ns) (hagent : Segment agent)
    (hplain : escapeFree url = true) {u : Url.URL} (hparse : parse url = some u)
    (hhost : u.host ≠ []) (hscheme : toLower u.scheme = "http" ∨ toLower u.scheme = "https")
    (hpath : trimRightPath u.path = bytes (gatewayPath (storeKey ns agent)))
    (hname : u.hostname = hostOnly host) : leadsTo host ns agent url = true := by
  have hscheme' : u.scheme ≠ "" := by
    intro hempty
    rw [hempty] at hscheme
    revert hscheme
    decide
  have hfree : ∀ r, Url.Reference.ofString url = some r → '%' ∉ r.hostPort ∧ '%' ∉ r.path := by
    intro r hr
    simpa [escapeFree, hr] using hplain
  rcases parse_reference hparse hscheme' hhost hfree with
    ⟨r, hr, hchars, hrscheme, hrpath, hrname⟩
  rw [hrpath] at hpath
  rcases path_of_trimRight hpath with ⟨k, hk⟩
  have hlower : toLower (String.ofList r.scheme) = toLower u.scheme := by
    rw [hrscheme, toLower, toLower, String.toList_ofList, String.toList_ofList, List.map_map]
    congr 1
    exact List.map_congr_left fun c hc => (lowerRune_toLower (hchars c hc)).symm
  -- after the agent's path come slashes and the query
  obtain ⟨tail, htarget, htail⟩ : ∃ tail, String.ofList r.target =
      a2aPathPrefix ++ storeKey ns agent ++ tail ∧ PathTail tail := by
    have hquery : ∃ rest, r.target = (gatewayPath (storeKey ns agent)).toList ++ rest ∧
        (rest = [] ∨ ∃ c cs, rest = c :: cs ∧ (c = '/' ∨ c = '?')) := by
      unfold Url.Reference.target
      rw [hk, append_assoc]
      refine ⟨_, rfl, ?_⟩
      cases k with
      | succ k => exact .inr ⟨'/', _, rfl, .inl rfl⟩
      | zero =>
        cases r.query with
        | none => exact .inl rfl
        | some query => exact .inr ⟨'?', query, rfl, .inr rfl⟩
    rcases hquery with ⟨rest, hrest, hshape⟩
    refine ⟨String.ofList rest, ?_, ?_⟩
    · rw [hrest, String.ofList_append, String.ofList_toList]
      rfl
    · rcases hshape with rfl | ⟨c, cs, rfl, hc⟩
      · exact .inl rfl
      · exact .inr ⟨c, cs, String.toList_ofList, hc⟩
  have hresolve := resolveA2APath_storeKey hns hagent htail
  unfold leadsTo
  rw [hr]
  simp only [hlower, ← hrname, hname, htarget, hresolve, decide_true, Bool.and_true]
  simpa using hscheme

/-! ## Decoding a plainly written card -/

variable {fields : List (Bytes × Json)}

lemma text_of_plain {σ : Type} {names : List String} {set : String → Json → σ → Option σ} {n : String} {get : σ → String} {s s' : σ}
    (hset : ∀ v s s', set n v s = some s' → decodeString v (get s) = some (get s'))
    (hother : ∀ n' v s s', n' ≠ n → set n' v s = some s' → get s' = get s) (hn : n ∈ names)
    (hplain : plain names fields = true) (hempty : get s = "")
    (h : foldFields names set fields s = some s') : get s' = textOf n fields := by
  rcases foldFields_member _ _ hset hother hn hplain h with ⟨hnone, hget⟩ | ⟨v, hv, hval⟩
  · rw [hget, hempty, textOf, hnone]
  · rw [hempty] at hval
    exact decodeString_member hv hval

variable {i : AgentInterface} {v : Json}

/-- A field that is not the one decoded stays. -/
lemma AgentInterface.setField_other {f : String} {i' : AgentInterface}
    (h : AgentInterface.setField f v i = some i') :
    (f ≠ "url" → i'.url = i.url) ∧ (f ≠ "protocolBinding" → i'.protocolBinding = i.protocolBinding) ∧
      (f ≠ "protocolVersion" → i'.protocolVersion = i.protocolVersion) := by
  unfold AgentInterface.setField at h
  split at h
  iterate 3
    · obtain ⟨t, -, rfl⟩ := map_eq_some_iff.1 h
      simp
  next =>
    cases h
    exact ⟨fun _ => rfl, fun _ => rfl, fun _ => rfl⟩

lemma AgentInterface.decode_plain (hplain : plain AgentInterface.fields fields = true)
    (h : AgentInterface.decode (.obj fields) {} = some i) :
    i = ⟨textOf "url" fields, textOf "protocolBinding" fields,
      textOf "protocolVersion" fields⟩ := by
  have hfold : foldFields AgentInterface.fields AgentInterface.setField fields {} = some i := h
  have hurl : i.url = textOf "url" fields := by
    exact text_of_plain (fun _ _ _ => get_of_map fun _ => rfl)
      (fun _ _ _ _ hn hs => (setField_other hs).1 hn) (by decide) hplain rfl hfold
  have hbinding : i.protocolBinding = textOf "protocolBinding" fields := by
    exact text_of_plain (fun _ _ _ => get_of_map fun _ => rfl)
      (fun _ _ _ _ hn hs => (setField_other hs).2.1 hn) (by decide) hplain rfl hfold
  have hversion : i.protocolVersion = textOf "protocolVersion" fields := by
    exact text_of_plain (fun _ _ _ => get_of_map fun _ => rfl)
      (fun _ _ _ _ hn hs => (setField_other hs).2.2 hn) (by decide) hplain rfl hfold
  rw [← hurl, ← hbinding, ← hversion]

lemma AgentInterfaces.setField_other {f : String} {c c' : AgentInterfaces}
    (h : AgentInterfaces.setField f v c = some c') :
    (f ≠ "url" → c'.url = c.url) ∧
      (f ≠ "supportedInterfaces" → c'.supportedInterfaces = c.supportedInterfaces) := by
  unfold AgentInterfaces.setField at h
  split at h
  iterate 2
    · obtain ⟨t, -, rfl⟩ := map_eq_some_iff.1 h
      simp
  next =>
    cases h
    exact ⟨fun _ => rfl, fun _ => rfl⟩

variable {card : AgentInterfaces}

lemma AgentInterfaces.decode_plain
    (hplain : plain AgentInterfaces.fields fields = true)
    (h : AgentInterfaces.decode (.obj fields) = some card) :
    card.url = textOf "url" fields ∧ List.Forall₂ (fun v i => AgentInterface.decode v {} = some i)
        (elemsOf "supportedInterfaces" fields) card.supportedInterfaces.elems := by
  have hfold : foldFields AgentInterfaces.fields AgentInterfaces.setField fields {} =
      some card := h
  constructor
  · exact text_of_plain (fun _ _ _ => get_of_map fun _ => rfl)
      (fun _ _ _ _ hn hs => (setField_other hs).1 hn) (by decide) hplain rfl hfold
  · have hslice := foldFields_member (n := "supportedInterfaces")
      AgentInterfaces.supportedInterfaces (fun v is => decodeSlice AgentInterface.decode {} v is)
      (fun _ _ _ => get_of_map fun _ => rfl)
      (fun _ _ _ _ hn hs => (setField_other hs).2 hn) (by decide) hplain hfold
    rcases hslice with ⟨hnone, hget⟩ | ⟨v, hv, hval⟩
    · rw [hget, elemsOf, hnone]
      exact .nil
    · exact decodeSlice_member hv hval

/-! ## Accepted cards -/

lemma hostOnly_ne_nil {host : String} (h : host ≠ "") : hostOnly host ≠ [] := by
  have hbytes : bytes host ≠ [] := fun hnil => h (bytes_injective hnil)
  unfold hostOnly
  rw [if_neg h]
  cases parse ("//" ++ host) with
  | none => exact hbytes
  | some u =>
    dsimp only
    split_ifs with hname
    · exact hbytes
    · exact hname

section Accepted

variable {host ns agent : String}

lemma soundInterface_iff (hhost : host ≠ "") (hns : Segment ns) (hagent : Segment agent)
    (hplain : plainInterface v = true) (hdecode : AgentInterface.decode v {} = some i)
    (h : validateInterface i (gatewayPath (storeKey ns agent)) (hostOnly host) = "") :
    soundInterface host ns agent v = true ↔ spelledInterface v = true := by
  rcases validateInterface_eq_empty h with
    ⟨u, hparse, huhost, hscheme, hpath, hname, hbinding, hversion⟩
  have hname : u.hostname = hostOnly host := hname.resolve_left (hostOnly_ne_nil hhost)
  cases v with
  | obj fields =>
    simp only [plainInterface, and_eq_true] at hplain
    obtain ⟨hfields, hfree⟩ := hplain
    obtain rfl := AgentInterface.decode_plain hfields hdecode
    have hleads := leadsTo_of_accepted hns hagent hfree hparse huhost hscheme hpath hname
    have hv := or_assoc.2 hversion
    simp only [soundInterface, spelledInterface, hleads, Bool.true_and, and_eq_true, or_eq_true,
      decide_eq_true_eq, hv, and_true, not_eq_true']
    constructor
    · rintro (hempty | hexact)
      · rw [hempty]
        exact .inr (by decide)
      · exact .inl hexact
    · rintro (hexact | hnot)
      · exact .inr hexact
      · exact .inl (hbinding.resolve_right fun hfold => by
          rw [hfold] at hnot
          cases hnot)
  | null =>
    -- a null element leaves an interface without a URL, which has no host
    cases hdecode
    have hempty : (parse "").map Url.URL.host = some [] := by decide +kernel
    rw [show parse "" = some u from hparse] at hempty
    exact absurd (Option.some.inj hempty) huhost
  | bool | num | str | arr => cases hdecode

lemma leadsTo_of_topLevel (hhost : host ≠ "") (hns : Segment ns) (hagent : Segment agent)
    {url : String} (hfree : escapeFree url = true)
    (h : validateInterface { url := url } (gatewayPath (storeKey ns agent)) (hostOnly host) = "") :
    leadsTo host ns agent url = true := by
  rcases validateInterface_eq_empty h with ⟨u, hparse, huhost, hscheme, hpath, hname, -, -⟩
  exact leadsTo_of_accepted hns hagent hfree hparse huhost hscheme hpath
    (hname.resolve_left (hostOnly_ne_nil hhost))

lemma soundCard_iff (hhost : host ≠ "") (hns : Segment ns) (hagent : Segment agent)
    (hplain : plainCard (.obj fields) = true) (hurl : card.url = textOf "url" fields)
    (helems : List.Forall₂ (fun v i => AgentInterface.decode v {} = some i)
      (elemsOf "supportedInterfaces" fields) card.supportedInterfaces.elems)
    (hchecked : ∀ i ∈ card.advertised,
      validateInterface i (gatewayPath (storeKey ns agent)) (hostOnly host) = "") :
    soundCard host ns agent (.obj fields) = true ↔ careful host ns agent (.obj fields) = true := by
  have hadvertised : card.advertised = if card.supportedInterfaces.elems = [] ∧ textOf "url" fields ≠ "" then
      [{ url := textOf "url" fields }] else card.supportedInterfaces.elems := by
    rw [← hurl]
    rfl
  simp only [plainCard, and_eq_true] at hplain
  obtain ⟨⟨-, hinterfaces⟩, htop⟩ := hplain
  simp only [soundCard, careful, and_eq_true, or_eq_true, decide_eq_true_eq]
  generalize elemsOf "supportedInterfaces" fields = listed at *
  generalize textOf "url" fields = url at *
  generalize card.supportedInterfaces.elems = decoded at helems hadvertised
  by_cases hlisted : decoded = []
  · -- no interface is listed, so the top-level URL is checked
    subst hlisted
    cases helems
    refine ⟨fun _ => ⟨rfl, .inl (.inl rfl)⟩, fun _ => ⟨rfl, ?_⟩⟩
    by_cases hempty : url = ""
    · exact .inl hempty
    · refine .inr (leadsTo_of_topLevel hhost hns hagent htop (hchecked _ ?_))
      rw [hadvertised, if_pos ⟨rfl, hempty⟩]
      exact List.mem_singleton_self _
  · -- the listed interfaces are checked, and the top-level URL is not
    rw [if_neg fun hand => hlisted hand.1] at hadvertised
    have hsome : listed.isEmpty = false := by
      cases helems with
      | nil => exact absurd rfl hlisted
      | cons => rfl
    have hsound : listed.all (soundInterface host ns agent) = true ↔ listed.all spelledInterface = true := by
      rw [all_eq_true, all_eq_true]
      refine forall₂_congr fun v hv => ?_
      obtain ⟨k, hk, rfl⟩ := List.mem_iff_getElem.1 hv
      have hk' : k < decoded.length := helems.length_eq ▸ hk
      refine soundInterface_iff hhost hns hagent (all_eq_true.1 hinterfaces _ hv)
        (helems.get hk hk') (hchecked _ ?_)
      rw [hadvertised]
      exact List.getElem_mem hk'
    rw [hsound, hsome]
    simp

end Accepted

/-- Two interfaces, one of them with an escape in its user information, and a top-level URL. -/
def fullCard : Bytes :=
  bytes "\x7b\"url\":\"https://gw.example/a2a/ns/weather/v1\",\"supportedInterfaces\":[\x7b\"url\":\"https://u%40x@gw.example/a2a/ns/weather\"\x7d,\x7b\"url\":\"HTTP://gw.example:80/a2a/ns/weather/\",\"protocolBinding\":\"JSONRPC\",\"protocolVersion\":\"1.0\"\x7d]\x7d"

def topLevelCard : Bytes :=
  bytes "\x7b\"url\":\"https://evil.example/\",\"supportedInterfaces\":[\x7b\"url\":\"https://gw.example/a2a/ns/weather\"\x7d]\x7d"

def otherCaseCard : Bytes :=
  bytes "\x7b\"supportedInterfaces\":[\x7b\"url\":\"https://evil.example/\"\x7d],\"SupportedInterfaces\":[\x7b\"url\":\"https://gw.example/a2a/ns/weather\"\x7d]\x7d"

def escapedCard : Bytes :=
  bytes "\x7b\"url\":\"https://gw.example/a2a/n%73/weather\"\x7d"

end McpGateway.A2A
