import McpGateway.Foundation.Url
import McpGateway.Foundation.Utf8
import Mathlib.Data.List.TakeWhile

/-!
# URLs as they are written

A client that follows a URL splits its text: the scheme before the first colon, the authority between
the two slashes and the next one, the path, and the query after the first question mark; the fragment is
not sent.  Nothing is unescaped.

`parse_reference` compares this with `net/url.Parse`: without percent escapes before the query, both
read the same scheme, host name and path.
-/

namespace Go.Url

open Go

/-! ## Splitting a URL -/

structure Reference where
  scheme : List Char
  authority : List Char
  path : List Char
  query : Option (List Char)
  deriving DecidableEq, Repr

def hierarchical (url : String) : List Char × Option (List Char) :=
  cut (cut url.toList '#').1 '?'

namespace Reference

def ofString (url : String) : Option Reference :=
  match cut (hierarchical url).1 ':' with
  | (scheme, some ('/' :: '/' :: rest)) =>
    some ⟨scheme, rest.takeWhile (· != '/'), rest.dropWhile (· != '/'), (hierarchical url).2⟩
  | _ => none

variable (r : Reference)

def target : List Char :=
  r.path ++ match r.query with
    | some query => '?' :: query
    | none => []

def hostPort : List Char :=
  match cutLast r.authority '@' with
  | some (_, host) => host
  | none => r.authority

end Reference

def nameOfHost (host : List Char) : List Char :=
  match host with
  | '[' :: rest =>
    match cutLast rest ']' with
    | some (address, _) => address
    | none => rest
  | _ => host.takeWhile (· != ':')

def Reference.hostName (r : Reference) : List Char := nameOfHost r.hostPort

/-! ## Cutting -/

lemma cut_fst (cs : List Char) (sep : Char) : (cut cs sep).1 = cs.takeWhile (· != sep) := by
  unfold cut
  split
  next hdrop =>
    have hsplit := List.takeWhile_append_dropWhile (p := (· != sep)) (l := cs)
    rw [hdrop, append_nil] at hsplit
    exact hsplit.symm
  next => rfl

variable {front rest : List Char} {sep : Char}

lemma cut_append_cons (h : sep ∉ front) : cut (front ++ sep :: rest) sep = (front, some rest) := by
  have hall : ∀ c ∈ front, (c != sep) = true := by
    intro c hc
    simpa using ne_of_mem_of_not_mem hc h
  have hdrop : (front ++ sep :: rest).dropWhile (· != sep) = sep :: rest := by
    rw [List.dropWhile_append_of_pos hall]
    simp
  have htake : (front ++ sep :: rest).takeWhile (· != sep) = front := by
    rw [List.takeWhile_append_of_pos hall]
    simp
  unfold cut
  rw [hdrop]
  simp [htake]

variable {cs : List Char}

lemma cut_of_not_mem (h : sep ∉ cs) : cut cs sep = (cs, none) := by
  have hdrop : cs.dropWhile (· != sep) = [] := by
    rw [List.dropWhile_eq_nil_iff]
    intro c hc
    simpa using ne_of_mem_of_not_mem hc h
  unfold cut
  rw [hdrop]

lemma exists_cut (h : sep ∈ cs) : ∃ front rest, cs = front ++ sep :: rest ∧ sep ∉ front := by
  induction cs with
  | nil => cases h
  | cons c cs ih =>
    by_cases hc : c = sep
    · exact ⟨[], cs, by rw [hc]; rfl, not_mem_nil⟩
    · rcases mem_cons.1 h with rfl | hmem
      · exact absurd rfl hc
      · rcases ih hmem with ⟨front, rest, rfl, hnot⟩
        exact ⟨c :: front, rest, rfl, by simp [hnot, Ne.symm hc]⟩

lemma cutLast_append_cons (h : sep ∉ rest) : cutLast (front ++ sep :: rest) sep = some (front, rest) := by
  have hrev : (front ++ sep :: rest).reverse = rest.reverse ++ sep :: front.reverse := by simp
  unfold cutLast
  rw [hrev, cut_append_cons (by simpa using h)]
  simp

lemma cutLast_eq_some
    (h : cutLast cs sep = some (front, rest)) : cs = front ++ sep :: rest ∧ sep ∉ rest := by
  unfold cutLast at h
  by_cases hmem : sep ∈ cs.reverse
  · rcases exists_cut hmem with ⟨after, before, hrev, hnot⟩
    rw [hrev, cut_append_cons hnot] at h
    simp only [Option.some.injEq, Prod.mk.injEq] at h
    rcases h with ⟨rfl, rfl⟩
    refine ⟨?_, by simpa using hnot⟩
    rw [← List.reverse_reverse cs, hrev]
    simp
  · rw [cut_of_not_mem hmem] at h
    cases h

/-! ## The host -/

lemma unescape_plain {allowed : Nat → Bool} (h : '%' ∉ cs) :
    unescape allowed cs = some (cs.flatMap encodeRune) := by
  induction cs with
  | nil => rfl
  | cons c cs ih =>
    have hc : c ≠ '%' := fun heq => h (heq ▸ mem_cons_self)
    have hrest := ih fun hmem => h (mem_cons_of_mem _ hmem)
    unfold unescape
    split
    next heq => cases heq
    next heq => exact absurd (List.head_eq_of_cons_eq heq) hc
    next heq => exact absurd (List.head_eq_of_cons_eq heq) hc
    next heq =>
      cases heq
      rw [hrest, flatMap_cons]
      rfl

lemma digits_flatMap {ds : List Char} (h : ds.all isNum = true) :
    (ds.flatMap encodeRune).all (fun b => 0x30 ≤ b.toNat && b.toNat ≤ 0x39) = true := by
  rw [all_eq_true]
  intro b hb
  rcases mem_flatMap.1 hb with ⟨c, hc, hbc⟩
  have hnum := all_eq_true.1 h c hc
  simp only [isNum, and_eq_true, decide_eq_true_eq] at hnum
  have hlow : 0x30 ≤ c.toNat := hnum.1
  have hhigh : c.toNat ≤ 0x39 := hnum.2
  rw [encodeRune_ascii (by omega), mem_singleton] at hbc
  rw [hbc, toNat_toUInt8 (by omega)]
  simp [hlow, hhigh]

lemma mem_flatMap_ascii {c : Char} (hc : c.toNat < 0x80) :
    c.toNat.toUInt8 ∈ cs.flatMap encodeRune ↔ c ∈ cs := by
  have hval : c.toNat.toUInt8.toNat = c.toNat := toNat_toUInt8 (by omega)
  constructor
  · intro hmem
    rcases mem_flatMap.1 hmem with ⟨d, hd, hb⟩
    have heq := encodeRune_of_mem hb (by omega)
    rw [hval] at heq
    rwa [← Char.ofNat_toNat c, ← heq, Char.ofNat_toNat]
  · intro hmem
    exact mem_flatMap.2 ⟨c, hmem, by rw [encodeRune_ascii hc]; exact List.mem_singleton_self _⟩

variable {u : URL}

lemma hostname_of_port {name digits : Bytes} (hu : u.host = name ++ 0x3A :: digits)
    (hdigits : digits.all (fun b => 0x30 ≤ b.toNat && b.toNat ≤ 0x39) = true) :
    u.hostname = unbracket name := by
  have hnot : ∀ b ∈ digits.reverse, (b != 0x3A) = true := by
    intro b hb
    have hdigit := all_eq_true.1 hdigits b (by simpa using hb)
    rw [bne_iff_ne]
    rintro rfl
    exact absurd hdigit (by decide)
  have hport : (u.host.reverse.takeWhile (· != 0x3A)).reverse = digits := by
    rw [hu, List.reverse_append, List.reverse_cons, append_assoc, List.takeWhile_append_of_pos hnot]
    simp
  have hcontains : u.host.contains 0x3A = true := by
    rw [hu]
    simp
  unfold URL.hostname
  simp only [hport, hcontains, hdigits, Bool.and_self, if_true]
  have hlen : u.host.length - digits.length - 1 = name.length := by
    rw [hu, length_append, length_cons]
    omega
  rw [hlen, hu, List.take_left]

lemma hostname_of_no_port (h : u.host.contains 0x3A = true →
    (u.host.reverse.takeWhile (· != 0x3A)).reverse.all
      (fun b => 0x30 ≤ b.toNat && b.toNat ≤ 0x39) = false) : u.hostname = unbracket u.host := by
  unfold URL.hostname
  dsimp only
  split_ifs with hport
  · rw [and_eq_true] at hport
    rw [h hport.1] at hport
    cases hport.2
  · rfl

lemma unbracket_brackets (inner : Bytes) : unbracket (0x5B :: (inner ++ [0x5D])) = inner := by
  rw [unbracket, if_pos]
  · simp
  · rw [← cons_append, List.getLast?_concat]
    exact ⟨rfl, rfl⟩

lemma unbracket_plain {host : Bytes} (h : (0x5B : UInt8) ∉ host) : unbracket host = host := by
  unfold unbracket
  rw [if_neg]
  rintro ⟨hhead, -⟩
  exact h (List.mem_of_head? hhead)

lemma flatMap_append_cons (front rest : List Char) {c : Char} (hc : c.toNat < 0x80) :
    (front ++ c :: rest).flatMap encodeRune =
      front.flatMap encodeRune ++ c.toNat.toUInt8 :: rest.flatMap encodeRune := by
  rw [List.flatMap_append, flatMap_cons, encodeRune_ascii hc]
  rfl

lemma hostname_brackets {inner port : List Char}
    (hu : u.host = ('[' :: (inner ++ ']' :: port)).flatMap encodeRune)
    (hport : validOptionalPort port = true) : u.hostname = inner.flatMap encodeRune := by
  have hbytes : u.host = 0x5B :: (inner.flatMap encodeRune ++ 0x5D :: port.flatMap encodeRune) := by
    rw [hu, flatMap_cons, flatMap_append_cons inner port (by decide)]
    rfl
  cases port with
  | nil =>
    rw [hostname_of_no_port, hbytes]
    · exact unbracket_brackets _
    · intro _
      -- what follows the last colon ends with the bracket
      have hrev : u.host.reverse = 0x5D :: (0x5B :: inner.flatMap encodeRune).reverse := by
        rw [hbytes]
        simp
      rw [hrev, List.takeWhile_cons_of_pos (by decide)]
      simp
  | cons c digits =>
    simp only [validOptionalPort, and_eq_true, beq_iff_eq] at hport
    rcases hport with ⟨rfl, hdigits⟩
    have hsplit : u.host = 0x5B :: (inner.flatMap encodeRune ++ [0x5D]) ++
        0x3A :: digits.flatMap encodeRune := by
      rw [hbytes, flatMap_cons, encodeRune_ascii (by decide : (':' : Char).toNat < 0x80)]
      simp
    rw [hostname_of_port hsplit (digits_flatMap hdigits), unbracket_brackets]

lemma hostname_name {u : URL} {cs : List Char} (hu : u.host = cs.flatMap encodeRune)
    (hbracket : '[' ∉ cs) (hport : ∀ port, (cut cs ':').2 = some port → port.all isNum = true) :
    u.hostname = (cs.takeWhile (· != ':')).flatMap encodeRune := by
  have hplain : ∀ {name : List Char}, '[' ∉ name →
      unbracket (name.flatMap encodeRune) = name.flatMap encodeRune := by
    intro name hname
    refine unbracket_plain fun hmem => hname ?_
    exact (mem_flatMap_ascii (c := '[') (by decide)).1 hmem
  by_cases hcolon : ':' ∈ cs
  · rcases exists_cut hcolon with ⟨name, digits, rfl, hnot⟩
    rw [cut_append_cons hnot] at hport
    have htake : (name ++ ':' :: digits).takeWhile (· != ':') = name := by
      rw [← cut_fst, cut_append_cons hnot]
    have hsplit : u.host = name.flatMap encodeRune ++ 0x3A :: digits.flatMap encodeRune := by
      rw [hu, flatMap_append_cons name digits (by decide)]
      rfl
    rw [hostname_of_port hsplit (digits_flatMap (hport digits rfl)), htake]
    exact hplain fun hmem => hbracket (mem_append_left _ hmem)
  · have htake : cs.takeWhile (· != ':') = cs := by
      rw [← cut_fst, cut_of_not_mem hcolon]
    rw [hostname_of_no_port, hu, htake]
    · exact hplain hbracket
    · intro hmem
      rw [hu] at hmem
      exact absurd ((mem_flatMap_ascii (c := ':') (by decide)).1 (List.contains_iff_mem.1 hmem)) hcolon

lemma hostname_of_parseHost (h : parseHost cs = some u.host)
    (hplain : '%' ∉ cs) : u.hostname = (nameOfHost cs).flatMap encodeRune := by
  unfold parseHost at h
  split at h
  next rest =>
    split at h
    next => cases h
    next front port hcut =>
      split_ifs at h with hok
      rw [unescape_plain hplain] at h
      rcases cutLast_eq_some hcut with ⟨hcs, hnot⟩
      rw [and_eq_true] at hok
      cases front with
      | nil => cases hcs
      | cons c inner =>
        rw [cons_append, List.cons.injEq] at hcs
        rcases hcs with ⟨rfl, rfl⟩
        have hname : nameOfHost ('[' :: (inner ++ ']' :: port)) = inner := by
          simp [nameOfHost, cutLast_append_cons hnot]
        rw [hname]
        exact hostname_brackets (Option.some.inj h).symm hok.1
  next hhead =>
    dsimp only at h
    split_ifs at h with hok
    rw [unescape_plain hplain] at h
    simp only [and_eq_true, not_eq_true', List.contains_eq_mem, decide_eq_false_iff_not] at hok
    have hname : nameOfHost cs = cs.takeWhile (· != ':') := by
      unfold nameOfHost
      split
      next rest => exact absurd rfl (hhead rest)
      next => rfl
    rw [hname]
    refine hostname_name (Option.some.inj h).symm hok.1.2 fun port hport => ?_
    have hportOk := hok.1.1
    rw [hport] at hportOk
    exact hportOk

/-! ## Parsing and splitting -/

lemma drop_length_takeWhile {α : Type} (p : α → Bool) (l : List α) :
    l.drop (l.takeWhile p).length = l.dropWhile p := by
  induction l with
  | nil => rfl
  | cons a l ih =>
    by_cases ha : p a = true
    · simp [ha, ih]
    · simp [ha]

def isSchemeChar (c : Char) : Bool := isAlpha c || isNum c || c == '+' || c == '-' || c == '.'

lemma getScheme_eq_some {scheme : List Char} (h : getScheme cs = some (scheme, rest))
    (hne : scheme ≠ []) : ∃ front, cs = front ++ ':' :: rest ∧ scheme = front.map Char.toLower ∧
    ∀ c ∈ front, isSchemeChar c = true := by
  unfold getScheme at h
  split at h
  next =>
    cases h
    exact absurd rfl hne
  next => cases h
  next c cs hc =>
    split_ifs at h with halpha
    · cases h
      exact absurd rfl hne
    · dsimp only at h
      split at h
      next rest' hdrop =>
        simp only [Option.some.injEq, Prod.mk.injEq] at h
        rcases h with ⟨rfl, rfl⟩
        rw [drop_length_takeWhile] at hdrop
        have hsplit := List.takeWhile_append_dropWhile
          (p := fun c => isAlpha c || isNum c || c == '+' || c == '-' || c == '.') (l := c :: cs)
        rw [hdrop] at hsplit
        exact ⟨_, hsplit.symm, rfl, fun d hd => List.mem_takeWhile_imp hd⟩
      next =>
        cases h
        exact absurd rfl hne

lemma parse_eq_some {url : String} (h : parse url = some u) (hscheme : u.scheme ≠ "")
    (hhost : u.host ≠ []) :
    ∃ scheme rest body user, getScheme (cut url.toList '#').1 = some (scheme, rest) ∧ scheme ≠ [] ∧
      u.scheme = String.ofList scheme ∧ (cut rest '?').1 = '/' :: '/' :: body ∧
      parseAuthority (body.takeWhile (· != '/')) = some (user, u.host) ∧
      unescape (fun _ => true) (body.dropWhile (· != '/')) = some u.path := by
  unfold parse at h
  obtain ⟨frag, -, h⟩ := bind_eq_some_iff.1 h
  split_ifs at h with hctl hstar
  · cases h
    exact absurd rfl hscheme
  · obtain ⟨⟨scheme, rest⟩, hget, h⟩ := bind_eq_some_iff.1 h
    dsimp only at h
    split_ifs at h with hopaque hcolon hslashes
    · cases h
      exact absurd rfl hhost
    · obtain ⟨⟨user, host⟩, hauth, h⟩ := bind_eq_some_iff.1 h
      obtain ⟨path, hpath, h⟩ := bind_eq_some_iff.1 h
      cases h
      have hne : scheme ≠ [] := by
        rintro rfl
        exact hscheme rfl
      obtain ⟨body, hbody⟩ : ∃ body, (cut rest '?').1 = '/' :: '/' :: body := by
        have hstart := List.isPrefixOf_iff_prefix.1 hslashes.1
        rcases hstart with ⟨body, hbody⟩
        exact ⟨body, hbody.symm⟩
      rw [hbody] at hauth hpath
      have hdrop : ('/' :: '/' :: body).drop 2 = body := rfl
      rw [hdrop, cut_fst] at hauth
      rw [hdrop, cut_fst, Nat.add_comm] at hpath
      refine ⟨scheme, rest, body, user, hget, hne, rfl, hbody, hauth, ?_⟩
      rw [← drop_length_takeWhile]
      exact hpath
    · obtain ⟨path, hpath, h⟩ := bind_eq_some_iff.1 h
      cases h
      exact absurd rfl hhost

lemma parseAuthority_eq_some {user : Option Bytes} {host : Bytes} (h : parseAuthority cs = some (user,
    host)) : parseHost ((cutLast cs '@').elim cs Prod.snd) = some host := by
  unfold parseAuthority at h
  cases hcut : cutLast cs '@' with
  | none =>
    rw [hcut] at h
    rcases map_eq_some_iff.1 h with ⟨host', hhost, heq⟩
    cases heq
    exact hhost
  | some parts =>
    obtain ⟨userinfo, hostPort⟩ := parts
    rw [hcut] at h
    obtain ⟨host', hhost, h⟩ := bind_eq_some_iff.1 h
    split_ifs at h
    obtain ⟨u, -, h⟩ := bind_eq_some_iff.1 h
    cases h
    exact hhost

lemma parse_reference {url : String} (h : parse url = some u) (hscheme : u.scheme ≠ "")
    (hhost : u.host ≠ [])
    (hplain : ∀ r, Reference.ofString url = some r → '%' ∉ r.hostPort ∧ '%' ∉ r.path) :
    ∃ r, Reference.ofString url = some r ∧ (∀ c ∈ r.scheme, isSchemeChar c = true) ∧
      u.scheme = String.ofList (r.scheme.map Char.toLower) ∧
      u.path = bytes (String.ofList r.path) ∧ u.hostname = bytes (String.ofList r.hostName) := by
  rcases parse_eq_some h hscheme hhost with ⟨scheme, rest, body, user, hget, hne, hu, hrest, hauth, hpath⟩
  rcases getScheme_eq_some hget hne with ⟨front, hcs, rfl, hchars⟩
  have hnot : ∀ c, isSchemeChar c = false → c ∉ front := by
    intro c hc hmem
    rw [hchars c hmem] at hc
    cases hc
  -- the query follows the scheme, so cutting it off leaves the scheme
  have hhier : (hierarchical url).1 = front ++ ':' :: '/' :: '/' :: body := by
    have hall : ∀ c ∈ front, (c != '?') = true := by
      intro c hc
      rw [bne_iff_ne]
      rintro rfl
      exact hnot '?' (by decide) hc
    rw [hierarchical, hcs, cut_fst, List.takeWhile_append_of_pos hall,
      List.takeWhile_cons_of_pos (by decide), ← cut_fst, hrest]
  have hsplit : Reference.ofString url = some ⟨front, body.takeWhile (· != '/'),
      body.dropWhile (· != '/'), (hierarchical url).2⟩ := by
    unfold Reference.ofString
    rw [hhier, cut_append_cons (hnot ':' (by decide))]
    rfl
  obtain ⟨hhostPlain, hpathPlain⟩ := hplain _ hsplit
  refine ⟨_, hsplit, hchars, hu, ?_, ?_⟩
  · rw [unescape_plain hpathPlain] at hpath
    rw [bytes_ofList]
    exact (Option.some.inj hpath).symm
  · have hparsed := parseAuthority_eq_some hauth
    have hhostPort : Reference.hostPort ⟨front, body.takeWhile (· != '/'),
        body.dropWhile (· != '/'), (hierarchical url).2⟩ =
          (cutLast (body.takeWhile (· != '/')) '@').elim (body.takeWhile (· != '/')) Prod.snd := by
      unfold Reference.hostPort
      cases cutLast (body.takeWhile (· != '/')) '@' with
      | none => rfl
      | some parts => rfl
    rw [bytes_ofList, Reference.hostName]
    rw [hhostPort] at hhostPlain ⊢
    exact hostname_of_parseHost hparsed hhostPlain

end Go.Url
