import Keycast.Core.RegisteredClients
import Keycast.Lib.Url

/-!
# `Core/Wildcards.lean` — which addresses a wildcard lets through

`matches_redirect_pattern` compares texts: the two parts of the pattern with the ends of the URI,
and what is left over with nothing but `/`. A browser then reads the URI as an address. For the two
kinds of wildcard its comment names, `https://*.D/p` and `http://localhost:*/p`, this is about where
the addresses that match lead.

`matches_iff` turns the matcher into a segment between the fixed parts of the pattern. The address
is then known up to the segment, and the parser is followed through it: the cut before the query
(`before_fixed`), the authority (`parseAuthority_label`, `parseAuthority_port`) and the path
(`parsePath_label`). Each wildcard has its own condition on the segment (`HarmlessLabel`,
`HarmlessPort`) and its own equivalence (`label_iff`, `port_iff`). The segment of a match is
determined, so that a condition on some segment is one on the segment that was matched
(`exists_segment_iff`).
-/

set_option autoImplicit false

namespace Keycast

open Lib

/-! ## What matches -/

theorem splitOnce_append {c : Char} {pre : String} (hpre : c ∉ pre.toList) (suf : String) :
    splitOnce c (pre ++ String.singleton c ++ suf) = some (pre, suf) := by
  have htext : (pre ++ String.singleton c ++ suf).toList = pre.toList ++ c :: suf.toList := by simp
  have hall : ∀ d ∈ pre.toList, decide (d ≠ c) = true := by
    intro d hd
    exact decide_eq_true fun heq => hpre (heq ▸ hd)
  unfold splitOnce
  rw [htext, List.dropWhile_append_of_pos hall, List.takeWhile_append_of_pos hall]
  simp

/-- A slice from the end of one beginning to the start of one end lies between the two. -/
theorem slice_between {pre suf uri segment : String} (hpre : startsWith uri pre = true)
    (hsuf : endsWith uri suf = true)
    (h : slice uri pre.utf8ByteSize (uri.utf8ByteSize - suf.utf8ByteSize) = some segment) :
    uri = pre ++ segment ++ suf := by
  obtain ⟨post, hpost⟩ := startsWith_iff.mp hpre
  obtain ⟨front, rfl⟩ := endsWith_iff.mp hsuf
  have hhi : (front ++ suf).utf8ByteSize - suf.utf8ByteSize = front.utf8ByteSize := by
    rw [String.utf8ByteSize_append, Nat.add_sub_cancel]
  rw [hhi, slice, sliceTo_append, Option.bind_some] at h
  obtain ⟨head, rfl⟩ := mem_tails_ofList.mp (List.mem_of_find?_eq_some h)
  have hfound := List.find?_some h
  have hsize : segment.utf8ByteSize + pre.utf8ByteSize = (head ++ segment).utf8ByteSize :=
    beq_iff_eq.mp hfound
  rw [String.utf8ByteSize_append] at hsize
  rw [String.append_assoc] at hpost
  rw [(append_inj_of_size hpost (by omega)).1]

/-- **What a pattern with a wildcard matches**: its two parts, with a text between them that has no
slash. -/
theorem matches_iff {pre : String} (hpre : '*' ∉ pre.toList) (suf uri : String) :
    matchesRedirectPattern (pre ++ "*" ++ suf) uri = some true ↔
      ∃ segment, uri = pre ++ segment ++ suf ∧ '/' ∉ segment.toList := by
  have hsplit : splitOnce '*' (pre ++ "*" ++ suf) = some (pre, suf) := splitOnce_append hpre suf
  unfold matchesRedirectPattern
  split
  next heq => exact ⟨fun _ => ⟨"*", heq.symm, by decide⟩, fun _ => rfl⟩
  next hne =>
    rw [hsplit]
    dsimp only
    constructor
    · intro h
      split at h
      · cases h
      next hends =>
      have hboth : startsWith uri pre = true ∧ endsWith uri suf = true := by simpa using hends
      obtain ⟨segment, hsegment, hslash⟩ := Option.map_eq_some_iff.mp h
      exact ⟨segment, slice_between hboth.1 hboth.2 hsegment, by simpa using hslash⟩
    · rintro ⟨segment, rfl, hslash⟩
      have hstart : startsWith (pre ++ segment ++ suf) pre = true :=
        startsWith_iff.mpr ⟨segment ++ suf, String.append_assoc ..⟩
      have hend : endsWith (pre ++ segment ++ suf) suf = true := endsWith_iff.mpr ⟨_, rfl⟩
      rw [hstart, hend, slice_append]
      simpa using hslash

/-! ## Domains and paths -/

/-- A host parser that takes a `:` for nothing but a part of an address in brackets. -/
def RefusesColons (parseHost : HostParser) : Prop :=
  ∀ host, ':' ∈ host → (∀ c ∈ host.getLast?, c ≠ ']') → parseHost host = none

/-- A domain as an address that has been read has it: the host parser leaves it alone at the end of
a name. -/
structure IsDomain (parseHost : HostParser) (domain : List Char) : Prop where
  letters : ∀ c ∈ domain, c.isLower ∨ c.isDigit ∨ c = '-' ∨ c = '.'
  head : ∃ c rest, domain = c :: rest ∧ c ≠ '.'
  stays : ∀ front host, parseHost (front ++ '.' :: domain) = some host →
    ∃ name, host = name ++ '.' :: domain

/-- The address leads to a host below the domain, by `https` and to this path. -/
def LeadsBelow (domain path : List Char) (x : Location) : Prop :=
  x.scheme = "https".toList ∧ x.path = path.splitOn '/' ∧
    ∃ name, name ≠ [] ∧ x.authority.host = name ++ '.' :: domain

/-- It leads to this machine and to this path. -/
def LeadsToLocalhost (path : List Char) (x : Location) : Prop :=
  x.authority.host = "localhost".toList ∧ x.path = path.splitOn '/'

/-- What a browser makes of the URI. -/
def Leads (parseHost : HostParser) (uri : String) (P : Location → Prop) : Prop :=
  ∃ v, parseUrl parseHost uri.toList = some v ∧ P v.location

/-! ## Harmless segments -/

/-- A query or a fragment that begins in the segment: what is before it has to be the whole
address. -/
def LeadsAlone (parseHost : HostParser) (front segment : List Char) (P : Location → Prop) : Prop :=
  ∃ x, parseBase parseHost (front ++ before '?' (before '#' segment)) = some x ∧ P x

/-- The segments that stand for a name below the domain. Tabs and newlines do not count, and neither
do backslashes where the address has slashes anyway. -/
def HarmlessLabel (parseHost : HostParser) (domain path segment : List Char) : Prop :=
  let text := segment.filter kept
  if '?' ∈ text ∨ '#' ∈ text then
    LeadsAlone parseHost "https://".toList text (LeadsBelow domain path)
  else
    let text := text.dropWhile slash
    -- behind the user info is a name, and a label at least
    '\\' ∉ text ∧ ':' ∉ afterUserinfo text ∧
    (parseHost (afterUserinfo text ++ '.' :: domain)).isSome ∧
      parseHost (afterUserinfo text ++ '.' :: domain) ≠ some ('.' :: domain)

/-- A port; or user info, to which `localhost` belongs then, and the same host again. -/
def LocalPort (parseHost : HostParser) (text : List Char) : Prop :=
  if '@' ∈ text then
    ∃ x, parseAuthority parseHost "http".toList (afterUserinfo text) = some x ∧
      x.host = "localhost".toList
  else (parsePort "http".toList text).isSome

/-- The segments that stand for a port. A backslash begins a path, which has to come to nothing. -/
def HarmlessPort (parseHost : HostParser) (path segment : List Char) : Prop :=
  let text := segment.filter kept
  if '?' ∈ text ∨ '#' ∈ text then
    LeadsAlone parseHost "http://localhost:".toList text (LeadsToLocalhost path)
  else
    LocalPort parseHost (before '\\' text) ∧
      ∀ front ∈ after '\\' text, walkFront [] (front.splitOnP slash) = []

/-! ## The address -/

/-- The fixed parts of an address: nothing in them is cleaned away, and neither has a query or a
fragment. -/
structure Fixed (part : List Char) : Prop where
  ne : part ≠ []
  kept : ∀ c ∈ part, ¬ blank c ∧ c ≠ '?' ∧ c ≠ '#'

section Address

variable {parseHost : HostParser} {front back : List Char} {P : Location → Prop}

theorem Fixed.not_mem {part : List Char} (h : Fixed part) : '?' ∉ part ∧ '#' ∉ part :=
  ⟨fun hmem => (h.kept _ hmem).2.1 rfl, fun hmem => (h.kept _ hmem).2.2 rfl⟩

theorem Fixed.filter {part : List Char} (h : Fixed part) : part.filter Lib.kept = part :=
  List.filter_eq_self.mpr fun c hc => kept_of_not_blank (h.kept c hc).1

theorem cleanUrl_fixed (hfront : Fixed front) (hback : Fixed back) (segment : List Char) :
    cleanUrl (front ++ segment ++ back) = front ++ segment.filter Lib.kept ++ back := by
  rw [cleanUrl_eq_filter, List.filter_append, List.filter_append, hfront.filter, hback.filter]
  · intro c hc
    obtain ⟨d, rest, rfl⟩ := List.exists_cons_of_ne_nil hfront.ne
    cases hc
    exact (hfront.kept _ List.mem_cons_self).1
  · intro c hc
    rw [List.getLast?_append_of_ne_nil _ hback.ne] at hc
    exact (hback.kept c (List.mem_of_getLast? hc)).1

/-- What a browser reads up to the query. -/
theorem before_fixed (hfront : Fixed front) (hback : Fixed back) (text : List Char) :
    before '?' (before '#' (front ++ text ++ back)) =
      if '?' ∈ text ∨ '#' ∈ text then front ++ before '?' (before '#' text)
      else front ++ text ++ back := by
  obtain ⟨hquestion, hhash⟩ := hfront.not_mem
  obtain ⟨hquestion', hhash'⟩ := hback.not_mem
  rw [List.append_assoc, before_append hhash]
  by_cases h : '#' ∈ text
  · rw [if_pos (.inr h), before_append_of_mem h, before_append hquestion]
  rw [before_append h, before_of_not_mem hhash', before_append hquestion, before_of_not_mem h]
  by_cases h' : '?' ∈ text
  · rw [if_pos (.inl h'), before_append_of_mem h']
  · rw [if_neg (fun hor => hor.elim h' h), before_append h', before_of_not_mem hquestion']

theorem leads_iff (hfront : Fixed front) (hback : Fixed back) {uri : String} {segment : List Char}
    (huri : uri.toList = front ++ segment ++ back) :
    Leads parseHost uri P ↔
      if '?' ∈ segment.filter Lib.kept ∨ '#' ∈ segment.filter Lib.kept then
        LeadsAlone parseHost front (segment.filter Lib.kept) P
      else ∃ x, parseBase parseHost (front ++ segment.filter Lib.kept ++ back) = some x ∧ P x := by
  rw [Leads, exists_parseUrl_iff, huri, cleanUrl_fixed hfront hback, before_fixed hfront hback]
  split
  · rfl
  · rfl

end Address

/-- An address by its scheme. -/
theorem parseBase_of_scheme (parseHost : HostParser) (scheme : List Char) (hcolon : ':' ∉ scheme)
    (hscheme : scheme = "http".toList ∨ scheme = "https".toList) (rest : List Char) {x : Location} :
    parseBase parseHost (scheme ++ ':' :: '/' :: '/' :: rest) = some x ↔
      x.scheme = scheme ∧
      parseAuthority parseHost scheme ((rest.dropWhile slash).takeWhile (!slash ·)) =
        some x.authority ∧
      x.path = parsePath ((rest.dropWhile slash).dropWhile (!slash ·)) := by
  have hlower : scheme.map Char.toLower = scheme := by
    rcases hscheme with rfl | rfl
    · decide
    · decide
  rw [parseBase_eq_some, before_append hcolon, before_cons_self, List.append_nil, hlower,
    after_append hcolon,
    after_cons_self]
  have hdrop : ('/' :: '/' :: rest).dropWhile slash = rest.dropWhile slash := rfl
  constructor
  · rintro ⟨-, hx, rest', hrest, hauthority, hpath⟩
    cases hrest
    rw [hdrop] at hauthority hpath
    exact ⟨hx, hx ▸ hauthority, hpath⟩
  · rintro ⟨hx, hauthority, hpath⟩
    refine ⟨hx ▸ hscheme, hx, _, rfl, ?_, ?_⟩
    · rw [hdrop, hx]
      exact hauthority
    · rw [hdrop]
      exact hpath

theorem takeWhile_not_slash {text : List Char} (h : ∀ c ∈ text, slash c = false) {s : Char}
    (hs : slash s = true)
    (rest : List Char) :
    (text ++ s :: rest).takeWhile (!slash ·) = text ∧
      (text ++ s :: rest).dropWhile (!slash ·) = s :: rest := by
  have hall : ∀ c ∈ text, (!slash c) = true := by
    intro c hc
    rw [h c hc]
    rfl
  rw [List.takeWhile_append_of_pos hall, List.dropWhile_append_of_pos hall,
    List.takeWhile_cons_of_neg (by simp [hs]), List.dropWhile_cons_of_neg (by simp [hs]),
      List.append_nil]
  exact ⟨rfl, rfl⟩

/-! ## Below the domain -/

section Label

variable {parseHost : HostParser} {domain path : List Char}

theorem IsDomain.not_mem (h : IsDomain parseHost domain) {d : Char}
    (hd : ¬ (d.isLower ∨ d.isDigit ∨ d = '-' ∨ d = '.')) : d ∉ domain :=
      fun hmem => hd (h.letters d hmem)

/-- The authority: nothing but a name may stand before the domain. -/
theorem parseAuthority_label (hcolon : RefusesColons parseHost)
    (hdomain : IsDomain parseHost domain)
    (text : List Char) {x : Authority} :
    parseAuthority parseHost "https".toList (text ++ '.' :: domain) = some x ↔
      ':' ∉ afterUserinfo text ∧ parseHost (afterUserinfo text ++ '.' :: domain) = some x.host ∧
        x.port = none := by
  have hat : ∀ c ∈ '.' :: domain, decide (c ≠ '@') = true := by
    refine all_ne_of_not_mem fun hmem => ?_
    rcases List.mem_cons.mp hmem with h | h
    · cases h
    · exact hdomain.not_mem (by decide) h
  have hback : ':' ∉ '.' :: domain := by
    intro hmem
    rcases List.mem_cons.mp hmem with h | h
    · cases h
    · exact hdomain.not_mem (by decide) h
  unfold parseAuthority
  rw [afterUserinfo, rtakeWhile_append_of_all hat, ← afterUserinfo]
  by_cases hmem : ':' ∈ afterUserinfo text
  · refine iff_of_false ?_ fun h => h.1 hmem
    rw [splitHost_append hback]
    cases hsplit : splitHost false (afterUserinfo text) with
    | mk host port =>
      cases port with
      | none =>
        -- the host keeps a `:` and does not end in a bracket
        have hhost := splitHost_none hsplit
        have hrefused : parseHost (host ++ '.' :: domain) = none := by
          refine hcolon _ (List.mem_append_left _ (hhost ▸ hmem)) fun c hc => ?_
          rw [List.getLast?_append_of_ne_nil _ (by simp)] at hc
          rintro rfl
          rcases List.mem_cons.mp (List.mem_of_getLast? hc) with h | h
          · cases h
          · exact hdomain.not_mem (by decide) h
        simp [hrefused]
      | some port =>
        have hport : parsePort "https".toList (port ++ '.' :: domain) = none := by
          unfold parsePort
          rw [if_neg (by simp), if_neg]
          intro hall
          have hdot := List.all_eq_true.mp hall '.' (by simp)
          revert hdot
          decide
        dsimp only [Option.getD_some]
        rw [hport]
        split
        · simp
        · cases parseHost host <;> simp
  · have hno : ':' ∉ afterUserinfo text ++ '.' :: domain :=
      fun h => (List.mem_append.mp h).elim hmem hback
    rw [splitHost_of_not_mem hno]
    dsimp only
    rw [if_neg (by simp)]
    cases hparse : parseHost (afterUserinfo text ++ '.' :: domain) with
    | none => simp
    | some host =>
      change some (⟨host, none⟩ : Authority) = some x ↔ _
      constructor
      · rintro ⟨⟩
        exact ⟨hmem, rfl, rfl⟩
      · rintro ⟨-, hhost, hport⟩
        cases x
        cases hhost
        cases hport
        rfl

theorem toLower_letter {c : Char} (h : c.isLower ∨ c.isDigit ∨ c = '-' ∨ c = '.') :
    c.toLower = c := by
  unfold Char.toLower
  rw [dif_neg]
  rintro ⟨hlow, hhigh⟩
  have hlow' : 65 ≤ c.toNat := hlow
  have hhigh' : c.toNat ≤ 90 := hhigh
  rcases h with h | h | rfl | rfl
  · have h97 := le_of_isLower h
    omega
  · simp only [Char.isDigit, Bool.and_eq_true, decide_eq_true_eq] at h
    have h57 : c.toNat ≤ 57 := h.2
    omega
  · revert hlow'
    decide
  · revert hlow'
    decide

/-- In a dot segment a dot is followed by nothing, by a dot or by an escape. -/
theorem not_dot_of_label {segment front rest : List Char} {c : Char}
    (hsegment : segment = front ++ '.' :: c :: rest)
    (hc : c.isLower ∨ c.isDigit ∨ c = '-' ∨ c = '.') (hdot : c ≠ '.') :
    doubleDot segment = false ∧ singleDot segment = false := by
  have hpercent : c ≠ '%' := by
    rintro rfl
    revert hc
    decide
  have hne : ∀ text : List Char, (∀ i < text.length, text[i]? = some '.' →
      text[i + 1]? = none ∨ text[i + 1]? = some '.' ∨ text[i + 1]? = some '%') →
        segment.map Char.toLower ≠ text := by
    rintro text htext rfl
    have hmap : segment.map Char.toLower = front.map Char.toLower ++
      '.' :: c :: rest.map Char.toLower := by
      rw [hsegment, List.map_append, List.map_cons, List.map_cons, toLower_letter hc]
      rfl
    have hlen : (front.map Char.toLower).length < (segment.map Char.toLower).length := by
      rw [hmap, List.length_append]
      simp
    have hfollow := htext _ hlen (by rw [hmap, List.getElem?_append_right (Nat.le_refl _)]; simp)
    rw [hmap, List.getElem?_append_right (Nat.le_succ _)] at hfollow
    simp [hdot, hpercent] at hfollow
  have hne' : segment ≠ ['.'] := by
    rintro rfl
    have hlen := congrArg List.length hsegment
    simp at hlen
    omega
  constructor
  · simp only [doubleDot, Bool.or_eq_false_iff, beq_eq_false_iff_ne]
    exact ⟨⟨⟨hne _ (by decide), hne _ (by decide)⟩, hne _ (by decide)⟩, hne _ (by decide)⟩
  · simp only [singleDot, Bool.or_eq_false_iff, beq_eq_false_iff_ne]
    exact ⟨hne', hne _ (by decide)⟩

/-- A backslash puts a segment before the path that no dots can take back. -/
theorem parsePath_label (hdomain : IsDomain parseHost domain) (hpath : PlainPath path) (s : Char)
    (front : List Char) :
    parsePath (s :: (front ++ '.' :: domain ++ '/' :: path)) ≠ path.splitOn '/' := by
  obtain ⟨c, rest, hcons, hc⟩ := hdomain.head
  have hslash : ∀ d ∈ '.' :: domain, slash d = false := by
    intro d hd
    by_cases h : slash d = true
    · have hor : d = '/' ∨ d = '\\' := by simpa [slash] using h
      rcases List.mem_cons.mp hd with rfl | hd
      · cases h
      rcases hor with rfl | rfl
      · exact absurd hd (hdomain.not_mem (by decide))
      · exact absurd hd (hdomain.not_mem (by decide))
    · exact eq_false_of_ne_true h
  obtain ⟨init, last, -, hsplit⟩ := splitOnP_append_of_none hslash front
  rw [hpath.parsePath_eq, hsplit, walkFront_concat]
  · intro heq
    have hlen := congrArg List.length heq
    simp only [List.length_append, List.length_reverse, List.length_cons] at hlen
    omega
  · exact (not_dot_of_label (by rw [hcons]) (hdomain.letters c (hcons ▸ List.mem_cons_self)) hc).1
  · exact (not_dot_of_label (by rw [hcons]) (hdomain.letters c (hcons ▸ List.mem_cons_self)) hc).2

theorem fixed_below (hdomain : IsDomain parseHost domain) (hpath : PlainPath path) :
    Fixed ('.' :: domain ++ '/' :: path) := by
  refine ⟨by simp, fun c hc => ?_⟩
  have hdot : ∀ c ∈ ['.', '/'], ¬ blank c ∧ c ≠ '?' ∧ c ≠ '#' := forall_mem_of_all (by decide)
  rcases List.mem_append.mp hc with hc | hc
  · rcases List.mem_cons.mp hc with rfl | hc
    · exact hdot _ (by simp)
    refine ⟨fun hblank => ?_, ?_, ?_⟩
    · have hle : c.toNat ≤ 0x20 := of_decide_eq_true hblank
      rcases hdomain.letters c hc with h | h | rfl | rfl
      · have h97 := le_of_isLower h
        omega
      · simp only [Char.isDigit, Bool.and_eq_true, decide_eq_true_eq] at h
        have h48 : 48 ≤ c.toNat := h.1
        omega
      · cases hblank
      · cases hblank
    · rintro rfl
      exact hdomain.not_mem (by decide) hc
    · rintro rfl
      exact hdomain.not_mem (by decide) hc
  · rcases List.mem_cons.mp hc with rfl | hc
    · exact hdot _ (by simp)
    refine ⟨hpath.not_blank hc, ?_, ?_⟩
    · rintro rfl
      exact hpath.not_mem (by decide) hc
    · rintro rfl
      exact hpath.not_mem (by decide) hc

theorem not_slash_of_not_mem {text : List Char} (hslash : '/' ∉ text) (hback : '\\' ∉ text) :
    ∀ c ∈ text, slash c = false := by
  intro c hc
  have h₁ : c ≠ '/' := fun heq => hslash (heq ▸ hc)
  have h₂ : c ≠ '\\' := fun heq => hback (heq ▸ hc)
  simp [slash, h₁, h₂]

/-- **The subdomain wildcard.** -/
theorem label_iff (hcolon : RefusesColons parseHost) (hdomain : IsDomain parseHost domain)
    (hpath : PlainPath path)
    {uri : String} {segment : List Char} (hsegment : '/' ∉ segment)
    (huri : uri.toList = "https://".toList ++ segment ++ ('.' :: domain ++ '/' :: path)) :
    Leads parseHost uri (LeadsBelow domain path) ↔ HarmlessLabel parseHost domain path segment := by
  rw [leads_iff ⟨by decide, forall_mem_of_all (by decide)⟩ (fixed_below hdomain hpath) huri,
    HarmlessLabel]
  dsimp only
  split
  · rfl
  -- the address has its path where the pattern has it, unless a backslash comes first
  have htext : '/' ∉ (segment.filter kept).dropWhile slash := fun hmem =>
    hsegment (List.filter_sublist.subset ((List.dropWhile_sublist _).subset hmem))
  have hbase : "https://".toList ++ segment.filter kept ++ ('.' :: domain ++ '/' :: path) =
      "https".toList ++ ':' :: '/' :: '/' ::
        (segment.filter kept ++ '.' :: (domain ++ '/' :: path)) := by simp
  rw [hbase]
  simp only [parseBase_of_scheme parseHost "https".toList (by decide) (.inr rfl),
    dropWhile_append_cons (p := slash) (x := '.') (by decide)]
  generalize (segment.filter kept).dropWhile slash = text at htext ⊢
  by_cases hback : '\\' ∈ text
  · refine iff_of_false ?_ fun h => h.1 hback
    rintro ⟨x, ⟨-, -, hx⟩, -, hpath', -⟩
    obtain ⟨front, rest, rfl, hfront⟩ := List.eq_append_cons_of_mem hback
    have hnot := not_slash_of_not_mem (fun h => htext (List.mem_append_left _ h)) hfront
    rw [List.append_assoc, List.cons_append,
      (takeWhile_not_slash hnot (by decide) _).2, hpath'] at hx
    refine parsePath_label hdomain hpath '\\' rest ?_
    rw [hx]
    simp
  · have hnot : ∀ c ∈ text ++ '.' :: domain, slash c = false := by
      refine not_slash_of_not_mem ?_ ?_
      · intro h
        rcases List.mem_append.mp h with h | h
        · exact htext h
        rcases List.mem_cons.mp h with h | h
        · cases h
        · exact hdomain.not_mem (by decide) h
      · intro h
        rcases List.mem_append.mp h with h | h
        · exact hback h
        rcases List.mem_cons.mp h with h | h
        · cases h
        · exact hdomain.not_mem (by decide) h
    obtain ⟨htake, hdrop⟩ := takeWhile_not_slash hnot (s := '/') (by decide) path
    have hsplit : text ++ '.' :: (domain ++ '/' :: path) = (text ++ '.' :: domain) ++
      '/' :: path := by simp
    rw [hsplit, htake, hdrop, hpath.parsePath_self]
    simp only [parseAuthority_label hcolon hdomain]
    constructor
    · rintro ⟨x, ⟨-, ⟨hno, hhost, -⟩, -⟩, -, -, name, hname, heq⟩
      rw [heq] at hhost
      refine ⟨hback, hno, by rw [hhost]; rfl, fun hbare => hname ?_⟩
      rw [hbare, Option.some_inj] at hhost
      exact List.append_left_eq_self.mp hhost.symm
    · rintro ⟨-, hno, hsome, hbare⟩
      obtain ⟨host, hhost⟩ := Option.isSome_iff_exists.mp hsome
      obtain ⟨name, rfl⟩ := hdomain.stays _ _ hhost
      refine ⟨⟨"https".toList, ⟨name ++ '.' :: domain, none⟩, path.splitOn '/'⟩,
        ⟨rfl, ⟨hno, hhost, rfl⟩, rfl⟩, rfl,
        rfl, name, ?_, rfl⟩
      rintro rfl
      exact hbare hhost

end Label

/-! ## This machine -/

section Port

variable {parseHost : HostParser} {path : List Char}

theorem fixed_path (hpath : PlainPath path) : Fixed ('/' :: path) := by
  refine ⟨by simp, fun c hc => ?_⟩
  rcases List.mem_cons.mp hc with rfl | hc
  · decide
  refine ⟨hpath.not_blank hc, ?_, ?_⟩
  · rintro rfl
    exact hpath.not_mem (by decide) hc
  · rintro rfl
    exact hpath.not_mem (by decide) hc

/-- The authority: user info moves `localhost` out of the host. -/
theorem parseAuthority_port (hlocal : parseHost "localhost".toList = some "localhost".toList)
    (text : List Char) :
    (∃ x, parseAuthority parseHost "http".toList ("localhost:".toList ++ text) = some x ∧
      x.host = "localhost".toList) ↔ LocalPort parseHost text := by
  unfold LocalPort
  split
  next hat =>
    have hexists : ∃ c ∈ text, ¬ decide (c ≠ '@') = true := ⟨'@', hat, by decide⟩
    have hafter : afterUserinfo ("localhost:".toList ++ text) =
      afterUserinfo (afterUserinfo text) := by
      rw [afterUserinfo, rtakeWhile_append_of_exists hexists, afterUserinfo, afterUserinfo,
        List.rtakeWhile_idempotent]
    rw [parseAuthority, hafter]
    rfl
  next hat =>
    have hself : afterUserinfo ("localhost:".toList ++ text) = "localhost:".toList ++ text := by
      rw [afterUserinfo, List.rtakeWhile_eq_self_iff]
      refine all_ne_of_not_mem fun hmem => ?_
      rcases List.mem_append.mp hmem with h | h
      · revert h
        decide
      · exact hat h
    have hsplit : splitHost false ("localhost:".toList ++ text) =
      ("localhost".toList, some text) := by
      simp [splitHost]
    unfold parseAuthority
    rw [hself, hsplit]
    dsimp only [Option.getD_some]
    rw [if_neg (by decide), hlocal]
    cases parsePort "http".toList text with
    | none => simp
    | some port => simp

/-- **The port wildcard.** -/
theorem port_iff (hlocal : parseHost "localhost".toList = some "localhost".toList)
    (hpath : PlainPath path)
    {uri : String} {segment : List Char} (hsegment : '/' ∉ segment)
    (huri : uri.toList = "http://localhost:".toList ++ segment ++ '/' :: path) :
    Leads parseHost uri (LeadsToLocalhost path) ↔ HarmlessPort parseHost path segment := by
  rw [leads_iff ⟨by decide, forall_mem_of_all (by decide)⟩ (fixed_path hpath) huri, HarmlessPort]
  split
  · rfl
  have htext : '/' ∉ segment.filter kept := fun hmem => hsegment (List.filter_sublist.subset hmem)
  have hbase : "http://localhost:".toList ++ segment.filter kept ++ '/' :: path =
      "http".toList ++ ':' :: '/' :: '/' ::
        ('l' :: ("ocalhost:".toList ++ segment.filter kept ++ '/' :: path)) := by
    simp
  rw [hbase]
  simp only [parseBase_of_scheme parseHost "http".toList (by decide) (.inl rfl),
    List.dropWhile_cons_of_neg (p := slash) (a := 'l') (by decide)]
  generalize segment.filter kept = text at htext ⊢
  have hall : ∀ front : List Char, '/' ∉ front → '\\' ∉ front →
      ∀ c ∈ "localhost:".toList ++ front, slash c = false := by
    intro front hslash hback c hc
    have hfixed : ∀ c ∈ "localhost:".toList, slash c = false := forall_mem_of_all (by decide)
    rcases List.mem_append.mp hc with hc | hc
    · exact hfixed c hc
    · exact not_slash_of_not_mem hslash hback c hc
  have key : ∀ {front rest : List Char} {s : Char}, '/' ∉ front → '\\' ∉ front → slash s = true →
      ((∃ x : Location, (x.scheme = "http".toList ∧
        parseAuthority parseHost "http".toList
          (('l' :: ("ocalhost:".toList ++ front ++ s :: rest)).takeWhile (!slash ·)) =
            some x.authority ∧
        x.path = parsePath
          (('l' :: ("ocalhost:".toList ++ front ++ s :: rest)).dropWhile (!slash ·))) ∧
        LeadsToLocalhost path x) ↔ LocalPort parseHost front ∧
          parsePath (s :: rest) = path.splitOn '/') := by
    intro front rest s hslash hback hs
    obtain ⟨htake, hdrop⟩ := takeWhile_not_slash (hall front hslash hback) hs rest
    have hl : 'l' :: ("ocalhost:".toList ++ front ++ s :: rest) = "localhost:".toList ++ front ++
      s :: rest := rfl
    rw [hl, htake, hdrop, ← parseAuthority_port hlocal]
    constructor
    · rintro ⟨x, ⟨-, hauthority, hx⟩, hhost, hpath'⟩
      exact ⟨⟨x.authority, hauthority, hhost⟩, hx ▸ hpath'⟩
    · rintro ⟨⟨authority, hauthority, hhost⟩, hpath'⟩
      exact ⟨⟨"http".toList, authority, _⟩, ⟨rfl, hauthority, rfl⟩, hhost, hpath'⟩
  by_cases hback : '\\' ∈ text
  · obtain ⟨front, rest, rfl, hfront⟩ := List.eq_append_cons_of_mem hback
    have hmove : "ocalhost:".toList ++ (front ++ '\\' :: rest) ++ '/' :: path =
        "ocalhost:".toList ++ front ++ '\\' :: (rest ++ '/' :: path) := by simp
    rw [hmove, key (fun h => htext (List.mem_append_left _ h)) hfront (by decide),
      before_append hfront,
      before_cons_self, List.append_nil, after_append hfront, after_cons_self, hpath.parsePath_eq]
    refine and_congr_right fun _ => ?_
    simp
  · rw [key htext hback (by decide), before_of_not_mem hback, after_of_not_mem hback,
      hpath.parsePath_self]
    simp

end Port

/-! ## The two wildcards -/

/-- The segment is determined, so a property of one that fits is a property of the one that was
matched. -/
theorem exists_segment_iff {pre suf uri : String} (hpre : '*' ∉ pre.toList)
    (hmatch : matchesRedirectPattern (pre ++ "*" ++ suf) uri = some true) {P : Prop}
    {H : List Char → Prop}
    (h : ∀ segment : List Char, '/' ∉ segment → uri.toList = pre.toList ++ segment ++ suf.toList →
      (P ↔ H segment)) :
    P ↔ ∃ segment : String, uri = pre ++ segment ++ suf ∧ H segment.toList := by
  obtain ⟨segment, rfl, hslash⟩ := (matches_iff hpre suf uri).mp hmatch
  have hiff := h segment.toList hslash (by simp)
  constructor
  · exact fun hP => ⟨segment, rfl, hiff.mp hP⟩
  · rintro ⟨segment', heq, hH⟩
    have hlists := congrArg String.toList heq
    simp only [String.toList_append, List.append_assoc] at hlists
    have hsame : segment.toList = segment'.toList :=
      List.append_cancel_right (List.append_cancel_left hlists)
    exact hiff.mpr (hsame ▸ hH)

/-- **Where the addresses lead that a wildcard lets through.** -/
theorem wildcard_stays_iff {parseHost : HostParser} (hcolon : RefusesColons parseHost)
    (hlocal : parseHost "localhost".toList = some "localhost".toList) {path : String}
    (hpath : PlainPath path.toList)
    (uri : String) :
    (∀ domain : String, IsDomain parseHost domain.toList →
      matchesRedirectPattern ("https://*." ++ domain ++ "/" ++ path) uri = some true →
        (Leads parseHost uri (LeadsBelow domain.toList path.toList) ↔
          ∃ segment : String, uri = "https://" ++ segment ++ ("." ++ domain ++ "/" ++ path) ∧
            HarmlessLabel parseHost domain.toList path.toList segment.toList)) ∧
      (matchesRedirectPattern ("http://localhost:*/" ++ path) uri = some true →
        (Leads parseHost uri (LeadsToLocalhost path.toList) ↔
          ∃ segment : String, uri = "http://localhost:" ++ segment ++ ("/" ++ path) ∧
            HarmlessPort parseHost path.toList segment.toList)) := by
  constructor
  · intro domain hdomain hmatch
    have hpattern : "https://*." ++ domain ++ "/" ++ path =
      "https://" ++ "*" ++ ("." ++ domain ++ "/" ++ path) := by
      rw [← String.toList_inj]
      simp
    rw [hpattern] at hmatch
    refine exists_segment_iff (by decide) hmatch fun segment hslash huri => ?_
    refine label_iff hcolon hdomain hpath hslash ?_
    rw [huri]
    simp
  · intro hmatch
    have hpattern : "http://localhost:*/" ++ path = "http://localhost:" ++ "*" ++
      ("/" ++ path) := by
      rw [← String.toList_inj]
      simp
    rw [hpattern] at hmatch
    refine exists_segment_iff (by decide) hmatch fun segment hslash huri => ?_
    refine port_iff hlocal hpath hslash ?_
    rw [huri]
    simp

/-! ## Runs -/

theorem plainHosts_colons : RefusesColons plainHosts := by
  intro host hmem _
  rw [plainHosts, if_neg]
  intro hall
  have hcolon := List.all_eq_true.mp hall ':' hmem
  revert hcolon
  decide

theorem plainHosts_domain : IsDomain plainHosts "app.example".toList where
  letters := forall_mem_of_all (by decide)
  head := ⟨'a', "pp.example".toList, rfl, by decide⟩
  stays := by
    intro front host h
    unfold plainHosts at h
    split at h
    · cases h
      exact ⟨front.map Char.toLower, List.map_append⟩
    · cases h

theorem plainPath_callback : PlainPath "callback".toList :=
  ⟨forall_mem_of_all (by decide), by decide⟩

theorem wildcard_stays_plain :
    Leads plainHosts "https://pr-123.app.example/callback"
      (LeadsBelow "app.example".toList "callback".toList) ∧
      Leads plainHosts "http://localhost:3000/callback" (LeadsToLocalhost "callback".toList) := by
  have hmatch : matchesRedirectPattern ("https://*." ++ "app.example" ++ "/" ++ "callback")
      "https://pr-123.app.example/callback" = some true := by decide
  have hmatch' :
    matchesRedirectPattern ("http://localhost:*/" ++ "callback") "http://localhost:3000/callback" =
      some true := by decide
  constructor
  · refine ((wildcard_stays_iff plainHosts_colons rfl plainPath_callback _).1 "app.example"
      plainHosts_domain
      hmatch).mpr ⟨"pr-123", by decide, ?_⟩
    rw [HarmlessLabel]
    dsimp only
    rw [if_neg (by decide)]
    decide
  · refine ((wildcard_stays_iff plainHosts_colons rfl plainPath_callback _).2 hmatch').mpr
      ⟨"3000", by decide, ?_⟩
    rw [HarmlessPort, if_neg (by decide)]
    refine ⟨?_, by decide⟩
    rw [LocalPort, if_neg (by decide)]
    decide

/-- A `?`, or user info, and the code goes to another host. -/
theorem wildcard_strays :
    matchesRedirectPattern "https://*.app.example/callback"
      "https://evil.example?.app.example/callback" = some true ∧
      ¬ Leads plainHosts "https://evil.example?.app.example/callback"
        (LeadsBelow "app.example".toList "callback".toList) ∧
      matchesRedirectPattern "http://localhost:*/callback"
        "http://localhost:80@evil.example/callback" = some true ∧
      ¬ Leads plainHosts "http://localhost:80@evil.example/callback"
        (LeadsToLocalhost "callback".toList) := by
  refine ⟨by decide, ?_, by decide, ?_⟩
  · rintro ⟨v, hv, -, hpath, -⟩
    have hread : (parseUrl plainHosts "https://evil.example?.app.example/callback".toList).map
      (·.location.path) =
        some [[]] := by decide
    rw [hv, Option.map_some, hpath] at hread
    revert hread
    decide
  · rintro ⟨v, hv, hhost, -⟩
    have hread : (parseUrl plainHosts "http://localhost:80@evil.example/callback".toList).map
        (·.location.authority.host) = some "evil.example".toList := by decide
    rw [hv, Option.map_some, hhost] at hread
    revert hread
    decide

end Keycast
