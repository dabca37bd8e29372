import Keycast.Lib.Percent
import Mathlib.Data.List.DropRight

/-!
# `Lib/Url.lean` — how a browser reads a web address

The part of the URL standard that is about `http` and `https`, as functions on lists of characters:
what is left out of an address before it is read, where its authority, its path and its query end,
who it names as the host, and what its path comes to. The host parser (percent-decoding,
international names, the forms of an IP address) is a parameter.

What this is for is the comparison of two addresses, so nothing here writes one back.

An address is cleaned at its ends and inside, cut at the first `#`, at the first `?` and at the
first slash behind the authority, and its path is walked segment by segment. The lemmas follow these
steps. What is put behind an address protects its end from the cleaning (`cleanUrl_append`); what
stands behind a delimiter does not matter before it (`before_append_of_mem`); a path is walked with
an accumulator, so a part of it is known by what it leaves there (`walkFront`), and a path as it
stands in an address that was read is read as it is behind whatever else (`walkPath_eq`).

From these come the two facts that others use: what an address leads to is settled before its query
(`exists_parseUrl_iff`), and a blank behind an address that is accepted leads elsewhere, if anywhere
(`parseBase_blank`).
-/

set_option autoImplicit false

namespace Keycast.Lib

/-! ## What is left out -/

/-- Taken from both ends of an address. -/
def blank (c : Char) : Bool := c.toNat ≤ 0x20

/-- Taken from anywhere in it. -/
def removed (c : Char) : Bool := c == '\t' || c == '\n' || c == '\r'

def kept (c : Char) : Bool := !removed c

def cleanUrl (text : List Char) : List Char := ((text.dropWhile blank).rdropWhile blank).filter kept

/-! ## Hosts and ports -/

/-- `parseHost` of the standard, as far as it fails or gives a host. -/
abbrev HostParser := List Char → Option (List Char)

def defaultPort (scheme : List Char) : Nat := if scheme = "http".toList then 80 else 443

/-- `none` is a failure, `some none` no port or the scheme's own. -/
def parsePort (scheme text : List Char) : Option (Option Nat) :=
  if text = [] then some none
  else if text.all (fun c => '0' ≤ c ∧ c ≤ '9') then
    let port := text.foldl (fun n c => 10 * n + (c.toNat - 48)) 0
    if 65535 < port then none
    else if port = defaultPort scheme then some none
    else some (some port)
  else none

/-- What follows the last `@`. -/
def afterUserinfo (authority : List Char) : List Char := authority.rtakeWhile (· ≠ '@')

/-- The host, and what follows the first `:` that does not stand in brackets. -/
def splitHost (inBrackets : Bool) : List Char → List Char × Option (List Char)
  | [] => ([], none)
  | c :: text =>
    if c = ':' ∧ !inBrackets then ([], some text)
    else
      let (host, port) :=
        splitHost (if c = '[' then true else if c = ']' then false else inBrackets) text
      (c :: host, port)

structure Authority where
  host : List Char
  port : Option Nat
  deriving DecidableEq, Repr

def parseAuthority (parseHost : HostParser) (scheme authority : List Char) : Option Authority :=
  let (host, port) := splitHost false (afterUserinfo authority)
  if host = [] then none
  else do
    let host ← parseHost host
    let port ← parsePort scheme (port.getD [])
    return { host, port }

/-! ## Paths -/

def slash (c : Char) : Bool := c == '/' || c == '\\'

/-- What is escaped in a path. -/
def pathSet (c : Char) : Bool :=
  c.toNat ≤ 0x20 || 0x7E < c.toNat || "\"#<>?^`\x7b\x7d".toList.contains c

/-- What is escaped in the query of a web address. -/
def querySet (c : Char) : Bool := c.toNat ≤ 0x20 || 0x7E < c.toNat || "\"#<>'".toList.contains c

def singleDot (segment : List Char) : Bool :=
  segment == ['.'] || segment.map Char.toLower == "%2e".toList

def doubleDot (segment : List Char) : Bool :=
  let segment := segment.map Char.toLower
  segment == "..".toList || segment == ".%2e".toList || segment == "%2e.".toList ||
    segment == "%2e%2e".toList

/-- The segments before the ones left, in reverse, and the ones left. A dot at the end leaves an
empty segment. -/
def walkPath (done : List (List Char)) : List (List Char) → List (List Char)
  | [] => done.reverse
  | [last] =>
    if doubleDot last then ([] :: done.tail).reverse
    else if singleDot last then ([] :: done).reverse
    else (percentEncode pathSet last :: done).reverse
  | segment :: rest =>
    if doubleDot segment then walkPath done.tail rest
    else if singleDot segment then walkPath done rest
    else walkPath (percentEncode pathSet segment :: done) rest

/-- The segments of a path, which is empty or begins with a slash. -/
def parsePath (path : List Char) : List (List Char) := walkPath [] (path.tail.splitOnP slash)

/-! ## Addresses -/

/-- Where an address leads. -/
structure Location where
  scheme : List Char
  authority : Authority
  path : List (List Char)
  deriving DecidableEq, Repr

structure WebUrl where
  location : Location
  query : Option (List Char)
  deriving DecidableEq, Repr

/-- The text before the first `d`. -/
def before (d : Char) (text : List Char) : List Char := text.takeWhile (· ≠ d)

/-- The text after the first `d`, if there is one. -/
def after (d : Char) (text : List Char) : Option (List Char) :=
  match text.dropWhile (· ≠ d) with
  | [] => none
  | _ :: rest => some rest

/-- An address up to its query. -/
def parseBase (parseHost : HostParser) (base : List Char) : Option Location :=
  let scheme := (before ':' base).map Char.toLower
  if scheme = "http".toList ∨ scheme = "https".toList then
    -- any number of slashes, of either kind, may stand before the authority
    let rest := ((after ':' base).getD []).dropWhile slash
    (parseAuthority parseHost scheme (rest.takeWhile (!slash ·))).map fun authority =>
      { scheme, authority, path := parsePath (rest.dropWhile (!slash ·)) }
  else none

/-- The parser, for `http` and `https`; the fragment is read off and not kept. -/
def parseUrl (parseHost : HostParser) (text : List Char) : Option WebUrl :=
  let text := before '#' (cleanUrl text)
  (parseBase parseHost (before '?' text)).map fun location =>
    { location, query := (after '?' text).map (percentEncode querySet) }

/-- The parameters of the query. -/
def WebUrl.params (u : WebUrl) : List (List Char × List Char) := formPairs (u.query.getD [])

/-- A host parser with names in lower case and nothing else, for concrete runs. -/
def plainHosts : HostParser := fun text =>
  if text.all (fun c => c.isAlphanum || c == '-' || c == '.') then
    some (text.map Char.toLower) else none

example : (parseUrl plainHosts "https://app.example:8443/cb/./x?a=1&b=%26#top".toList).map
    (fun u => (u.location.authority.port, u.location.path, u.params)) =
    some (some 8443, ["cb".toList, "x".toList],
      [("a".toList, "1".toList), ("b".toList, "&".toList)]) := by
  decide +kernel

/-! ## Cleaning -/

section Trim

variable {α : Type} {p : α → Bool}

theorem dropWhile_append_of_exists {front : List α} (h : ∃ x ∈ front, ¬ p x) (rest : List α) :
    (front ++ rest).dropWhile p = front.dropWhile p ++ rest := by
  rw [List.dropWhile_append, if_neg]
  intro hempty
  obtain ⟨x, hx, hp⟩ := h
  exact hp (List.dropWhile_eq_nil_iff.mp (List.isEmpty_iff.mp hempty) x hx)

theorem rdropWhile_append_of_exists {rest : List α} (h : ∃ x ∈ rest, ¬ p x) (front : List α) :
    (front ++ rest).rdropWhile p = front ++ rest.rdropWhile p := by
  have hreverse : ∃ x ∈ rest.reverse, ¬ p x := by simpa using h
  rw [List.rdropWhile, List.rdropWhile, List.reverse_append, dropWhile_append_of_exists hreverse,
    List.reverse_append,
    List.reverse_reverse]

theorem rtakeWhile_append_of_all {rest : List α} (h : ∀ x ∈ rest, p x) (front : List α) :
    (front ++ rest).rtakeWhile p = front.rtakeWhile p ++ rest := by
  have hreverse : ∀ x ∈ rest.reverse, p x := by simpa using h
  rw [List.rtakeWhile, List.rtakeWhile, List.reverse_append, List.takeWhile_append_of_pos hreverse,
    List.reverse_append,
    List.reverse_reverse]

theorem rdropWhile_append_of_all_not {front : List α} (h : ∀ x ∈ front, ¬ p x) (rest : List α) :
    (front ++ rest).rdropWhile p = front ++ rest.rdropWhile p := by
  by_cases hrest : ∃ x ∈ rest, ¬ p x
  · exact rdropWhile_append_of_exists hrest front
  push Not at hrest
  rw [List.rdropWhile_eq_nil_iff.mpr hrest, List.append_nil, List.rdropWhile, List.reverse_append,
    List.dropWhile_append_of_pos (by simpa using hrest)]
  have hself : front.reverse.dropWhile p = front.reverse := by
    cases hfront : front.reverse with
    | nil => rfl
    | cons x xs =>
      have hx : x ∈ front := List.mem_reverse.mp (hfront ▸ List.mem_cons_self)
      rw [List.dropWhile_cons_of_neg (h x hx)]
  rw [hself, List.reverse_reverse]

theorem rdropWhile_eq_self {text : List α} : text.rdropWhile p = text ↔
    ∀ x ∈ text.getLast?, ¬ p x := by
  rw [List.rdropWhile_eq_self_iff]
  constructor
  · intro h x hx
    obtain ⟨front, rfl⟩ := List.getLast?_eq_some_iff.mp hx
    simpa using h (by simp)
  · exact fun h hne => h _ (List.getLast?_eq_some_getLast hne)

theorem dropWhile_append_cons {x : α} (hx : ¬ p x) (front rest : List α) :
    (front ++ x :: rest).dropWhile p = front.dropWhile p ++ x :: rest := by
  by_cases hfront : ∃ y ∈ front, ¬ p y
  · exact dropWhile_append_of_exists hfront _
  · push Not at hfront
    rw [List.dropWhile_append_of_pos hfront, List.dropWhile_eq_nil_iff.mpr hfront,
      List.dropWhile_cons_of_neg hx,
      List.nil_append]

theorem rtakeWhile_append_of_exists {rest : List α} (h : ∃ x ∈ rest, ¬ p x) (front : List α) :
    (front ++ rest).rtakeWhile p = rest.rtakeWhile p := by
  have hlen : ¬ (rest.reverse.takeWhile p).length = rest.reverse.length := by
    intro hlen
    obtain ⟨x, hx, hp⟩ := h
    have hself : rest.reverse.takeWhile p = rest.reverse :=
      (List.takeWhile_prefix p).eq_of_length hlen
    exact hp (List.takeWhile_eq_self_iff.mp hself x (List.mem_reverse.mpr hx))
  rw [List.rtakeWhile, List.rtakeWhile, List.reverse_append, List.takeWhile_append, if_neg hlen]

end Trim

/-- What an address has behind its last character and only cleaning takes away. -/
def trailing (text : List Char) : List Char := ((text.dropWhile blank).rtakeWhile blank).filter kept

theorem mem_trailing {text : List Char} {c : Char} (h : c ∈ trailing text) : blank c = true ∧
    kept c = true := by
  rw [trailing, List.mem_filter] at h
  exact ⟨List.mem_rtakeWhile_imp h.1, h.2⟩

theorem cleanUrl_append_trailing (text : List Char) :
    cleanUrl text ++ trailing text = (text.dropWhile blank).filter kept := by
  rw [cleanUrl, trailing, ← List.filter_append, List.rdropWhile_append_rtakeWhile]

/-- What is put behind an address protects its end from the cleaning. -/
theorem cleanUrl_append {text rest : List Char} (htext : ∃ c ∈ text, ¬ blank c)
    (hrest : ∃ c ∈ rest, ¬ blank c) :
    cleanUrl (text ++ rest) =
      cleanUrl text ++ (trailing text ++ (rest.rdropWhile blank).filter kept) := by
  rw [← List.append_assoc, cleanUrl_append_trailing, ← List.filter_append, cleanUrl,
    dropWhile_append_of_exists htext,
    rdropWhile_append_of_exists hrest]

theorem exists_not_blank {text : List Char} (h : cleanUrl text ≠ []) : ∃ c ∈ text, ¬ blank c := by
  by_contra hall
  push Not at hall
  apply h
  rw [cleanUrl, List.dropWhile_eq_nil_iff.mpr fun c hc => hall c hc]
  rfl

theorem kept_of_not_blank {c : Char} (h : ¬ blank c) : kept c = true := by
  unfold kept removed
  by_contra hc
  apply h
  simp only [Bool.not_eq_true', Bool.or_eq_false_iff, beq_eq_false_iff_ne, ne_eq] at hc
  by_cases htab : c = '\t'
  · rw [htab]
    decide
  by_cases hnl : c = '\n'
  · rw [hnl]
    decide
  by_cases hcr : c = '\r'
  · rw [hcr]
    decide
  exact absurd ⟨⟨htab, hnl⟩, hcr⟩ hc

/-- Cleaning takes away no character. -/
theorem mem_cleanUrl {text : List Char} {c : Char} (hc : ¬ blank c) : c ∈ cleanUrl text ↔
    c ∈ text := by
  rw [cleanUrl, List.mem_filter, and_iff_left (kept_of_not_blank hc)]
  constructor
  · exact fun h => (List.dropWhile_sublist _).subset ((List.rdropWhile_prefix ..).subset h)
  · intro h
    rw [← List.takeWhile_append_dropWhile (p := blank) (l := text)] at h
    rcases List.mem_append.mp h with h | h
    · exact absurd (List.mem_takeWhile_imp h) hc
    rw [← List.rdropWhile_append_rtakeWhile (p := blank) (l := text.dropWhile blank)] at h
    rcases List.mem_append.mp h with h | h
    · exact h
    · exact absurd (List.mem_rtakeWhile_imp h) hc

/-- An address that neither begins nor ends with a blank. -/
theorem cleanUrl_eq_filter {text : List Char} (hhead : ∀ c ∈ text.head?, ¬ blank c)
    (hlast : ∀ c ∈ text.getLast?, ¬ blank c) : cleanUrl text = text.filter kept := by
  have hdrop : text.dropWhile blank = text := by
    cases text with
    | nil => rfl
    | cons c text => exact List.dropWhile_cons_of_neg (hhead c rfl)
  rw [cleanUrl, hdrop, rdropWhile_eq_self.mpr hlast]

/-- An address needs no protection if it ends in a character, tabs and newlines apart. -/
theorem trailing_eq_nil_iff {text : List Char} (h : ∃ c ∈ text, ¬ blank c) :
    trailing text = [] ↔ ∀ c ∈ (text.filter kept).getLast?, ¬ blank c := by
  -- the text is blanks, then something that ends in a character, then blanks
  have hne : (text.dropWhile blank).rdropWhile blank ≠ [] := by
    intro hnil
    obtain ⟨c, hc, hblank⟩ := h
    have hall := List.rdropWhile_eq_nil_iff.mp hnil
    cases hdrop : text.dropWhile blank with
    | nil => exact hblank (List.dropWhile_eq_nil_iff.mp hdrop c hc)
    | cons d rest =>
      have hhead := List.head?_dropWhile_not blank text
      rw [hdrop] at hhead
      have hd := hall d (hdrop ▸ List.mem_cons_self)
      simp [hd] at hhead
  have htext : text.filter kept = (text.takeWhile blank).filter kept ++
      (((text.dropWhile blank).rdropWhile blank).filter kept ++ trailing text) := by
    have hclean := cleanUrl_append_trailing text
    rw [cleanUrl] at hclean
    rw [hclean, ← List.filter_append, List.takeWhile_append_dropWhile]
  obtain ⟨core, last, hcore⟩ : ∃ core last,
    (text.dropWhile blank).rdropWhile blank = core ++ [last] :=
    ⟨_, _, (List.dropLast_append_getLast hne).symm⟩
  have hlast : ¬ blank last := by
    have hnot := List.rdropWhile_last_not blank (text.dropWhile blank) hne
    simpa [hcore] using hnot
  rw [htext, hcore, List.filter_append, List.filter_cons_of_pos (kept_of_not_blank hlast),
    List.filter_nil]
  constructor
  · intro htrailing c hc
    rw [htrailing, List.append_nil, ← List.append_assoc, List.getLast?_concat,
      Option.mem_some_iff] at hc
    exact hc ▸ hlast
  · intro hend
    by_contra htrailing
    have hmem := List.getLast_mem htrailing
    refine hend (List.getLast _ htrailing) ?_ (mem_trailing hmem).1
    rw [← List.append_assoc, List.getLast?_append_of_ne_nil _ htrailing,
      List.getLast?_eq_some_getLast htrailing]
    exact Option.mem_some_self _

/-! ## Cutting -/

section Cut

variable {d : Char} {front : List Char}

theorem all_ne_of_not_mem (h : d ∉ front) : ∀ c ∈ front, decide (c ≠ d) = true := by
  intro c hc
  exact decide_eq_true fun heq => h (heq ▸ hc)

theorem before_append (h : d ∉ front) (rest : List Char) :
    before d (front ++ rest) = front ++ before d rest :=
  List.takeWhile_append_of_pos (all_ne_of_not_mem h)

theorem after_append (h : d ∉ front) (rest : List Char) :
    after d (front ++ rest) = after d rest := by
  rw [after, List.dropWhile_append_of_pos (all_ne_of_not_mem h)]
  rfl

@[simp] theorem before_cons_self (rest : List Char) : before d (d :: rest) = [] := by simp [before]

@[simp] theorem after_cons_self (rest : List Char) : after d (d :: rest) = some rest := by
  simp [after]

theorem before_of_not_mem (h : d ∉ front) : before d front = front := by
  simpa [before] using before_append h []

theorem after_of_not_mem (h : d ∉ front) : after d front = none := by
  have happend := after_append h []
  rwa [List.append_nil] at happend

/-- Only the first delimiter counts. -/
theorem before_append_of_mem (h : d ∈ front) (rest : List Char) :
    before d (front ++ rest) = before d front := by
  obtain ⟨pre, post, rfl, hpre⟩ := List.eq_append_cons_of_mem h
  rw [List.append_assoc, before_append hpre, before_append hpre, List.cons_append, before_cons_self,
    before_cons_self]

theorem after_append_of_mem (h : d ∈ front) (rest : List Char) :
    ∃ tail, after d front = some tail ∧ after d (front ++ rest) = some (tail ++ rest) := by
  obtain ⟨pre, post, rfl, hpre⟩ := List.eq_append_cons_of_mem h
  refine ⟨post, ?_, ?_⟩
  · rw [after_append hpre, after_cons_self]
  · rw [List.append_assoc, after_append hpre, List.cons_append, after_cons_self]

theorem before_sublist (d : Char) (text : List Char) : (before d text).Sublist text :=
  List.takeWhile_sublist _

theorem not_mem_before (d : Char) (text : List Char) : d ∉ before d text := by
  intro h
  simpa using List.mem_takeWhile_imp h

end Cut

/-! ## Blanks at the end of the authority or of the path -/

theorem splitHost_of_not_mem {text : List Char} (h : ':' ∉ text) (inBrackets : Bool) :
    splitHost inBrackets text = (text, none) := by
  induction text generalizing inBrackets with
  | nil => rfl
  | cons c text ih =>
    have hc : c ≠ ':' := fun heq => h (heq ▸ List.mem_cons_self)
    rw [splitHost, if_neg fun h => hc h.1, ih fun hmem => h (List.mem_cons_of_mem _ hmem)]

theorem splitHost_append {rest : List Char} (hrest : ':' ∉ rest) (inBrackets : Bool)
    (text : List Char) :
    splitHost inBrackets (text ++ rest) =
      match splitHost inBrackets text with
      | (host, some port) => (host, some (port ++ rest))
      | (host, none) => (host ++ rest, none) := by
  induction text generalizing inBrackets with
  | nil =>
    rw [List.nil_append, splitHost_of_not_mem hrest]
    rfl
  | cons c text ih =>
    rw [List.cons_append, splitHost, splitHost]
    split
    · rfl
    · rw [ih]
      dsimp only
      rcases splitHost (if c = '[' then true else if c = ']' then false else inBrackets) text with
        ⟨host, port⟩
      cases port <;> rfl

theorem splitHost_none {inBrackets : Bool} {text host : List Char}
    (h : splitHost inBrackets text = (host, none)) :
    host = text := by
  induction text generalizing inBrackets host with
  | nil =>
    cases h
    rfl
  | cons c text ih =>
    rw [splitHost] at h
    split at h
    · cases h
    · cases hrest :
        splitHost (if c = '[' then true else if c = ']' then false else inBrackets) text with
      | mk rest port =>
        rw [hrest] at h
        cases h
        rw [ih hrest]

theorem blank_not_digit {c : Char} (h : blank c = true) : ¬ ('0' ≤ c ∧ c ≤ '9') := by
  intro hdigit
  have hle : 0x30 ≤ c.toNat := hdigit.1
  have hblank : c.toNat ≤ 0x20 := of_decide_eq_true h
  omega

theorem parsePort_blank {scheme text : List Char} (h : ∃ c ∈ text, blank c = true) :
    parsePort scheme text = none := by
  obtain ⟨c, hc, hblank⟩ := h
  unfold parsePort
  rw [if_neg (List.ne_nil_of_mem hc), if_neg]
  intro hall
  exact blank_not_digit hblank (by simpa using List.all_eq_true.mp hall c hc)

/-- A host parser that refuses what is taken from the ends of an address. -/
def RefusesBlanks (parseHost : HostParser) : Prop :=
  ∀ host, (∃ c ∈ host, blank c = true) → parseHost host = none

theorem parseAuthority_blank {parseHost : HostParser} (hhost : RefusesBlanks parseHost)
    {scheme authority : List Char}
    {blanks : List Char} (hblanks : ∀ c ∈ blanks, blank c = true) (hne : blanks ≠ []) :
    parseAuthority parseHost scheme (authority ++ blanks) = none := by
  have hnot : ∀ d, ¬ blank d → d ∉ blanks := fun d hd hmem => hd (hblanks d hmem)
  have hat : ∀ c ∈ blanks, decide (c ≠ '@') = true := all_ne_of_not_mem (hnot '@' (by decide))
  obtain ⟨b, hb⟩ := List.exists_mem_of_ne_nil _ hne
  unfold parseAuthority
  rw [afterUserinfo, rtakeWhile_append_of_all hat, splitHost_append (hnot ':' (by decide))]
  rcases splitHost false (List.rtakeWhile (fun c => decide (c ≠ '@')) authority) with ⟨host, port⟩
  cases port with
  | none =>
    have hrefused := hhost (host ++ blanks) ⟨b, List.mem_append_right _ hb, hblanks b hb⟩
    dsimp only
    rw [hrefused]
    split <;> rfl
  | some port =>
    have hrefused : parsePort scheme (port ++ blanks) = none :=
      parsePort_blank ⟨b, List.mem_append_right _ hb, hblanks b hb⟩
    dsimp only [Option.getD_some]
    rw [hrefused]
    split
    · rfl
    · cases parseHost host <;> rfl

/-- What is put behind a text is put behind its last piece. -/
theorem splitOnP_append_of_none {α : Type} {p : α → Bool} {rest : List α}
    (hrest : ∀ x ∈ rest, p x = false)
    (text : List α) :
    ∃ init last, text.splitOnP p = init ++ [last] ∧
      (text ++ rest).splitOnP p = init ++ [last ++ rest] := by
  induction text with
  | nil => exact ⟨[], [],
    List.splitOnP_nil, by rw [List.nil_append, List.splitOnP_eq_singleton hrest]; rfl⟩
  | cons c text ih =>
    obtain ⟨init, last, htext, happend⟩ := ih
    rw [List.cons_append, List.splitOnP_cons_eq_if_modifyHead, List.splitOnP_cons_eq_if_modifyHead,
      htext, happend]
    split
    · exact ⟨[] :: init, last, rfl, rfl⟩
    · cases init with
      | nil => exact ⟨[], c :: last, rfl, rfl⟩
      | cons piece init => exact ⟨(c :: piece) :: init, last, rfl, rfl⟩

/-- The segments a part of a path leaves, in reverse, before there is more of it. -/
def walkFront : List (List Char) → List (List Char) → List (List Char)
  | done, [] => done
  | done, segment :: rest =>
    if doubleDot segment then walkFront done.tail rest
    else if singleDot segment then walkFront done rest
    else walkFront (percentEncode pathSet segment :: done) rest

theorem walkPath_append {rest : List (List Char)} (hrest : rest ≠ [])
    (done front : List (List Char)) :
    walkPath done (front ++ rest) = walkPath (walkFront done front) rest := by
  induction front generalizing done with
  | nil => rfl
  | cons segment front ih =>
    rw [List.cons_append, walkPath, walkFront]
    · split
      · exact ih _
      split
      · exact ih _
      · exact ih _
    · simp [hrest]

theorem walkFront_concat {last : List Char} (hdouble : doubleDot last = false)
    (hsingle : singleDot last = false)
    (done front : List (List Char)) :
    walkFront done (front ++ [last]) = percentEncode pathSet last :: walkFront done front := by
  induction front generalizing done with
  | nil => simp [walkFront, hdouble, hsingle]
  | cons segment front ih =>
    rw [List.cons_append, walkFront, walkFront]
    split
    · exact ih _
    split
    · exact ih _
    · exact ih _

/-- A path as it is written in an address that has been read. -/
structure PlainPath (path : List Char) : Prop where
  kept : ∀ c ∈ path, pathSet c = false ∧ c ≠ '\\'
  dots : ∀ segment ∈ path.splitOn '/', doubleDot segment = false ∧ singleDot segment = false

theorem percentEncode_eq_self {set : Char → Bool} {text : List Char}
    (h : ∀ c ∈ text, set c = false) :
    percentEncode set text = text := by
  induction text with
  | nil => rfl
  | cons c text ih =>
    rw [percentEncode_keep (h c List.mem_cons_self), ih fun d hd => h d (List.mem_cons_of_mem _ hd)]

theorem mem_of_mem_splitOnP {α : Type} {p : α → Bool} {text piece : List α}
    (h : piece ∈ text.splitOnP p) {x : α}
    (hx : x ∈ piece) : x ∈ text := by
  induction text generalizing piece with
  | nil =>
    rw [List.splitOnP_nil, List.mem_singleton] at h
    rw [h] at hx
    exact hx
  | cons c text ih =>
    rw [List.splitOnP_cons_eq_if_modifyHead] at h
    split at h
    · rcases List.mem_cons.mp h with rfl | h
      · cases hx
      · exact List.mem_cons_of_mem _ (ih h hx)
    · cases htext : text.splitOnP p with
      | nil => exact absurd htext (List.splitOnP_ne_nil p text)
      | cons first rest =>
        rw [htext, List.modifyHead_cons] at h
        rcases List.mem_cons.mp h with rfl | h
        · rcases List.mem_cons.mp hx with rfl | hx
          · exact List.mem_cons_self
          · exact List.mem_cons_of_mem _ (ih (htext ▸ List.mem_cons_self) hx)
        · exact List.mem_cons_of_mem _ (ih (htext ▸ List.mem_cons_of_mem _ h) hx)

theorem splitOnP_congr {α : Type} {p q : α → Bool} {text : List α} (h : ∀ x ∈ text, p x = q x) :
    text.splitOnP p = text.splitOnP q := by
  induction text with
  | nil => rfl
  | cons c text ih =>
    rw [List.splitOnP_cons_eq_if_modifyHead, List.splitOnP_cons_eq_if_modifyHead,
      h c List.mem_cons_self,
      ih fun x hx => h x (List.mem_cons_of_mem _ hx)]

theorem walkPath_self {segments : List (List Char)} (hne : segments ≠ [])
    (hdots : ∀ segment ∈ segments, doubleDot segment = false ∧ singleDot segment = false)
    (hkept : ∀ segment ∈ segments, percentEncode pathSet segment = segment)
    (done : List (List Char)) :
    walkPath done segments = done.reverse ++ segments := by
  induction segments generalizing done with
  | nil => exact absurd rfl hne
  | cons segment segments ih =>
    obtain ⟨hdouble, hsingle⟩ := hdots segment List.mem_cons_self
    have hself := hkept segment List.mem_cons_self
    cases segments with
    | nil => simp [walkPath, hdouble, hsingle, hself]
    | cons next segments =>
      rw [walkPath]
      · rw [if_neg (by simp [hdouble]), if_neg (by simp [hsingle]), hself,
          ih (by simp) (fun s hs => hdots s (List.mem_cons_of_mem _ hs))
            (fun s hs => hkept s (List.mem_cons_of_mem _ hs))]
        simp
      · simp

namespace PlainPath

variable {path : List Char}

theorem splitOnP_slash (h : PlainPath path) : path.splitOnP slash = path.splitOn '/' := by
  rw [List.splitOn_eq_splitOnP]
  refine splitOnP_congr fun c hc => ?_
  simp [slash, (h.kept c hc).2]

/-- It is read as it is, behind whatever else. -/
theorem walkPath_eq (h : PlainPath path) (done : List (List Char)) :
    walkPath done (path.splitOnP slash) = done.reverse ++ path.splitOn '/' := by
  rw [h.splitOnP_slash]
  refine walkPath_self (List.splitOn_ne_nil _ _) h.dots (fun segment hsegment => ?_) done
  refine percentEncode_eq_self fun c hc => ?_
  rw [← h.splitOnP_slash] at hsegment
  exact (h.kept c (mem_of_mem_splitOnP hsegment hc)).1

/-- Something before it, in the same path. -/
theorem parsePath_eq (h : PlainPath path) {s : Char} (front : List Char) :
    parsePath (s :: (front ++ '/' :: path)) =
      (walkFront [] (front.splitOnP slash)).reverse ++ path.splitOn '/' := by
  rw [parsePath, List.tail_cons, List.splitOnP_append_cons _ _ (by decide),
    walkPath_append (List.splitOnP_ne_nil _ _),
    h.walkPath_eq]

theorem parsePath_self (h : PlainPath path) (s : Char) : parsePath (s :: path) = path.splitOn '/' :=
  h.walkPath_eq []

theorem not_blank (h : PlainPath path) {c : Char} (hc : c ∈ path) : ¬ blank c := by
  intro hblank
  have hset := (h.kept c hc).1
  have hle : c.toNat ≤ 0x20 := of_decide_eq_true hblank
  simp [pathSet, hle] at hset

theorem not_mem (h : PlainPath path) {c : Char} (hc : pathSet c = true) : c ∉ path := by
  intro hmem
  rw [(h.kept c hmem).1] at hc
  cases hc

end PlainPath

/-- The last segment of a path. -/
def lastSegment (segment : List Char) : List Char :=
  if doubleDot segment || singleDot segment then [] else percentEncode pathSet segment

theorem getLast?_walkPath (done init : List (List Char)) (last : List Char) :
    (walkPath done (init ++ [last])).getLast? = some (lastSegment last) := by
  induction init generalizing done with
  | nil =>
    rw [List.nil_append, walkPath, lastSegment]
    by_cases hdouble : doubleDot last = true
    · simp [hdouble]
    by_cases hsingle : singleDot last = true
    · simp [hdouble, hsingle]
    · simp [hdouble, hsingle]
  | cons segment init ih =>
    obtain ⟨next, rest, hrest⟩ : ∃ next rest, init ++ [last] = next :: rest :=
      List.exists_cons_of_ne_nil (by simp)
    rw [List.cons_append, hrest, walkPath]
    · rw [← hrest]
      split
      · exact ih _
      split
      · exact ih _
      · exact ih _
    · simp

theorem toLower_blank {c : Char} (h : blank c = true) : c.toLower = c := by
  have hle : c.toNat ≤ 0x20 := of_decide_eq_true h
  unfold Char.toLower
  rw [dif_neg]
  rintro ⟨hA, -⟩
  have hA' : 65 ≤ c.toNat := hA
  omega

/-- Whatever the delimiters of a dot segment are, no blank is among them. -/
theorem blank_not_dot {segment : List Char} (h : ∃ c ∈ segment, blank c = true) :
    doubleDot segment = false ∧ singleDot segment = false := by
  obtain ⟨c, hc, hblank⟩ := h
  have hlower : c ∈ segment.map Char.toLower := List.mem_map.mpr ⟨c, hc, toLower_blank hblank⟩
  have hne : ∀ text : List Char, (∀ d ∈ text, blank d = false) →
    segment.map Char.toLower ≠ text := by
    intro text htext heq
    rw [htext c (heq ▸ hlower)] at hblank
    cases hblank
  have hne' : segment ≠ ['.'] := by
    rintro rfl
    rw [List.mem_singleton.mp hc] at hblank
    cases hblank
  constructor
  · simp only [doubleDot, Bool.or_eq_false_iff, beq_eq_false_iff_ne]
    exact ⟨⟨⟨hne _ (forall_mem_of_all (by decide)), hne _ (forall_mem_of_all (by decide))⟩,
      hne _ (forall_mem_of_all (by decide))⟩, hne _ (forall_mem_of_all (by decide))⟩
  · simp only [singleDot, Bool.or_eq_false_iff, beq_eq_false_iff_ne]
    exact ⟨hne', hne _ (forall_mem_of_all (by decide))⟩

theorem slash_of_blank {c : Char} (h : blank c = true) : slash c = false := by
  by_cases hslash : c = '/'
  · rw [hslash] at h
    cases h
  by_cases hback : c = '\\'
  · rw [hback] at h
    cases h
  · simp [slash, hslash, hback]

theorem percentEncode_append (set : Char → Bool) (front rest : List Char) :
    percentEncode set (front ++ rest) = percentEncode set front ++ percentEncode set rest :=
  List.flatMap_append

/-- **A blank behind a path leads elsewhere**: it is escaped, so the last segment grows. -/
theorem parsePath_blank {path blanks : List Char} (hpath : path ≠ [])
    (hblanks : ∀ c ∈ blanks, blank c = true)
    (hne : blanks ≠ []) : parsePath (path ++ blanks) ≠ parsePath path := by
  obtain ⟨b, hb⟩ := List.exists_mem_of_ne_nil _ hne
  obtain ⟨init, last, hsplit, happend⟩ :=
    splitOnP_append_of_none (fun c hc => slash_of_blank (hblanks c hc)) path.tail
  intro heq
  have hlast := congrArg List.getLast? heq
  rw [parsePath, parsePath, List.tail_append_of_ne_nil hpath, happend, hsplit, getLast?_walkPath,
    getLast?_walkPath,
    Option.some_inj] at hlast
  have hblank : ∃ c ∈ last ++ blanks, blank c = true :=
    ⟨b, List.mem_append_right _ hb, hblanks b hb⟩
  obtain ⟨hdouble, hsingle⟩ := blank_not_dot hblank
  have hescaped : percentEncode pathSet blanks ≠ [] := mt percentEncode_eq_nil.mp hne
  have hgrown : lastSegment (last ++ blanks) = percentEncode pathSet last ++
    percentEncode pathSet blanks := by
    rw [lastSegment, hdouble, hsingle, if_neg (by decide), percentEncode_append]
  rw [hgrown, lastSegment] at hlast
  split at hlast
  · exact hescaped (List.append_eq_nil_iff.mp hlast).2
  · exact hescaped (List.append_right_eq_self.mp hlast)

theorem parseBase_eq_some {parseHost : HostParser} {base : List Char} {location : Location} :
    parseBase parseHost base = some location ↔
      (location.scheme = "http".toList ∨ location.scheme = "https".toList) ∧
      location.scheme = (before ':' base).map Char.toLower ∧
      ∃ rest, after ':' base = some rest ∧ parseAuthority parseHost location.scheme
          ((rest.dropWhile slash).takeWhile (!slash ·)) = some location.authority ∧
        location.path = parsePath ((rest.dropWhile slash).dropWhile (!slash ·)) := by
  unfold parseBase
  dsimp only
  constructor
  · intro h
    split at h
    next hscheme =>
      obtain ⟨authority, hauthority, rfl⟩ := Option.map_eq_some_iff.mp h
      cases hafter : after ':' base with
      | none =>
        -- nothing is left for the authority
        rw [hafter] at hauthority
        cases hauthority
      | some rest =>
        rw [hafter] at hauthority
        exact ⟨hscheme, rfl, rest, rfl, hauthority, rfl⟩
    next => cases h
  · rintro ⟨hscheme, heq, rest, hafter, hauthority, hpath⟩
    rw [← heq, if_pos hscheme, hafter, Option.getD_some, hauthority, Option.map_some, ← hpath]

/-- An address that is accepted leads elsewhere, if anywhere, with blanks behind it. -/
theorem parseBase_blank {parseHost : HostParser} (hhost : RefusesBlanks parseHost)
    {base blanks : List Char}
    {location : Location} (hbase : parseBase parseHost base = some location)
    (hblanks : ∀ c ∈ blanks, blank c = true) (hne : blanks ≠ []) {other : Location}
    (hother : parseBase parseHost (base ++ blanks) = some other) : other.path ≠ location.path := by
  obtain ⟨-, hscheme, rest, hafter, hauthority, hpath⟩ := parseBase_eq_some.mp hbase
  obtain ⟨-, -, rest', hafter', hauthority', hpath'⟩ := parseBase_eq_some.mp hother
  have hcolon : ':' ∈ base := by
    by_contra hno
    rw [after_of_not_mem hno] at hafter
    cases hafter
  obtain ⟨rest₂, hafter₂, happend⟩ := after_append_of_mem hcolon blanks
  rw [hafter] at hafter₂
  cases hafter₂
  rw [hafter'] at happend
  cases happend
  -- an authority is not empty, so something follows the scheme that is no slash
  have hexists : ∃ c ∈ rest, ¬ slash c := by
    by_contra hall
    push Not at hall
    rw [List.dropWhile_eq_nil_iff.mpr hall] at hauthority
    cases hauthority
  rw [dropWhile_append_of_exists hexists] at hauthority' hpath'
  by_cases hslash : ∃ c ∈ rest.dropWhile slash, ¬ (!slash c) = true
  · rw [hpath', hpath, dropWhile_append_of_exists hslash]
    refine parsePath_blank ?_ hblanks hne
    intro hnil
    obtain ⟨c, hc, hcs⟩ := hslash
    exact hcs (List.dropWhile_eq_nil_iff.mp hnil c hc)
  · push Not at hslash
    have hall : ∀ c ∈ rest.dropWhile slash ++ blanks, (!slash c) = true := by
      intro c hc
      rcases List.mem_append.mp hc with hc | hc
      · exact hslash c hc
      · rw [slash_of_blank (hblanks c hc)]
        rfl
    rw [List.takeWhile_eq_self_iff.mpr hall, parseAuthority_blank hhost hblanks hne] at hauthority'
    cases hauthority'

/-! ## Parameters -/

theorem leavesEscapes_querySet : LeavesEscapes querySet := by
  rintro c (rfl | hc)
  · decide
  · have hrange : 48 ≤ c.toNat ∧ c.toNat ≤ 57 ∨ 65 ≤ c.toNat ∧ c.toNat ≤ 70 ∨ 97 ≤ c.toNat ∧
      c.toNat ≤ 102 := by
      unfold hexVal at hc
      split at hc
      next h => exact .inl h
      split at hc
      next h => exact .inr (.inl h)
      split at hc
      next h => exact .inr (.inr h)
      next => cases hc
    have hne : ∀ d : Char, (d.toNat < 48 ∨ 57 < d.toNat ∧ d.toNat < 65) → c ≠ d := by
      rintro d hd rfl
      omega
    have hlow : ¬ c.toNat ≤ 0x20 := by omega
    have hhigh : ¬ 0x7E < c.toNat := by omega
    simp [querySet, hlow, hhigh, hne '"' (by decide), hne '#' (by decide), hne '<' (by decide),
      hne '>' (by decide),
      hne '\'' (by decide)]

theorem keepsForm_querySet : KeepsForm querySet where
  escapes := leavesEscapes_querySet
  amp := by decide
  equals := by decide
  plus := by decide

theorem parseUrl_eq_some {parseHost : HostParser} {text : List Char} {u : WebUrl} :
    parseUrl parseHost text = some u ↔
      parseBase parseHost (before '?' (before '#' (cleanUrl text))) = some u.location ∧
      u.query = (after '?' (before '#' (cleanUrl text))).map (percentEncode querySet) := by
  rw [parseUrl, Option.map_eq_some_iff]
  constructor
  · rintro ⟨location, hlocation, rfl⟩
    exact ⟨hlocation, rfl⟩
  · rintro ⟨hlocation, hquery⟩
    exact ⟨u.location, hlocation, by rw [← hquery]⟩

/-- The parameters can be read off the text. -/
theorem params_eq {parseHost : HostParser} {text : List Char} {u : WebUrl}
    (h : parseUrl parseHost text = some u) :
    u.params = formPairs ((after '?' (before '#' (cleanUrl text))).getD []) := by
  rw [WebUrl.params, (parseUrl_eq_some.mp h).2]
  cases after '?' (before '#' (cleanUrl text)) with
  | none => rfl
  | some query => exact formPairs_percentEncode keepsForm_querySet query

theorem exists_not_blank_of_parse {parseHost : HostParser} {text : List Char} {u : WebUrl}
    (h : parseUrl parseHost text = some u) : ∃ c ∈ text, ¬ blank c := by
  apply exists_not_blank
  intro hnil
  have hbase := (parseUrl_eq_some.mp h).1
  rw [hnil] at hbase
  cases hbase

/-- What an address leads to is settled before its query. -/
theorem exists_parseUrl_iff {parseHost : HostParser} {text : List Char} {P : Location → Prop} :
    (∃ v, parseUrl parseHost text = some v ∧ P v.location) ↔
      ∃ location, parseBase parseHost (before '?' (before '#' (cleanUrl text))) = some location ∧
        P location := by
  constructor
  · rintro ⟨v, hv, hP⟩
    exact ⟨v.location, (parseUrl_eq_some.mp hv).1, hP⟩
  · rintro ⟨location, hlocation, hP⟩
    exact ⟨⟨location, _⟩, parseUrl_eq_some.mpr ⟨hlocation, rfl⟩, hP⟩

end Keycast.Lib
