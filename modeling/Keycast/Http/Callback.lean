import Keycast.Http.OAuth
import Keycast.Lib.Url

/-!
# `Http/Callback.lean` — what arrives at the app

`authorize_get` (in two places) and `verify_email` end a flow by sending the browser to the app's
`redirect_uri` with `?code=…&state=…` put behind it, as text. Here that text is read as a browser
and a form parser read it, and compared with what was to be sent. The consent page and the login
page of the same server escape the state before they do this, and the other branch of `verify_email`
looks for a `?` first.

The proof follows the text. `callback_url_text` is what both flows write; a parser strips the ends
and drops tabs and newlines, cuts the fragment off, splits the rest at the first `?` and the query
at `&` and `=`, and each of these steps gives back what was to be sent under one part of the
condition (`arrived_eq_self_iff` for the state).

Control characters other than these stay in the text and are judged as text. A browser never sees
those of `authorize_get`: axum's `Redirect::to` takes no location with an ASCII control character
other than the tab, and panics. Those of `verify_email` are escaped in its JSON answer and arrive.
-/

set_option autoImplicit false

namespace Keycast.Http

open Lib

/-- Where `authorize_get` sends the browser: the two `format!`s, alike in both places. -/
def authorizeLocation (params : AuthorizeRequest) (code : String) : String :=
  match params.state with
  | some state => params.redirectUri ++ "?code=" ++ code ++ "&state=" ++ state
  | none => params.redirectUri ++ "?code=" ++ code

/-- The end of a flow in a browser. -/
inductive Callback
  | authorizeGet (params : AuthorizeRequest) (code : String)
  | verifyEmail (pending : OAuthCode) (newCode : String)

namespace Callback

def redirectUri : Callback → String
  | authorizeGet params _ => params.redirectUri
  | verifyEmail pending _ => pending.redirectUri

def code : Callback → String
  | authorizeGet _ code => code
  | verifyEmail _ newCode => newCode

def state : Callback → Option String
  | authorizeGet params _ => params.state
  | verifyEmail pending _ => pending.state

/-- A headless app is not sent anywhere. -/
def url? : Callback → Option String
  | authorizeGet params code => some (authorizeLocation params code)
  | verifyEmail pending newCode => (verifiedResponse newCode pending).redirectTo

end Callback

/-- `Url::parse` is the parser of the standard, where the address is one of the web. -/
def ReadsUrls (w : Web) (parseHost : HostParser) : Prop :=
  ∀ text u, w.urlParse text = some u → u.scheme = "http" ∨ u.scheme = "https" →
    ∃ v, parseUrl parseHost text.toList = some v ∧
      u = ⟨String.ofList v.location.scheme, some (String.ofList v.location.authority.host),
        v.location.authority.port⟩

/-- The parameters that are to be added. -/
def sent (code : String) (state : Option String) : List (List Char × List Char) :=
  ("code".toList, code.toList) :: state.toList.map fun state => ("state".toList, state.toList)

/-- Code and state arrive at the redirect URI, beside the parameters it has. -/
def CarriesBack (parseHost : HostParser) (redirectUri code : String) (state : Option String)
    (url : String) : Prop :=
  ∃ u v, parseUrl parseHost redirectUri.toList = some u ∧ parseUrl parseHost url.toList = some v ∧
    v.location = u.location ∧ v.params.Perm (u.params ++ sent code state)

/-- No query, no fragment, and nothing at the end that is only cleaned away there. -/
def PlainRedirect (redirectUri : String) : Prop :=
  '?' ∉ redirectUri.toList ∧ '#' ∉ redirectUri.toList ∧
    ∀ c ∈ (redirectUri.toList.filter Lib.kept).getLast?, ¬ blank c

/-- Nothing that a browser or a form parser takes for something else. -/
structure PlainState (state : String) : Prop where
  amp : '&' ∉ state.toList
  hash : '#' ∉ state.toList
  plus : '+' ∉ state.toList
  escape : ¬ HasEscape state.toList
  kept : ∀ c ∈ state.toList, Lib.kept c = true
  last : ∀ c ∈ state.toList.getLast?, ¬ blank c

/-! ## The text -/

/-- The state as a form parser gets to see it. -/
def arrived (state : List Char) : List Char := before '#' ((state.rdropWhile blank).filter Lib.kept)

theorem arrived_sublist (state : List Char) : (arrived state).Sublist state :=
  (before_sublist _ _).trans (List.filter_sublist.trans (List.rdropWhile_prefix ..).sublist)

theorem arrived_eq_self_iff {state : List Char} : arrived state = state ↔
    '#' ∉ state ∧ (∀ c ∈ state, Lib.kept c = true) ∧ ∀ c ∈ state.getLast?, ¬ blank c := by
  constructor
  · intro h
    have hlen : state.length ≤ ((state.rdropWhile blank).filter Lib.kept).length := by
      have hle := (before_sublist '#' ((state.rdropWhile blank).filter Lib.kept)).length_le
      rw [← arrived, h] at hle
      exact hle
    have hfilter : (state.rdropWhile blank).filter Lib.kept = state :=
      (List.filter_sublist.trans (List.rdropWhile_prefix ..).sublist).eq_of_length_le hlen
    have hdrop : state.rdropWhile blank = state := by
      refine (List.rdropWhile_prefix ..).sublist.eq_of_length_le (hlen.trans ?_)
      exact List.filter_sublist.length_le
    refine ⟨?_, ?_, ?_⟩
    · rw [← h]
      exact not_mem_before _ _
    · intro c hc
      rw [← hfilter] at hc
      exact List.of_mem_filter hc
    · exact rdropWhile_eq_self.mp hdrop
  · rintro ⟨hhash, hkept, hlast⟩
    rw [arrived, rdropWhile_eq_self.mpr hlast, List.filter_eq_self.mpr hkept,
      before_of_not_mem hhash]

/-- What stands before the state in the query. -/
def queryFront (code : List Char) (state : Option (List Char)) : List Char :=
  "code=".toList ++ code ++ (if state.isSome then "&state=".toList else [])

theorem queryFront_eq (code : List Char) (state : Option (List Char)) :
    queryFront code state = "code=".toList ++ code ++
      (if state.isSome then "&state=".toList else []) := by
  delta queryFront
  rfl

theorem question_code : "?code=".toList = '?' :: "code=".toList := by simp

/-- The text that both flows put together. -/
theorem callback_url_text (redirectUri code : String) (state : Option String) :
    (match state with
      | some state => redirectUri ++ "?code=" ++ code ++ "&state=" ++ state
      | none => redirectUri ++ "?code=" ++ code).toList =
      redirectUri.toList ++ ('?' :: queryFront code.toList (state.map String.toList) ++
        (state.map String.toList).getD []) := by
  cases state with
  | none =>
    simp only [String.toList_append, question_code, queryFront_eq, Option.map_none,
      Option.isSome_none,
      Bool.false_eq_true, if_false, Option.getD_none, List.append_nil, List.append_assoc,
        List.cons_append]
  | some state =>
    simp only [String.toList_append, question_code, queryFront_eq, Option.map_some,
      Option.isSome_some, if_true,
      Option.getD_some, List.append_assoc, List.cons_append]

theorem Callback.url_eq {call : Callback} {url : String} (h : call.url? = some url) :
    url.toList = call.redirectUri.toList ++
      ('?' :: queryFront call.code.toList (call.state.map String.toList) ++
      (call.state.map String.toList).getD []) := by
  cases call with
  | authorizeGet params code =>
    cases h
    exact callback_url_text params.redirectUri code params.state
  | verifyEmail pending newCode =>
    unfold url? verifiedResponse at h
    dsimp only at h
    split at h
    · cases h
    · cases h
      exact callback_url_text pending.redirectUri newCode pending.state

theorem not_blank_of_alphanum {c : Char} (h : c.isAlphanum) : ¬ blank c := by
  intro hblank
  have hle : c.toNat ≤ 0x20 := of_decide_eq_true hblank
  have hlow := le_of_isAlphanum h
  omega

/-- The front of the query is alphanumeric but for its two delimiters. -/
theorem mem_queryFront {code : List Char} {state : Option (List Char)}
    (hcode : ∀ c ∈ code, c.isAlphanum) {c : Char}
    (h : c ∈ queryFront code state) : c.isAlphanum ∨ c = '=' ∨ c = '&' := by
  have htext : ∀ text ∈ ["code=".toList, "&state=".toList], ∀ c ∈ text, c.isAlphanum ∨
    c = '=' ∨ c = '&' := by
    intro text htext
    rcases List.mem_pair.mp htext with rfl | rfl <;> exact forall_mem_of_all (by decide)
  rw [queryFront_eq] at h
  rcases List.mem_append.mp h with h | h
  · rcases List.mem_append.mp h with h | h
    · exact htext _ (by simp) c h
    · exact .inl (hcode c h)
  · split at h
    · exact htext _ (by simp) c h
    · cases h

theorem not_mem_queryFront {code : List Char} {state : Option (List Char)}
    (hcode : ∀ c ∈ code, c.isAlphanum) {d : Char}
    (hd : ¬ d.isAlphanum) (hequals : d ≠ '=') (hamp : d ≠ '&') : d ∉ queryFront code state := by
  intro h
  rcases mem_queryFront hcode h with h | h | h
  · exact hd h
  · exact hequals h
  · exact hamp h

/-- **How the browser reads the address**: what is left of the redirect URI, then what is cleaned
away from it alone, then the query, which ends where the state has a `#`. -/
theorem callback_text {redirect code : List Char} (state : Option (List Char))
    (hcode : ∀ c ∈ code, c.isAlphanum)
    (hredirect : ∃ c ∈ redirect, ¬ blank c) (hhash : '#' ∉ cleanUrl redirect) :
    before '#' (cleanUrl (redirect ++ ('?' :: queryFront code state ++ state.getD []))) =
      cleanUrl redirect ++
        (trailing redirect ++ ('?' :: queryFront code state ++ arrived (state.getD []))) := by
  have hfront : ∀ c ∈ '?' :: queryFront code state, ¬ blank c := by
    intro c hc
    rcases List.mem_cons.mp hc with rfl | hc
    · decide
    rcases mem_queryFront hcode hc with hc | rfl | rfl
    · exact not_blank_of_alphanum hc
    · decide
    · decide
  have hhash' : '#' ∉ trailing redirect := by
    intro h
    cases (mem_trailing h).1
  have hhash'' : '#' ∉ '?' :: queryFront code state := by
    intro h
    rcases List.mem_cons.mp h with h | h
    · cases h
    · exact not_mem_queryFront hcode (by decide) (by decide) (by decide) h
  rw [cleanUrl_append hredirect ⟨'?', by simp, by decide⟩, rdropWhile_append_of_all_not hfront,
    List.filter_append,
    List.filter_eq_self.mpr fun c hc => Lib.kept_of_not_blank (hfront c hc)]
  rw [before_append hhash, before_append hhash', before_append hhash'', arrived]

/-! ## The parameters -/

/-- The part of the query the state takes. -/
def stateTail : Option (List Char) → List Char
  | none => []
  | some state => '&' :: ("state=".toList ++ arrived state)

def statePairs : Option (List Char) → List (List Char × List Char)
  | none => []
  | some state => formPairs ("state=".toList ++ arrived state)

theorem queryFront_arrived (code : List Char) (state : Option (List Char)) :
    queryFront code state ++ arrived (state.getD []) = "code=".toList ++ code ++
      stateTail state := by
  cases state with
  | none =>
    have hnil : arrived [] = [] := rfl
    simp [queryFront_eq, stateTail, hnil]
  | some state => simp [queryFront_eq, stateTail]

theorem formPairs_stateTail {piece : List Char} (hne : piece ≠ []) (hamp : '&' ∉ piece)
    (state : Option (List Char)) :
    formPairs (piece ++ stateTail state) = formPair piece :: statePairs state := by
  cases state with
  | none => rw [stateTail, List.append_nil, formPairs_piece hne hamp, statePairs]
  | some state =>
    rw [stateTail, formPairs_append, formPairs_piece hne hamp, statePairs]
    rfl

/-- An alphanumeric text is read as it is. -/
theorem formDecode_plain {text : List Char} (hplus : '+' ∉ text) (hpercent : '%' ∉ text) :
    formDecode text = text := by
  refine formDecode_eq_self_iff.mpr ⟨hplus, ?_⟩
  rintro ⟨a, b, -, -, hinside⟩
  exact hpercent (hinside.subset List.mem_cons_self)

theorem not_mem_of_alphanum {code : List Char} (hcode : ∀ c ∈ code, c.isAlphanum) {d : Char}
    (hd : ¬ d.isAlphanum) :
    d ∉ code := fun h => hd (hcode d h)

theorem formPair_code {code : List Char} (hcode : ∀ c ∈ code, c.isAlphanum) :
    formPair ("code=".toList ++ code) = ("code".toList, code) := by
  have hplus := not_mem_of_alphanum hcode (d := '+') (by decide)
  have hpercent := not_mem_of_alphanum hcode (d := '%') (by decide)
  have hsplit : "code=".toList ++ code = "code".toList ++ '=' :: code := rfl
  rw [hsplit, formPair_of_name (by decide), formDecode_plain hplus hpercent,
    formDecode_plain (by decide) (by decide)]

/-- The first parameter behind the code is named `state`, and its value ends at an `&`. -/
theorem formPairs_state (value : List Char) :
    (∃ rest, formPairs ("state=".toList ++ value) =
      ("state".toList, formDecode (before '&' value)) :: rest) ∧
      ('&' ∉ value →
        formPairs ("state=".toList ++ value) = [("state".toList, formDecode value)]) := by
  have hname : formDecode "state".toList = "state".toList := by decide
  have hpiece : ∀ value, '&' ∉ value →
      formPairs ("state=".toList ++ value) = [("state".toList, formDecode value)] := by
    intro value hvalue
    have hsplit : "state=".toList ++ value = "state".toList ++ '=' :: value := rfl
    have hamp : '&' ∉ "state=".toList ++ value := by
      intro h
      rcases List.mem_append.mp h with h | h
      · revert h
        decide
      · exact hvalue h
    rw [formPairs_piece (by simp) hamp, hsplit, formPair_of_name (by decide), hname]
  refine ⟨?_, hpiece value⟩
  by_cases hamp : '&' ∈ value
  · obtain ⟨front, back, rfl, hfront⟩ := List.eq_append_cons_of_mem hamp
    rw [before_append hfront, before_cons_self, List.append_nil, ← List.append_assoc,
      formPairs_append,
      hpiece front hfront]
    exact ⟨_, rfl⟩
  · rw [before_of_not_mem hamp, hpiece value hamp]
    exact ⟨_, rfl⟩

/-- **When the state arrives.** -/
theorem statePairs_eq_iff {state : List Char} :
    formPairs ("state=".toList ++ arrived state) = [("state".toList, state)] ↔
      '&' ∉ state ∧ '+' ∉ state ∧ ¬ HasEscape state ∧ arrived state = state := by
  obtain ⟨⟨rest, hfirst⟩, hpiece⟩ := formPairs_state (arrived state)
  constructor
  · intro h
    rw [hfirst, List.cons.injEq, Prod.mk.injEq] at h
    obtain ⟨⟨-, hvalue⟩, -⟩ := h
    -- no step on the way makes the state longer, so none makes it shorter
    have hdecode := length_formDecode (before '&' (arrived state))
    have hbefore := (before_sublist '&' (arrived state)).length_le
    have harrived := arrived_sublist state
    have hlen := harrived.length_le
    rw [hvalue] at hdecode
    have hself : arrived state = state := harrived.eq_of_length_le (by omega)
    have hfront : before '&' (arrived state) = arrived state :=
      (before_sublist _ _).eq_of_length_le (by omega)
    rw [hfront, hself] at hvalue
    obtain ⟨hplus, hescape⟩ := formDecode_eq_self_iff.mp hvalue
    refine ⟨?_, hplus, hescape, hself⟩
    rw [← hself, ← hfront]
    exact not_mem_before _ _
  · rintro ⟨hamp, hplus, hescape, hself⟩
    rw [hself] at hpiece ⊢
    rw [hpiece hamp, formDecode_eq_self_iff.mpr ⟨hplus, hescape⟩]

/-! ## A redirect URI with a query -/

/-- The parameters up to the last `&`, and the piece behind it, to which all that follows is
added. -/
theorem exists_last_piece (query : List Char) :
    ∃ pairs last, '&' ∉ last ∧
      ∀ text, formPairs (query ++ text) = pairs ++ formPairs (last ++ text) := by
  by_cases hamp : '&' ∈ query
  · obtain ⟨back, front, heq, hback⟩ := List.eq_append_cons_of_mem (List.mem_reverse.mpr hamp)
    have hquery : query = front.reverse ++ '&' :: back.reverse := by
      rw [← List.reverse_reverse query, heq]
      simp
    refine ⟨formPairs front.reverse, back.reverse, by simpa using hback, fun text => ?_⟩
    rw [hquery, List.append_assoc, List.cons_append, formPairs_append]
  · exact ⟨[], query, hamp, fun text => rfl⟩

/-- What is put behind the last piece of a query: blanks, a `?` that means nothing there, and the
code. -/
structure Suffix (code suffix : List Char) : Prop where
  eq : ∃ blanks, (∀ c ∈ blanks, blank c = true) ∧ suffix = blanks ++ '?' :: ("code=".toList ++ code)
  code : ∀ c ∈ code, c.isAlphanum

namespace Suffix

variable {code suffix : List Char}

theorem not_mem (h : Suffix code suffix) {d : Char} (hblank : ¬ blank d) (hd : ¬ d.isAlphanum)
    (hquestion : d ≠ '?')
    (hequals : d ≠ '=') : d ∉ suffix := by
  obtain ⟨blanks, hblanks, rfl⟩ := h.eq
  intro hmem
  rcases List.mem_append.mp hmem with hmem | hmem
  · exact hblank (hblanks d hmem)
  rcases List.mem_cons.mp hmem with rfl | hmem
  · exact hquestion rfl
  rcases List.mem_append.mp hmem with hmem | hmem
  · have htext : ∀ c ∈ "code=".toList, c.isAlphanum ∨ c = '=' := forall_mem_of_all (by decide)
    rcases htext d hmem with hmem | rfl
    · exact hd hmem
    · exact hequals rfl
  · exact hd (h.code d hmem)

theorem question_mem (h : Suffix code suffix) : '?' ∈ suffix := by
  obtain ⟨blanks, -, rfl⟩ := h.eq
  simp

end Suffix

/-- A text that begins with a blank or a `?` and has nothing to decode is read as it is, whatever it
is put behind. -/
theorem formDecode_append_plain {c : Char} {rest : List Char} (hc : blank c = true ∨ c = '?')
    (hplus : '+' ∉ rest)
    (hpercent : '%' ∉ rest)
    (front : List Char) : formDecode (front ++ c :: rest) = formDecode front ++ c :: rest := by
  have hne : ∀ d : Char, ¬ blank d → d ≠ '?' → c ≠ d := by
    rintro d hd hquestion rfl
    exact hc.elim hd hquestion
  have hhex : hexVal c = none := by
    rcases hc with hc | rfl
    · have hle : c.toNat ≤ 0x20 := of_decide_eq_true hc
      have hnot : ∀ d : Char, 0x20 < d.toNat → ¬ d ≤ c := by
        intro d hd hle'
        have hdc : d.toNat ≤ c.toNat := hle'
        omega
      rw [hexVal, if_neg fun h => hnot '0' (by decide) h.1,
        if_neg fun h => hnot 'A' (by decide) h.1,
        if_neg fun h => hnot 'a' (by decide) h.1]
    · rfl
  rw [formDecode_append (hne '%' (by decide) (by decide)) hhex (hne '+' (by decide) (by decide)),
    formDecode_plain hplus hpercent]

/-- **What becomes of the last piece**: the suffix is the end of its value or, without one, of its
name. -/
theorem formPair_suffix {code suffix : List Char} (h : Suffix code suffix) (last : List Char) :
    (∃ name value, formPair last = (name, value) ∧
      formPair (last ++ suffix) = (name, value ++ suffix)) ∨
      ∃ name tail, '?' ∈ tail ∧ formPair last = (name, []) ∧
        formPair (last ++ suffix) = (name ++ tail, code) := by
  have hplus : '+' ∉ suffix := h.not_mem (by decide) (by decide) (by decide) (by decide)
  have hpercent : '%' ∉ suffix := h.not_mem (by decide) (by decide) (by decide) (by decide)
  obtain ⟨blanks, hblanks, hsuffix⟩ := h.eq
  obtain ⟨c, rest, hcons, hc⟩ : ∃ c rest, blanks ++ "?code".toList = c :: rest ∧
    (blank c = true ∨ c = '?') := by
    cases blanks with
    | nil => exact ⟨'?', "code".toList, by simp, .inr rfl⟩
    | cons b blanks => exact ⟨b, _, rfl, .inl (hblanks b List.mem_cons_self)⟩
  have hsplit : suffix = (c :: rest) ++ '=' :: code := by
    rw [← hcons, hsuffix, List.append_assoc]
    rfl
  have hplus' : '+' ∉ rest ++ '=' :: code :=
    fun hmem => hplus (hsplit ▸ List.mem_cons_of_mem _ hmem)
  have hpercent' : '%' ∉ rest ++ '=' :: code :=
    fun hmem => hpercent (hsplit ▸ List.mem_cons_of_mem _ hmem)
  by_cases hequals : '=' ∈ last
  · left
    obtain ⟨name, value, rfl, hname⟩ := List.eq_append_cons_of_mem hequals
    refine ⟨formDecode name, formDecode value, formPair_of_name hname value, ?_⟩
    rw [List.append_assoc, List.cons_append, formPair_of_name hname, hsplit, List.cons_append,
      formDecode_append_plain hc hplus' hpercent']
  · right
    have hname : '=' ∉ last ++ c :: rest := by
      rw [← hcons]
      intro hmem
      rcases List.mem_append.mp hmem with hmem | hmem
      · exact hequals hmem
      rcases List.mem_append.mp hmem with hmem | hmem
      · cases hblanks _ hmem
      · revert hmem
        decide
    refine ⟨formDecode last, c :: rest, ?_, formPair_of_not_mem hequals, ?_⟩
    · rw [← hcons]
      simp
    · have hfront : '+' ∉ rest ∧ '%' ∉ rest :=
        ⟨fun hmem => hplus' (List.mem_append_left _ hmem),
          fun hmem => hpercent' (List.mem_append_left _ hmem)⟩
      have hcode : '+' ∉ code ∧ '%' ∉ code :=
        ⟨not_mem_of_alphanum h.code (by decide), not_mem_of_alphanum h.code (by decide)⟩
      rw [hsplit, ← List.append_assoc, formPair_of_name hname,
        formDecode_append_plain hc hfront.1 hfront.2,
        formDecode_plain hcode.1 hcode.2]

/-- The parameters that are to be added, as lists of characters. -/
def sentPairs (code : List Char) (state : Option (List Char)) : List (List Char × List Char) :=
  ("code".toList, code) :: state.toList.map fun state => ("state".toList, state)

/-- An `&` in the state cuts it, and what is left cannot be as long as what stands before the
suffix. -/
theorem amp_cuts {code suffix value state : List Char} (h : Suffix code suffix)
    (hstate : state = value ++ suffix)
    (hamp : '&' ∈ arrived state) : formDecode (before '&' (arrived state)) ≠ value := by
  intro hvalue
  obtain ⟨front, back, harrived, hfront⟩ := List.eq_append_cons_of_mem hamp
  rw [harrived, before_append hfront, before_cons_self, List.append_nil] at hvalue
  have hsub := arrived_sublist state
  rw [harrived, hstate] at hsub
  obtain ⟨l₁, l₂, heq, h₁, h₂⟩ := List.sublist_append_iff.mp hsub
  have hnot : '&' ∉ suffix := h.not_mem (by decide) (by decide) (by decide) (by decide)
  have hdecode := length_formDecode front
  have hlen := h₁.length_le
  rw [hvalue] at hdecode
  -- the `&` comes from the value
  have hlt : front.length < l₁.length := by
    by_contra hge
    apply hnot
    refine h₂.subset ?_
    have hdrop : l₂ = (front ++ '&' :: back).drop l₁.length := by rw [heq, List.drop_left]
    rw [hdrop, List.drop_append_of_le_length (by omega)]
    simp
  omega

/-- **With a query, code and state do not arrive.** -/
theorem not_perm_of_query {code suffix : List Char} (h : Suffix code suffix) (query : List Char)
    (state : Option (List Char)) :
    ¬ (formPairs (query ++ (suffix ++ stateTail state))).Perm
      (formPairs query ++ sentPairs code state) := by
  have hamp : '&' ∉ suffix := h.not_mem (by decide) (by decide) (by decide) (by decide)
  have hquestion := h.question_mem
  obtain ⟨pairs, last, hlast, hpairs⟩ := exists_last_piece query
  have hquery := hpairs []
  rw [List.append_nil, List.append_nil] at hquery
  have hpiece : last ++ suffix ≠ [] := by
    rintro hnil
    rw [(List.append_eq_nil_iff.mp hnil).2] at hquestion
    cases hquestion
  have hamp' : '&' ∉ last ++ suffix := fun hmem => (List.mem_append.mp hmem).elim hlast hamp
  rw [hpairs, hquery, ← List.append_assoc, formPairs_stateTail hpiece hamp', List.append_assoc,
    List.perm_append_left_iff]
  intro hperm
  have hmem := hperm.subset List.mem_cons_self
  have hcases : formPair (last ++ suffix) = formPair last ∨
  formPair (last ++ suffix) = ("code".toList, code) ∨
      ∃ s ∈ state, formPair (last ++ suffix) = ("state".toList, s) := by
    rcases List.mem_append.mp hmem with hmem | hmem
    · left
      by_cases hnil : last = []
      · rw [hnil] at hmem
        cases hmem
      · rw [formPairs_piece hnil hlast] at hmem
        exact List.mem_singleton.mp hmem
    rcases List.mem_cons.mp hmem with hmem | hmem
    · exact .inr (.inl hmem)
    · obtain ⟨s, hs, heq⟩ := List.mem_map.mp hmem
      exact .inr (.inr ⟨s, Option.mem_toList.mp hs, heq.symm⟩)
  rcases formPair_suffix h last with ⟨name, value, hold, hnew⟩ | ⟨name, tail, htail, hold, hnew⟩
  · rw [hnew] at hcases
    rcases hcases with heq | heq | ⟨s, hs, heq⟩
    · rw [hold, Prod.mk.injEq] at heq
      rw [List.append_right_eq_self.mp heq.2] at hquestion
      cases hquestion
    · rw [Prod.mk.injEq] at heq
      refine not_mem_of_alphanum h.code (d := '?') (by decide) ?_
      rw [← heq.2]
      exact List.mem_append_right _ hquestion
    · -- only a `state` of the redirect URI could pass for the one that is sent
      obtain ⟨hname, hvalue⟩ := Prod.mk.inj heq
      rw [Option.mem_def.mp hs] at hperm
      have hnil : last ≠ [] := by
        rintro rfl
        cases hold
        cases hname
      rw [formPairs_piece hnil hlast, hold, hnew, hname, hvalue] at hperm
      have hmoved := List.perm_append_singleton ("state".toList, s)
        [("state".toList, value), ("code".toList, code)]
      have hrest : (statePairs (some s)).Perm [("state".toList, value), ("code".toList, code)] :=
        (hperm.trans hmoved).cons_inv
      obtain ⟨⟨rest, hfirst⟩, hpiece⟩ := formPairs_state (arrived s)
      by_cases hcut : '&' ∈ arrived s
      · refine amp_cuts h hvalue.symm hcut ?_
        rw [statePairs, hfirst] at hrest
        have hin := hrest.subset List.mem_cons_self
        rcases List.mem_cons.mp hin with hin | hin
        · exact (Prod.mk.inj hin).2
        · cases (Prod.mk.inj (List.mem_singleton.mp hin)).1
      · have hlen := hrest.length_eq
        rw [statePairs, hpiece hcut] at hlen
        cases hlen
  · rw [hnew] at hcases
    have hname : ∀ text : List Char, '?' ∉ text → name ++ tail ≠ text := by
      rintro text hnot rfl
      exact hnot (List.mem_append_right _ htail)
    rcases hcases with heq | heq | ⟨s, hs, heq⟩
    · rw [hold, Prod.mk.injEq] at heq
      rw [List.append_right_eq_self.mp heq.1] at htail
      cases htail
    · exact hname _ (by decide) (Prod.mk.inj heq).1
    · exact hname _ (by decide) (Prod.mk.inj heq).1

/-! ## What arrives -/

theorem parseUrl_of_origin {w : Web} {parseHost : HostParser} (hurls : ReadsUrls w parseHost)
    {redirectUri origin : String} (h : extractOrigin w redirectUri = .ok origin) :
    ∃ u, parseUrl parseHost redirectUri.toList = some u := by
  unfold extractOrigin at h
  cases hparse : w.urlParse redirectUri with
  | none =>
    rw [hparse] at h
    cases h
  | some url =>
    rw [hparse] at h
    cases hhost : url.host with
    | none =>
      simp only [Option.elim_some, bind, Except.bind, hhost, Option.elim_none] at h
      cases h
    | some host =>
      simp only [Option.elim_some, bind, Except.bind, hhost] at h
      split at h
      next hscheme =>
        obtain ⟨u, hu, -⟩ := hurls redirectUri url hparse hscheme
        exact ⟨u, hu⟩
      next => cases h

theorem sent_eq (code : String) (state : Option String) :
    sent code state = sentPairs code.toList (state.map String.toList) := by
  cases state <;> rfl

/-- The query of its own, and what was to be sent. -/
theorem sent_iff {code : List Char} (hcode : ∀ c ∈ code, c.isAlphanum) (state : Option String) :
    (formPairs ("code=".toList ++ code ++ stateTail (state.map String.toList))).Perm
        (sentPairs code (state.map String.toList)) ↔ ∀ s ∈ state, PlainState s := by
  have hamp : '&' ∉ "code=".toList ++ code := by
    intro h
    rcases List.mem_append.mp h with h | h
    · revert h
      decide
    · exact not_mem_of_alphanum hcode (by decide) h
  rw [formPairs_stateTail (by simp) hamp, formPair_code hcode, sentPairs, List.perm_cons]
  cases state with
  | none => simp [statePairs]
  | some state =>
    have hiff :
      (statePairs ((some state).map String.toList)).Perm [("state".toList, state.toList)] ↔
        PlainState state := by
      rw [Option.map_some, statePairs, List.perm_singleton, statePairs_eq_iff, arrived_eq_self_iff]
      constructor
      · rintro ⟨hamp, hplus, hescape, hhash, hkept, hlast⟩
        exact ⟨hamp, hhash, hplus, hescape, hkept, hlast⟩
      · rintro ⟨hamp, hhash, hplus, hescape, hkept, hlast⟩
        exact ⟨hamp, hplus, hescape, hhash, hkept, hlast⟩
    simpa using hiff

theorem suffix_trailing {code : List Char} (hcode : ∀ c ∈ code, c.isAlphanum)
    (redirect : List Char) :
    Suffix code (trailing redirect ++ '?' :: ("code=".toList ++ code)) :=
  ⟨⟨trailing redirect, fun _ hc => (mem_trailing hc).1, rfl⟩, hcode⟩

/-- **Code and state come back intact exactly when nothing has to be escaped**: the redirect URI is
one that `?code=…` can be put behind, and the state is read as it is written. -/
theorem callback_intact_iff {w : Web} {parseHost : HostParser} (hurls : ReadsUrls w parseHost)
    (hhost : RefusesBlanks parseHost) (call : Callback) {origin url : String}
    (horigin : extractOrigin w call.redirectUri = .ok origin)
    (hcode : ∀ c ∈ call.code.toList, c.isAlphanum)
    (hurl : call.url? = some url) :
    CarriesBack parseHost call.redirectUri call.code call.state url ↔
      PlainRedirect call.redirectUri ∧ ∀ state ∈ call.state, PlainState state := by
  obtain ⟨u, hu⟩ := parseUrl_of_origin hurls horigin
  have hexists := exists_not_blank_of_parse hu
  have htext := Callback.url_eq hurl
  have hbase := (parseUrl_eq_some.mp hu).1
  have hparams := params_eq hu
  have hquestion : '?' ∈ cleanUrl call.redirectUri.toList ↔ '?' ∈ call.redirectUri.toList :=
    mem_cleanUrl (by decide)
  have hhash : '#' ∈ cleanUrl call.redirectUri.toList ↔ '#' ∈ call.redirectUri.toList :=
    mem_cleanUrl (by decide)
  have hend := trailing_eq_nil_iff hexists
  -- whatever is carried back, it is to this address
  have hcarries : CarriesBack parseHost call.redirectUri call.code call.state url ↔
      ∃ v, parseUrl parseHost url.toList = some v ∧ v.location = u.location ∧
        v.params.Perm (u.params ++ sentPairs call.code.toList (call.state.map String.toList)) := by
    rw [← sent_eq]
    constructor
    · rintro ⟨u', v, hu', hv, hrest⟩
      rw [hu] at hu'
      cases hu'
      exact ⟨v, hv, hrest⟩
    · rintro ⟨v, hv, hrest⟩
      exact ⟨u, v, hu, hv, hrest⟩
  rw [hcarries]
  by_cases hfragment : '#' ∈ cleanUrl call.redirectUri.toList
  · -- the fragment swallows everything
    constructor
    · rintro ⟨v, hv, -, hperm⟩
      have hclean : before '#' (cleanUrl url.toList) =
        before '#' (cleanUrl call.redirectUri.toList) := by
        rw [htext, cleanUrl_append hexists ⟨'?', by simp, by decide⟩,
          before_append_of_mem hfragment]
      have hlen := hperm.length_eq
      rw [params_eq hv, hclean, ← hparams, List.length_append, sentPairs, List.length_cons] at hlen
      omega
    · rintro ⟨⟨-, hno, -⟩, -⟩
      exact absurd (hhash.mp hfragment) hno
  have hread := callback_text (call.state.map String.toList) hcode hexists hfragment
  rw [← htext, List.cons_append, queryFront_arrived] at hread
  rw [before_of_not_mem hfragment] at hbase hparams
  by_cases hquery : '?' ∈ cleanUrl call.redirectUri.toList
  · constructor
    · rintro ⟨v, hv, -, hperm⟩
      obtain ⟨query, hafter, happend⟩ := after_append_of_mem hquery
        (trailing call.redirectUri.toList ++
          '?' :: ("code=".toList ++ call.code.toList ++ stateTail (call.state.map String.toList)))
      rw [params_eq hv, hread, happend, hparams, hafter, Option.getD_some,
        Option.getD_some] at hperm
      have hsuffix := suffix_trailing hcode call.redirectUri.toList
      refine absurd ?_ (not_perm_of_query hsuffix query (call.state.map String.toList))
      rw [List.append_assoc, List.cons_append]
      exact hperm
    · rintro ⟨⟨hno, -⟩, -⟩
      exact absurd (hquestion.mp hquery) hno
  have htrailing : '?' ∉ trailing call.redirectUri.toList := by
    intro h
    cases (mem_trailing h).1
  rw [before_of_not_mem hquery] at hbase
  rw [after_of_not_mem hquery] at hparams
  have hnone : u.params = [] := hparams
  have hbefore : before '?' (before '#' (cleanUrl url.toList)) =
      cleanUrl call.redirectUri.toList ++ trailing call.redirectUri.toList := by
    rw [hread, before_append hquery, before_append htrailing, before_cons_self, List.append_nil]
  have hafter : after '?' (before '#' (cleanUrl url.toList)) =
      some ("code=".toList ++ call.code.toList ++ stateTail (call.state.map String.toList)) := by
    rw [hread, after_append hquery, after_append htrailing, after_cons_self]
  by_cases hblanks : trailing call.redirectUri.toList = []
  · have hplain : PlainRedirect call.redirectUri :=
      ⟨fun h => hquery (hquestion.mpr h), fun h => hfragment (hhash.mpr h), hend.mp hblanks⟩
    rw [hblanks, List.append_nil] at hbefore
    rw [and_iff_right hplain, ← sent_iff hcode, hnone, List.nil_append]
    constructor
    · rintro ⟨v, hv, -, hperm⟩
      rwa [params_eq hv, hafter, Option.getD_some] at hperm
    · intro hperm
      have hexists' : ∃ v, parseUrl parseHost url.toList = some v ∧ v.location = u.location :=
        (exists_parseUrl_iff (P := fun x => x = u.location)).mpr
          ⟨u.location, by rw [hbefore, hbase], rfl⟩
      obtain ⟨v, hv, hlocation⟩ := hexists'
      refine ⟨v, hv, hlocation, ?_⟩
      rwa [params_eq hv, hafter, Option.getD_some]
  · constructor
    · rintro ⟨v, hv, hlocation, -⟩
      have hother := (parseUrl_eq_some.mp hv).1
      rw [hbefore] at hother
      have hpath := parseBase_blank hhost hbase (fun c hc => (mem_trailing hc).1) hblanks hother
      exact absurd (congrArg Location.path hlocation) hpath
    · rintro ⟨⟨-, -, hlast⟩, -⟩
      exact absurd (hend.mpr hlast) hblanks

/-! ## Runs -/

theorem plainHosts_refuses : RefusesBlanks plainHosts := by
  rintro host ⟨c, hc, hblank⟩
  rw [plainHosts, if_neg]
  intro hall
  have hchar := List.all_eq_true.mp hall c hc
  have hnot : ¬ c.isAlphanum := fun h => not_blank_of_alphanum h hblank
  have hne : c ≠ '-' ∧ c ≠ '.' := by
    constructor
    · rintro rfl
      cases hblank
    · rintro rfl
      cases hblank
  simp [hnot, hne] at hchar

/-- A server that parses URLs, with plain host names. -/
def browserWeb : Web :=
  { Web.symbolic [] [] with
    urlParse := fun text => (parseUrl plainHosts text.toList).map fun v =>
      ⟨String.ofList v.location.scheme, some (String.ofList v.location.authority.host),
        v.location.authority.port⟩ }

theorem browserWeb_reads : ReadsUrls browserWeb plainHosts := by
  intro text u hu _
  obtain ⟨v, hv, heq⟩ := Option.map_eq_some_iff.mp hu
  exact ⟨v, hv, heq.symm⟩

def callbackTo (redirectUri state : String) : Callback :=
  .authorizeGet { clientId := "app", redirectUri, state := some state } "abc123"

theorem callback_intact_plain :
    CarriesBack plainHosts "https://app.example/cb" "abc123" (some "xyz")
      "https://app.example/cb?code=abc123&state=xyz" := by
  have hplain : PlainState "xyz" := by
    refine ⟨by decide, by decide, by decide, ?_, forall_mem_of_all (by decide), by simp [blank]⟩
    rintro ⟨a, b, -, -, hinside⟩
    have hmem := hinside.subset List.mem_cons_self
    revert hmem
    decide
  have horigin : extractOrigin browserWeb "https://app.example/cb" = .ok "https://app.example" := by
    decide
  have hurl : (callbackTo "https://app.example/cb" "xyz").url? =
      some "https://app.example/cb?code=abc123&state=xyz" := by decide
  refine (callback_intact_iff browserWeb_reads plainHosts_refuses
    (callbackTo "https://app.example/cb" "xyz") horigin
    (forall_mem_of_all (by decide)) hurl).mpr ⟨?_, ?_⟩
  · refine ⟨by decide, by decide, fun c hc => ?_⟩
    have hlast :
      ((callbackTo "https://app.example/cb" "xyz").redirectUri.toList.filter Lib.kept).getLast? =
        some 'b' := by decide
    rw [hlast] at hc
    cases hc
    decide
  · rintro state ⟨⟩
    exact hplain

/-- The app gets two codes, and not its state. -/
theorem callback_injected :
    extractOrigin browserWeb "https://app.example/cb" = .ok "https://app.example" ∧
      (callbackTo "https://app.example/cb" "xyz&code=evil").url? =
        some "https://app.example/cb?code=abc123&state=xyz&code=evil" ∧
      ¬ CarriesBack plainHosts "https://app.example/cb" "abc123" (some "xyz&code=evil")
        "https://app.example/cb?code=abc123&state=xyz&code=evil" := by
  refine ⟨by decide, by decide, ?_⟩
  rintro ⟨u, v, hu, hv, -, hperm⟩
  have hold : (parseUrl plainHosts "https://app.example/cb".toList).map (·.params.length) =
    some 0 := by decide
  have hnew :
    (parseUrl plainHosts "https://app.example/cb?code=abc123&state=xyz&code=evil".toList).map
      (·.params.length) = some 3 := by decide
  rw [hu, Option.map_some, Option.some_inj] at hold
  rw [hv, Option.map_some, Option.some_inj] at hnew
  have hlen := hperm.length_eq
  rw [hnew, List.length_append, hold] at hlen
  cases hlen

end Keycast.Http
