import Keycast.Http.OAuth
import Keycast.Lib.Bech32

/-!
# `Http/BroughtKey.lean` — the key in the verifier

A user can bring a key by way of the PKCE verifier: a random text, a dot and the key.
`extract_nsec_from_verifier_public` looks behind the first dot, and takes what looks like a key. A
dot is a character that the random text may have as well; and what looks like a key need not be one:
the unit tests have a text that is none for a key.
-/

set_option autoImplicit false

namespace Keycast.Http

open Lib

/-- The characters of a verifier. -/
def isUnreserved (text : String) : Bool :=
  text.toList.all fun c => c.isAlphanum || c == '-' || c == '.' || c == '_' || c == '~'

abbrev Unreserved (text : String) : Prop := isUnreserved text = true

/-- A secret key of 64 hexadecimal digits. -/
def isHexKey (text : List Char) : Bool :=
  text.length == 64 && text.all fun c => c.isDigit || ('a' ≤ c && c ≤ 'f') || ('A' ≤ c && c ≤ 'F')

abbrev IsHexKey (text : List Char) : Prop := isHexKey text = true

/-- A secret key in bech32. -/
def isNsec (text : List Char) : Bool :=
  (decodeBech32 text).any fun b => b.hrp == "nsec".toList && (secretOfGroups b.groups).isSome

abbrev IsNsec (text : List Char) : Prop := isNsec text = true

def IsKey (text : List Char) : Prop := IsNsec text ∨ IsHexKey text

/-- A key is brought in this form: lower case, where it is bech32. -/
def IsPlainKey (text : List Char) : Prop :=
  (IsNsec text ∧ text.map Char.toLower = text) ∨ IsHexKey text

/-- What the code asks for. -/
def LooksLikeKey (text : List Char) : Prop := "nsec1".toList <+: text ∨ IsHexKey text

section BroughtKey

variable {text rest : List Char} {r n verifier : String}

theorem IsNsec.begins (h : IsNsec text) (hlower : text.map Char.toLower = text) :
    "nsec1".toList <+: text := by
  obtain ⟨b, hdecode, hboth⟩ := (Option.any_eq_true _ _).mp h
  have hhrp : b.hrp = "nsec".toList := eq_of_beq (Bool.and_eq_true_iff.mp hboth).1
  obtain ⟨-, data, hdata⟩ := decodeBech32_eq_some hdecode
  refine ⟨data, ?_⟩
  calc "nsec1".toList ++ data = "nsec".toList ++ '1' :: data := rfl
    _ = text := by rw [← hhrp, ← hdata, hlower]

theorem IsPlainKey.looks (h : IsPlainKey text) : LooksLikeKey text := by
  rcases h with ⟨hnsec, hlower⟩ | hhex
  · exact .inl (hnsec.begins hlower)
  · exact .inr hhex

/-- The test of the code. -/
theorem looks_iff :
    ("nsec1".toList.isPrefixOf text ||
        (text.length == 64 &&
          text.all fun c => c.isDigit || ('a' ≤ c && c ≤ 'f') || ('A' ≤ c && c ≤ 'F'))) = true ↔
      LooksLikeKey text := by
  rw [Bool.or_eq_true, List.isPrefixOf_iff_prefix]
  rfl

/-- What is behind the first dot is extracted if it looks like a key. -/
theorem extractNsec_eq (verifier : String) {n : List Char}
    (h : verifier.toList.dropWhile (· ≠ '.') = '.' :: n) :
    extractNsecFromVerifier verifier = some (String.ofList n) ↔ LooksLikeKey n := by
  unfold extractNsecFromVerifier
  rw [h]
  dsimp only
  rw [← looks_iff]
  split
  · next hlooks => simp only [hlooks]
  · next hno => simp only [hno]; simp

/-- Whatever is extracted stands behind a dot and looks like a key. -/
theorem extractNsec_eq_some (h : extractNsecFromVerifier verifier = some n) :
    (∃ front, verifier.toList = front ++ '.' :: n.toList) ∧ LooksLikeKey n.toList := by
  unfold extractNsecFromVerifier at h
  split at h
  · cases h
  next c rest hdrop =>
  split at h
  · next hlooks =>
    cases h
    have hdot : c = '.' := by
      have hfirst := List.head?_dropWhile_not (· ≠ '.') verifier.toList
      rw [hdrop] at hfirst
      simpa using hfirst
    subst hdot
    rw [String.toList_ofList]
    refine ⟨⟨verifier.toList.takeWhile (· ≠ '.'), ?_⟩, looks_iff.mp hlooks⟩
    rw [← hdrop, List.takeWhile_append_dropWhile]
  · cases h

/-- **A key behind a random text without a dot is extracted as it is**, and nothing is extracted
from a verifier in which nothing behind a dot looks like a key. -/
theorem brought_key_recovered :
    (∀ r n : String, Unreserved r → '.' ∉ r.toList → IsPlainKey n.toList →
      extractNsecFromVerifier (r ++ "." ++ n) = some n) ∧
    ∀ verifier, Unreserved verifier →
      (∀ front rest, verifier.toList = front ++ '.' :: rest → ¬ LooksLikeKey rest) →
      extractNsecFromVerifier verifier = none := by
  constructor
  · intro r n _ hr hkey
    have hdrop : (r ++ "." ++ n).toList.dropWhile (· ≠ '.') = '.' :: n.toList := by
      rw [String.toList_append, String.toList_append, List.append_assoc,
        List.dropWhile_append_of_pos]
      · rfl
      · intro c hc
        rw [decide_eq_true_eq]
        intro heq
        exact hr (heq ▸ hc)
    rw [(extractNsec_eq _ hdrop).mpr hkey.looks, String.ofList_toList]
  · intro verifier _ hnone
    cases h : extractNsecFromVerifier verifier with
    | none => rfl
    | some n =>
      obtain ⟨⟨front, hfront⟩, hlooks⟩ := extractNsec_eq_some h
      exact absurd hlooks (hnone front n.toList hfront)

/-! One key, in both forms. -/

def someNsec : String := "nsec1vl029mgpspedva04g90vltkh6fvh240zqtv9k0t9af8935ke9laqsnlfe5"

def someNsecUpper : String := "NSEC1VL029MGPSPEDVA04G90VLTKH6FVH240ZQTV9K0T9AF8935KE9LAQSNLFE5"

def someHex : String := "67dea2ed018072d675f5415ecfaed7d2597555e202d85b3d65ea4e58d2d92ffa"

/-- `random.nsec1short`. -/
def shortText : List Char :=
  ['r', 'a', 'n', 'd', 'o', 'm', '.', 'n', 's', 'e', 'c', '1', 's', 'h', 'o', 'r', 't']

theorem brought_key_recovered_some :
    extractNsecFromVerifier ("random" ++ "." ++ someNsec) = some someNsec ∧
      extractNsecFromVerifier "random-text" = none := by
  refine ⟨brought_key_recovered.1 "random" someNsec (by decide) (by decide)
    (.inl ⟨by decide +kernel, by decide +kernel⟩),
      brought_key_recovered.2 "random-text" (by decide) ?_⟩
  intro front rest hsplit
  have hdot : '.' ∈ "random-text".toList := hsplit ▸ List.mem_append_right _ List.mem_cons_self
  exact absurd hdot (by decide)

/-- **A key is missed** when the random text has a dot, and when it is written in upper case; and
what is no key is taken for one. -/
theorem keys_not_recovered :
    (Unreserved "a.b" ∧ IsKey someHex.toList ∧
      extractNsecFromVerifier ("a.b" ++ "." ++ someHex) = none) ∧
      (Unreserved "random" ∧ IsKey someNsecUpper.toList ∧
        extractNsecFromVerifier ("random" ++ "." ++ someNsecUpper) = none) ∧
      (Unreserved "random.nsec1short" ∧
        (∀ front rest, "random.nsec1short".toList = front ++ '.' :: rest → ¬ IsKey rest) ∧
        extractNsecFromVerifier "random.nsec1short" = some "nsec1short") := by
  refine ⟨⟨by decide, .inr (by decide), by decide⟩,
    ⟨by decide, .inl (by decide +kernel), by decide +kernel⟩, by decide, ?_, by decide +kernel⟩
  intro front rest hsplit hkey
  have htext : "random.nsec1short".toList = shortText := by decide
  rw [htext] at hsplit
  have hdrop : rest = shortText.drop (front.length + 1) := by
    rw [hsplit]
    simp
  have hlen : front.length < 17 := by
    have hsize := congrArg List.length hsplit
    simp [shortText] at hsize
    omega
  have hnone : ∀ k < 17,
    (isNsec (shortText.drop (k + 1)) || isHexKey (shortText.drop (k + 1))) = false := by
    decide
  have hno := Bool.or_eq_false_iff.mp (hnone front.length hlen)
  rw [← hdrop] at hno
  rcases hkey with h | h
  · exact absurd (hno.1.symm.trans h) Bool.false_ne_true
  · exact absurd (hno.2.symm.trans h) Bool.false_ne_true

end BroughtKey

end Keycast.Http
