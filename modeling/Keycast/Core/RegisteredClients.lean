import Keycast.Core.Db
import Keycast.Lib.Utf8

/-!
# `Core/RegisteredClients.lean` — where a registered client may be sent back to

`matches_redirect_pattern` and `validate_redirect_uri` of `repositories/registered_client.rs`. The
patterns are those of the client's row; a client without one may be sent anywhere.
-/

set_option autoImplicit false

namespace Keycast

open Lib

/-- The parts before and after the first `c`, as `splitn(2, c)` gives them when there is one. -/
def splitOnce (c : Char) (text : String) : Option (String × String) :=
  match text.toList.dropWhile (· ≠ c) with
  | [] => none
  | _ :: rest => some (String.ofList (text.toList.takeWhile (· ≠ c)), String.ofList rest)

def startsWith (text pre : String) : Bool := pre.toList.isPrefixOf text.toList

def endsWith (text suf : String) : Bool := suf.toList.isSuffixOf text.toList

/-- `matches_redirect_pattern`; `none` is a panic. -/
def matchesRedirectPattern (pattern uri : String) : Option Bool :=
  if pattern = uri then some true
  else
    match splitOnce '*' pattern with
    | none => some false
    | some (pre, suf) =>
      if !startsWith uri pre || !endsWith uri suf then some false
      else
        -- the segment the wildcard stands for
        (slice uri pre.utf8ByteSize (uri.utf8ByteSize - suf.utf8ByteSize)).map fun segment =>
          !segment.toList.contains '/'

/-- The loop of `validate_redirect_uri`: the first pattern that matches ends it. -/
def matchesAny (uri : String) : List String → Option Bool
  | [] => some false
  | pattern :: patterns => do
    if ← matchesRedirectPattern pattern uri then some true
    else matchesAny uri patterns

/-- `validate_redirect_uri`, on the patterns of the client's row; `none` is a panic. -/
def validateRedirectUri (allowed : Option (List String)) (clientId uri : String) :
    Option (Except String Unit) :=
  match allowed with
  | none => some (.ok ())
  | some [] => some (.error ("Client '" ++ clientId ++ "' has no allowed redirect URIs"))
  | some patterns => (matchesAny uri patterns).map fun found =>
    if found then .ok ()
    else .error ("redirect_uri '" ++ uri ++ "' is not allowed for client '" ++ clientId ++ "'")

theorem splitOnce_eq {c : Char} {text pre suf : String} (h : splitOnce c text = some (pre, suf)) :
    text = pre ++ (String.singleton c ++ suf) := by
  unfold splitOnce at h
  split at h
  · cases h
  next d rest hdrop =>
  cases h
  -- what is dropped up to the first `c` is what is taken
  have hd : d = c := by
    have hhead := List.head?_dropWhile_not (· ≠ c) text.toList
    rw [hdrop] at hhead
    simpa using hhead
  rw [← String.toList_inj]
  simp only [String.toList_append, String.toList_ofList, String.toList_singleton]
  rw [← hd, List.singleton_append, ← hdrop, hd]
  exact (List.takeWhile_append_dropWhile).symm

theorem startsWith_iff {text pre : String} : startsWith text pre = true ↔
    ∃ post, text = pre ++ post := by
  rw [startsWith, List.isPrefixOf_iff_prefix]
  constructor
  · rintro ⟨cs, hcs⟩
    refine ⟨String.ofList cs, ?_⟩
    rw [← String.toList_inj, String.toList_append, String.toList_ofList, hcs]
  · rintro ⟨post, rfl⟩
    exact ⟨post.toList, String.toList_append.symm⟩

theorem endsWith_iff {text suf : String} : endsWith text suf = true ↔ ∃ pre, text = pre ++ suf := by
  rw [endsWith, List.isSuffixOf_iff_suffix]
  constructor
  · rintro ⟨cs, hcs⟩
    refine ⟨String.ofList cs, ?_⟩
    rw [← String.toList_inj, String.toList_append, String.toList_ofList, hcs]
  · rintro ⟨pre, rfl⟩
    exact ⟨pre.toList, String.toList_append.symm⟩

/-- The two fixed parts of the pattern share bytes of the URI. -/
def Overlap (pattern uri : String) : Prop :=
  ∃ pre suf, splitOnce '*' pattern = some (pre, suf) ∧ startsWith uri pre = true ∧
    endsWith uri suf = true ∧
    uri.utf8ByteSize < pre.utf8ByteSize + suf.utf8ByteSize

/-- **When the matcher panics.** Both ends of the segment are between characters, so only their
order is left. -/
theorem matchesRedirectPattern_panics {pattern uri : String} :
    matchesRedirectPattern pattern uri = none ↔ Overlap pattern uri := by
  unfold matchesRedirectPattern
  split
  · next heq =>
    subst heq
    refine ⟨(fun h => nomatch h), fun ⟨pre, suf, hsplit, _, _, hlt⟩ => ?_⟩
    rw [splitOnce_eq hsplit, String.utf8ByteSize_append, String.utf8ByteSize_append] at hlt
    omega
  split
  · next hnone =>
    refine ⟨(fun h => nomatch h), fun ⟨pre, suf, hsplit, _⟩ => ?_⟩
    rw [hnone] at hsplit
    cases hsplit
  next pre suf hsplit =>
  have hoverlap : Overlap pattern uri ↔ startsWith uri pre = true ∧ endsWith uri suf = true ∧
      uri.utf8ByteSize < pre.utf8ByteSize + suf.utf8ByteSize := by
    constructor
    · rintro ⟨pre', suf', hsplit', h⟩
      rw [hsplit] at hsplit'
      cases hsplit'
      exact h
    · exact fun h => ⟨pre, suf, hsplit, h⟩
  rw [hoverlap]
  split
  · next hend =>
    refine ⟨(fun h => nomatch h), fun ⟨hpre, hsuf, _⟩ => ?_⟩
    rw [hpre, hsuf] at hend
    cases hend
  next hend =>
  have hends : startsWith uri pre = true ∧ endsWith uri suf = true := by simpa using hend
  obtain ⟨post, hpost⟩ := startsWith_iff.mp hends.1
  obtain ⟨front, hfront⟩ := endsWith_iff.mp hends.2
  have hlo : CharBoundary uri pre.utf8ByteSize := charBoundary_iff.mpr ⟨pre, post, hpost, rfl⟩
  have hsize : uri.utf8ByteSize - suf.utf8ByteSize = front.utf8ByteSize := by
    rw [hfront, String.utf8ByteSize_append]
    omega
  have hhi : CharBoundary uri front.utf8ByteSize := charBoundary_iff.mpr ⟨front, suf, hfront, rfl⟩
  rw [Option.map_eq_none_iff, hsize, ← Option.not_isSome_iff_eq_none, slice_isSome]
  have huri : uri.utf8ByteSize = front.utf8ByteSize + suf.utf8ByteSize := by
    rw [hfront, String.utf8ByteSize_append]
  constructor
  · intro h
    refine ⟨hends.1, hends.2, ?_⟩
    by_contra hge
    exact h ⟨by omega, hlo, hhi⟩
  · rintro ⟨-, -, hlt⟩ ⟨hle, -⟩
    omega

end Keycast
