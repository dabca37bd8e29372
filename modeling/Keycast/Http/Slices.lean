import Keycast.Core.RegisteredClients
import Keycast.Http.OAuth
import Keycast.Http.Signup

/-!
# `Http/Slices.lean` — strings of a request that are cut by bytes

Four functions take slices of strings as a request brings them: two log lines, the name of a
nostr-login client, and the segment a wildcard stands for. A slice that is not there panics, and the
process then exits. Here is exactly which requests do that.

The slices of the log lines stand in the arguments of `tracing` macros, at the levels `info`
(`reset_password`, `connect_post`) and `warn` (`validate_pkce`), and are cut only where the level is
on, as it is by default (`main` falls back to `info`). The name of the client and the segment of the
wildcard are cut at every level.
-/

set_option autoImplicit false

namespace Keycast.Http

open Lib

/-- The functions, with what reaches them. -/
inductive SlicingCall
  | resetPassword (tenant : TenantId) (token newPassword : String)
  | connectPost (tenant : TenantId) (headers : Headers) (handle : String) (newId : RowId)
    (form : ConnectApprovalForm)
  | validatePkce (verifier challenge method : String)
  | matchesRedirectPattern (pattern uri : String)
  deriving DecidableEq

def Panics (w : Web) (s : State) : SlicingCall → Prop
  | .resetPassword tenant token newPassword =>
    ((resetPassword w tenant token newPassword).run s).1 = .error .panicked
  | .connectPost tenant headers handle newId form =>
    ((connectPost w tenant headers handle newId form).run s).1 = .error .panicked
  | .validatePkce verifier challenge method =>
    validatePkce w verifier challenge method = .error .panicked
  | .matchesRedirectPattern pattern uri => matchesRedirectPattern pattern uri = none

instance (w : Web) (s : State) : ∀ call, Decidable (Panics w s call)
  | .resetPassword .. | .connectPost .. | .validatePkce .. | .matchesRedirectPattern .. =>
    inferInstanceAs (Decidable (_ = _))

/-- `connect_post` gets as far as the name of the client: the form is approved by a user with a key
that gives a bunker key for the secret. -/
def NamesClient (w : Web) (s : State) (tenant : TenantId) (headers : Headers)
    (form : ConnectApprovalForm) : Prop :=
  form.approved = true ∧ ∃ user encrypted hash bunker,
    extractUserFromToken w s.now headers tenant = .ok user ∧
    s.db.personalKey user tenant = some encrypted ∧
    w.bcryptHash form.secret = .ok hash ∧
    deriveBunker w (fun e => OAuthError.encryption ("Failed to decrypt user key: " ++ e))
      (fun e => .invalidRequest ("Invalid secret key: " ++ e)) encrypted hash = .ok bunker

/-- Every slice that is taken is there. -/
def SlicesFit (w : Web) (s : State) : SlicingCall → Prop
  | .resetPassword _ token _ => CharBoundary token 10
  | .connectPost tenant headers _ _ form =>
    CharBoundary form.clientPubkey 8 ∧
      (NamesClient w s tenant headers form → CharBoundary form.clientPubkey 12)
  | .validatePkce verifier challenge method =>
    method = "S256" → w.base64Url (w.sha256 verifier) ≠ challenge → CharBoundary challenge 16
  | .matchesRedirectPattern pattern uri => ¬ Overlap pattern uri

/-- What is used of the digest's text: 32 bytes in base64url, without padding. -/
def DigestText (w : Web) : Prop :=
  ∀ text, (w.base64Url (w.sha256 text)).toList.length = 43 ∧
    ∀ c ∈ (w.base64Url (w.sha256 text)).toList, c.utf8Size = 1

section Panics

variable {w : Web} {s : State}

theorem resetPassword_panics {tenant : TenantId} {token newPassword : String} :
    ((resetPassword w tenant token newPassword).run s).1 = .error .panicked ↔
      ¬ CharBoundary token 10 := by
  have hends : (resetPassword w tenant token newPassword).Ends
      (fun r _ => r = .error .panicked ↔ ¬ CharBoundary token 10) s := by
    unfold resetPassword
    refine .orErr_cases (fun hnone => ?_) fun cut hcut => ?_
    · refine iff_of_true rfl ?_
      rw [← sliceTo_isSome, hnone]
      exact Bool.false_ne_true
    · have hfits : ¬ ¬ CharBoundary token 10 :=
        not_not_intro (sliceTo_isSome.mp (by rw [hcut]; rfl))
      refine .read (.orErr (iff_of_false nofun hfits) fun found _ => .read ?_)
      split
      · exact iff_of_false nofun hfits
      · exact .ofExcept_mapError (fun _ _ => iff_of_false nofun hfits) fun _ _ =>
          iff_of_false nofun hfits
  exact hends

theorem deriveBunker_error {ε : Type} {decryptError keyError : String → ε} {encrypted : Bytes}
    {hash : String} {e : ε}
    (h : deriveBunker w decryptError keyError encrypted hash = .error e) :
    ∃ m, e = decryptError m ∨ e = keyError m := by
  unfold deriveBunker at h
  cases hdecrypt : w.kmsDecrypt encrypted with
  | error m =>
    rw [hdecrypt] at h
    exact ⟨m, .inl (Except.error.inj h).symm⟩
  | ok decrypted =>
    rw [hdecrypt] at h
    change (Except.mapError keyError (w.secretKeyFromSlice decrypted) >>= _) = _ at h
    cases hkey : w.secretKeyFromSlice decrypted with
    | error m =>
      rw [hkey] at h
      exact ⟨m, .inr (Except.error.inj h).symm⟩
    | ok key =>
      rw [hkey] at h
      simp only [Except.mapError, bind, Except.bind] at h
      split at h
      · cases h
      · exact ⟨_, .inr (Except.error.inj h).symm⟩

theorem connectPost_panics {tenant : TenantId} {headers : Headers} {handle : String} {newId : RowId}
    {form : ConnectApprovalForm} :
    ((connectPost w tenant headers handle newId form).run s).1 = .error .panicked ↔
      ¬ SlicesFit w s (.connectPost tenant headers handle newId form) := by
  let fit := SlicesFit w s (.connectPost tenant headers handle newId form)
  have hends :
    (connectPost w tenant headers handle newId form).Ends (fun r _ => r = .error .panicked ↔
      ¬ fit) s := by
    unfold connectPost
    refine .orErr_cases (fun hnone => iff_of_true rfl fun h => ?_) fun cut hcut => ?_
    · have height : CharBoundary form.clientPubkey 8 := h.1
      rw [← sliceTo_isSome, hnone] at height
      cases height
    have height : CharBoundary form.clientPubkey 8 := sliceTo_isSome.mp (by rw [hcut]; rfl)
    -- an end before the second slice is taken
    have hearly : ¬ NamesClient w s tenant headers form → ¬ ¬ fit := fun hnot =>
      not_not_intro ⟨height, fun hnames => absurd hnames hnot⟩
    split
    · next happroved =>
      refine iff_of_false nofun (hearly fun hnames => ?_)
      rw [hnames.1] at happroved
      cases happroved
    next happroved =>
    refine .read
      (.ofExcept_mapError (fun e he => iff_of_false nofun (hearly ?_)) fun user huser => ?_)
    · rintro ⟨-, user, _, _, _, huser, -⟩
      rw [he] at huser
      cases huser
    refine .read
      (.orErr_cases (fun hnone => iff_of_false nofun (hearly ?_)) fun encrypted hencrypted => ?_)
    · rintro ⟨-, user', _, _, _, huser', hkey, -⟩
      cases huser.symm.trans huser'
      rw [hnone] at hkey
      cases hkey
    refine .ofExcept_mapError (fun e he => iff_of_false nofun (hearly ?_)) fun hash hhash => ?_
    · rintro ⟨-, _, _, _, _, -, -, hhash, -⟩
      rw [he] at hhash
      cases hhash
    refine .ofExcept_cases (fun e he => iff_of_false ?_ (hearly ?_)) fun bunker hbunker => ?_
    · obtain ⟨m, rfl | rfl⟩ := deriveBunker_error he <;> exact nofun
    · rintro ⟨-, user', encrypted', hash', _, huser', hkey, hhash', hbunker⟩
      cases huser.symm.trans huser'
      cases hencrypted.symm.trans hkey
      cases hhash.symm.trans hhash'
      cases he.symm.trans hbunker
    have hnames : NamesClient w s tenant headers form :=
      ⟨by simpa using happroved, user, encrypted, hash, bunker, huser, hencrypted, hhash, hbunker⟩
    refine .orErr_cases (fun hnone => iff_of_true rfl fun h => ?_) fun short hshort => ?_
    · have htwelve := h.2 hnames
      rw [← sliceTo_isSome, hnone] at htwelve
      cases htwelve
    have hfit : ¬ ¬ fit := not_not_intro ⟨height, fun _ => sliceTo_isSome.mp (by rw [hshort]; rfl)⟩
    exact ends_transact (iff_of_false nofun hfit) fun _ db _ => .write (iff_of_false nofun hfit)
  exact hends

theorem validatePkce_panics (hdigest : DigestText w) {verifier challenge method : String} :
    validatePkce w verifier challenge method = .error .panicked ↔
      ¬ SlicesFit w s (.validatePkce verifier challenge method) := by
  have hcomputed : (sliceTo (w.base64Url (w.sha256 verifier)) 16).isSome := by
    obtain ⟨hlength, hascii⟩ := hdigest verifier
    exact sliceTo_isSome.mpr (charBoundary_of_ascii hascii (by omega))
  unfold validatePkce SlicesFit
  by_cases hmethod : method = "S256"
  · rw [if_pos hmethod]
    by_cases heq : w.base64Url (w.sha256 verifier) = challenge
    · rw [if_pos heq]
      exact iff_of_false nofun (not_not_intro fun _ hne => absurd heq hne)
    · rw [if_neg heq]
      obtain ⟨cut, hcut⟩ := Option.isSome_iff_exists.mp hcomputed
      rw [hcut]
      cases hchallenge : sliceTo challenge 16 with
      | none =>
        refine iff_of_true rfl fun h => ?_
        have hboundary := h hmethod heq
        rw [← sliceTo_isSome, hchallenge] at hboundary
        cases hboundary
      | some cut' =>
        exact iff_of_false nofun
          (not_not_intro fun _ _ => sliceTo_isSome.mp (by rw [hchallenge]; rfl))
  · rw [if_neg hmethod]
    refine iff_of_false ?_ (not_not_intro fun h => absurd h hmethod)
    split
    · split <;> exact nofun
    · exact nofun

/-- **Which requests panic**: those with a slice that does not fit, and no others. -/
theorem no_panic_iff (hdigest : DigestText w) (s : State) (call : SlicingCall) :
    ¬ Panics w s call ↔ SlicesFit w s call := by
  rw [not_iff_comm]
  cases call with
  | resetPassword tenant token newPassword => exact resetPassword_panics.symm
  | connectPost tenant headers handle newId form => exact connectPost_panics.symm
  | validatePkce verifier challenge method => exact (validatePkce_panics hdigest).symm
  | matchesRedirectPattern pattern uri =>
    refine Iff.symm (matchesRedirectPattern_panics.trans ?_)
    exact not_not.symm

end Panics

/-! A reset token, a client key, a challenge and a redirect URI that are cut where there is nothing
to cut. -/

def sliceWeb : Web :=
  { Web.symbolic [] [] with base64Url := fun _ => "E9Melhoa2OwvFrEMTJguCHaoeK1t8URWbuGJSstw-cM" }

def pkceVerifier : String := "dBjftJeZ4CVP-mB92K27uhbUJU1p1r_wW1gFWFOEjXk"

theorem sliceWeb_digestText : DigestText sliceWeb := by
  intro text
  show "E9Melhoa2OwvFrEMTJguCHaoeK1t8URWbuGJSstw-cM".toList.length = 43 ∧
    ∀ c ∈ "E9Melhoa2OwvFrEMTJguCHaoeK1t8URWbuGJSstw-cM".toList, c.utf8Size = 1
  refine ⟨by decide, fun c hc => ?_⟩
  have hascii : "E9Melhoa2OwvFrEMTJguCHaoeK1t8URWbuGJSstw-cM".toList.all (·.utf8Size == 1) =
    true := by decide
  exact beq_iff_eq.mp (List.all_eq_true.mp hascii c hc)

/-- A challenge of another verifier, which is refused. -/
def otherChallenge : SlicingCall :=
  .validatePkce pkceVerifier "47DEQpj8HBSa-_TImW-5JCeuQeRkm5NMpJWZG3hSuFU" "S256"

theorem no_panic_other_challenge :
    SlicesFit sliceWeb (.boot {} 0) otherChallenge ∧
      ¬ Panics sliceWeb (.boot {} 0) otherChallenge := by
  have hfit : SlicesFit sliceWeb (.boot {} 0) otherChallenge := by
    intro _ _
    decide
  exact ⟨hfit, (no_panic_iff sliceWeb_digestText _ _).mpr hfit⟩

/-- **It happens**, in each of the four. -/
theorem short_strings_panic :
    Panics sliceWeb (.boot {} 0) (.resetPassword 1 "short" "new password") ∧
    Panics sliceWeb (.boot {} 0)
      (.connectPost 1 {} "handle" 1 ⟨"abc", "wss://relay", "secret", false⟩) ∧
    Panics sliceWeb (.boot {} 0) (.validatePkce pkceVerifier "ééé" "S256") ∧
    Panics sliceWeb (.boot {} 0)
      (.matchesRedirectPattern "https://*/callback" "https://callback") := by
  decide

end Keycast.Http
