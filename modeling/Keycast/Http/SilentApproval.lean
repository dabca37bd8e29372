import Keycast.Http.Escalation

/-!
# `Http/SilentApproval.lean` — codes without a consent screen

`authorize_get` gives out a code at once when the user is "already authorized", which it finds out
in two ways. By handle: the row is live and the user's, of whatever tenant and origin. By origin:
the row is the user's, of that tenant and origin, and not revoked, expired or not. Neither looks at
the policy of the row it finds, though the scope of the code decides what the new authorization
allows.
-/

set_option autoImplicit false

namespace Keycast.Http

open Lib

/-- One request to `GET /oauth/authorize`: its arguments, as `authorizeGet` has them. -/
structure AuthorizeCall where
  tenant : TenantId
  headers : Headers
  redirectCheck : Except String Unit
  code : String
  params : AuthorizeRequest

def AuthorizeCall.run (w : Web) (s : State) (r : AuthorizeCall) :
    Except OAuthError (Option String) × State :=
  (authorizeGet w r.tenant r.headers r.redirectCheck r.code r.params).run s

/-- The scope the code is stored with. -/
def AuthorizeCall.scope (r : AuthorizeCall) : String := r.params.scope.getD "sign_event"

/-- The authorization is one of the user's, in the tenant of the request and for the origin of its
`redirect_uri`. -/
structure AuthorizeCall.Grant (w : Web) (r : AuthorizeCall) (user : PublicKey)
    (a : OAuthAuthorization) :
    Prop where
  user : a.userPubkey = user
  tenant : a.tenantId = r.tenant
  origin : extractOrigin w r.params.redirectUri = .ok a.redirectOrigin

/-- **What is asked of a code that is given out without a consent screen**: the user holds a live
authorization for this tenant and origin, whose policy forbids nothing that the requested one
allows. -/
def SoundApproval (w : Web) (s : State) (r : AuthorizeCall) : Prop :=
  ∀ code, (r.run w s).1 = .ok (some code) →
    ∃ user, cookieUser w s.now r.headers r.tenant = some user ∧
      ∃ a ∈ s.db.oauthAuthorizations, r.Grant w user a ∧ a.live s.now = true ∧
        ScopeWithin w s.db a.policyId r.scope

/-- The handle of the request is that of a live authorization of the user. -/
def AuthorizeCall.byHandle (s : State) (r : AuthorizeCall) (user : PublicKey) : Bool :=
  (r.params.authorizationHandle.bind fun handle => s.db.findIdByHandle s.now handle user).isSome

/-- The user has an unrevoked authorization for the origin. -/
def AuthorizeCall.byOrigin (w : Web) (s : State) (r : AuthorizeCall) (user : PublicKey) : Bool :=
  match extractOrigin w r.params.redirectUri with
  | .ok origin => s.db.hasActiveForOrigin user origin r.tenant
  | .error _ => false

/-- The requests that get a code at once: those of a signed-in user with an account who is not to
log in, register or consent, and whose handle or origin is known. -/
structure AuthorizeCall.Silent (w : Web) (s : State) (r : AuthorizeCall)
    (user : PublicKey) : Prop where
  redirect : r.redirectCheck = .ok ()
  session : cookieUser w s.now r.headers r.tenant = some user
  prompt : r.params.prompt ≠ some "login" ∧ r.params.prompt ≠ some "consent"
  byok : r.params.byokPubkey = none
  account : (s.db.getEmail user r.tenant).isSome = true
  known : r.byHandle s user = true ∨ r.byOrigin w s user = true
  unused : ∀ c ∈ s.db.oauthCodes, c.code ≠ r.code

/-- The user's authorizations for this tenant and origin have all been revoked, have expired, or
forbid something that the requested policy allows; there may be none. -/
def Lapsed (w : Web) (s : State) (r : AuthorizeCall) (user : PublicKey) : Prop :=
  ∀ a ∈ s.db.oauthAuthorizations, r.Grant w user a →
    a.revokedAt.isSome = true ∨ unexpired s.now a.expiresAt = false ∨
      ¬ ScopeWithin w s.db a.policyId r.scope

section Runs

variable {w : Web} {s : State} {r : AuthorizeCall} {user : PublicKey} {code : String}

theorem autoApprove_issues {previous : Option RowId} :
    ((autoApprove r.tenant r.code user r.params previous).run s).1 = .ok (some code) ↔
      code = r.code ∧ ∀ c ∈ s.db.oauthCodes, c.code ≠ r.code := by
  unfold autoApprove storeCode
  rw [Prog.bind_def, Prog.run_bind, run_transact]
  generalize hrow : r.params.row r.tenant r.code user _ previous false s.now = row
  have hcode : row.code = r.code := by rw [← hrow]; rfl
  unfold Db.storeOAuthCode
  rw [hcode]
  by_cases hused : s.db.oauthCodes.any (·.code == r.code) = true
  · rw [if_pos hused]
    obtain ⟨c, hc, heq⟩ := List.any_eq_true.mp hused
    simp only [Option.map_none, reduceCtorEq, false_iff, not_and]
    exact fun _ hunused => hunused c hc (beq_iff_eq.mp heq)
  · rw [if_neg hused]
    simp only [Option.map_some, Prog.pure_def, Prog.run_ret, Except.ok.injEq, Option.some.injEq]
    constructor
    · rintro rfl
      exact ⟨rfl, fun c hc heq => hused (List.any_eq_true.mpr ⟨c, hc, beq_iff_eq.mpr heq⟩)⟩
    · rintro ⟨rfl, -⟩
      rfl

theorem run_authorizeAccount (hsession : cookieUser w s.now r.headers r.tenant = some user) :
    (authorizeAccount (cookieUser w s.now r.headers r.tenant) r.tenant r.params).run s =
      (.ok (if r.params.prompt ≠ some "login" ∧ r.params.byokPubkey = none ∧
        (s.db.getEmail user r.tenant).isSome = true then some user else none), s) := by
  rw [hsession]
  unfold authorizeAccount
  by_cases hlogin : r.params.prompt = some "login"
  · simp [hlogin]
  · cases hbyok : r.params.byokPubkey with
    | some key => simp
    | none => simp [hlogin]

theorem run_previousAuthorization :
    (previousAuthorization user r.params.authorizationHandle).run s =
      (.ok (r.params.authorizationHandle.bind fun handle => s.db.findIdByHandle s.now handle user),
        s) := by
  cases r.params.authorizationHandle with
  | none => rfl
  | some handle => rfl

/-- The two lookups, for a user who is signed in. -/
theorem lookups_issue :
    ((do
      let previous ← previousAuthorization user r.params.authorizationHandle
      if previous.isSome && r.params.prompt ≠ some "consent" then
        autoApprove r.tenant r.code user r.params previous
      else
        let origin ← .ofExcept (extractOrigin w r.params.redirectUri)
        let active ← .read .hasActiveForOrigin fun s => s.db.hasActiveForOrigin user origin r.tenant
        if active && r.params.prompt ≠ some "consent" then
          autoApprove r.tenant r.code user r.params none
        else return none : Prog Stmt State OAuthError (Option String)).run s).1 = .ok (some code) ↔
      r.params.prompt ≠ some "consent" ∧ (r.byHandle s user = true ∨ r.byOrigin w s user = true) ∧
        code = r.code ∧ ∀ c ∈ s.db.oauthCodes, c.code ≠ r.code := by
  rw [Prog.bind_def, Prog.run_bind, run_previousAuthorization]
  simp only
  by_cases hconsent : r.params.prompt = some "consent"
  · -- a consent screen is shown whatever is found
    simp only [hconsent, ne_eq, not_true_eq_false, decide_false, Bool.and_false,
      Bool.false_eq_true, if_false,
      false_and, iff_false]
    cases extractOrigin w r.params.redirectUri with
    | error e => simp
    | ok origin => simp
  · simp only [hconsent, ne_eq, not_false_eq_true, decide_true, Bool.and_true, true_and]
    cases hhandle : r.byHandle s user with
    | true =>
      unfold AuthorizeCall.byHandle at hhandle
      rw [if_pos hhandle, autoApprove_issues]
      simp
    | false =>
      unfold AuthorizeCall.byHandle at hhandle
      rw [if_neg (by rw [hhandle]; decide)]
      unfold AuthorizeCall.byOrigin
      cases extractOrigin w r.params.redirectUri with
      | error e => simp
      | ok origin =>
        simp only [Prog.ofExcept_ok, Prog.bind_def, Prog.ret_bind, Prog.read_bind,
          Prog.run_atom, id_eq]
        cases s.db.hasActiveForOrigin user origin r.tenant with
        | true =>
          simp only [if_true]
          rw [autoApprove_issues]
          simp
        | false => simp

/-- **Which requests get a code at once.** -/
theorem run_issues : (r.run w s).1 = .ok (some code) ↔ code = r.code ∧
    ∃ user, r.Silent w s user := by
  unfold AuthorizeCall.run authorizeGet
  cases hredirect : r.redirectCheck with
  | error e =>
    simp only [Except.mapError, Prog.bind_def, Prog.ofExcept_error, Prog.err_bind,
      Prog.run_err, reduceCtorEq,
      false_iff, not_and]
    rintro - ⟨user, hsilent⟩
    exact nomatch hredirect.symm.trans hsilent.redirect
  | ok u =>
    simp only [Except.mapError, Prog.bind_def, Prog.ofExcept_ok, Prog.ret_bind, Prog.read_bind,
      Prog.run_atom,
      id_eq]
    rw [Prog.run_bind]
    cases hsession : cookieUser w s.now r.headers r.tenant with
    | none =>
      simp only [authorizeAccount, Prog.pure_def, Prog.run_ret, Except.ok.injEq, reduceCtorEq,
        false_iff, not_and]
      rintro - ⟨user, hsilent⟩
      exact nomatch hsession.symm.trans hsilent.session
    | some user =>
      rw [← hsession, run_authorizeAccount hsession]
      by_cases haccount : r.params.prompt ≠ some "login" ∧ r.params.byokPubkey = none ∧
          (s.db.getEmail user r.tenant).isSome = true
      · rw [if_pos haccount]
        refine lookups_issue.trans ⟨?_, ?_⟩
        · rintro ⟨hconsent, hknown, rfl, hunused⟩
          exact ⟨rfl, user, hredirect, hsession, ⟨haccount.1, hconsent⟩, haccount.2.1,
            haccount.2.2, hknown,
            hunused⟩
        · rintro ⟨rfl, user', hsilent⟩
          obtain rfl : user = user' := Option.some_inj.mp (hsession.symm.trans hsilent.session)
          exact ⟨hsilent.prompt.2, hsilent.known, rfl, hsilent.unused⟩
      · rw [if_neg haccount]
        simp only [Prog.pure_def, Prog.run_ret, Except.ok.injEq, reduceCtorEq, false_iff, not_and]
        rintro - ⟨user', hsilent⟩
        obtain rfl : user = user' := Option.some_inj.mp (hsession.symm.trans hsilent.session)
        exact haccount ⟨hsilent.prompt.1, hsilent.byok, hsilent.account⟩

end Runs

theorem live_iff {now : Timestamp} {a : OAuthAuthorization} :
    a.live now = true ↔ ¬ (a.revokedAt.isSome = true ∨ unexpired now a.expiresAt = false) := by
  unfold OAuthAuthorization.live
  cases a.revokedAt with
  | none => simp
  | some t => simp

/-- **When a code without a consent screen is right**: unless the request gets its code at once
although the user's authorizations for the tenant and origin have lapsed. -/
theorem silent_approval_sound_iff (w : Web) (s : State) (r : AuthorizeCall) :
    SoundApproval w s r ↔ ¬ ∃ user, r.Silent w s user ∧ Lapsed w s r user := by
  constructor
  · rintro hsound ⟨user, hsilent, hlapsed⟩
    obtain ⟨user', hsession, a, ha, hgrant, hlive, hscope⟩ :=
      hsound r.code (run_issues.mpr ⟨rfl, user, hsilent⟩)
    obtain rfl : user = user' := Option.some_inj.mp (hsilent.session.symm.trans hsession)
    rcases hlapsed a ha hgrant with hrevoked | hexpired | hwider
    · exact live_iff.mp hlive (.inl hrevoked)
    · exact live_iff.mp hlive (.inr hexpired)
    · exact hwider hscope
  · intro hnot code hissued
    obtain ⟨-, user, hsilent⟩ := run_issues.mp hissued
    refine ⟨user, hsilent.session, ?_⟩
    by_contra hnone
    refine hnot ⟨user, hsilent, fun a ha hgrant => ?_⟩
    by_contra hgood
    rw [not_or, not_or, not_not] at hgood
    obtain ⟨hrevoked, hexpired, hscope⟩ := hgood
    exact hnone ⟨a, ha, hgrant, live_iff.mpr (not_or.mpr ⟨hrevoked, hexpired⟩), hscope⟩

/-! The app with a policy that only decrypts, and its authorization as it is in each case. -/

def readonlyGrant : OAuthAuthorization :=
  { id := 1, tenantId := 1, userPubkey := "user", bunkerPublicKey := "pub:bunker",
    redirectOrigin := "https://app.example", secretHash := "h", policyId := some 1,
    authorizationHandle := some "handle", handleExpiresAt := 1000 }

def grantState (a : OAuthAuthorization) : State :=
  { appState with db := { appState.db with oauthAuthorizations := [a] }, now := 100 }

def appAsks (redirectUri scope : String) (handle : Option String) : AuthorizeCall where
  tenant := 1
  headers := { cookie := some (some "keycast_session=app") }
  redirectCheck := .ok ()
  code := "code"
  params := { clientId := "app", redirectUri, scope := some scope, authorizationHandle := handle }

/-- With its handle at another origin, with an expired authorization, and for a wider policy. -/
def elsewhere : AuthorizeCall := appAsks "other.example" "policy:readonly" (some "handle")

def again : AuthorizeCall := appAsks "app.example" "policy:readonly" none

def wider : AuthorizeCall := appAsks "app.example" "policy:full" none

theorem full_not_within_readonly :
    ¬ ScopeWithin appWeb (grantState readonlyGrant).db (some 1) "policy:full" := by
  intro hwithin
  have hslug : parsePolicyScope "policy:full" = .ok "full" := by decide
  have hpolicy : (grantState readonlyGrant).db.findPolicyBySlug "full" =
    some { id := 2, slug := some "full" } := by
    decide
  have hfull :
    Grants appWeb (grantState readonlyGrant).db (some 2) "user"
      (.sign ⟨"user", 0, 1, [], "note"⟩) := by
    refine ⟨[⟨2, "full_access", .obj []⟩], rfl, fun c hc => ?_⟩
    have hc : c ∈ [CustomPermission.fullAccess] := hc
    rw [List.mem_singleton.mp hc]
    rfl
  obtain ⟨rows, hrows, hall⟩ := hwithin "full" _ hslug hpolicy "user" _ hfull
  obtain rfl : [⟨1, "decrypt_only", .obj []⟩] = rows := Option.some_inj.mp hrows
  exact absurd (hall .decryptOnly List.mem_cons_self) (by decide)

/-- **Codes without a consent screen** that the user never agreed to. -/
theorem silent_approval_unsound :
    ¬ SoundApproval appWeb (grantState readonlyGrant) elsewhere ∧
      ¬ SoundApproval appWeb (grantState { readonlyGrant with expiresAt := some 50 }) again ∧
      ¬ SoundApproval appWeb (grantState readonlyGrant) wider := by
  refine ⟨fun hsound => ?_, fun hsound => ?_, fun hsound => ?_⟩
  · obtain ⟨_, -, a, ha, hgrant, -⟩ := hsound "code" (by decide)
    rw [List.mem_singleton.mp ha] at hgrant
    exact absurd hgrant.origin (by decide)
  · obtain ⟨_, -, a, ha, -, hlive, -⟩ := hsound "code" (by decide)
    rw [List.mem_singleton.mp ha] at hlive
    exact absurd hlive (by decide)
  · obtain ⟨_, -, a, ha, -, -, hscope⟩ := hsound "code" (by decide)
    rw [List.mem_singleton.mp ha] at hscope
    exact full_not_within_readonly hscope

end Keycast.Http
