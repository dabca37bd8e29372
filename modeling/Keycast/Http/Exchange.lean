import Keycast.Http.SingleUse

/-!
# `Http/Exchange.lean` — what the exchange of a code needs

`handle_authorization_code_grant` looks the code up, compares the `redirect_uri`, checks the
verifier, settles whose account it is and creates an authorization.
`createOAuthAuthorization_ok_iff` and `exchange_ok_iff` say exactly when the last and the whole of
it succeed, by conditions on the request and the database as they were before it. One field of the
request is in none of them: the `client_id`.

The program is taken apart once: `settleAccount`, `choosePolicy` and `insertGrant` are its parts,
each with an equivalence that says when it succeeds and what it leaves. The whole is their
composition, with one value for each thing the handler has in hand (`GrantParts`). The binding is
then a matter of reading the conditions: of what a code is bound to, the tenant and the time are in
the lookup, the `redirect_uri` and the verifier in the handler (`Exchangeable.bound`), and the
client in neither.
-/

set_option autoImplicit false

namespace Keycast.Http

open Lib

/-! ## What is asked for on the way -/

/-- The key that an `nsec` in the verifier stands for, encrypted, if it is the user's. -/
def verifierKey (w : Web) (user : PublicKey) (nsec : Option String) : Option Bytes := do
  let keys ← (w.keysParse (← nsec)).toOption
  if w.publicKey keys = user then (w.kmsEncrypt (w.toSecretBytes keys)).toOption else none

/-- The key a grant works with, and the tables with that key in them. -/
def grantKey (w : Web) (db : Db) (tenant : TenantId) (user : PublicKey) (nsec : Option String) :
    Option (Bytes × Db) :=
  match db.encryptedKeyForTenant user tenant with
  | some key => some (key, db)
  | none => (verifierKey w user nsec).map fun key => (key, db.insertPersonalKey ⟨user, tenant, key⟩)

/-- The bunker's public key, derived from the user's key and the hash of a connection secret. -/
def bunkerOf (w : Web) (encrypted : Bytes) (secretHash : String) : Option PublicKey := do
  let decrypted ← (w.kmsDecrypt encrypted).toOption
  let secretKey ← (w.secretKeyFromSlice decrypted).toOption
  (w.deriveBunkerKeys secretKey secretHash).map w.publicKey

/-- The access token of a grant. -/
def accessTokenOf (w : Web) (now : Timestamp) (tenant : TenantId) (user : PublicKey)
    (email origin : String)
    (bunker : PublicKey) (isFirstParty : Bool) : Option String := do
  let user ← (w.publicKeyFromHex user).toOption
  let serverKeys ← w.getServerKeys.toOption
  (generateServerSignedUcan w now user tenant email origin (some bunker) serverKeys
    isFirstParty none
    w.tokenExpirySeconds).toOption

/-- The policy a scope names. -/
def policyOfScope (db : Db) (scope : String) : Option Policy :=
  (parsePolicyScope scope).toOption.bind db.findPolicyBySlug

section Parts

variable {w : Web} {s s' : State} {tenant : TenantId} {user : PublicKey}

theorem deriveBunker_ok {ε : Type} {decryptError keyError : String → ε} {encrypted : Bytes}
    {hash : String}
    {bunker : PublicKey} :
    deriveBunker w decryptError keyError encrypted hash = .ok bunker ↔
      bunkerOf w encrypted hash = some bunker := by
  simp only [deriveBunker, bunkerOf, bind_eq_ok, mapError_eq_ok, Option.bind_eq_bind,
    Option.bind_eq_some_iff,
    toOption_eq_some]
  refine exists_congr fun decrypted => and_congr_right fun _ => exists_congr fun secretKey =>
    and_congr_right fun _ => ?_
  cases w.deriveBunkerKeys secretKey hash with
  | none => simp
  | some keys => simp

theorem ensurePersonalKey_ok {nsec : Option String} {key : Bytes} :
    (ensurePersonalKey w tenant user nsec).run s = (.ok key, s') ↔
      ∃ db, grantKey w s.db tenant user nsec = some (key, db) ∧ s.withDb db = s' := by
  unfold ensurePersonalKey grantKey
  rw [Prog.bind_def, Prog.read_bind, Prog.run_atom]
  cases s.db.encryptedKeyForTenant user tenant with
  | some found =>
    simp only [Prog.pure_def, id_eq, Prog.run_ret_ok, Option.some.injEq, Prod.mk.injEq]
    constructor
    · rintro ⟨rfl, rfl⟩
      exact ⟨s.db, ⟨rfl, rfl⟩, rfl⟩
    · rintro ⟨db, ⟨rfl, rfl⟩, rfl⟩
      exact ⟨rfl, rfl⟩
  | none =>
    simp only [id_eq, Prog.bind_def, Prog.run_bind_ok, Prog.run_orErr_ok, Prog.run_ofExcept_ok,
      mapError_eq_ok,
      verifierKey, Option.map_eq_some_iff, Option.bind_eq_bind, Option.bind_eq_some_iff,
        toOption_eq_some]
    constructor
    · rintro ⟨nsec, _, ⟨hnsec, rfl⟩, keys, _, ⟨hkeys, rfl⟩, h⟩
      split at h
      · cases h
      next huser =>
      have hstored : w.kmsEncrypt (w.toSecretBytes keys) = .ok key ∧
          s.withDb (s.db.insertPersonalKey ⟨user, tenant, key⟩) = s' := by
        simpa [Prog.run_bind_ok, Prog.run_ofExcept_ok, mapError_eq_ok, Prog.run_write_ok] using h
      refine ⟨_, ⟨key, ⟨nsec, hnsec, keys, hkeys, ?_⟩, rfl⟩, hstored.2⟩
      rw [if_pos (Decidable.not_not.mp huser), hstored.1]
      rfl
    · rintro ⟨_, ⟨_, ⟨nsec, hnsec, keys, hkeys, h⟩, heq⟩, rfl⟩
      obtain ⟨rfl, rfl⟩ := Prod.mk.inj heq
      split at h
      · next huser =>
        have hsecret := toOption_eq_some.mp h
        refine ⟨nsec, s, ⟨hnsec, rfl⟩, keys, s, ⟨hkeys, rfl⟩, ?_⟩
        rw [if_neg (not_not_intro huser), hsecret]
        rfl
      · cases h

theorem issueAccessToken_ok {email origin accessToken : String} {bunker : PublicKey}
    {isFirstParty : Bool} :
    (issueAccessToken w tenant user email origin bunker isFirstParty).run s =
      (.ok accessToken, s') ↔
      accessTokenOf w s.now tenant user email origin bunker isFirstParty =
        some accessToken ∧ s = s' := by
  simp only [issueAccessToken, accessTokenOf, Prog.bind_def, Prog.run_bind_ok, Prog.run_ofExcept_ok,
    mapError_eq_ok,
    Prog.run_read_ok, Option.bind_eq_bind, Option.bind_eq_some_iff, toOption_eq_some]
  constructor
  · rintro ⟨key, _, ⟨hkey, rfl⟩, serverKeys, _, ⟨hserver, rfl⟩, _, _, ⟨rfl, rfl⟩, htoken, rfl⟩
    exact ⟨⟨key, hkey, serverKeys, hserver, htoken⟩, rfl⟩
  · rintro ⟨⟨key, hkey, serverKeys, hserver, htoken⟩, rfl⟩
    exact ⟨key, s, ⟨hkey, rfl⟩, serverKeys, s, ⟨hserver, rfl⟩, s.now, s, ⟨rfl, rfl⟩, htoken, rfl⟩

theorem resolvePolicyFromScope_ok {scope : String} {id : RowId} :
    (resolvePolicyFromScope scope).run s = (.ok id, s') ↔
      (∃ policy, policyOfScope s.db scope = some policy ∧ policy.id = id) ∧ s = s' := by
  simp only [resolvePolicyFromScope, policyOfScope, Prog.bind_def, Prog.run_bind_ok,
    Prog.run_ofExcept_ok,
    Prog.run_read_ok, Prog.run_orErr_ok, Prog.pure_def, Prog.run_ret_ok, Option.bind_eq_some_iff,
      toOption_eq_some]
  constructor
  · rintro ⟨slug, _, ⟨hslug, rfl⟩, _, _, ⟨rfl, rfl⟩, policy, _, ⟨hpolicy, rfl⟩, rfl, rfl⟩
    exact ⟨⟨policy, ⟨slug, hslug, hpolicy⟩, rfl⟩, rfl⟩
  · rintro ⟨⟨policy, ⟨slug, hslug, hpolicy⟩, rfl⟩, rfl⟩
    exact ⟨slug, s, ⟨hslug, rfl⟩, _, s, ⟨rfl, rfl⟩, policy, s, ⟨hpolicy, rfl⟩, rfl, rfl⟩

end Parts

/-! ## Creating an authorization -/

/-- What `create_oauth_authorization` has in hand when it writes the authorization: the user's key
and the tables with it, the origin, a connection secret, the bunker key, the access token and the
policy. -/
structure GrantParts where
  encrypted : Bytes
  db : Db
  origin : String
  pair : SecretPair
  bunker : PublicKey
  accessToken : String
  policyId : RowId

namespace GrantParts

variable (g : GrantParts)

def row (drawn : GrantDrawn) (p : CreateAuthorizationParams) (now : Timestamp) :
    OAuthAuthorization :=
  newAuthorization drawn.newId p.tenantId p.userPubkey g.origin p.clientId g.bunker g.pair.hash
    (some g.policyId)
    (some drawn.handle) now

def refreshToken (w : Web) (drawn : GrantDrawn) (p : CreateAuthorizationParams) (now : Timestamp) :
    RefreshToken where
  tokenHash := w.sha256 drawn.refreshToken
  authorizationId := drawn.newId
  tenantId := p.tenantId
  expiresAt := now + hours (refreshTokenExpiryDays * 24)

/-- The tables with what a grant inserts, and the state once it has also cleaned up after the
previous one. -/
def inserted (w : Web) (drawn : GrantDrawn) (p : CreateAuthorizationParams)
    (now : Timestamp) : Db :=
  { g.db with
    oauthAuthorizations := g.db.oauthAuthorizations ++ [g.row drawn p now]
    refreshTokens := g.db.refreshTokens ++ [refreshToken w drawn p now] }

def after (w : Web) (inst : InstanceId) (drawn : GrantDrawn) (p : CreateAuthorizationParams)
    (s : State) : State :=
  ((revokePrevious inst p.previousAuthId).run (s.withDb (g.inserted w drawn p s.now))).2

def response (drawn : GrantDrawn) (p : CreateAuthorizationParams) : TokenResponse where
  bunker := g.bunker
  secret := some g.pair.secret
  accessToken := g.accessToken
  scope := p.scope
  authorizationHandle := some drawn.handle
  refreshToken := drawn.refreshToken
  authorizationId := drawn.newId

end GrantParts

/-- The policy of a grant: the caller's, or the one the scope names. -/
def chosenPolicy (db : Db) (p : CreateAuthorizationParams) : Option RowId :=
  p.policyId.or ((policyOfScope db p.scope).map (·.id))

/-- Less the policy, the parts are those of a grant with these parameters, and the tables accept its
rows. -/
structure Grantable (w : Web) (now : Timestamp) (db : Db) (drawn : GrantDrawn)
    (p : CreateAuthorizationParams)
    (g : GrantParts) : Prop where
  key : grantKey w db p.tenantId p.userPubkey p.nsecFromVerifier = some (g.encrypted, g.db)
  origin : extractOrigin w p.redirectUri = .ok g.origin
  pair : drawn.pair = some g.pair
  bunker : bunkerOf w g.encrypted g.pair.hash = some g.bunker
  accessToken : accessTokenOf w now p.tenantId p.userPubkey p.email g.origin g.bunker p.isHeadless =
    some g.accessToken
  row : g.db.AcceptsOAuth (g.row drawn p now)
  fresh : ∀ t ∈ g.db.refreshTokens, t.tokenHash ≠ w.sha256 drawn.refreshToken

section Grant

variable {w : Web} {s s' : State} {inst : InstanceId} {drawn : GrantDrawn}
  {p : CreateAuthorizationParams}

theorem transact_insert_ok {ε : Type} {l : Stmt} {e : ε} {f : State → Option Db} {u : Unit} :
    (transact l e fun s => (f s).map (((), ·))).run s = (.ok u, s') ↔ ∃ db, f s = some db ∧
      s.withDb db = s' := by
  rw [run_transact]
  cases f s with
  | none => simp
  | some db => simp

/-- What it is chosen by. -/
def choosePolicy (p : CreateAuthorizationParams) : Prog Stmt State OAuthError RowId :=
  match p.policyId with
  | some id => .ret id
  | none => resolvePolicyFromScope p.scope

theorem choosePolicy_ok {id : RowId} :
    (choosePolicy p).run s = (.ok id, s') ↔ chosenPolicy s.db p = some id ∧ s = s' := by
  unfold choosePolicy chosenPolicy
  cases p.policyId with
  | some chosen => simp
  | none => simp [resolvePolicyFromScope_ok]

/-- The statements of a grant that insert, and those that follow. -/
def insertGrant (w : Web) (inst : InstanceId) (drawn : GrantDrawn) (p : CreateAuthorizationParams)
    (origin : String)
    (pair : SecretPair) (bunker : PublicKey) (accessToken : String) (policyId : RowId) :
    Prog Stmt State OAuthError TokenResponse :=
  (createAuthorization .duplicate
    (newAuthorization drawn.newId p.tenantId p.userPubkey origin p.clientId bunker pair.hash
      (some policyId) (some drawn.handle))).bind fun _ =>
  (createRefreshToken w p.tenantId drawn.newId drawn.refreshToken).bind fun _ =>
  (revokePrevious inst p.previousAuthId).bind fun _ =>
  (Prog.write .sendUpsert id).bind fun _ =>
  .ret { bunker, secret := some pair.secret, accessToken, scope := p.scope,
         authorizationHandle := some drawn.handle, refreshToken := drawn.refreshToken,
         authorizationId := drawn.newId }

theorem createOAuthAuthorization_eq :
    createOAuthAuthorization w inst drawn p =
      (ensurePersonalKey w p.tenantId p.userPubkey p.nsecFromVerifier).bind fun encrypted =>
      (Prog.ofExcept (extractOrigin w p.redirectUri)).bind fun origin =>
      (Prog.orErr drawn.pair (.serverError "Secret pool exhausted")).bind fun pair =>
      (Prog.ofExcept (deriveBunker w (fun e => .encryption ("Failed to decrypt user key: " ++ e))
        (fun e => .invalidRequest ("Invalid secret key: " ++ e)) encrypted
          pair.hash)).bind fun bunker =>
      (issueAccessToken w p.tenantId p.userPubkey p.email origin bunker p.isHeadless).bind
        fun accessToken =>
      (choosePolicy p).bind fun policyId =>
      insertGrant w inst drawn p origin pair bunker accessToken policyId := by
  unfold createOAuthAuthorization choosePolicy
  cases p.policyId with
  | some id => rfl
  | none => rfl

theorem revokePrevious_run (inst : InstanceId) (previous : Option RowId) (s : State) :
    ∃ s', (revokePrevious inst previous).run s = (.ok (), s') := by
  cases previous with
  | none => exact ⟨_, rfl⟩
  | some old => exact ⟨_, rfl⟩

theorem insertGrant_ok {g : GrantParts} {response : TokenResponse} :
    (insertGrant w inst drawn p g.origin g.pair g.bunker g.accessToken g.policyId).run
      (s.withDb g.db) =
        (.ok response, s') ↔
      (g.db.AcceptsOAuth (g.row drawn p s.now) ∧
        ∀ t ∈ g.db.refreshTokens, t.tokenHash ≠ w.sha256 drawn.refreshToken) ∧
        g.response drawn p = response ∧ g.after w inst drawn p s = s' := by
  obtain ⟨s₁, hrevoked⟩ :=
    revokePrevious_run inst p.previousAuthId (s.withDb (g.inserted w drawn p s.now))
  unfold insertGrant createAuthorization createRefreshToken GrantParts.after
  simp only [Prog.run_bind_ok, transact_insert_ok, Db.insertOAuth_eq_some,
    Db.insertRefreshToken_eq_some,
    Prog.run_write_ok, Prog.run_ret_ok]
  constructor
  · rintro ⟨_, _, ⟨_, ⟨haccepts, rfl⟩, rfl⟩, _, _, ⟨_, ⟨⟨hfresh, -⟩, rfl⟩, rfl⟩, _, _, hrevoke, _,
      _, rfl, rfl, rfl⟩
    refine ⟨⟨haccepts, hfresh⟩, rfl, ?_⟩
    exact congrArg Prod.snd hrevoke
  · rintro ⟨⟨haccepts, hfresh⟩, rfl, rfl⟩
    refine ⟨(), _, ⟨_, ⟨haccepts, rfl⟩, rfl⟩, (), _,
      ⟨_, ⟨⟨hfresh, g.row drawn p s.now, ?_, rfl⟩, rfl⟩, rfl⟩,
      (), s₁, ?_, (), s₁, rfl, rfl, ?_⟩
    · exact List.mem_append_right _ (List.mem_singleton.mpr rfl)
    · exact hrevoked
    · rw [hrevoked]

/-- **When an authorization is created**, and what it then leaves behind. -/
theorem createOAuthAuthorization_ok_iff {response : TokenResponse} :
    (createOAuthAuthorization w inst drawn p).run s = (.ok response, s') ↔
      ∃ g, (Grantable w s.now s.db drawn p g ∧ chosenPolicy g.db p = some g.policyId) ∧
        g.response drawn p = response ∧ g.after w inst drawn p s = s' := by
  rw [createOAuthAuthorization_eq]
  simp only [Prog.run_bind_ok, ensurePersonalKey_ok, Prog.run_ofExcept_ok, Prog.run_orErr_ok,
    deriveBunker_ok,
    issueAccessToken_ok, choosePolicy_ok]
  constructor
  · rintro ⟨encrypted, _, ⟨db, hkey, rfl⟩, origin, _, ⟨horigin, rfl⟩, pair, _, ⟨hpair, rfl⟩, bunker,
      _, ⟨hbunker, rfl⟩,
      accessToken, _, ⟨htoken, rfl⟩, policyId, _, ⟨hpolicy, rfl⟩, h⟩
    obtain ⟨⟨haccepts, hfresh⟩, hresponse, hafter⟩ :=
      (insertGrant_ok (g := ⟨encrypted, db, origin, pair, bunker, accessToken, policyId⟩)).mp h
    exact ⟨⟨encrypted, db, origin, pair, bunker, accessToken, policyId⟩,
      ⟨⟨hkey, horigin, hpair, hbunker, htoken, haccepts, hfresh⟩, hpolicy⟩, hresponse, hafter⟩
  · rintro ⟨g, ⟨hg, hpolicy⟩, hresponse, hafter⟩
    exact ⟨g.encrypted, _, ⟨g.db, hg.key, rfl⟩, g.origin, _, ⟨hg.origin, rfl⟩, g.pair, _,
      ⟨hg.pair, rfl⟩, g.bunker, _,
      ⟨hg.bunker, rfl⟩, g.accessToken, _, ⟨hg.accessToken, rfl⟩, g.policyId, _, ⟨hpolicy, rfl⟩,
      insertGrant_ok.mpr ⟨⟨hg.row, hg.fresh⟩, hresponse, hafter⟩⟩

end Grant

/-! ## The exchange -/

/-- Whose account the code is for: the email that goes into the token, and the tables once the code
is used up. -/
def settledAccount (w : Web) (now : Timestamp) (db : Db) (tenant : TenantId) (row : OAuthCode)
    (nsec : Option String) :
    Option (String × Db) :=
  match row.pendingEmail with
  | some email => do
    if (db.findPubkeyByEmail email tenant).isSome || db.userExists row.userPubkey tenant then none
    else
      let secret ← (registrationSecret w row nsec).toOption
      let hash ← row.pendingPasswordHash
      let token ← row.pendingEmailVerificationToken
      let db ← db.finalizeOAuthRegistration
        { pubkey := row.userPubkey, tenantId := tenant, email := some email,
          passwordHash := some hash, emailVerificationToken := some token,
          emailVerificationExpiresAt := some (now + hours emailVerificationExpiryHours),
          createdAt := now } secret row.code
      some (email, db)
  | none => do
    let email ← (← db.getEmail row.userPubkey tenant)
    some (email, db.deleteCode tenant row.code)

/-- What the account is settled by. -/
def settleAccount (w : Web) (tenant : TenantId) (row : OAuthCode) (nsec : Option String) :
    Prog Stmt State OAuthError String :=
  match row.pendingEmail with
  | some email => completeRegistration w tenant row nsec email
  | none => exchangeForUser tenant row

/-- The parameters the authorization is created with. -/
def exchangeParams (tenant : TenantId) (req : TokenRequest) (row : OAuthCode) (email : String) :
    CreateAuthorizationParams where
  tenantId := tenant
  userPubkey := row.userPubkey
  email := email
  clientId := row.clientId
  scope := row.scope
  redirectUri := row.redirectUri
  nsecFromVerifier := req.codeVerifier.bind extractNsecFromVerifier
  previousAuthId := row.previousAuthId
  isHeadless := row.isHeadless

/-- Less the policy, the request can be answered with tokens for the code `row`. -/
structure Exchangeable (w : Web) (now : Timestamp) (db : Db) (tenant : TenantId)
    (drawn : GrantDrawn)
    (req : TokenRequest) (row : OAuthCode) (email : String) (settled : Db)
    (g : GrantParts) : Prop where
  found : req.code.bind (db.findValidCode now tenant) = some row
  redirectUri : req.redirectUri = some row.redirectUri
  verifier : checkVerifier w row req.codeVerifier = .ok ()
  account : settledAccount w now db tenant row (req.codeVerifier.bind extractNsecFromVerifier) =
    some (email, settled)
  grant : Grantable w now settled drawn (exchangeParams tenant req row email) g

section Exchange

variable {w : Web} {s s' : State} {tenant : TenantId} {drawn : GrantDrawn} {req : TokenRequest}

theorem settleAccount_ok {row : OAuthCode} {nsec : Option String} {email : String} :
    (settleAccount w tenant row nsec).run s = (.ok email, s') ↔
      ∃ db, settledAccount w s.now s.db tenant row nsec = some (email, db) ∧ s.withDb db = s' := by
  unfold settleAccount settledAccount
  cases row.pendingEmail with
  | none =>
    simp only [exchangeForUser, Prog.bind_def, Prog.run_bind_ok, Prog.run_write_ok,
      Prog.run_read_ok,
      Prog.run_orErr_ok, Option.bind_eq_bind, Option.bind_eq_some_iff]
    constructor
    · rintro ⟨_, _, rfl, _, _, ⟨rfl, rfl⟩, email', _, ⟨hrow, rfl⟩, hemail, rfl⟩
      exact ⟨_, ⟨email', hrow, email, hemail, rfl⟩, rfl⟩
    · rintro ⟨_, ⟨email', hrow, _, hemail, heq⟩, rfl⟩
      obtain ⟨rfl, rfl⟩ := Prod.mk.inj (Option.some.inj heq)
      exact ⟨(), _, rfl, _, _, ⟨rfl, rfl⟩, email', _, ⟨hrow, rfl⟩, hemail, rfl⟩
  | some pending =>
    simp only [completeRegistration, Prog.bind_def, Prog.run_bind_ok, Prog.run_read_ok]
    constructor
    · rintro ⟨_, _, ⟨rfl, rfl⟩, h⟩
      split at h
      · cases h
      next htaken =>
      simp only [Prog.run_bind_ok, Prog.run_read_ok] at h
      obtain ⟨_, _, ⟨rfl, rfl⟩, h⟩ := h
      split at h
      · cases h
      next hknown =>
      simp only [Prog.run_bind_ok, Prog.run_ofExcept_ok, Prog.run_orErr_ok, transact_insert_ok,
        Prog.pure_def,
        Prog.run_ret_ok] at h
      obtain ⟨secret, _, ⟨hsecret, rfl⟩, hash, _, ⟨hhash, rfl⟩, token, _, ⟨htoken, rfl⟩, _, _,
        ⟨db, hfinal, rfl⟩, rfl,
        rfl⟩ := h
      refine ⟨db, ?_, rfl⟩
      rw [if_neg (by simp [htaken, hknown])]
      simp [hsecret, hhash, htoken, hfinal, Except.toOption]
    · rintro ⟨db, h, rfl⟩
      split at h
      · cases h
      next hfree =>
      rw [Bool.or_eq_true, not_or] at hfree
      simp only [Option.bind_eq_bind, Option.bind_eq_some_iff, toOption_eq_some] at h
      obtain ⟨secret, hsecret, hash, hhash, token, htoken, db', hfinal, heq⟩ := h
      obtain ⟨rfl, rfl⟩ := Prod.mk.inj (Option.some.inj heq)
      refine ⟨_, s, ⟨rfl, rfl⟩, ?_⟩
      rw [if_neg hfree.1]
      simp only [Prog.run_bind_ok, Prog.run_read_ok]
      refine ⟨_, s, ⟨rfl, rfl⟩, ?_⟩
      rw [if_neg hfree.2]
      simp only [Prog.run_bind_ok, Prog.run_ofExcept_ok, Prog.run_orErr_ok, transact_insert_ok,
        Prog.pure_def,
        Prog.run_ret_ok]
      exact ⟨secret, s, ⟨hsecret, rfl⟩, hash, s, ⟨hhash, rfl⟩, token, s, ⟨htoken, rfl⟩, (), _,
        ⟨_, hfinal, rfl⟩,
        trivial, rfl⟩

theorem handleAuthorizationCodeGrant_eq (inst : InstanceId) :
    handleAuthorizationCodeGrant w inst tenant drawn req =
      (Prog.orErr req.code
        (.invalidRequest "Missing 'code' parameter for authorization_code grant")).bind fun code =>
      (Prog.orErr req.redirectUri
        (.invalidRequest "Missing 'redirect_uri' parameter for authorization_code grant")).bind
          fun redirectUri =>
      (Prog.read (.findValidCode code) fun s => s.db.findValidCode s.now tenant code).bind
        fun found =>
      (Prog.orErr found .unauthorized).bind fun row =>
      if row.redirectUri ≠ redirectUri then .err (.invalidRequest "redirect_uri mismatch")
      else
        (Prog.ofExcept (checkVerifier w row req.codeVerifier)).bind fun _ =>
        (settleAccount w tenant row (req.codeVerifier.bind extractNsecFromVerifier)).bind
          fun email =>
        createOAuthAuthorization w inst drawn (exchangeParams tenant req row email) := by
  unfold handleAuthorizationCodeGrant
  refine congrArg _
    (funext fun code => congrArg _ (funext fun redirectUri => congrArg _ (funext fun found =>
    congrArg _ (funext fun row => ?_))))
  split
  · rfl
  · refine congrArg _ (funext fun _ => ?_)
    unfold settleAccount
    cases row.pendingEmail with
    | none => rfl
    | some email => rfl

/-- **When a code is exchanged.** -/
theorem exchange_ok_iff (inst : InstanceId) {response : TokenResponse} :
    (handleAuthorizationCodeGrant w inst tenant drawn req).run s = (.ok response, s') ↔
      ∃ row email settled g, (Exchangeable w s.now s.db tenant drawn req row email settled g ∧
          chosenPolicy g.db (exchangeParams tenant req row email) = some g.policyId) ∧
        g.response drawn (exchangeParams tenant req row email) = response ∧
        g.after w inst drawn (exchangeParams tenant req row email) (s.withDb settled) = s' := by
  rw [handleAuthorizationCodeGrant_eq]
  simp only [Prog.run_bind_ok, Prog.run_orErr_ok, Prog.run_read_ok]
  constructor
  · rintro ⟨code, _, ⟨hcode, rfl⟩, redirectUri, _, ⟨huri, rfl⟩, _, _, ⟨rfl, rfl⟩, row, _,
      ⟨hrow, rfl⟩, h⟩
    split at h
    · cases h
    next hsame =>
    simp only [Prog.run_bind_ok, Prog.run_ofExcept_ok, settleAccount_ok,
      createOAuthAuthorization_ok_iff] at h
    obtain ⟨_, _, ⟨hverifier, rfl⟩, email, _, ⟨settled, haccount, rfl⟩, g, ⟨hgrant, hpolicy⟩,
      hresponse, hafter⟩ := h
    refine ⟨row, email, settled, g, ⟨⟨?_, ?_, hverifier, haccount, hgrant⟩, hpolicy⟩,
      hresponse, hafter⟩
    · rw [hcode]
      exact hrow
    · rw [huri, Decidable.not_not.mp hsame]
  · rintro ⟨row, email, settled, g, ⟨hx, hpolicy⟩, hresponse, hafter⟩
    obtain ⟨code, hcode, hrow⟩ := Option.bind_eq_some_iff.mp hx.found
    refine ⟨code, s, ⟨hcode, rfl⟩, _, s, ⟨hx.redirectUri, rfl⟩, _, s, ⟨rfl, rfl⟩, row, s,
      ⟨hrow, rfl⟩, ?_⟩
    rw [if_neg (not_not_intro rfl)]
    simp only [Prog.run_bind_ok, Prog.run_ofExcept_ok, settleAccount_ok,
      createOAuthAuthorization_ok_iff]
    exact ⟨(), s, ⟨hx.verifier, rfl⟩, email, _, ⟨settled, hx.account, rfl⟩, g,
      ⟨hx.grant, hpolicy⟩, hresponse,
      hafter⟩

end Exchange

/-! ## What a code is bound to -/

/-- The verifier satisfies the challenge under the method. -/
def Satisfies (w : Web) (method challenge verifier : String) : Prop :=
  (method = "S256" ∧ w.base64Url (w.sha256 verifier) = challenge) ∨
    (method = "plain" ∧ verifier = challenge)

/-- Different verifiers have different challenges. -/
def ChallengesDiffer (w : Web) : Prop :=
  Function.Injective fun verifier => w.base64Url (w.sha256 verifier)

/-- What a request and a code must have in common. -/
structure BoundTo (w : Web) (now : Timestamp) (tenant : TenantId) (req : TokenRequest)
    (row : OAuthCode) : Prop where
  tenant : row.tenantId = tenant
  unexpired : now < row.expiresAt
  redirectUri : req.redirectUri = some row.redirectUri
  clientId : req.clientId = row.clientId
  verifier : ∀ challenge ∈ row.codeChallenge, ∃ verifier ∈ req.codeVerifier,
    Satisfies w (row.codeChallengeMethod.getD "plain") challenge verifier ∧
      (ChallengesDiffer w →
        ∀ other, Satisfies w (row.codeChallengeMethod.getD "plain") challenge other →
        other = verifier)

/-- **The exchange checks what the code was bound to**: whatever row of the table the request names,
tokens are only given out when it is bound to the request. -/
def ChecksBinding (w : Web) (inst : InstanceId) (tenant : TenantId) (drawn : GrantDrawn)
    (req : TokenRequest)
    (s : State) : Prop :=
  ∀ row ∈ s.db.oauthCodes, req.code = some row.code →
    ∀ response, ((handleAuthorizationCodeGrant w inst tenant drawn req).run s).1 = .ok response →
      BoundTo w s.now tenant req row

section Binding

variable {w : Web} {s : State} {tenant : TenantId} {drawn : GrantDrawn} {req : TokenRequest}

theorem validatePkce_ok {verifier challenge method : String} :
    validatePkce w verifier challenge method = .ok () ↔ Satisfies w method challenge verifier := by
  unfold validatePkce Satisfies
  by_cases hs256 : method = "S256"
  · subst hs256
    by_cases hsame : w.base64Url (w.sha256 verifier) = challenge
    · simp [hsame]
    · simp only [if_true, hsame, if_false, and_false, false_or, String.reduceEq,
        false_and, iff_false]
      split
      · exact nofun
      · exact nofun
  · by_cases hplain : method = "plain"
    · by_cases hsame : verifier = challenge
      · simp [hplain, hsame]
      · simp [hplain, hsame]
    · simp [hs256, hplain]

theorem Satisfies.unique {method challenge verifier other : String} (hdiffer : ChallengesDiffer w)
    (h : Satisfies w method challenge verifier)
    (h' : Satisfies w method challenge other) : other = verifier := by
  rcases h with ⟨rfl, hverifier⟩ | ⟨rfl, hverifier⟩
  · rcases h' with ⟨-, hother⟩ | ⟨hplain, -⟩
    · exact hdiffer (hother.trans hverifier.symm)
    · exact absurd hplain (by decide)
  · rcases h' with ⟨hs256, -⟩ | ⟨-, hother⟩
    · exact absurd hs256 (by decide)
    · exact hother.trans hverifier.symm

/-- What the lookup has checked. -/
theorem Exchangeable.row {row : OAuthCode} {email : String} {settled : Db} {g : GrantParts}
    (h : Exchangeable w s.now s.db tenant drawn req row email settled g) :
    (row ∈ s.db.oauthCodes ∧ req.code = some row.code) ∧ row.tenantId = tenant ∧
      s.now < row.expiresAt := by
  obtain ⟨code, hcode, hrow⟩ := Option.bind_eq_some_iff.mp h.found
  have hmatches := List.find?_some hrow
  simp only [Bool.and_eq_true, beq_iff_eq, decide_eq_true_eq] at hmatches
  obtain ⟨⟨htenant, rfl⟩, hlive⟩ := hmatches
  exact ⟨⟨List.mem_of_find?_eq_some hrow, hcode⟩, htenant, hlive⟩

/-- The lookup checks the tenant and the time, the handler the rest, less the client. -/
theorem Exchangeable.bound {row : OAuthCode} {email : String} {settled : Db} {g : GrantParts}
    (h : Exchangeable w s.now s.db tenant drawn req row email settled g)
    (hclient : req.clientId = row.clientId) :
    BoundTo w s.now tenant req row := by
  refine ⟨h.row.2.1, h.row.2.2, h.redirectUri, hclient, fun challenge hchallenge => ?_⟩
  have hverifier := h.verifier
  unfold checkVerifier at hverifier
  rw [Option.mem_def.mp hchallenge] at hverifier
  cases hgiven : req.codeVerifier with
  | none =>
    rw [hgiven] at hverifier
    cases hverifier
  | some verifier =>
    rw [hgiven] at hverifier
    have hsatisfies := validatePkce_ok.mp hverifier
    exact ⟨verifier, rfl, hsatisfies, fun hdiffer other hother => hsatisfies.unique hdiffer hother⟩

/-- **When the binding is checked**: unless everything the handler looks at is in order for a code
that another client was given. The code is the primary key of its table. -/
theorem exchange_binding_iff (inst : InstanceId) (hunique : CodesUnique s) :
    ChecksBinding w inst tenant drawn req s ↔
      ∀ row email settled g, Exchangeable w s.now s.db tenant drawn req row email settled g →
        chosenPolicy g.db (exchangeParams tenant req row email) = some g.policyId →
          req.clientId = row.clientId := by
  constructor
  · intro hchecks row email settled g hx hpolicy
    have hran := (exchange_ok_iff inst).mpr ⟨row, email, settled, g, ⟨hx, hpolicy⟩, rfl, rfl⟩
    exact (hchecks row hx.row.1.1 hx.row.1.2 _ (congrArg Prod.fst hran)).clientId
  · intro hclient row hrow hcode response hresponse
    obtain ⟨found, email, settled, g, ⟨hx, hpolicy⟩, -, -⟩ :=
      (exchange_ok_iff inst).mp (Prod.ext hresponse rfl)
    obtain rfl : found = row := by
      refine List.inj_on_of_nodup_map hunique hx.row.1.1 hrow ?_
      exact Option.some.inj (hx.row.1.2.symm.trans hcode)
    exact hx.bound (hclient found email settled g hx hpolicy)

end Binding

/-! The code of one app, presented by another and by its own. -/

def presentedBy (clientId : String) : TokenRequest :=
  { code := some "code", clientId, redirectUri := some "app.example" }

theorem exchange_binding_other :
    ¬ ChecksBinding codeWeb 0 1 ⟨some ⟨"secret", "hash"⟩, 1, "handle", "refresh"⟩
      (presentedBy "other") codeState := by
  intro hchecks
  have hbound := hchecks _ (List.mem_singleton.mpr rfl) rfl
    ⟨"pub:sk/keycast-bunker-nip46-v1-hash", some "secret",
      "ucan of user for pub:sk/keycast-bunker-nip46-v1-hash from https://app.example",
        "policy:social", some "handle",
      "refresh", 1⟩ (by decide)
  exact absurd hbound.clientId (by decide)

theorem exchange_binding_own :
    ChecksBinding codeWeb 0 1 ⟨some ⟨"secret", "hash"⟩, 1, "handle", "refresh"⟩ (presentedBy "app")
      codeState := by
  refine (exchange_binding_iff 0 codeState_unique).mpr fun row _ _ _ hx _ => ?_
  rw [List.mem_singleton.mp hx.row.1.1]
  rfl

end Keycast.Http
