import Keycast.Core.Grants
import Keycast.Http.Register
import Keycast.Lib.Utf8

/-!
# `Http/OAuth.lean` — authorization codes and what they are exchanged for

`authorize_get`, `authorize_post`, `token` and `connect_post` of `api/http/oauth.rs`,
`headless_authorize` of `headless.rs` and `create_bunker` of `auth.rs`: every place where a session
turns into a code, a code into an authorization with its tokens, or a session into an authorization
directly. Random values, and the pair a call takes from the pool of connection secrets, are
arguments. A page is an answer without content. Relays, display names and the policy texts of an
answer are left out; beside what the source returns, an answer has the id of the authorization it is
about.
-/

set_option autoImplicit false

namespace Keycast.Http

open Lib

/-- What a `Duplicate` from a repository becomes in `OAuthError`. -/
def OAuthError.duplicate : OAuthError := .invalidRequest "Already exists"

def codeExpiryMinutes : Int := 10

/-! ## Codes -/

/-- The parameters every way to a code has. -/
structure CodeParams where
  clientId : String
  redirectUri : String
  state : Option String := none
  codeChallenge : Option String := none
  codeChallengeMethod : Option String := none
  deriving DecidableEq, Repr

/-- The row they are stored in, ten minutes from now. -/
def CodeParams.row (p : CodeParams) (tenant : TenantId) (code : String) (user : PublicKey)
    (scope : String) (previous : Option RowId) (isHeadless : Bool)
    (now : Timestamp) : OAuthCode where
  tenantId := tenant
  code := code
  userPubkey := user
  clientId := p.clientId
  redirectUri := p.redirectUri
  scope := scope
  codeChallenge := p.codeChallenge
  codeChallengeMethod := p.codeChallengeMethod
  expiresAt := now + seconds (codeExpiryMinutes * 60)
  previousAuthId := previous
  state := p.state
  isHeadless := isHeadless

/-- `OAuthCodeRepository::store`. -/
def storeCode {ε : Type} (e : ε) (row : Timestamp → OAuthCode) : Prog Stmt State ε Unit :=
  transact .storeCode e fun s => (s.db.storeOAuthCode (row s.now)).map (((), ·))

/-- The user of the session cookie, as both `authorize` endpoints read it. -/
def cookieUser (w : Web) (now : Timestamp) (headers : Headers) (tenant : TenantId) :
    Option PublicKey :=
  (extractUcanFromCookie headers).bind fun token =>
    (validateUcanToken w now ("Bearer " ++ token) tenant).toOption.map (·.1)

structure AuthorizeRequest extends CodeParams where
  scope : Option String := none
  prompt : Option String := none
  byokPubkey : Option String := none
  authorizationHandle : Option String := none
  deriving DecidableEq, Repr

/-- A code without a consent screen; without a scope it gets one that names no policy. -/
def autoApprove (tenant : TenantId) (code : String) (user : PublicKey) (params : AuthorizeRequest)
    (previous : Option RowId) : Prog Stmt State OAuthError (Option String) := do
  storeCode .duplicate
    (params.row tenant code user (params.scope.getD "sign_event") previous false)
  return some code

/-- Whose account the page is for; a forced login, a key to register or a deleted account make it a
login page. -/
def authorizeAccount (user : Option PublicKey) (tenant : TenantId) (params : AuthorizeRequest) :
    Prog Stmt State OAuthError (Option PublicKey) :=
  match user with
  | none => return none
  | some user =>
    if params.prompt = some "login" || params.byokPubkey.isSome then return none
    else do
      let status ← .read .getAccountStatus fun s => s.db.getEmail user tenant
      return if status.isSome then some user else none

/-- The lookup of an `authorization_handle`. -/
def previousAuthorization (user : PublicKey) (handle : Option String) :
    Prog Stmt State OAuthError (Option RowId) :=
  match handle with
  | some handle => .read .findIdByHandle fun s => s.db.findIdByHandle s.now handle user
  | none => return none

/-- `authorize_get`: the code it redirects with, or `none` for a page. `redirectCheck` is how
`validate_redirect_uri` turns out for the client. -/
def authorizeGet (w : Web) (tenant : TenantId) (headers : Headers)
    (redirectCheck : Except String Unit)
    (code : String) (params : AuthorizeRequest) : Prog Stmt State OAuthError (Option String) := do
  .ofExcept (redirectCheck.mapError fun e =>
    .invalidRequest ("redirect_uri is not allowed for this client: " ++ e))
  let now ← .read .clock (·.now)
  match ← authorizeAccount (cookieUser w now headers tenant) tenant params with
  | none => return none
  | some user =>
    let previous ← previousAuthorization user params.authorizationHandle
    if previous.isSome && params.prompt ≠ some "consent" then
      autoApprove tenant code user params previous
    else
      let origin ← .ofExcept (extractOrigin w params.redirectUri)
      let active ← .read .hasActiveForOrigin fun s => s.db.hasActiveForOrigin user origin tenant
      if active && params.prompt ≠ some "consent" then autoApprove tenant code user params none
      else return none

structure ApproveRequest extends CodeParams where
  scope : String
  approved : Bool
  deriving DecidableEq, Repr

/-- `authorize_post`. -/
def authorizePost (w : Web) (tenant : TenantId) (headers : Headers) (code : String)
    (req : ApproveRequest) : Prog Stmt State OAuthError (Option String) := do
  if !req.approved then return none
  else
    let now ← .read .clock (·.now)
    let user ← .orErr (cookieUser w now headers tenant) .unauthorized
    storeCode .duplicate (req.row tenant code user req.scope none false)
    return some code

structure HeadlessAuthorizeRequest extends CodeParams where
  scope : Option String := none
  deriving DecidableEq, Repr

/-- `headless_authorize`. Any valid token will do, and the code it stores is a headless one. -/
def headlessAuthorize (w : Web) (tenant : TenantId) (headers : Headers) (code : String)
    (req : HeadlessAuthorizeRequest) : Prog Stmt State HeadlessError String := do
  let now ← .read .clock (·.now)
  let user ← .ofExcept ((extractUserFromToken w now headers tenant).mapError fun _ => .unauthorized)
  let _ ← .ofExcept ((extractOrigin w req.redirectUri).mapError fun e =>
    .invalidRequest ("Invalid redirect_uri: " ++ e.debug))
  storeCode (.conflict "Resource already exists")
    (req.row tenant code user (req.scope.getD "policy:full") none true)
  return code

/-! ## Authorizations -/

/-- Decrypt the user's key and derive the bunker's, from it and the hash of the connection secret. A
derivation that finds no key panics. -/
def deriveBunker {ε : Type} (w : Web) (decryptError keyError : String → ε) (encrypted : Bytes)
    (secretHash : String) : Except ε PublicKey := do
  let decrypted ← (w.kmsDecrypt encrypted).mapError decryptError
  let secretKey ← (w.secretKeyFromSlice decrypted).mapError keyError
  match w.deriveBunkerKeys secretKey secretHash with
  | some keys => .ok (w.publicKey keys)
  | none => .error (keyError "no valid bunker key")

/-- A connection secret and its hash, from the pool. -/
structure SecretPair where
  secret : String
  hash : String
  deriving DecidableEq, Repr

structure CreateBunkerRequest where
  appName : String
  origin : Option String := none
  policySlug : Option String := none
  deriving DecidableEq, Repr

structure BunkerResponse where
  bunker : PublicKey
  secret : String
  authorizationId : RowId
  deriving DecidableEq, Repr

/-- `validate_origin`. -/
def validateOrigin (w : Web) (origin : String) : Except AuthError Unit := do
  let url ← (w.urlParse origin).elim (.error (.badRequest "Invalid origin URL")) .ok
  let host ← url.host.elim (.error (.badRequest "Origin must have a host")) .ok
  if url.scheme ≠ "https" ∧ host ≠ "localhost" ∧ host ≠ "127.0.0.1" then
    .error (.badRequest "Origin must be HTTPS")
  else .ok ()

/-- The policy of a manual bunker: none, which is full access, without a slug and for an unknown
one. -/
def bunkerPolicy (db : Db) (slug : Option String) : Option RowId :=
  slug.bind fun slug => (db.findPolicyBySlug slug).map (·.id)

def handleExpiryDays : Int := 30

/-- The row an authorization starts as. -/
def newAuthorization (id : RowId) (tenant : TenantId) (user : PublicKey) (origin clientId : String)
    (bunker : PublicKey) (secretHash : String) (policyId : Option RowId) (handle : Option String)
    (now : Timestamp) : OAuthAuthorization where
  id := id
  tenantId := tenant
  userPubkey := user
  redirectOrigin := origin
  clientId := some clientId
  bunkerPublicKey := bunker
  secretHash := secretHash
  policyId := policyId
  authorizationHandle := handle
  handleExpiresAt := now + hours (handleExpiryDays * 24)

/-- `OAuthAuthorizationRepository::create` and the command that tells the signer. -/
def createAuthorization {ε : Type} (e : ε) (row : Timestamp → OAuthAuthorization) :
    Prog Stmt State ε Unit :=
  transact .createOAuth e fun s => (s.db.insertOAuth (row s.now)).map (((), ·))

/-- `create_bunker`. -/
def createBunker (w : Web) (tenant : TenantId) (headers : Headers) (pair : Option SecretPair)
    (newId : RowId) (req : CreateBunkerRequest) : Prog Stmt State AuthError BunkerResponse := do
  let now ← .read .clock (·.now)
  let user ← .ofExcept (extractUserFromToken w now headers tenant)
  .ofExcept (req.origin.elim (.ok ()) (validateOrigin w))
  let encrypted ← .read .findEncryptedKey fun s => s.db.encryptedKeyForTenant user tenant
  let encrypted ← .orErr encrypted (.internal "Personal keys not found")
  let pair ← .orErr pair (.internal "Secret pool exhausted")
  let policyId ← .read .findPolicyBySlug fun s => bunkerPolicy s.db req.policySlug
  let bunker ← .ofExcept (deriveBunker w (fun e => .internal ("Failed to decrypt user key: " ++ e))
    (fun e => .internal ("Invalid secret key: " ++ e)) encrypted pair.hash)
  createAuthorization (.internal "Integrity violation")
    (newAuthorization newId tenant user (req.origin.getD "") req.appName bunker pair.hash
      policyId none)
  .write .sendUpsert id
  return ⟨bunker, pair.secret, newId⟩

structure ConnectApprovalForm where
  clientPubkey : String
  relay : String
  secret : String
  approved : Bool
  deriving DecidableEq, Repr

/-- `connect_post`: the authorization it creates, with no policy, or `none` when it was declined.
Two slices of the client's key are taken as the form has it. -/
def connectPost (w : Web) (tenant : TenantId) (headers : Headers) (handle : String) (newId : RowId)
    (form : ConnectApprovalForm) : Prog Stmt State OAuthError (Option RowId) := do
  let _ ← .orErr (sliceTo form.clientPubkey 8) .panicked
  if !form.approved then return none
  else
    let now ← .read .clock (·.now)
    let user ← .ofExcept
      ((extractUserFromToken w now headers tenant).mapError fun _ => .unauthorized)
    let encrypted ← .read .findEncryptedKey fun s => s.db.personalKey user tenant
    let encrypted ← .orErr encrypted .unauthorized
    let hash ← .ofExcept ((w.bcryptHash form.secret).mapError fun e =>
      .serverError ("Failed to hash secret: " ++ e))
    let bunker ← .ofExcept
      (deriveBunker w (fun e => .encryption ("Failed to decrypt user key: " ++ e))
      (fun e => .invalidRequest ("Invalid secret key: " ++ e)) encrypted hash)
    let short ← .orErr (sliceTo form.clientPubkey 12) .panicked
    createAuthorization .duplicate
      (newAuthorization newId tenant user ("nostrconnect://" ++ form.clientPubkey)
        ("nostr-login-" ++ short) bunker
        hash none (some handle))
    .write .sendUpsert id
    return some newId

/-! ## The token endpoint -/

structure TokenRequest where
  grantType : Option String := none
  code : Option String := none
  clientId : String
  redirectUri : Option String := none
  codeVerifier : Option String := none
  refreshToken : Option String := none
  deriving DecidableEq, Repr

/-- What a grant draws, or takes from the pool of secrets and the sequence of ids. -/
structure GrantDrawn where
  pair : Option SecretPair
  newId : RowId
  handle : String
  refreshToken : String
  deriving DecidableEq, Repr

structure TokenResponse where
  bunker : PublicKey
  secret : Option String
  accessToken : String
  scope : String
  authorizationHandle : Option String
  refreshToken : String
  authorizationId : RowId
  deriving DecidableEq, Repr

/-- `extract_nsec_from_verifier_public`: what follows the first dot, if it looks like a key. -/
def extractNsecFromVerifier (verifier : String) : Option String :=
  match verifier.toList.dropWhile (· ≠ '.') with
  | [] => none
  | _ :: nsec =>
    if "nsec1".toList.isPrefixOf nsec ||
        (nsec.length == 64 && nsec.all fun c => c.isDigit || ('a' ≤ c && c ≤ 'f') ||
          ('A' ≤ c && c ≤ 'F'))
    then some (String.ofList nsec) else none

/-- `validate_pkce`. -/
def validatePkce (w : Web) (verifier challenge method : String) : Except OAuthError Unit :=
  if method = "S256" then
    let computed := w.base64Url (w.sha256 verifier)
    if computed = challenge then .ok ()
    else
      -- a log line shows the first sixteen bytes of both
      match sliceTo computed 16, sliceTo challenge 16 with
      | some _, some _ => .error (.invalidRequest "Invalid code_verifier: PKCE validation failed")
      | _, _ => .error .panicked
  else if method = "plain" then
    if verifier = challenge then .ok ()
    else .error (.invalidRequest "Invalid code_verifier: plain PKCE validation failed")
  else .error (.invalidRequest ("Unsupported code_challenge_method: " ++ method))

/-- The check of the verifier, which a code without a challenge does not need. -/
def checkVerifier (w : Web) (row : OAuthCode) (verifier : Option String) : Except OAuthError Unit :=
  match row.codeChallenge with
  | none => .ok ()
  | some challenge =>
    match verifier with
    | none => .error (.invalidRequest "code_verifier required for PKCE flow")
    | some verifier => validatePkce w verifier challenge (row.codeChallengeMethod.getD "plain")

/-- The secret of a registration: stored with it, or the one the app promised. -/
def registrationSecret (w : Web) (row : OAuthCode) (nsec : Option String) :
    Except OAuthError Bytes :=
  match row.pendingEncryptedSecret with
  | some secret => .ok secret
  | none => do
    let nsec ← nsec.elim
      (.error (.invalidRequest "Missing nsec in code_verifier for BYOK flow")) .ok
    let keys ← (w.keysParse nsec).mapError fun e =>
      .invalidRequest ("Invalid nsec in code_verifier: " ++ e)
    if w.publicKey keys ≠ row.userPubkey then
      .error (.invalidRequest "nsec doesn't match pubkey from registration")
    else (w.kmsEncrypt (w.toSecretBytes keys)).mapError .encryption

/-- The branch of the code grant that completes a registration: its email. -/
def completeRegistration (w : Web) (tenant : TenantId) (row : OAuthCode) (nsec : Option String)
    (email : String) : Prog Stmt State OAuthError String := do
  let taken ← .read .findPubkeyByEmail fun s => s.db.findPubkeyByEmail email tenant
  if taken.isSome then
    .err (.invalidRequest "This email is already registered. Please sign in instead.")
  else
    let known ← .read .userExists fun s => s.db.userExists row.userPubkey tenant
    if known then .err (.invalidRequest "This Nostr key is already registered.")
    else
      let secret ← .ofExcept (registrationSecret w row nsec)
      let hash ← .orErr row.pendingPasswordHash
        (.invalidRequest "Missing password hash in pending registration")
      let token ← .orErr row.pendingEmailVerificationToken
        (.invalidRequest "Missing verification token in pending registration")
      transact (.finalizeRegistration tenant row.code row.userPubkey email)
        (.database "Already exists") fun s =>
        (s.db.finalizeOAuthRegistration
          { pubkey := row.userPubkey, tenantId := tenant, email := some email,
            passwordHash := some hash, emailVerificationToken := some token,
            emailVerificationExpiresAt := some (s.now + hours emailVerificationExpiryHours),
            createdAt := s.now } secret row.code).map (((), ·))
      return email

/-- The other branch: the code is deleted, whether or not it is still there, and the user has an
email. -/
def exchangeForUser (tenant : TenantId) (row : OAuthCode) : Prog Stmt State OAuthError String := do
  .write (.deleteCode tenant row.code) fun s => s.withDb (s.db.deleteCode tenant row.code)
  let email ← .read .getEmail fun s => s.db.getEmail row.userPubkey tenant
  let email ← .orErr email (.invalidRequest "Not found: record not found")
  .orErr email (.invalidRequest "Database error: unexpected null")

/-- The user's key, created from the one in the verifier if there is none. -/
def ensurePersonalKey (w : Web) (tenant : TenantId) (user : PublicKey) (nsec : Option String) :
    Prog Stmt State OAuthError Bytes := do
  match ← .read .findEncryptedKey fun s => s.db.encryptedKeyForTenant user tenant with
  | some key => return key
  | none =>
    let nsec ← .orErr nsec
      (.invalidRequest "Missing nsec in code_verifier. BYOK flow requires nsec to be embedded.")
    let keys ← .ofExcept ((w.keysParse nsec).mapError fun e =>
      .invalidRequest ("Invalid nsec in code_verifier: " ++ e))
    if w.publicKey keys ≠ user then
      .err (.invalidRequest
        ("nsec in code_verifier doesn't match registered pubkey. Expected: " ++ user ++
        ", got: " ++ w.publicKey keys))
    else
      let secret ← .ofExcept ((w.kmsEncrypt (w.toSecretBytes keys)).mapError .encryption)
      .write .createPersonalKey fun s => s.withDb (s.db.insertPersonalKey ⟨user, tenant, secret⟩)
      return secret

/-- `resolve_policy_from_scope`. -/
def resolvePolicyFromScope (scope : String) : Prog Stmt State OAuthError RowId := do
  let slug ← .ofExcept (parsePolicyScope scope)
  let policy ← .read .findPolicyBySlug fun s => s.db.findPolicyBySlug slug
  let policy ← .orErr policy (.invalidRequest ("Unknown policy '" ++ slug ++
    "'. See GET /api/policies for available options."))
  return policy.id

/-- The access token of a grant. -/
def issueAccessToken (w : Web) (tenant : TenantId) (user : PublicKey) (email origin : String)
    (bunker : PublicKey) (isFirstParty : Bool) : Prog Stmt State OAuthError String := do
  let user ← .ofExcept ((w.publicKeyFromHex user).mapError fun e =>
    .invalidRequest ("Invalid public key: " ++ e))
  let serverKeys ← .ofExcept (w.getServerKeys.mapError .serverError)
  let now ← .read .clock (·.now)
  .ofExcept ((generateServerSignedUcan w now user tenant email origin (some bunker) serverKeys
    isFirstParty none w.tokenExpirySeconds).mapError fun e =>
      .invalidRequest ("UCAN generation failed: Internal(" ++ e.quote ++ ")"))

/-- `REFRESH_TOKEN_EXPIRY_DAYS`. -/
def refreshTokenExpiryDays : Int := 30

/-- `RefreshTokenRepository::create`. -/
def createRefreshToken (w : Web) (tenant : TenantId) (authorizationId : RowId) (token : String) :
    Prog Stmt State OAuthError Unit :=
  transact (.createRefreshToken (w.sha256 token) authorizationId) .duplicate fun s =>
    (s.db.insertRefreshToken
      { tokenHash := w.sha256 token, authorizationId, tenantId := tenant,
        expiresAt := s.now + hours (refreshTokenExpiryDays * 24) }).map (((), ·))

/-- `invalidate_handlers_for_authorization`. -/
def State.invalidateHandlersForAuthorization (s : State) (inst : InstanceId) (id : RowId) : State :=
  s.updateCache inst fun c => c.invalidateEntriesIf fun _ h => h.isOauth && h.authorizationId == id

/-- The clean-up after a re-authorization. -/
def revokePrevious (inst : InstanceId) (previous : Option RowId) :
    Prog Stmt State OAuthError Unit :=
  match previous with
  | none => return ()
  | some old => do
    .write (.revokeRefreshTokens old) fun s => s.withDb (s.db.revokeRefreshTokens s.now old)
    .write (.revokeOAuth old) fun s => s.withDb (s.db.revokeOAuth s.now old)
    .write (.invalidateHandlersForAuthorization inst old)
      (·.invalidateHandlersForAuthorization inst old)

structure CreateAuthorizationParams where
  tenantId : TenantId
  userPubkey : PublicKey
  email : String
  clientId : String
  scope : String
  redirectUri : String
  nsecFromVerifier : Option String
  previousAuthId : Option RowId
  isHeadless : Bool
  policyId : Option RowId := none
  deriving DecidableEq, Repr

/-- `create_oauth_authorization`. -/
def createOAuthAuthorization (w : Web) (inst : InstanceId) (drawn : GrantDrawn)
    (p : CreateAuthorizationParams) : Prog Stmt State OAuthError TokenResponse := do
  let encrypted ← ensurePersonalKey w p.tenantId p.userPubkey p.nsecFromVerifier
  let origin ← .ofExcept (extractOrigin w p.redirectUri)
  let pair ← .orErr drawn.pair (.serverError "Secret pool exhausted")
  let bunker ← .ofExcept
    (deriveBunker w (fun e => .encryption ("Failed to decrypt user key: " ++ e))
    (fun e => .invalidRequest ("Invalid secret key: " ++ e)) encrypted pair.hash)
  let accessToken ← issueAccessToken w p.tenantId p.userPubkey p.email origin bunker p.isHeadless
  let policyId ← match p.policyId with
    | some id => .ret id
    | none => resolvePolicyFromScope p.scope
  createAuthorization .duplicate
    (newAuthorization drawn.newId p.tenantId p.userPubkey origin p.clientId bunker pair.hash
      (some policyId) (some drawn.handle))
  createRefreshToken w p.tenantId drawn.newId drawn.refreshToken
  revokePrevious inst p.previousAuthId
  .write .sendUpsert id
  return { bunker, secret := some pair.secret, accessToken, scope := p.scope,
           authorizationHandle := some drawn.handle, refreshToken := drawn.refreshToken,
           authorizationId := drawn.newId }

/-- `handle_authorization_code_grant`. -/
def handleAuthorizationCodeGrant (w : Web) (inst : InstanceId) (tenant : TenantId)
    (drawn : GrantDrawn)
    (req : TokenRequest) : Prog Stmt State OAuthError TokenResponse := do
  let code ← .orErr req.code
    (.invalidRequest "Missing 'code' parameter for authorization_code grant")
  let redirectUri ← .orErr req.redirectUri
    (.invalidRequest "Missing 'redirect_uri' parameter for authorization_code grant")
  let row ← .read (.findValidCode code) fun s => s.db.findValidCode s.now tenant code
  let row ← .orErr row .unauthorized
  if row.redirectUri ≠ redirectUri then .err (.invalidRequest "redirect_uri mismatch")
  else
    .ofExcept (checkVerifier w row req.codeVerifier)
    let nsec := req.codeVerifier.bind extractNsecFromVerifier
    let email ← match row.pendingEmail with
      | some email => completeRegistration w tenant row nsec email
      | none => exchangeForUser tenant row
    createOAuthAuthorization w inst drawn
      { tenantId := tenant, userPubkey := row.userPubkey, email, clientId := row.clientId,
        scope := row.scope, redirectUri := row.redirectUri, nsecFromVerifier := nsec,
        previousAuthId := row.previousAuthId, isHeadless := row.isHeadless }

/-- The scope a refreshed grant reports. -/
def policyScope (db : Db) (policyId : Option RowId) : String :=
  match policyId.bind fun id => db.policies.find? (·.id == id) with
  | some policy => "policy:" ++ policy.slug.getD (toString policy.id)
  | none => "policy:full"

/-- `handle_refresh_token_grant`. -/
def handleRefreshTokenGrant (w : Web) (tenant : TenantId) (drawn : GrantDrawn)
    (req : TokenRequest) :
    Prog Stmt State OAuthError TokenResponse := do
  let token ← .orErr req.refreshToken
    (.invalidRequest "Missing 'refresh_token' parameter for refresh_token grant")
  let record ← .stmt (.consumeRefreshToken (w.sha256 token)) fun s =>
    ((s.db.consumeRefreshToken s.now (w.sha256 token)).1,
      s.withDb (s.db.consumeRefreshToken s.now (w.sha256 token)).2)
  let record ← .orErr record (.invalidGrant "Invalid or expired refresh token")
  let row ← .read .findOAuth fun s => s.db.oauthFind tenant record.authorizationId
  let row ← .orErr row (.invalidGrant "Authorization not found: no rows returned")
  if row.revokedAt.isSome then .err (.invalidGrant "Authorization has been revoked")
  else
    let email ← .read .getEmail fun s => s.db.getEmail row.userPubkey tenant
    let encrypted ← .read .findEncryptedKey fun s =>
      s.db.encryptedKeyForTenant row.userPubkey tenant
    let encrypted ← .orErr encrypted (.invalidGrant "User keys not found")
    let bunker ← .ofExcept
      (deriveBunker w (fun e => .encryption ("Failed to decrypt user key: " ++ e))
      (fun e => .invalidRequest ("Invalid secret key: " ++ e)) encrypted row.secretHash)
    let accessToken ← issueAccessToken w tenant row.userPubkey ((email.bind id).getD "")
      row.redirectOrigin bunker false
    createRefreshToken w tenant row.id drawn.refreshToken
    let scope ← .read .findPolicy fun s => policyScope s.db row.policyId
    return { bunker, secret := none, accessToken, scope,
             authorizationHandle := row.authorizationHandle,
             refreshToken := drawn.refreshToken, authorizationId := row.id }

/-- `token`. -/
def token (w : Web) (inst : InstanceId) (tenant : TenantId) (drawn : GrantDrawn)
    (req : TokenRequest) :
    Prog Stmt State OAuthError TokenResponse :=
  let grantType := req.grantType.getD "authorization_code"
  if grantType = "authorization_code" then handleAuthorizationCodeGrant w inst tenant drawn req
  else if grantType = "refresh_token" then handleRefreshTokenGrant w tenant drawn req
  else .err (.invalidRequest ("Invalid grant_type '" ++ grantType ++
    "'. Supported: authorization_code, refresh_token."))

/-! ## What a grant changes -/

/-- Authorizations, refresh tokens and keys, and the caches. -/
structure GrantOnly (s s' : State) : Prop where
  now : s'.now = s.now
  db : s'.db = { s.db with
    oauthAuthorizations := s'.db.oauthAuthorizations
    refreshTokens := s'.db.refreshTokens
    personalKeys := s'.db.personalKeys }

/-- The statements of a grant. -/
def Stmt.ofGrant : Stmt → Bool
  | .findEncryptedKey | .createPersonalKey | .clock | .findPolicyBySlug | .createOAuth
  | .createRefreshToken .. | .revokeRefreshTokens .. | .revokeOAuth ..
  | .invalidateHandlersForAuthorization .. | .sendUpsert => true
  | _ => false

def GrantMove (l : Stmt) (s s' : State) : Prop := l.ofGrant = true ∧ GrantOnly s s'

theorem GrantOnly.refl (s : State) : GrantOnly s s := ⟨rfl, rfl⟩

section Grant

variable {w : Web} {tenant : TenantId}

theorem ensurePersonalKey_does (user : PublicKey) (nsec : Option String) :
    (ensurePersonalKey w tenant user nsec).Does GrantMove := by
  refine .bind (.read (fun s => ⟨rfl, .refl s⟩) _) fun found => ?_
  split
  · trivial
  refine .bind (.orErr _ _) fun nsec => .bind (.ofExcept _) fun keys => ?_
  split
  · trivial
  · exact .bind (.ofExcept _) fun secret => .bind (.write fun s => ⟨rfl, rfl, rfl⟩) fun _ => trivial

theorem issueAccessToken_does (user : PublicKey) (email origin : String) (bunker : PublicKey)
    (isFirstParty : Bool) :
      (issueAccessToken w tenant user email origin bunker isFirstParty).Does GrantMove :=
  .bind (.ofExcept _) fun _ => .bind (.ofExcept _) fun _ =>
    .bind (.read (fun s => ⟨rfl, .refl s⟩) _) fun _ =>
    .ofExcept _

theorem createAuthorization_does {ε : Type} {e : ε} {row : Timestamp → OAuthAuthorization} :
    (createAuthorization e row).Does GrantMove := by
  refine transact_does (fun s => ⟨rfl, .refl s⟩) fun s _ db hcreated => ?_
  obtain ⟨db', hinsert, heq⟩ := Option.map_eq_some_iff.mp hcreated
  cases heq
  obtain ⟨rfl, -⟩ := Db.insertOAuth_eq hinsert
  exact ⟨rfl, rfl, rfl⟩

theorem createRefreshToken_does (authorizationId : RowId) (token : String) :
    (createRefreshToken w tenant authorizationId token).Does GrantMove := by
  refine transact_does (fun s => ⟨rfl, .refl s⟩) fun s _ db hcreated => ?_
  obtain ⟨db', hinsert, heq⟩ := Option.map_eq_some_iff.mp hcreated
  cases heq
  obtain ⟨rfl, -⟩ := Db.insertRefreshToken_eq hinsert
  exact ⟨rfl, rfl, rfl⟩

theorem revokePrevious_does (inst : InstanceId) (previous : Option RowId) :
    (revokePrevious inst previous).Does GrantMove := by
  cases previous with
  | none => trivial
  | some old =>
    exact .bind (.write fun s => ⟨rfl, rfl, rfl⟩) fun _ =>
      .bind (.write fun s => ⟨rfl, rfl, rfl⟩) fun _ =>
      .write fun s => ⟨rfl, rfl, rfl⟩

theorem createOAuthAuthorization_does (inst : InstanceId) (drawn : GrantDrawn)
    (p : CreateAuthorizationParams) :
    (createOAuthAuthorization w inst drawn p).Does GrantMove := by
  unfold createOAuthAuthorization
  refine .bind (ensurePersonalKey_does _ _) fun encrypted => .bind (.ofExcept _) fun origin =>
    .bind (.orErr _ _) fun pair => .bind (.ofExcept _) fun bunker =>
    .bind (issueAccessToken_does _ _ _ _ _) fun accessToken => ?_
  extract_lets tail
  have htail : ∀ policyId, (tail policyId).Does GrantMove := fun policyId =>
    .bind createAuthorization_does fun _ => .bind (createRefreshToken_does _ _) fun _ =>
      .bind (revokePrevious_does _ _) fun _ =>
        .bind (.write fun s => ⟨rfl, .refl s⟩) fun _ => trivial
  split
  · exact htail _
  · exact .bind (.bind (.ofExcept _) fun _ => .bind (.read (fun s => ⟨rfl, .refl s⟩) _) fun _ =>
      .bind (.orErr _ _) fun _ => trivial) fun _ => htail _

end Grant

end Keycast.Http
