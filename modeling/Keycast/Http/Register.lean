import Keycast.Core.OAuthCodes
import Keycast.Http.Account

/-!
# `Http/Register.lean` — registration by email

`oauth_register` of `api/http/oauth.rs`, `headless_register` of `headless.rs` and `verify_email` of
`auth.rs`. The two registrations create no user: they store a row of `oauth_codes` that waits for
the email to be verified, and `verify_email` creates the user, stores a code for the app and deletes
the row. What a call generates (keys, codes, tokens), whether the rate limiter lets it pass and
whether Redis answers are arguments. Sending the email changes nothing here.
-/

set_option autoImplicit false

namespace Keycast.Http

open Lib

/-- With one more than the source has: a panic answers nothing, it stops the process. -/
inductive OAuthError
  | panicked
  | tooManyRequests
  | unauthorized
  | invalidRequest (message : String)
  | invalidGrant (message : String)
  | database (message : String)
  | encryption (message : String)
  | serverError (message : String)
  deriving DecidableEq, Repr

/-- `{:?}` of an error. -/
def OAuthError.debug : OAuthError → String
  | .panicked => "panicked"
  | .tooManyRequests => "TooManyRequests"
  | .unauthorized => "Unauthorized"
  | .invalidRequest m => "InvalidRequest(" ++ m.quote ++ ")"
  | .invalidGrant m => "InvalidGrant(" ++ m.quote ++ ")"
  | .database m => "Database(" ++ m ++ ")"
  | .encryption m => "Encryption(" ++ m.quote ++ ")"
  | .serverError m => "ServerError(" ++ m.quote ++ ")"

/-- The variants of `HeadlessError` the modelled endpoints use. -/
inductive HeadlessError
  | tooManyRequests
  | unauthorized
  | emailNotVerified
  | invalidRequest (message : String)
  | conflict (message : String)
  | internal (message : String)
  deriving DecidableEq, Repr

/-- What a registration draws at random. -/
structure Drawn where
  keys : Keys
  code : String
  deviceCode : String
  verificationToken : String
  deriving DecidableEq, Repr

/-- `EMAIL_VERIFICATION_EXPIRY_HOURS`; `oauth_register` has the same number written out. -/
def emailVerificationExpiryHours : Int := 24

/-! ## Scopes and origins -/

def isLocalhost (host : String) : Bool :=
  host == "localhost" || host == "127.0.0.1" || host == "[::1]" || host == "::1"

/-- `extract_origin`. -/
def extractOrigin (w : Web) (redirectUri : String) : Except OAuthError String := do
  let url ← (w.urlParse redirectUri).elim (.error (.invalidRequest "Invalid redirect_uri")) .ok
  let host ← url.host.elim (.error (.invalidRequest "redirect_uri missing host")) .ok
  if url.scheme = "http" ∨ url.scheme = "https" then
    if url.scheme = "http" ∧ !isLocalhost host then
      .error (.invalidRequest "HTTPS required for non-localhost redirect_uri")
    else
      match url.port with
      | some port => .ok (url.scheme ++ "://" ++ host ++ ":" ++ toString port)
      | none => .ok (url.scheme ++ "://" ++ host)
  else .error (.invalidRequest ("Invalid redirect_uri scheme '" ++ url.scheme ++
    "'. Only https:// URLs are allowed (http:// for localhost only)."))

/-- `parse_policy_scope`. -/
def parsePolicyScope (scope : String) : Except OAuthError String :=
  match stripPrefix "policy:" scope with
  | some slug =>
    if slug = "" then
      .error (.invalidRequest
        "Policy scope cannot be empty. Use 'policy:social', 'policy:readonly', etc.")
    else .ok slug
  | none => .error (.invalidRequest ("Invalid scope '" ++ scope ++
    "'. Use 'policy:social', 'policy:readonly', etc. See GET /api/policies for available options."))

/-! ## Registering -/

structure OAuthRegisterRequest where
  email : String
  password : String
  clientId : String
  redirectUri : String
  scope : Option String := none
  codeChallenge : Option String := none
  codeChallengeMethod : Option String := none
  pubkey : Option String := none
  nsec : Option String := none
  state : Option String := none
  deriving DecidableEq, Repr

structure OAuthRegisterResponse where
  email : String
  pubkey : PublicKey
  deviceCode : String
  deriving DecidableEq, Repr

/-- The key of the new account, and its secret where the server has it: given, promised for later,
or generated. -/
def registrationKey (w : Web) (req : OAuthRegisterRequest) (generated : Keys) :
    Except OAuthError (PublicKey × Option Keys) :=
  match req.nsec, req.pubkey with
  | some nsec, _ => do
    let keys ← (w.keysParse nsec).mapError fun e => .invalidRequest ("Invalid nsec: " ++ e)
    return (w.publicKey keys, some keys)
  | none, some hex => do
    let pubkey ← (w.publicKeyFromHex hex).mapError fun e =>
      .invalidRequest ("Invalid pubkey: " ++ e)
    return (pubkey, none)
  | none, none => .ok (w.publicKey generated, some generated)

def encryptOptional (w : Web) : Option Keys → Except OAuthError (Option Bytes)
  | some keys => (w.kmsEncrypt (w.toSecretBytes keys)).mapError .encryption |>.map some
  | none => .ok none

/-- `oauth_register`. -/
def oauthRegister (w : Web) (tenant : TenantId) (allowed : Bool) (drawn : Drawn)
    (req : OAuthRegisterRequest) : Prog Stmt State OAuthError OAuthRegisterResponse := do
  let email := w.toLowercase req.email
  if !allowed then .err .tooManyRequests
  else
    let taken ← .read .findPubkeyByEmail fun s => s.db.findPubkeyByEmail email tenant
    if taken.isSome then .err (.invalidRequest "Email already registered")
    else
      let passwordHash ← .ofExcept ((w.bcryptHash req.password).mapError fun _ =>
        .invalidRequest "Password hashing failed")
      let (pubkey, keys) ← .ofExcept (registrationKey w req drawn.keys)
      let known ← .read .userExists fun s => s.db.userExists pubkey tenant
      if known then
        .err (.invalidRequest "This Nostr key is already registered. Please sign in instead.")
      else
        let taken ← .read .findPubkeyByEmail fun s => s.db.findPubkeyByEmail email tenant
        if taken.isSome then
          .err (.invalidRequest "This email is already registered. Please sign in instead.")
        else
          let secret ← .ofExcept (encryptOptional w keys)
          transact .storePending (.invalidRequest "Already exists") fun s =>
            (s.db.storeOAuthCode
              { tenantId := tenant, code := drawn.code, userPubkey := pubkey,
                clientId := req.clientId, redirectUri := req.redirectUri,
                scope := req.scope.getD "sign_event", codeChallenge := req.codeChallenge,
                codeChallengeMethod := req.codeChallengeMethod, expiresAt := s.now + hours 24,
                pendingEmail := some email, pendingPasswordHash := some passwordHash,
                pendingEmailVerificationToken := some drawn.verificationToken,
                pendingEncryptedSecret := secret, state := req.state,
                deviceCode := some drawn.deviceCode }).map (((), ·))
          return ⟨email, pubkey, drawn.deviceCode⟩

structure HeadlessRegisterRequest where
  email : String
  password : String
  clientId : String
  redirectUri : String
  nsec : Option String := none
  scope : Option String := none
  codeChallenge : Option String := none
  codeChallengeMethod : Option String := none
  state : Option String := none
  deriving DecidableEq, Repr

/-- The scope of a headless registration must name a policy, if it is of that form at all. -/
def checkHeadlessScope (scope : String) : Prog Stmt State HeadlessError Unit :=
  if (stripPrefix "policy:" scope).isSome then do
    let slug ← .ofExcept ((parsePolicyScope scope).mapError fun e => .invalidRequest e.debug)
    let policy ← .read .findPolicyBySlug fun s => s.db.findPolicyBySlug slug
    let _ ← .orErr policy (.invalidRequest ("Unknown policy '" ++ slug ++ "'"))
    return ()
  else return ()

def headlessKeys (w : Web) (nsec : Option String) (generated : Keys) : Except HeadlessError Keys :=
  match nsec with
  | some nsec => (w.keysParse nsec).mapError fun e =>
    .invalidRequest ("Invalid nsec or secret key: " ++
      e ++ ". Please provide a valid nsec (bech32) or hex secret key.")
  | none => .ok generated

/-- Whether the key is taken; a generated one is not looked up. -/
def headlessKeyKnown (nsec : Option String) (pubkey : PublicKey) (tenant : TenantId) :
    Prog Stmt State HeadlessError Bool :=
  if nsec.isSome then .read .userExists fun s => s.db.userExists pubkey tenant
  else return false

/-- `headless_register`. -/
def headlessRegister (w : Web) (tenant : TenantId) (allowed : Bool) (drawn : Drawn)
    (req : HeadlessRegisterRequest) : Prog Stmt State HeadlessError OAuthRegisterResponse := do
  let email := w.toLowercase req.email
  if !allowed then .err .tooManyRequests
  else
    let _ ← .ofExcept ((extractOrigin w req.redirectUri).mapError fun e =>
      .invalidRequest ("Invalid redirect_uri: " ++ e.debug))
    let scope := req.scope.getD "policy:full"
    checkHeadlessScope scope
    let keys ← .ofExcept (headlessKeys w req.nsec drawn.keys)
    let pubkey := w.publicKey keys
    let known ← headlessKeyKnown req.nsec pubkey tenant
    if known then .err (.conflict
      "This Nostr key is already registered. Please log in instead or use a different key.")
    else
      let taken ← .read .findPubkeyByEmail fun s => s.db.findPubkeyByEmail email tenant
      if taken.isSome then
        .err (.conflict "This email is already registered. Please log in instead.")
      else
        let secret ← .ofExcept ((w.kmsEncrypt (w.toSecretBytes keys)).mapError fun e =>
          .internal ("Encryption error: " ++ e))
        let passwordHash ← .ofExcept ((w.bcryptHash req.password).mapError fun e =>
          .internal ("Password hash error: " ++ e))
        transact .storePending (.conflict "Resource already exists") fun s =>
          (s.db.storeOAuthCode
            { tenantId := tenant, code := drawn.code, userPubkey := pubkey,
              clientId := req.clientId, redirectUri := req.redirectUri, scope,
              codeChallenge := req.codeChallenge, codeChallengeMethod := req.codeChallengeMethod,
              expiresAt := s.now + hours emailVerificationExpiryHours, pendingEmail := some email,
              pendingPasswordHash := some passwordHash,
              pendingEmailVerificationToken := some drawn.verificationToken,
              pendingEncryptedSecret := some secret, state := req.state,
              deviceCode := some drawn.deviceCode, isHeadless := true }).map (((), ·))
        return ⟨email, pubkey, drawn.deviceCode⟩

/-! ## Verifying -/

/-- Redis as one request finds it: not configured, or there, and then writing to it works or not. -/
inductive Redis
  | absent
  | failing
  | working
  deriving DecidableEq, Repr

/-- The JSON of the answer, and the session cookie set with it. -/
structure VerifyEmailResponse where
  success : Bool
  message : String
  redirectTo : Option String := none
  authenticated : Option Bool := none
  status : Option String := none
  retryAfter : Option Nat := none
  cookie : Option String := none
  deriving DecidableEq, Repr

def headlessRetryError : AuthError :=
  .serviceUnavailable
    "Email verified, but app sign-in is still finishing. Please retry shortly." (some 5)

/-- The user of a verified registration; one that exists already is taken for a retry. -/
def ensureVerifiedUser (pending : OAuthCode) (tenant : TenantId)
    (email passwordHash token : String) :
    Prog Stmt State AuthError Unit := do
  let known ← .read .userExists fun s => s.db.userExists pending.userPubkey tenant
  if known then return ()
  else
    let user (now : Timestamp) : User :=
      { pubkey := pending.userPubkey, tenantId := tenant, email := some email,
        passwordHash := some passwordHash, emailVerified := true,
        emailVerificationToken := some token, createdAt := now }
    match pending.pendingEncryptedSecret with
    | some secret =>
      transact .createVerifiedUser (.database "duplicate key value") fun s =>
        (s.db.insertUser (user s.now)).map fun db =>
          ((), db.insertPersonalKey ⟨pending.userPubkey, tenant, secret⟩)
    | none =>
      -- the keys come with the token exchange
      transact .createVerifiedUser .emailAlreadyExists fun s =>
        (s.db.insertUser (user s.now)).map (((), ·))

/-- Tell whoever polls with the device code. A headless app has no other way to learn the code, so
there a failure takes the code back. -/
def announceCode (pending : OAuthCode) (tenant : TenantId) (redis : Redis) (newCode : String) :
    Prog Stmt State AuthError Unit :=
  if pending.isHeadless then
    match redis with
    | .working => .write .setex id
    | _ => do
      .write .setex id
      .write (.deleteCode tenant newCode) fun s => s.withDb (s.db.deleteCode tenant newCode)
      .err headlessRetryError
  else if pending.deviceCode.isSome && redis ≠ .absent then .write .setex id
  else return ()

/-- The answer: the app picks the code up by polling, or the browser takes it there. -/
def verifiedResponse (newCode : String) (pending : OAuthCode) : VerifyEmailResponse :=
  if pending.isHeadless then
    { success := true, message := "Email verified! Open the app to continue.",
      status := some "headless" }
  else
    let url := pending.redirectUri ++ "?code=" ++ newCode
    let url := match pending.state with
      | some state => url ++ "&state=" ++ state
      | none => url
    { success := true, message := "Email verified! Redirecting to app...", redirectTo := some url }

/-- What follows once the user is there. -/
def storeVerifiedCode (tenant : TenantId) (redis : Redis) (newCode token email : String)
    (pending : OAuthCode) : Prog Stmt State AuthError VerifyEmailResponse := do
  if pending.isHeadless && (pending.deviceCode.isNone || redis = .absent) then
    .err headlessRetryError
  else
    transact (.storeVerifiedCode tenant pending.userPubkey email) .emailAlreadyExists fun s =>
      (s.db.storeOAuthCode
        { tenantId := tenant, code := newCode, userPubkey := pending.userPubkey,
          clientId := pending.clientId, redirectUri := pending.redirectUri, scope := pending.scope,
          codeChallenge := pending.codeChallenge, codeChallengeMethod :=
            pending.codeChallengeMethod,
          expiresAt := s.now + seconds 600, previousAuthId := pending.previousAuthId,
          state := pending.state, isHeadless := pending.isHeadless }).map (((), ·))
    announceCode pending tenant redis newCode
    .write .deletePending fun s => s.withDb (s.db.deletePendingByToken token tenant)
    return verifiedResponse newCode pending

/-- The OAuth branch of `verify_email`. -/
def verifyRegistration (tenant : TenantId) (redis : Redis) (newCode token : String)
    (pending : OAuthCode) : Prog Stmt State AuthError VerifyEmailResponse := do
  let email ← .orErr pending.pendingEmail (.internal "Missing pending email")
  let passwordHash ← .orErr pending.pendingPasswordHash (.internal "Missing pending password hash")
  ensureVerifiedUser pending tenant email passwordHash token
  storeVerifiedCode tenant redis newCode token email pending

/-- The other branch: the user exists and waits for the verification. -/
def verifyUser (w : Web) (tenant : TenantId) (headers : Headers) (token : String) :
    Prog Stmt State AuthError VerifyEmailResponse := do
  let user ← .read .findUserByVerificationToken fun s =>
    s.db.findUserByVerificationToken token tenant
  let user ← .orErr user .invalidToken
  let now ← .read .clock (·.now)
  if user.emailVerified then
    return { success := true, message := "Your email is already verified. You can log in." }
  else if user.emailVerificationExpiresAt.any (· < now) then
    return { success := false,
             message := "Verification link has expired. Please request a new one." }
  else if user.passwordHash.isNone then
    -- the password is hashed in the background; two minutes mean that the worker died
    if (now - user.createdAt) / seconds 1 > 120 then .err .registrationExpired
    else
      return { success := false, message := "Processing your registration, please wait...",
               status := some "processing", retryAfter := some 1 }
  else
    .write .markEmailVerified fun s => s.withDb (s.db.markEmailVerified user.pubkey tenant)
    let email ← .read .getEmail fun s => s.db.getEmail user.pubkey tenant
    let email ← .orErr email .userNotFound
    let email ← .orErr email (.internal "Database error: unexpected null")
    let encrypted ← .read .findEncryptedKey fun s => s.db.encryptedKeyForTenant user.pubkey tenant
    let encrypted ← .orErr encrypted (.internal "Personal keys not found")
    let decrypted ← .ofExcept ((w.kmsDecrypt encrypted).mapError .encryption)
    let keys ← .ofExcept ((w.secretKeyFromSlice decrypted).mapError fun e =>
      .internal ("Invalid secret key bytes: " ++ e))
    let origin := ((headers.origin.bind id).orElse fun _ => w.appUrl).getD "http://localhost:3000"
    let now ← .read .clock (·.now)
    let session ← .ofExcept ((generateUcanToken w now keys tenant email origin).mapError .internal)
    let redirectTo := user.redirectUri.map fun uri =>
      uri ++ (if uri.toList.contains '?' then "&" else "?") ++ "verified=1&email=" ++
        w.urlEncode email
    return { success := true, message := "Email verified successfully! You are now logged in.",
             redirectTo, authenticated := some true, cookie := some session }

/-- `verify_email`. -/
def verifyEmail (w : Web) (tenant : TenantId) (headers : Headers) (redis : Redis)
    (newCode token : String) : Prog Stmt State AuthError VerifyEmailResponse := do
  match ← .read .findPendingByToken fun s => s.db.findPendingByToken s.now token tenant with
  | some pending => verifyRegistration tenant redis newCode token pending
  | none => verifyUser w tenant headers token

/-! ## What the statements of `verify_email` do -/

section VerifySteps

variable {w : Web} {tenant : TenantId} {G : State → State → Prop}

theorem ensureVerifiedUser_steps (hrefl : ∀ s, G s s)
    (hinsert : ∀ s u db keys, s.db.insertUser u = some db →
      G s (s.withDb { db with personalKeys := keys }))
    (pending : OAuthCode) (email passwordHash token : String) :
    (ensureVerifiedUser pending tenant email passwordHash token).Steps G := by
  refine .bind (.read hrefl _ _) fun known => ?_
  split
  · trivial
  dsimp only
  split
  · refine transact_steps hrefl _ _ fun s _ db h => ?_
    obtain ⟨db', hdb', heq⟩ := Option.map_eq_some_iff.mp h
    cases heq
    exact hinsert s _ db' _ hdb'
  · refine transact_steps hrefl _ _ fun s _ db h => ?_
    obtain ⟨db', hdb', heq⟩ := Option.map_eq_some_iff.mp h
    cases heq
    exact hinsert s _ db _ hdb'

/-- Codes that are deleted, and one that is not a registration. -/
theorem storeVerifiedCode_steps (hrefl : ∀ s, G s s)
    (hcodes : ∀ s codes, (∀ c ∈ codes, c.pendingEmail.isSome = true → c ∈ s.db.oauthCodes) →
      G s (s.withDb { s.db with oauthCodes := codes }))
    (redis : Redis) (newCode token email : String) (pending : OAuthCode) :
    (storeVerifiedCode tenant redis newCode token email pending).Steps G := by
  have hfewer : ∀ s q, G s (s.withDb { s.db with oauthCodes := s.db.oauthCodes.filter q }) :=
    fun s q =>
    hcodes s _ fun c hc _ => (List.mem_filter.mp hc).1
  unfold storeVerifiedCode
  split
  · trivial
  refine .bind (transact_steps hrefl _ _ fun s _ db h => ?_) fun _ => .bind ?_ fun _ =>
    .bind (.write _ fun s => hfewer s _) fun _ => trivial
  · obtain ⟨db', hstore, heq⟩ := Option.map_eq_some_iff.mp h
    cases heq
    unfold Db.storeOAuthCode at hstore
    split at hstore
    · cases hstore
    cases hstore
    refine hcodes s _ fun c hc hpending => ?_
    rcases List.mem_append.mp hc with hc | hc
    · exact hc
    · rw [List.mem_singleton.mp hc] at hpending
      cases hpending
  · unfold announceCode
    split
    · split
      · exact .write _ hrefl
      · exact .bind (.write _ hrefl) fun _ => .bind (.write _ fun s => hfewer s _) fun _ => trivial
    · split
      · exact .write _ hrefl
      · trivial

theorem verifyUser_steps (hrefl : ∀ s, G s s)
    (hverified : ∀ s user, G s (s.withDb (s.db.markEmailVerified user tenant))) (headers : Headers)
    (token : String) :
    (verifyUser w tenant headers token).Steps G := by
  refine .bind (.read hrefl _ _) fun _ => .bind (.orErr _ _) fun user =>
    .bind (.read hrefl _ _) fun _ => ?_
  split
  · trivial
  split
  · trivial
  split
  · split <;> trivial
  exact .bind (.write _ fun s => hverified s _) fun _ => .bind (.read hrefl _ _) fun _ =>
    .bind (.orErr _ _) fun _ => .bind (.orErr _ _) fun _ => .bind (.read hrefl _ _) fun _ =>
    .bind (.orErr _ _) fun _ => .bind (.ofExcept _) fun _ => .bind (.ofExcept _) fun _ =>
    .bind (.read hrefl _ _) fun _ => .bind (.ofExcept _) fun _ => trivial

/-- A user is inserted, codes come and go, an email is marked; the rest reads. -/
theorem verifyEmail_steps (hrefl : ∀ s, G s s)
    (hinsert : ∀ s u db keys, s.db.insertUser u = some db →
      G s (s.withDb { db with personalKeys := keys }))
    (hcodes : ∀ s codes, (∀ c ∈ codes, c.pendingEmail.isSome = true → c ∈ s.db.oauthCodes) →
      G s (s.withDb { s.db with oauthCodes := codes }))
    (hverified : ∀ s user, G s (s.withDb (s.db.markEmailVerified user tenant)))
    (headers : Headers) (redis : Redis) (newCode token : String) :
    (verifyEmail w tenant headers redis newCode token).Steps G := by
  refine .bind (.read hrefl _ _) fun found => ?_
  split
  · exact .bind (.orErr _ _) fun _ => .bind (.orErr _ _) fun _ =>
      .bind (ensureVerifiedUser_steps hrefl hinsert _ _ _ _) fun _ =>
      storeVerifiedCode_steps hrefl hcodes _ _ _ _ _
  · exact verifyUser_steps hrefl hverified _ _

end VerifySteps

end Keycast.Http
