import Keycast.Core.Credentials
import Keycast.Http.OAuth
import Keycast.Http.Signup

/-!
# `Http/MagicLink.lean` — sign-in links

`request_magic_link` and `verify_magic_link` of `api/http/magic_link.rs`, for the customers' tenant,
where accounts have no password. A link is requested for an address, stored as a hash and sent
there; whoever comes back with it is the customer with that address, and becomes one on the first
click.

The list of approved apps is not a table here: what it says about a page, and the policy it leads
to, are arguments, as are the answers of the two limits that Redis keeps.
-/

set_option autoImplicit false

namespace Keycast.Http

open Lib

/-! ## Addresses -/

/-- `char::is_control`. -/
def isControl (c : Char) : Bool := c.toNat < 0x20 || (0x7f ≤ c.toNat && c.toNat < 0xa0)

/-- The local part and the domain, cut at the first `@`. -/
def splitAddress (email : List Char) : Option (List Char × List Char) :=
  match email.dropWhile (· ≠ '@') with
  | [] => none
  | _ :: domain => some (email.takeWhile (· ≠ '@'), domain)

/-- `normalize_email`. -/
def normalizeEmail (w : Web) (email : String) : Option String := do
  let email := w.toLowercase (String.ofList (trimmed email))
  let (localPart, domain) ← splitAddress email.toList
  if email.utf8ByteSize ≤ 255 && !localPart.isEmpty && !domain.contains '@' &&
    domain.contains '.' &&
      domain.head? ≠ some '.' && domain.getLast? ≠ some '.' &&
      !email.toList.any (fun c => isWhitespace c || isControl c) then some email
  else none

/-! ## Asking for a link -/

/-- `PURPOSE_SIGN_IN` and `PURPOSE_DELETE_ACCOUNT`; anything else is refused. -/
def parsePurpose (purpose : Option String) : Except AuthError LinkPurpose :=
  match purpose.getD "sign_in" with
  | "sign_in" => .ok .signIn
  | "delete_account" => .ok .deleteAccount
  | _ => .error (.badRequest "Invalid purpose")

/-- `signed_in_customer_email`. -/
def signedInCustomerEmail (w : Web) (headers : Headers) (tenant : TenantId) :
    Prog Stmt State AuthError String := do
  let header ← .orErr (headers.authorization.bind id) .missingToken
  let now ← .read .clock (·.now)
  let session ← .ofExcept ((validateUcanToken w now header tenant).mapError fun _ => .invalidToken)
  let email ← .read .getEmail fun s => s.db.getEmail session.1 tenant
  .orErr (email.bind id) .invalidToken

/-- Who the link goes to. One that deletes the account goes to the customer who is signed in. -/
def linkAddress (w : Web) (tenant : TenantId) (headers : Headers) (email : Option String) :
    LinkPurpose → Prog Stmt State AuthError String
  | .signIn => .orErr (email.bind (normalizeEmail w)) (.badRequest "Invalid email address")
  | .deleteAccount => signedInCustomerEmail w headers tenant

/-- `EMAIL_HOURLY_LIMIT`. -/
def emailHourlyLimit : Nat := 5

/-- `MAGIC_LINK_EXPIRY_MINUTES`. -/
def magicLinkExpiryMinutes : Int := 15

/-- `send_link`: the mail, if it comes to that. -/
def sendLink (w : Web) (tenant : TenantId) (ipAllowed windowAllowed : Bool)
    (email token page : String)
    (purpose : LinkPurpose) : Prog Stmt State AuthError (Option Mail) := do
  if !ipAllowed then return none
  else
    let recent ← .read .countRecentLinks fun s =>
      s.db.countRecentLinks tenant email (s.now - hours 1)
    if emailHourlyLimit ≤ recent || !windowAllowed then return none
    else
      let stored ← Prog.attempt
        (transact .createMagicLink (.database "duplicate key value") fun s =>
        (s.db.createMagicLink
          { tenantId := tenant, email, tokenHash := w.sha256 token, purpose, appOrigin := page,
            expiresAt := s.now + seconds (magicLinkExpiryMinutes * 60), createdAt :=
              s.now }).map (((), ·)))
      match stored with
      | .ok () => return some ⟨email, token⟩
      | .error _ => return none

/-- `request_magic_link`. `page` is the page the link lands on, where it is on an approved app's
origin. -/
def requestMagicLink (w : Web) (tenant : TenantId) (headers : Headers)
    (ipAllowed windowAllowed : Bool)
    (token : String) (page : Option String) (email purpose : Option String) :
    Prog Stmt State AuthError (Option Mail) := do
  if w.customerTenant ≠ some tenant then return none
  else
    let purpose ← .ofExcept (parsePurpose purpose)
    let address ← linkAddress w tenant headers email purpose
    let page ← .orErr page (.badRequest "app_url is not allowed")
    sendLink w tenant ipAllowed windowAllowed address token page purpose

/-! ## Coming back with it -/

structure VerifyMagicLinkRequest where
  token : String
  clientId : Option String := none
  redirectUri : Option String := none
  scope : Option String := none
  merchantPubkey : Option String := none
  localKey : Option String := none
  deriving DecidableEq, Repr

structure VerifyMagicLinkResponse where
  sessionToken : String
  expiresIn : Nat
  bunker : Option PublicKey := none
  deriving DecidableEq, Repr

structure CommerceGrant where
  clientId : String
  redirectUri : String
  merchantPubkey : Option PublicKey
  deriving DecidableEq, Repr

/-- `COMMERCE_SCOPE`. -/
def commerceScope : String := "policy:commerce_envelope"

/-- `parse_commerce_grant`. -/
def parseCommerceGrant (w : Web) (req : VerifyMagicLinkRequest) :
    Except AuthError (Option CommerceGrant) :=
  match req.clientId, req.redirectUri, req.scope with
  | none, none, none =>
    if req.merchantPubkey.isNone then .ok none
    else .error (.badRequest "client_id, redirect_uri and scope must be sent together")
  | some clientId, some redirectUri, some scope =>
    if (trimmed clientId).isEmpty then .error (.badRequest "Invalid client_id")
    else if scope ≠ commerceScope then .error (.badRequest "Invalid scope")
    else
      match req.merchantPubkey with
      | none => .ok (some ⟨clientId, redirectUri, none⟩)
      | some hex =>
        match w.publicKeyFromHex hex with
        | .ok merchant => .ok (some ⟨clientId, redirectUri, some merchant⟩)
        | .error _ => .error (.badRequest "Invalid merchant_pubkey")
  | _, _, _ => .error (.badRequest "client_id, redirect_uri and scope must be sent together")

/-- `merchant_for_grant`, on what the approved list says about the page of the link. -/
def merchantForGrant (w : Web) (page : String) (approved : Option PublicKey)
    (grant : CommerceGrant) :
    Except AuthError PublicKey :=
  if !w.sameOrigin grant.redirectUri page then
    .error (.badRequest "redirect_uri does not match the link")
  else
    match approved with
    | none => .error (.badRequest "This app is not allowed")
    | some merchant =>
      if grant.merchantPubkey.all (· == merchant) then .ok merchant
      else .error (.badRequest "merchant_pubkey does not match this app")

/-- The key the browser brings for a new account. -/
def parseLocalKey (w : Web) : Option String → Except AuthError (Option Keys)
  | none => .ok none
  | some hex =>
    (w.secretKeyFromHex hex).mapError (fun _ => .badRequest "Invalid local_key") |>.map some

/-- `find_or_create_customer`. -/
def findOrCreateCustomer (w : Web) (tenant : TenantId) (email : String) (localKey : Option Keys)
    (generated : Keys) : Prog Stmt State AuthError PublicKey := do
  match ← .read .findPubkeyByEmail fun s => s.db.findPubkeyByEmail email tenant with
  | some user => return user
  | none =>
    let keys := localKey.getD generated
    let secret ← .ofExcept ((w.kmsEncrypt (w.toSecretBytes keys)).mapError fun e =>
      .internal ("Failed to encrypt key: " ++ e))
    transact .findOrCreatePasswordless (.badRequest "Invalid local_key") fun s =>
      s.db.findOrCreatePasswordless s.now (w.publicKey keys) tenant email secret

/-- A session the server signs for whoever came with the link. -/
def linkSession (w : Web) (tenant : TenantId) (user : PublicKey) (email page : String)
    (isFirstParty : Bool) (lifetime : Nat) : Prog Stmt State AuthError String := do
  let user ← .ofExcept
    ((w.publicKeyFromHex user).mapError fun e => .internal ("Invalid pubkey: " ++ e))
  let serverKeys ← .ofExcept (w.getServerKeys.mapError .internal)
  let now ← .read .clock (·.now)
  .ofExcept
    ((generateServerSignedUcan w now user tenant email page none serverKeys isFirstParty none
    lifetime).mapError .internal)

/-- `DELETE_SESSION_SECONDS`. -/
def deleteSessionSeconds : Nat := 600

/-- `delete_session`. -/
def deleteSession (w : Web) (tenant : TenantId) (email page : String) :
    Prog Stmt State AuthError VerifyMagicLinkResponse := do
  let user ← .read .findPubkeyByEmail fun s => s.db.findPubkeyByEmail email tenant
  let user ← .orErr user (.badRequest "invalid_or_expired_link")
  let session ← linkSession w tenant user email page true deleteSessionSeconds
  return ⟨session, deleteSessionSeconds, none⟩

/-- The answer to a sign-in link: with a grant, the session is its access token. -/
def signInSession (w : Web) (inst : InstanceId) (tenant : TenantId) (drawn : GrantDrawn)
    (policyId : RowId) (user : PublicKey) (link : MagicLinkToken) :
    Option CommerceGrant → Prog Stmt State AuthError VerifyMagicLinkResponse
  | some grant => do
    let created ← (createOAuthAuthorization w inst drawn
      { tenantId := tenant, userPubkey := user, email := link.email, clientId := grant.clientId,
        scope := commerceScope, redirectUri := grant.redirectUri, nsecFromVerifier := none,
        previousAuthId := none, isHeadless := false, policyId := some policyId }).mapErr fun e =>
      .internal ("Failed to authorize app: " ++ e.debug)
    return ⟨created.accessToken, w.tokenExpirySeconds, some created.bunker⟩
  | none => do
    let session ← linkSession w tenant user link.email link.appOrigin false w.tokenExpirySeconds
    return ⟨session, w.tokenExpirySeconds, none⟩

/-- `verify_magic_link`; `none` is the answer outside the customers' tenant. `approved` and
`policyId` are what the approved list says about the link's page, and the policy for that
merchant. -/
def verifyMagicLink (w : Web) (inst : InstanceId) (tenant : TenantId) (drawn : GrantDrawn)
    (generated : Keys) (approved : Option PublicKey) (policyId : RowId)
    (req : VerifyMagicLinkRequest) :
    Prog Stmt State AuthError (Option VerifyMagicLinkResponse) := do
  if w.customerTenant ≠ some tenant then return none
  else
    let localKey ← .ofExcept (parseLocalKey w req.localKey)
    let grant ← .ofExcept (parseCommerceGrant w req)
    let link ← .stmt .consumeMagicLink fun s =>
      ((s.db.consumeMagicLink s.now (w.sha256 req.token) tenant).1,
        s.withDb (s.db.consumeMagicLink s.now (w.sha256 req.token) tenant).2)
    let link ← .orErr link (.badRequest "invalid_or_expired_link")
    if link.purpose = .deleteAccount then
      let response ← deleteSession w tenant link.email link.appOrigin
      return some response
    else
      -- before the account is created, so that a refused grant leaves nothing behind
      let _ ← .ofExcept (grant.elim (.ok none) fun grant =>
        (merchantForGrant w link.appOrigin approved grant).map some)
      let user ← findOrCreateCustomer w tenant link.email localKey generated
      let response ← signInSession w inst tenant drawn policyId user link grant
      return some response

/-- Finding out where a link goes only reads. -/
theorem linkAddress_reads {w : Web} {tenant : TenantId} (headers : Headers) (email : Option String)
    (purpose : LinkPurpose) :
    (linkAddress w tenant headers email purpose).Steps Eq := by
  cases purpose with
  | signIn => exact .orErr _ _
  | deleteAccount =>
    exact .bind (.orErr _ _) fun _ => .bind (.read Eq.refl _ _) fun _ =>
      .bind (.ofExcept _) fun _ =>
      .bind (.read Eq.refl _ _) fun _ => .orErr _ _

/-! ## What the statements of `verify_magic_link` do -/

/-- The link is consumed, an account may be created, and the rest belongs to a grant or only
reads. -/
def VisitMove (w : Web) (tenant : TenantId) (req : VerifyMagicLinkRequest) : Stmt →
    State → State → Prop
  | .consumeMagicLink, s, s' =>
    s' = s.withDb (s.db.consumeMagicLink s.now (w.sha256 req.token) tenant).2
  | .findOrCreatePasswordless, s, s' => s' = s ∨ ∃ pubkey email secret user db,
      s.db.findOrCreatePasswordless s.now pubkey tenant email secret = some (user, db) ∧
        s' = s.withDb db
  | l, s, s' => (l = .findPubkeyByEmail ∨ l.ofGrant = true) ∧ GrantOnly s s'

section Visit

variable {w : Web} {tenant : TenantId} {req : VerifyMagicLinkRequest}

theorem GrantMove.visit {l : Stmt} {s s' : State} (h : GrantMove l s s') :
    VisitMove w tenant req l s s' := by
  cases l with
  | consumeMagicLink | findOrCreatePasswordless => cases h.1
  | _ => exact ⟨.inr h.1, h.2⟩

theorem linkSession_does (user : PublicKey) (email page : String) (isFirstParty : Bool)
    (lifetime : Nat) :
    (linkSession w tenant user email page isFirstParty lifetime).Does (VisitMove w tenant req) :=
  .bind (.ofExcept _) fun _ => .bind (.ofExcept _) fun _ =>
    .bind (.read (fun s => ⟨.inr rfl, .refl s⟩) _) fun _ => .ofExcept _

theorem findOrCreateCustomer_does (email : String) (localKey : Option Keys) (generated : Keys) :
    (findOrCreateCustomer w tenant email localKey generated).Does (VisitMove w tenant req) := by
  refine .bind (.read (fun s => ⟨.inl rfl, .refl s⟩) _) fun found => ?_
  split
  · trivial
  exact .bind (.ofExcept _) fun secret =>
    transact_does (fun s => .inl rfl) fun s user db hcreate => .inr ⟨_, _, _, _, db, hcreate, rfl⟩

theorem verifyMagicLink_does (inst : InstanceId) (drawn : GrantDrawn) (generated : Keys)
    (approved : Option PublicKey) (policyId : RowId) :
    (verifyMagicLink w inst tenant drawn generated approved policyId req).Does
      (VisitMove w tenant req) := by
  unfold verifyMagicLink
  split
  · trivial
  refine .bind (.ofExcept _) fun localKey => .bind (.ofExcept _) fun grant =>
    .bind (.stmt fun s => rfl) fun link => .bind (.orErr _ _) fun link => ?_
  split
  · exact .bind (.bind (.read (fun s => ⟨.inl rfl, .refl s⟩) _) fun _ => .bind (.orErr _ _) fun _ =>
      .bind (linkSession_does _ _ _ _ _) fun _ => trivial) fun _ => trivial
  refine .bind (.ofExcept _) fun _ => .bind (findOrCreateCustomer_does _ _ _) fun user =>
    .bind ?_ fun _ => trivial
  cases grant with
  | none => exact .bind (linkSession_does _ _ _ _ _) fun _ => trivial
  | some grant =>
    exact .bind (.mapErr ((createOAuthAuthorization_does _ _ _).mono fun _ _ _ h => h.visit))
      fun _ => trivial

end Visit

end Keycast.Http
