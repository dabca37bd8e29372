import Keycast.Core.Permission
import Keycast.Lib.Table

/-!
# `Core/Db.lean` — the authorization tables

The rows and queries of `core/src/types` and `core/src/repositories` that both signing paths
read: OAuth authorizations, team authorizations, the keys behind them, and policies. A column no
modelled statement reads or writes (relays, labels, activity counters, `created_at`, …) is left
out.

Each query is written as the SQL has it, condition by condition, because the conditions are what
the results are about: `oauth_authorizations` is always filtered by `revoked_at IS NULL`,
`authorizations` mostly is not.
-/

set_option autoImplicit false

namespace Keycast

open Lib

/-- `expires_at IS NULL OR expires_at > NOW()`. -/
def unexpired (now : Timestamp) : Option Timestamp → Bool
  | none => true
  | some t => decide (now < t)

/-- A row of `oauth_authorizations`. -/
structure OAuthAuthorization where
  id : RowId
  tenantId : TenantId
  userPubkey : PublicKey
  redirectOrigin : String := ""
  clientId : Option String := none
  bunkerPublicKey : PublicKey
  secretHash : String
  policyId : Option RowId := none
  connectedClientPubkey : Option PublicKey := none
  connectedAt : Option Timestamp := none
  revokedAt : Option Timestamp := none
  expiresAt : Option Timestamp := none
  authorizationHandle : Option String := none
  handleExpiresAt : Timestamp := 0
  deriving DecidableEq, Repr

/-- `revoked_at IS NULL AND (expires_at IS NULL OR expires_at > NOW())`. -/
def OAuthAuthorization.live (now : Timestamp) (a : OAuthAuthorization) : Bool :=
  a.revokedAt.isNone && unexpired now a.expiresAt

/-- A row of `authorizations`: a team's grant on one of its stored keys. -/
structure Authorization where
  id : RowId
  tenantId : TenantId
  storedKeyId : RowId
  bunkerPublicKey : PublicKey
  secretHash : String
  policyId : RowId := 0
  connectedClientPubkey : Option PublicKey := none
  connectedAt : Option Timestamp := none
  revokedAt : Option Timestamp := none
  revokedReason : Option String := none
  expiresAt : Option Timestamp := none
  label : Option String := none
  deriving DecidableEq, Repr

/-- Neither revoked nor expired. No statement of the daemon asks this of a team row. -/
def Authorization.live (now : Timestamp) (a : Authorization) : Bool :=
  a.revokedAt.isNone && unexpired now a.expiresAt

/-- A row of `users`. The primary key is the public key alone, so a key has one tenant. -/
structure User where
  pubkey : PublicKey
  tenantId : TenantId
  email : Option String := none
  emailVerified : Bool := false
  passwordHash : Option String := none
  username : Option String := none
  vineId : Option String := none
  emailVerificationToken : Option String := none
  emailVerificationExpiresAt : Option Timestamp := none
  emailVerificationSentAt : Option Timestamp := none
  passwordResetToken : Option String := none
  passwordResetExpiresAt : Option Timestamp := none
  redirectUri : Option String := none
  createdAt : Timestamp := 0
  deriving DecidableEq, Repr

/-- A row of `personal_keys`. -/
structure PersonalKey where
  userPubkey : PublicKey
  tenantId : TenantId
  encryptedSecretKey : Bytes
  deriving DecidableEq, Repr

/-- A row of `account_claim_tokens`. -/
structure ClaimToken where
  token : String
  userPubkey : PublicKey
  tenantId : TenantId
  expiresAt : Timestamp
  usedAt : Option Timestamp := none
  deriving DecidableEq, Repr

/-- A row of `oauth_codes`: an authorization code, or a registration that waits for its email to be
verified. -/
structure OAuthCode where
  tenantId : TenantId
  code : String
  userPubkey : PublicKey
  clientId : String
  redirectUri : String
  scope : String
  codeChallenge : Option String := none
  codeChallengeMethod : Option String := none
  expiresAt : Timestamp
  pendingEmail : Option String := none
  pendingPasswordHash : Option String := none
  pendingEmailVerificationToken : Option String := none
  pendingEncryptedSecret : Option Bytes := none
  previousAuthId : Option RowId := none
  state : Option String := none
  deviceCode : Option String := none
  isHeadless : Bool := false
  deriving DecidableEq, Repr

/-- A row of `oauth_refresh_tokens`. -/
structure RefreshToken where
  tokenHash : String
  authorizationId : RowId
  tenantId : TenantId
  expiresAt : Timestamp
  consumedAt : Option Timestamp := none
  deriving DecidableEq, Repr

/-- `PURPOSE_SIGN_IN` and `PURPOSE_DELETE_ACCOUNT`. -/
inductive LinkPurpose
  | signIn
  | deleteAccount
  deriving DecidableEq, Repr

/-- A row of `magic_link_tokens`. -/
structure MagicLinkToken where
  tenantId : TenantId
  email : String
  tokenHash : String
  purpose : LinkPurpose
  appOrigin : String
  expiresAt : Timestamp
  consumedAt : Option Timestamp := none
  createdAt : Timestamp
  deriving DecidableEq, Repr

/-- A row of `teams`. -/
structure Team where
  id : RowId
  tenantId : TenantId
  deriving DecidableEq, Repr

inductive TeamUserRole
  | admin
  | member
  deriving DecidableEq, Repr

/-- A row of `team_users`. -/
structure TeamUser where
  teamId : RowId
  userPubkey : PublicKey
  role : TeamUserRole
  deriving DecidableEq, Repr

/-- A row of `team_invitations`. -/
structure TeamInvitation where
  id : RowId := 0
  teamId : RowId
  tenantId : TenantId
  email : String
  role : TeamUserRole
  token : String
  invitedBy : PublicKey
  expiresAt : Timestamp
  acceptedAt : Option Timestamp := none
  acceptedBy : Option PublicKey := none
  revokedAt : Option Timestamp := none
  deriving DecidableEq, Repr

/-- A row of `customer_deletion_notices`. -/
structure DeletionNotice where
  id : RowId
  tenantId : TenantId
  pubkey : PublicKey
  deletedAt : Timestamp
  attempts : Int := 0
  nextAttemptAt : Timestamp
  deriving DecidableEq, Repr

/-- A row of a table of which only the reference to its user matters: `email_verification_tokens`,
`password_reset_tokens`, `user_profiles`, and `atproto_oauth_sessions`, whose other columns are in
`Atproto/Session.lean`. -/
structure UserRef where
  id : String
  userPubkey : Option PublicKey
  deriving DecidableEq, Repr

/-- A row of `policies`. The built-in ones belong to no team. -/
structure Policy where
  id : RowId
  slug : Option String
  teamId : Option RowId := none
  name : String := ""
  deriving DecidableEq, Repr

/-- A row of `stored_keys`. -/
structure StoredKey where
  id : RowId
  tenantId : TenantId
  secretKey : Bytes
  teamId : Option RowId := none
  pubkey : PublicKey := ""
  deriving DecidableEq, Repr

/-- A row of `permissions`; the config is JSON in a text column. -/
structure PermissionRow where
  id : RowId
  identifier : String
  config : String
  deriving DecidableEq, Repr

/-- A row of `policy_permissions`. -/
structure PolicyPermission where
  policyId : RowId
  permissionId : RowId
  deriving DecidableEq, Repr

structure Db where
  users : List User := []
  oauthAuthorizations : List OAuthAuthorization := []
  authorizations : List Authorization := []
  personalKeys : List PersonalKey := []
  claimTokens : List ClaimToken := []
  oauthCodes : List OAuthCode := []
  refreshTokens : List RefreshToken := []
  magicLinkTokens : List MagicLinkToken := []
  policies : List Policy := []
  storedKeys : List StoredKey := []
  permissions : List PermissionRow := []
  policyPermissions : List PolicyPermission := []
  teams : List Team := []
  teamUsers : List TeamUser := []
  teamInvitations : List TeamInvitation := []
  deletionNotices : List DeletionNotice := []
  /-- The sequence behind `customer_deletion_notices.id`, which gives no number twice. -/
  noticeSeq : Int := 0
  emailVerificationTokens : List UserRef := []
  passwordResetTokens : List UserRef := []
  userProfiles : List UserRef := []
  atprotoSessions : List UserRef := []
  deriving DecidableEq, Repr

namespace Db

/-! ## Policies -/

/-- The rows `PolicyRepository::get_permissions` and both `permissions` methods select. The one of
team authorizations joins `policies` as well, which by the foreign key on `policy_id` drops
nothing. -/
def permissionRows (db : Db) (policyId : RowId) : List PermissionRow :=
  (db.policyPermissions.filter (·.policyId == policyId)).flatMap fun pp =>
    db.permissions.filter (·.id == pp.permissionId)

/-- The same rows decoded; `none` when some config is not JSON. -/
def getPermissions (ext : External) (db : Db) (policyId : RowId) : Option (List Permission) :=
  (db.permissionRows policyId).mapM fun r =>
    (ext.parseJson r.config).map fun config => ⟨r.id, r.identifier, config⟩

/-! ## Keys -/

/-- `SELECT encrypted_secret_key FROM personal_keys WHERE user_pubkey = $1 AND tenant_id = $2`. -/
def personalKey (db : Db) (user : PublicKey) (tenant : TenantId) : Option Bytes :=
  (db.personalKeys.find? fun k => k.userPubkey == user && k.tenantId == tenant).map
    (·.encryptedSecretKey)

/-- `PersonalKeysRepository::find_encrypted_key_for_tenant`: the tenant is that of the user. -/
def encryptedKeyForTenant (db : Db) (user : PublicKey) (tenant : TenantId) : Option Bytes :=
  (db.personalKeys.find? fun k =>
    k.userPubkey == user && db.users.any fun u => u.pubkey == k.userPubkey &&
      u.tenantId == tenant).map
      (·.encryptedSecretKey)

/-- `UserRepository::is_unclaimed`. -/
def isUnclaimed (db : Db) (user : PublicKey) (tenant : TenantId) : Option Bool :=
  (db.users.find? fun u => u.pubkey == user && u.tenantId == tenant).map (·.email.isNone)

/-- `SELECT secret_key FROM stored_keys WHERE id = $1 AND tenant_id = $2`. -/
def storedKey (db : Db) (id : RowId) (tenant : TenantId) : Option Bytes :=
  (db.storedKeys.find? fun k => k.id == id && k.tenantId == tenant).map (·.secretKey)

/-! ## OAuth authorizations -/

/-- `… WHERE bunker_public_key = $1`, revoked and expired rows included. -/
def oauthByBunker (db : Db) (bunker : PublicKey) : Option OAuthAuthorization :=
  db.oauthAuthorizations.find? (·.bunkerPublicKey == bunker)

/-- `OAuthAuthorization::find`. -/
def oauthFind (db : Db) (tenant : TenantId) (id : RowId) : Option OAuthAuthorization :=
  db.oauthAuthorizations.find? fun a => a.tenantId == tenant && a.id == id

def updateOAuth (db : Db) (p : OAuthAuthorization → Bool)
    (f : OAuthAuthorization → OAuthAuthorization) : Db :=
  { db with oauthAuthorizations := updateWhere p f db.oauthAuthorizations }

/-- `UPDATE oauth_authorizations SET connected_client_pubkey = $1, connected_at = NOW()
WHERE id = $2`. -/
def storeOAuthClient (db : Db) (now : Timestamp) (client : PublicKey) (id : RowId) : Db :=
  db.updateOAuth (·.id == id) fun a =>
    { a with connectedClientPubkey := some client, connectedAt := some now }

/-- `OAuthAuthorizationRepository::revoke`. -/
def revokeOAuth (db : Db) (now : Timestamp) (id : RowId) : Db :=
  db.updateOAuth (·.id == id) fun a => { a with revokedAt := some now }

/-- `user_pubkey IN (SELECT pubkey FROM users WHERE tenant_id = $3)`. -/
def userIn (db : Db) (user : PublicKey) (tenant : TenantId) : Bool :=
  db.users.any fun u => u.pubkey == user && u.tenantId == tenant

/-- `OAuthAuthorizationRepository::exists_active_for_bunker`. -/
def existsActiveForBunker (db : Db) (bunker user : PublicKey) (tenant : TenantId) : Bool :=
  db.oauthAuthorizations.any fun a =>
    a.bunkerPublicKey == bunker && a.userPubkey == user && a.revokedAt.isNone &&
      db.userIn a.userPubkey tenant

/-- `OAuthAuthorizationRepository::revoke_by_bunker_pubkey`. -/
def revokeOAuthByBunker (db : Db) (now : Timestamp) (bunker user : PublicKey)
    (tenant : TenantId) : Db :=
  db.updateOAuth
    (fun a => a.bunkerPublicKey == bunker && a.userPubkey == user && a.revokedAt.isNone &&
      db.userIn a.userPubkey tenant)
    fun a => { a with revokedAt := some now }

/-- `OAuthAuthorizationRepository::revoke_by_origin`. -/
def revokeOAuthByOrigin (db : Db) (now : Timestamp) (user : PublicKey) (origin : String)
    (tenant : TenantId) : Db :=
  db.updateOAuth
    (fun a => a.userPubkey == user && a.redirectOrigin == origin && a.tenantId == tenant &&
      a.revokedAt.isNone)
    fun a => { a with revokedAt := some now }

/-- `OAuthAuthorizationRepository::disconnect_client`. -/
def disconnectClient (db : Db) (bunker user : PublicKey) (tenant : TenantId) : Db :=
  db.updateOAuth
    (fun a => a.bunkerPublicKey == bunker && a.userPubkey == user && a.revokedAt.isNone &&
      db.userIn a.userPubkey tenant)
    fun a => { a with connectedClientPubkey := none, connectedAt := none }

/-- The refresh tokens that stay when the authorizations of a user are deleted. -/
def refreshTokensWithout (db : Db) (user : PublicKey) : List RefreshToken :=
  db.refreshTokens.filter fun t =>
    !db.oauthAuthorizations.any fun a => a.id == t.authorizationId && a.userPubkey == user

/-- Delete a user with what cascades from it; `UserRepository::delete_account` and, for the old
key, `change_key_transaction` do this much to the tables of the authorizations. -/
def deleteUser (db : Db) (user : PublicKey) : Db :=
  { db with
    users := db.users.filter (·.pubkey != user)
    oauthAuthorizations := db.oauthAuthorizations.filter (·.userPubkey != user)
    refreshTokens := db.refreshTokensWithout user
    personalKeys := db.personalKeys.filter (·.userPubkey != user)
    emailVerificationTokens := db.emailVerificationTokens.filter (·.userPubkey != some user)
    passwordResetTokens := db.passwordResetTokens.filter (·.userPubkey != some user)
    userProfiles := db.userProfiles.filter (·.userPubkey != some user)
    atprotoSessions := db.atprotoSessions.filter (·.userPubkey != some user) }

/-- A row whose foreign key on `users` has no `ON DELETE`. It does not go with its user, and while
it is there the user cannot go. -/
def referenced (db : Db) (user : PublicKey) : Bool :=
  db.teamUsers.any (·.userPubkey == user) || db.claimTokens.any (·.userPubkey == user)

/-- The bunker keys the daemon will derive for an authorization, from the keys stored now. -/
def bunkerKeys (ext : External) (db : Db) (row : OAuthAuthorization) : Option Keys :=
  (db.personalKey row.userPubkey row.tenantId).bind (ext.bunkerKeysFrom · row.secretHash)

/-- Insert an authorization the way every creation site does: decrypt the user's key, derive the
bunker key from it and the secret's hash, store its public half. Nothing is inserted when the id
is taken or the key cannot be had. -/
def createOAuth (ext : External) (db : Db) (row : OAuthAuthorization) : Db :=
  if db.oauthAuthorizations.any (·.id == row.id) then db
  else
    match db.bunkerKeys ext row with
    | none => db
    | some keys =>
      { db with oauthAuthorizations := db.oauthAuthorizations ++
          [{ row with
              bunkerPublicKey := ext.publicKey keys, connectedClientPubkey := none,
              connectedAt := none, revokedAt := none, expiresAt := none }] }

theorem createOAuth_personalKeys (ext : External) (db : Db) (row : OAuthAuthorization) :
    (db.createOAuth ext row).personalKeys = db.personalKeys := by
  unfold createOAuth
  split
  · rfl
  · split <;> rfl

/-- A created row is new, unrevoked, and carries the derived key. -/
theorem mem_createOAuth {ext : External} {db : Db} {row a : OAuthAuthorization}
    (h : a ∈ (db.createOAuth ext row).oauthAuthorizations) :
    a ∈ db.oauthAuthorizations ∨
      ∃ keys, db.bunkerKeys ext row = some keys ∧ a.userPubkey = row.userPubkey ∧
        a.tenantId = row.tenantId ∧ a.secretHash = row.secretHash ∧
        a.bunkerPublicKey = ext.publicKey keys := by
  unfold createOAuth at h
  split at h
  · exact .inl h
  · cases hk : db.bunkerKeys ext row with
    | none => rw [hk] at h; exact .inl h
    | some keys =>
      rw [hk] at h
      rcases List.mem_append.mp h with h | h
      · exact .inl h
      · rw [List.mem_singleton] at h
        subst h
        exact .inr ⟨keys, rfl, rfl, rfl, rfl, rfl⟩

/-! ## Team authorizations -/

/-- `… WHERE bunker_public_key = $1`, expired and revoked rows included. -/
def teamByBunker (db : Db) (bunker : PublicKey) : Option Authorization :=
  db.authorizations.find? (·.bunkerPublicKey == bunker)

/-- `Authorization::find`. -/
def teamFind (db : Db) (tenant : TenantId) (id : RowId) : Option Authorization :=
  db.authorizations.find? fun a => a.tenantId == tenant && a.id == id

def updateTeam (db : Db) (p : Authorization → Bool) (f : Authorization → Authorization) : Db :=
  { db with authorizations := updateWhere p f db.authorizations }

/-- `UPDATE authorizations SET connected_client_pubkey = $1, connected_at = NOW()
WHERE id = $2`. -/
def storeTeamClient (db : Db) (now : Timestamp) (client : PublicKey) (id : RowId) : Db :=
  db.updateTeam (·.id == id) fun a =>
    { a with connectedClientPubkey := some client, connectedAt := some now }

/-- `AuthorizationRepository::revoke`. The bunker key it returns only tells the caller which
`Remove` command to send, and that command is a step of its own here. -/
def revokeTeam (db : Db) (now : Timestamp) (tenant : TenantId) (id : RowId)
    (reason : Option String) : Db :=
  db.updateTeam (fun a => a.tenantId == tenant && a.id == id && a.revokedAt.isNone) fun a =>
    { a with revokedAt := some now, revokedReason := reason }

/-- `AuthorizationRepository::delete`. -/
def deleteTeam (db : Db) (tenant : TenantId) (id : RowId) : Db :=
  { db with authorizations :=
      db.authorizations.filter fun a => !(a.tenantId == tenant && a.id == id) }

/-- `AuthorizationRepository::create`, with the bunker key derived by its caller. -/
def createTeam (db : Db) (row : Authorization) : Db :=
  if db.authorizations.any (·.id == row.id) then db
  else { db with authorizations := db.authorizations ++ [row] }

end Db

end Keycast
