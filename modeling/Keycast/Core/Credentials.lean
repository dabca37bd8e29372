import Keycast.Core.OAuthCodes

/-!
# `Core/Credentials.lean` — emails, passwords and sign-in links

The statements of `core/src/repositories/user.rs` that write an email, a password or one of the
tokens that prove an email, and `magic_link_token.rs` with its table. The cleanup task of
`api/src/bcrypt_queue.rs` deletes from both.
-/

set_option autoImplicit false

namespace Keycast

open Lib

namespace Db

/-- The primary key, as far as the `WHERE` of an update goes. -/
def isUser (pubkey : PublicKey) (tenant : TenantId) (u : User) : Bool :=
  u.pubkey == pubkey && u.tenantId == tenant

def updateUsers (db : Db) (p : User → Bool) (f : User → User) : Db :=
  { db with users := updateWhere p f db.users }

/-! ## Registration -/

/-- `UserRepository::register_with_personal_key`. -/
def registerWithPersonalKey (db : Db) (now : Timestamp) (pubkey : PublicKey) (tenant : TenantId)
    (email : String) (passwordHash : Option String) (verificationToken : String)
    (verificationExpiresAt : Timestamp) (encryptedSecret : Bytes) (redirectUri : Option String) :
    Option Db :=
  (db.insertUser
      { pubkey, tenantId := tenant, email := some email, passwordHash, emailVerified := false,
        emailVerificationToken := some verificationToken,
        emailVerificationExpiresAt :=
          some verificationExpiresAt, redirectUri, createdAt := now }).map
    (·.insertPersonalKey ⟨pubkey, tenant, encryptedSecret⟩)

/-- `DELETE FROM personal_keys WHERE user_pubkey = $1 AND tenant_id = $2`. -/
def deletePersonalKey (db : Db) (pubkey : PublicKey) (tenant : TenantId) : Db :=
  { db with
    personalKeys :=
      db.personalKeys.filter fun k => !(k.userPubkey == pubkey && k.tenantId == tenant) }

/-- `UserRepository::find_or_create_passwordless`: the account's key. The email decides; a key that
is taken by another account fails. -/
def findOrCreatePasswordless (db : Db) (now : Timestamp) (pubkey : PublicKey) (tenant : TenantId)
    (email : String) (encryptedSecret : Bytes) : Option (PublicKey × Db) :=
  match db.findPubkeyByEmail email tenant with
  | some existing => some (existing, db)
  | none =>
    (db.insertUser
        { pubkey, tenantId := tenant, email := some email, emailVerified := true,
          createdAt := now }).map
      fun db => (pubkey, db.insertPersonalKey ⟨pubkey, tenant, encryptedSecret⟩)

/-- An account with the address is found, or a new one is inserted with its key. -/
theorem findOrCreatePasswordless_eq {db db' : Db} {now : Timestamp} {pubkey user : PublicKey}
    {tenant : TenantId}
    {email : String} {secret : Bytes}
    (h : db.findOrCreatePasswordless now pubkey tenant email secret = some (user, db')) :
    (db.findPubkeyByEmail email tenant = some user ∧ db' = db) ∨
    (db.findPubkeyByEmail email tenant = none ∧ user = pubkey ∧
      (∀ r ∈ db.users, r.pubkey ≠ pubkey) ∧
      db' = { db with
        users := db.users ++
          [{ pubkey, tenantId := tenant, email := some email, emailVerified := true,
             createdAt := now }]
        personalKeys := db.personalKeys ++ [⟨pubkey, tenant, secret⟩] }) := by
  unfold findOrCreatePasswordless at h
  split at h
  · next existing hfound =>
    cases h
    exact .inl ⟨hfound, rfl⟩
  · next hnone =>
    obtain ⟨db₁, hinsert, heq⟩ := Option.map_eq_some_iff.mp h
    cases heq
    obtain ⟨rfl, hnew⟩ := insertUser_eq hinsert
    exact .inr ⟨hnone, rfl, hnew, rfl⟩

/-! ## Verification -/

/-- `UserRepository::get_verification_status`: email, flag and time of the last mail. A `NULL` email
does not decode, which its caller treats as no row. -/
def getVerificationStatus (db : Db) (pubkey : PublicKey) (tenant : TenantId) :
    Option (String × Bool × Option Timestamp) := do
  let u ← db.users.find? (isUser pubkey tenant)
  let email ← u.email
  return (email, u.emailVerified, u.emailVerificationSentAt)

/-- `UserRepository::get_verification_status_by_email`. -/
def getVerificationStatusByEmail (db : Db) (email : String) (tenant : TenantId) :
    Option (PublicKey × Bool × Option Timestamp) :=
  (db.users.find? fun u => u.email == some email && u.tenantId == tenant).map
    fun u => (u.pubkey, u.emailVerified, u.emailVerificationSentAt)

/-- `UserRepository::set_verification_token`. -/
def setVerificationToken (db : Db) (now : Timestamp) (pubkey : PublicKey) (tenant : TenantId)
    (token : String) (expiresAt : Timestamp) : Db :=
  db.updateUsers (isUser pubkey tenant) fun u =>
    { u with emailVerificationToken := some token, emailVerificationExpiresAt := some expiresAt,
             emailVerificationSentAt := some now }

/-! ## Passwords -/

/-- The `UPDATE` of the bcrypt worker, which finds the row by its verification token. -/
def setPasswordHash (db : Db) (token passwordHash : String) : Db :=
  db.updateUsers (·.emailVerificationToken == some token) fun u =>
    { u with passwordHash := some passwordHash }

/-- `UserRepository::set_password_reset_token`. -/
def setPasswordResetToken (db : Db) (pubkey : PublicKey) (tenant : TenantId) (token : String)
    (expiresAt : Timestamp) : Db :=
  db.updateUsers (isUser pubkey tenant) fun u =>
    { u with passwordResetToken := some token, passwordResetExpiresAt := some expiresAt }

/-- `UserRepository::find_by_reset_token`. -/
def findByResetToken (db : Db) (token : String) (tenant : TenantId) :
    Option (PublicKey × Option Timestamp) :=
  (db.users.find? fun u => u.passwordResetToken == some token && u.tenantId == tenant).map
    fun u => (u.pubkey, u.passwordResetExpiresAt)

/-- `UserRepository::reset_password`: whoever holds the reset token has the mailbox. -/
def resetPassword (db : Db) (pubkey : PublicKey) (tenant : TenantId) (passwordHash : String) : Db :=
  db.updateUsers (isUser pubkey tenant) fun u =>
    { u with
      passwordHash := some passwordHash, passwordResetToken := none, passwordResetExpiresAt := none,
      emailVerified := true, emailVerificationToken := none, emailVerificationExpiresAt := none }

/-- `UserRepository::update_password`. -/
def updatePassword (db : Db) (pubkey : PublicKey) (tenant : TenantId)
    (passwordHash : String) : Db :=
  db.updateUsers (isUser pubkey tenant) fun u => { u with passwordHash := some passwordHash }

/-! ## Links -/

/-- `CLAIM_TOKEN_EXPIRY_DAYS`. -/
def claimTokenExpiryDays : Int := 7

/-- `ClaimTokenRepository::create`. The token is unique and the user exists. -/
def createClaimToken (db : Db) (now : Timestamp) (token : String) (pubkey : PublicKey)
    (tenant : TenantId) : Option Db :=
  if db.claimTokens.any (·.token == token) || !db.users.any (·.pubkey == pubkey) then none
  else some { db with claimTokens := db.claimTokens ++
    [{ token, userPubkey := pubkey, tenantId := tenant,
       expiresAt := now + hours (claimTokenExpiryDays * 24) }] }

/-- `MagicLinkTokenRepository::create`; the hash is unique. -/
def createMagicLink (db : Db) (link : MagicLinkToken) : Option Db :=
  if db.magicLinkTokens.any (·.tokenHash == link.tokenHash) then none
  else some { db with magicLinkTokens := db.magicLinkTokens ++ [link] }

/-- `MagicLinkTokenRepository::consume`: the link that was valid, now consumed. -/
def consumeMagicLink (db : Db) (now : Timestamp) (hash : String) (tenant : TenantId) :
    Option MagicLinkToken × Db :=
  let valid (l : MagicLinkToken) :=
    l.tokenHash == hash && l.tenantId == tenant && l.consumedAt.isNone && decide (now < l.expiresAt)
  let consumed (l : MagicLinkToken) : MagicLinkToken := { l with consumedAt := some now }
  (db.magicLinkTokens.find? valid,
    { db with magicLinkTokens := updateWhere valid consumed db.magicLinkTokens })

/-- `MagicLinkTokenRepository::count_recent`. -/
def countRecentLinks (db : Db) (tenant : TenantId) (email : String) (since : Timestamp) : Nat :=
  db.magicLinkTokens.countP fun l =>
    l.tenantId == tenant && l.email == email && decide (since ≤ l.createdAt)

/-! ## The cleanup task -/

/-- `STALE_SIGNUP_CONDITION`. -/
def staleSignup (now : Timestamp) (u : User) : Bool :=
  u.passwordHash.isNone && u.vineId.isNone && u.email.isSome && u.emailVerificationToken.isSome &&
    decide (u.createdAt < now - seconds 600)

/-- `DELETE FROM users WHERE` stale, in one statement: a row that cannot go keeps the others too. -/
def deleteStaleSignups (db : Db) (now : Timestamp) : Db :=
  let stale := (db.users.filter (staleSignup now)).map (·.pubkey)
  if stale.any db.referenced then db else stale.foldl deleteUser db

theorem foldl_deleteUser_users (gone : List PublicKey) (db : Db) :
    (gone.foldl deleteUser db).users = db.users.filter fun u => !gone.contains u.pubkey := by
  induction gone generalizing db with
  | nil => simp
  | cons user gone ih =>
    rw [List.foldl_cons, ih]
    show (db.users.filter _).filter _ = _
    rw [List.filter_filter]
    refine List.filter_congr fun u _ => ?_
    rw [List.contains_cons, Bool.not_or, Bool.and_comm]
    rfl

/-- A row goes when a row with its key is stale. -/
theorem deleteStaleSignups_users (db : Db) (now : Timestamp) :
    (db.deleteStaleSignups now).users = db.users ∨ (db.deleteStaleSignups now).users =
      db.users.filter fun u =>
        !((db.users.filter (staleSignup now)).map (·.pubkey)).contains u.pubkey := by
  unfold deleteStaleSignups
  dsimp only
  split
  · exact .inl rfl
  · exact .inr (foldl_deleteUser_users _ db)

/-- One round of `spawn_cleanup_task`: stale signups, and links that are more than a day old. -/
def cleanup (db : Db) (now : Timestamp) : Db :=
  { db.deleteStaleSignups now with
    magicLinkTokens := db.magicLinkTokens.filter fun l => !decide (l.createdAt < now - hours 24) }

end Db

end Keycast
