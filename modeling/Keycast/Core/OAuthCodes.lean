import Keycast.Core.Accounts

/-!
# `Core/OAuthCodes.lean` — authorization codes

`core/src/repositories/oauth_code.rs`, and the lookups of `policy.rs`. One table holds two kinds of
rows: codes to be exchanged, and registrations whose email is still to be verified. The second kind
has the `pending_*` columns set, and its code is never told to anyone.
-/

set_option autoImplicit false

namespace Keycast

open Lib

namespace Db

/-- Both `store` and `store_with_pending_registration`, which differ in the columns they set. The
code is the primary key. -/
def storeOAuthCode (db : Db) (c : OAuthCode) : Option Db :=
  if db.oauthCodes.any (·.code == c.code) then none
  else some { db with oauthCodes := db.oauthCodes ++ [c] }

/-- `OAuthCodeRepository::find_valid`. -/
def findValidCode (db : Db) (now : Timestamp) (tenant : TenantId) (code : String) :
    Option OAuthCode :=
  db.oauthCodes.find? fun c =>
    c.tenantId == tenant && c.code == code && decide (now < c.expiresAt)

/-- `OAuthCodeRepository::find_by_verification_token`. -/
def findPendingByToken (db : Db) (now : Timestamp) (token : String) (tenant : TenantId) :
    Option OAuthCode :=
  db.oauthCodes.find? fun c =>
    c.pendingEmailVerificationToken == some token && c.tenantId == tenant &&
      decide (now < c.expiresAt)

/-- `OAuthCodeRepository::delete_by_verification_token`. -/
def deletePendingByToken (db : Db) (token : String) (tenant : TenantId) : Db :=
  { db with
    oauthCodes := db.oauthCodes.filter fun c =>
      !(c.pendingEmailVerificationToken == some token && c.tenantId == tenant) }

/-- `OAuthCodeRepository::delete`. -/
def deleteCode (db : Db) (tenant : TenantId) (code : String) : Db :=
  { db with oauthCodes := db.oauthCodes.filter fun c => !(c.tenantId == tenant && c.code == code) }

/-- `PolicyRepository::find_by_slug` and `find_id_by_slug`. -/
def findPolicyBySlug (db : Db) (slug : String) : Option Policy :=
  db.policies.find? (·.slug == some slug)

/-! ## Users by email and by verification token -/

def findPubkeyByEmail (db : Db) (email : String) (tenant : TenantId) : Option PublicKey :=
  (db.users.find? fun u => u.email == some email && u.tenantId == tenant).map (·.pubkey)

/-- `UserRepository::find_by_verification_token`. -/
def findUserByVerificationToken (db : Db) (token : String) (tenant : TenantId) : Option User :=
  db.users.find? fun u => u.emailVerificationToken == some token && u.tenantId == tenant

/-- `UserRepository::get_email`. Without a row it fails in one way, with a `NULL` in another. -/
def getEmail (db : Db) (pubkey : PublicKey) (tenant : TenantId) : Option (Option String) :=
  (db.users.find? fun u => u.pubkey == pubkey && u.tenantId == tenant).map (·.email)

/-- `UserRepository::verify_email`. -/
def markEmailVerified (db : Db) (pubkey : PublicKey) (tenant : TenantId) : Db :=
  let verified (u : User) : User := { u with emailVerified := true }
  { db with
    users := updateWhere (fun u => u.pubkey == pubkey && u.tenantId == tenant) verified db.users }

end Db

end Keycast
