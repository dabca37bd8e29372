import Keycast.Core.OAuthCodes

/-!
# `Core/Grants.lean` — authorizations and refresh tokens

What the exchange of a code writes: `OAuthAuthorizationRepository` as far as it creates and finds
authorizations, and `core/src/repositories/refresh_token.rs`. An `INSERT` that a constraint refuses
gives `none`.
-/

set_option autoImplicit false

namespace Keycast

open Lib

namespace Db

/-! ## Authorizations -/

/-- `OAuthAuthorizationRepository::create`. The id is the next of a sequence; the user must exist,
and no active row has the same handle. -/
def insertOAuth (db : Db) (row : OAuthAuthorization) : Option Db :=
  if db.oauthAuthorizations.any (·.id == row.id) || !db.users.any (·.pubkey == row.userPubkey) ||
      (row.authorizationHandle.isSome && db.oauthAuthorizations.any fun a =>
        a.authorizationHandle == row.authorizationHandle && a.revokedAt.isNone) then none
  else some { db with oauthAuthorizations := db.oauthAuthorizations ++ [row] }

theorem insertOAuth_eq {db db' : Db} {row : OAuthAuthorization}
    (h : db.insertOAuth row = some db') :
    db' = { db with oauthAuthorizations := db.oauthAuthorizations ++ [row] } ∧
      ∀ a ∈ db.oauthAuthorizations, a.id ≠ row.id := by
  unfold insertOAuth at h
  split at h
  · cases h
  · next hno =>
    refine ⟨(Option.some.inj h).symm, fun a ha heq => hno ?_⟩
    rw [Bool.or_eq_true, Bool.or_eq_true]
    exact .inl (.inl (List.any_eq_true.mpr ⟨a, ha, by simpa using heq⟩))

/-- The rows the constraints accept. -/
structure AcceptsOAuth (db : Db) (row : OAuthAuthorization) : Prop where
  id : ∀ a ∈ db.oauthAuthorizations, a.id ≠ row.id
  user : ∃ u ∈ db.users, u.pubkey = row.userPubkey
  handle : row.authorizationHandle.isSome = true → ∀ a ∈ db.oauthAuthorizations,
    a.authorizationHandle = row.authorizationHandle → a.revokedAt.isSome = true

theorem insertOAuth_eq_some {db db' : Db} {row : OAuthAuthorization} :
    db.insertOAuth row = some db' ↔
      db.AcceptsOAuth row ∧
        { db with oauthAuthorizations := db.oauthAuthorizations ++ [row] } = db' := by
  unfold insertOAuth
  split
  · next hrefused =>
    refine iff_of_false nofun fun h => ?_
    obtain ⟨hid, ⟨u, hu, hpubkey⟩, hhandle⟩ := h.1
    simp only [Bool.or_eq_true, Bool.and_eq_true, List.any_eq_true, beq_iff_eq, Bool.not_eq_true',
      Option.isNone_iff_eq_none] at hrefused
    rcases hrefused with (⟨a, ha, heq⟩ | hnone) | ⟨hsome, a, ha, heq, hactive⟩
    · exact hid a ha heq
    · exact List.any_eq_false.mp hnone u hu (beq_iff_eq.mpr hpubkey)
    · have hrevoked := hhandle hsome a ha heq
      rw [hactive] at hrevoked
      cases hrevoked
  · next haccepted =>
    simp only [Bool.or_eq_true, Bool.and_eq_true, List.any_eq_true, beq_iff_eq, Bool.not_eq_true',
      Option.isNone_iff_eq_none, not_or, not_exists, not_and, Bool.not_eq_false] at haccepted
    obtain ⟨⟨hid, u, hu, hpubkey⟩, hhandle⟩ := haccepted
    rw [Option.some_inj]
    refine (and_iff_right ⟨fun a ha => hid a ha, ⟨u, hu, hpubkey⟩, fun hsome a ha heq => ?_⟩).symm
    exact Option.isSome_iff_ne_none.mpr (hhandle hsome a ha heq)

/-- `find_id_by_handle`. -/
def findIdByHandle (db : Db) (now : Timestamp) (handle : String) (user : PublicKey) :
    Option RowId :=
  (db.oauthAuthorizations.find? fun a =>
    a.authorizationHandle == some handle && a.userPubkey == user && a.live now &&
      decide (now < a.handleExpiresAt)).map (·.id)

/-- `has_active_for_origin`. -/
def hasActiveForOrigin (db : Db) (user : PublicKey) (origin : String) (tenant : TenantId) : Bool :=
  db.oauthAuthorizations.any fun a =>
    a.userPubkey == user && a.redirectOrigin == origin && a.tenantId == tenant && a.revokedAt.isNone

/-- `find_policy_id_by_origin`. The query has no `ORDER BY`: of several rows it is the one that
comes first. -/
def findPolicyIdByOrigin (db : Db) (now : Timestamp) (user : PublicKey) (origin : String)
    (tenant : TenantId) :
    Option (Option RowId) :=
  (db.oauthAuthorizations.find? fun a =>
    a.userPubkey == user && a.redirectOrigin == origin && a.tenantId == tenant &&
      a.live now).map (·.policyId)

/-- `find_latest_bunker_pubkey`. No other statement reads `created_at`, so it is given from
outside. -/
def findLatestBunkerPubkey (createdAt : RowId → Timestamp) (db : Db) (user : PublicKey)
    (tenant : TenantId) :
    Option PublicKey :=
  let active := db.oauthAuthorizations.filter fun a =>
    a.userPubkey == user && db.userIn a.userPubkey tenant && a.revokedAt.isNone
  (active.find? fun a => active.all fun b => createdAt b.id ≤ createdAt a.id).map
    (·.bunkerPublicKey)

/-! ## Refresh tokens -/

/-- `RefreshTokenRepository::create`. The hash is unique and the authorization exists. -/
def insertRefreshToken (db : Db) (t : RefreshToken) : Option Db :=
  if db.refreshTokens.any (·.tokenHash == t.tokenHash) ||
      !db.oauthAuthorizations.any (·.id == t.authorizationId) then none
  else some { db with refreshTokens := db.refreshTokens ++ [t] }

theorem insertRefreshToken_eq {db db' : Db} {t : RefreshToken}
    (h : db.insertRefreshToken t = some db') :
    db' = { db with refreshTokens := db.refreshTokens ++ [t] } ∧
      ∀ r ∈ db.refreshTokens, r.tokenHash ≠ t.tokenHash := by
  unfold insertRefreshToken at h
  split at h
  · cases h
  · next hno =>
    refine ⟨(Option.some.inj h).symm, fun r hr heq => hno ?_⟩
    rw [Bool.or_eq_true]
    exact .inl (List.any_eq_true.mpr ⟨r, hr, by simpa using heq⟩)

theorem insertRefreshToken_eq_some {db db' : Db} {t : RefreshToken} :
    db.insertRefreshToken t = some db' ↔
      ((∀ r ∈ db.refreshTokens, r.tokenHash ≠ t.tokenHash) ∧
        ∃ a ∈ db.oauthAuthorizations, a.id = t.authorizationId) ∧
      { db with refreshTokens := db.refreshTokens ++ [t] } = db' := by
  unfold insertRefreshToken
  by_cases hthere : ∃ a ∈ db.oauthAuthorizations, a.id = t.authorizationId
  · simp [hthere]
  · simp [hthere]

def updateRefreshTokens (db : Db) (p : RefreshToken → Bool) (now : Timestamp) : Db :=
  let consumed (t : RefreshToken) : RefreshToken := { t with consumedAt := some now }
  { db with refreshTokens := updateWhere p consumed db.refreshTokens }

/-- A row keeps its hash and its authorization when it is consumed. -/
theorem mem_updateRefreshTokens {db : Db} {p : RefreshToken → Bool} {now : Timestamp}
    {t : RefreshToken}
    (h : t ∈ (db.updateRefreshTokens p now).refreshTokens) :
    ∃ t₀ ∈ db.refreshTokens, t₀.tokenHash = t.tokenHash ∧
      t₀.authorizationId = t.authorizationId := by
  rcases mem_updateWhere.mp h with ⟨t₀, ht₀, -, rfl⟩ | ⟨ht, -⟩
  · exact ⟨t₀, ht₀, rfl, rfl⟩
  · exact ⟨t, ht, rfl, rfl⟩

/-- `RefreshTokenRepository::consume`: the row that was valid, now consumed. -/
def consumeRefreshToken (db : Db) (now : Timestamp) (hash : String) : Option RefreshToken × Db :=
  let valid (t : RefreshToken) :=
    t.tokenHash == hash && t.consumedAt.isNone && decide (now < t.expiresAt)
  (db.refreshTokens.find? valid, db.updateRefreshTokens valid now)

/-- `RefreshTokenRepository::revoke_for_authorization`. -/
def revokeRefreshTokens (db : Db) (now : Timestamp) (authorizationId : RowId) : Db :=
  db.updateRefreshTokens (fun t => t.authorizationId == authorizationId && t.consumedAt.isNone) now

/-- `RefreshTokenRepository::cleanup_old_tokens`. -/
def cleanupOldTokens (db : Db) (now : Timestamp) (daysOld : Int) : Db :=
  let cutoff := now - hours (daysOld * 24)
  let old (t : RefreshToken) :=
    t.consumedAt.any (fun c => decide (c < cutoff)) || decide (t.expiresAt < cutoff)
  { db with refreshTokens := db.refreshTokens.filter fun t => !old t }

/-! ## Registrations that the exchange completes -/

/-- `UserRepository::finalize_oauth_registration`. -/
def finalizeOAuthRegistration (db : Db) (user : User) (encryptedSecret : Bytes) (code : String) :
    Option Db :=
  (db.insertUser user).map fun db =>
    (db.insertPersonalKey ⟨user.pubkey, user.tenantId, encryptedSecret⟩).deleteCode
      user.tenantId code

end Db

end Keycast
