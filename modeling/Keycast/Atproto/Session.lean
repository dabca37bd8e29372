import Keycast.Core.External
import Keycast.Lib.Table

/-!
# `Atproto/Session.lean` — the session table of the ATProto provider

`core/src/repositories/atproto_oauth_session.rs`, and the one query on `users` that `authorize`
makes. A session is created by a pushed authorization request and goes through approval, code,
tokens and refreshes in one row. Each function is one SQL statement. One that would break a `UNIQUE`
constraint gives `none` and changes nothing; `RETURNING *` is the `Option` of a row.
-/

set_option autoImplicit false

namespace Keycast.Atproto

open Lib

abbrev Did := String

inductive LinkState
  | pending
  | ready
  | disabled
  deriving DecidableEq, Repr

/-- A row of `users`, as far as ATProto is concerned. -/
structure Identity where
  pubkey : PublicKey
  tenantId : TenantId
  enabled : Bool
  state : Option LinkState
  did : Option Did
  deriving DecidableEq, Repr

/-- A row of `atproto_oauth_sessions`. -/
structure Session where
  tenantId : TenantId
  clientId : String
  redirectUri : String
  scope : String
  state : Option String
  codeChallenge : Option String
  codeChallengeMethod : Option String
  requestUri : String
  parExpiresAt : Timestamp
  userPubkey : Option PublicKey := none
  atprotoDid : Option Did := none
  approvedAt : Option Timestamp := none
  authorizationCode : Option String := none
  authorizationCodeExpiresAt : Option Timestamp := none
  accessTokenJti : Option String := none
  accessTokenExpiresAt : Option Timestamp := none
  refreshTokenHash : Option String := none
  refreshTokenExpiresAt : Option Timestamp := none
  refreshTokenRevokedAt : Option Timestamp := none
  revokedAt : Option Timestamp := none
  dpopJkt : Option String
  dpopNonce : Option String
  clientAuthMethod : String
  clientAuthAlg : Option String
  clientAuthKid : Option String
  clientAuthJkt : Option String

structure State where
  identities : List Identity := []
  sessions : List Session := []
  now : Timestamp := 0

/-- The values `token` writes, as `IssueAtprotoTokensParams` has them. -/
structure IssueTokens where
  authorizationCode : String
  authorizationCodeExpiresAt : Timestamp
  accessTokenJti : String
  accessTokenExpiresAt : Timestamp
  refreshTokenHash : String
  refreshTokenExpiresAt : Timestamp
  dpopJkt : Option String
  dpopNonce : Option String
  deriving DecidableEq, Repr

/-- `t > NOW()`, which is not true of a `NULL`. -/
def after (now : Timestamp) (t : Option Timestamp) : Bool := t.any fun t => decide (now < t)

/-- The `UNIQUE` columns. -/
def uniqueColumns (rows : List Session) : Bool :=
  decide (rows.map (·.requestUri)).Nodup && decide (rows.filterMap (·.authorizationCode)).Nodup &&
    decide (rows.filterMap (·.accessTokenJti)).Nodup &&
    decide (rows.filterMap (·.refreshTokenHash)).Nodup

namespace State

def withSessions (s : State) (sessions : List Session) : State := { s with sessions }

@[simp] theorem withSessions_sessions (s : State) (rows : List Session) :
    (s.withSessions rows).sessions = rows := rfl

/-- `UPDATE … WHERE p RETURNING *` of columns that are not unique. -/
def update (s : State) (p : Session → Bool) (f : Session → Session) : Option Session × State :=
  ((s.sessions.find? p).map f, s.withSessions (updateWhere p f s.sessions))

/-- The same where the new rows may clash. -/
def updateUnique (s : State) (p : Session → Bool) (f : Session → Session) :
    Option (Option Session × State) :=
  if uniqueColumns (updateWhere p f s.sessions) then some (s.update p f) else none

/-! ## Queries -/

def findByRequestUri (s : State) (uri : String) : Option Session :=
  s.sessions.find? fun r => r.requestUri == uri && r.revokedAt.isNone

/-- `find_by_authorization_code`. -/
def findByCode (s : State) (code : String) : Option Session :=
  s.sessions.find? fun r =>
    r.authorizationCode == some code && r.revokedAt.isNone &&
      after s.now r.authorizationCodeExpiresAt

/-- `find_by_refresh_token_hash`. -/
def findByRefreshHash (s : State) (hash : String) : Option Session :=
  s.sessions.find? fun r =>
    r.refreshTokenHash == some hash && r.revokedAt.isNone && r.refreshTokenRevokedAt.isNone &&
      after s.now r.refreshTokenExpiresAt

/-- `ready_atproto_identity`. -/
def readyIdentity (s : State) (tenant : TenantId) (user : PublicKey) : Option Did :=
  (s.identities.find? fun i =>
    i.tenantId == tenant && i.pubkey == user && i.enabled && i.state == some .ready &&
      i.did.isSome).bind (·.did)

/-! ## Updates -/

def createPar (s : State) (row : Session) : Option State :=
  if uniqueColumns (s.sessions ++ [row]) then some (s.withSessions (s.sessions ++ [row])) else none

/-- `approve_request`. Whether the request is approved already is not asked. -/
def approveRequest (s : State) (uri : String) (user : PublicKey) (did : Did) :
    Option Session × State :=
  s.update (fun r => r.requestUri == uri && r.revokedAt.isNone) fun r =>
    { r with userPubkey := some user, atprotoDid := some did, approvedAt := some s.now }

def storeAuthorizationCode (s : State) (uri code : String) (expiresAt : Timestamp) :
    Option (Option Session × State) :=
  s.updateUnique (fun r => r.requestUri == uri && r.revokedAt.isNone) fun r =>
    { r with authorizationCode := some code, authorizationCodeExpiresAt := some expiresAt }

def consumeAuthorizationCode (s : State) (code : String) : Option Session × State :=
  s.update
    (fun r => r.authorizationCode == some code && r.revokedAt.isNone &&
      after s.now r.authorizationCodeExpiresAt)
    fun r => { r with authorizationCode := none, authorizationCodeExpiresAt := none }

def storeTokenArtifacts (s : State) (uri : String) (p : IssueTokens) :
    Option (Option Session × State) :=
  s.updateUnique (fun r => r.requestUri == uri && r.revokedAt.isNone) fun r =>
    { r with
      authorizationCode := some p.authorizationCode
      authorizationCodeExpiresAt := some p.authorizationCodeExpiresAt
      accessTokenJti := some p.accessTokenJti
      accessTokenExpiresAt := some p.accessTokenExpiresAt
      refreshTokenHash := some p.refreshTokenHash
      refreshTokenExpiresAt := some p.refreshTokenExpiresAt
      dpopJkt := p.dpopJkt
      dpopNonce := p.dpopNonce }

def rotateRefreshToken (s : State) (uri previous : String) (p : IssueTokens) :
    Option (Option Session × State) :=
  s.updateUnique
    (fun r => r.requestUri == uri && r.refreshTokenHash == some previous && r.revokedAt.isNone &&
      r.refreshTokenRevokedAt.isNone && after s.now r.refreshTokenExpiresAt)
    fun r =>
      { r with
        accessTokenJti := some p.accessTokenJti
        accessTokenExpiresAt := some p.accessTokenExpiresAt
        refreshTokenHash := some p.refreshTokenHash
        refreshTokenExpiresAt := some p.refreshTokenExpiresAt
        dpopJkt := p.dpopJkt
        dpopNonce := p.dpopNonce }

/-- What both ways to revoke a whole session set. -/
def markRevoked (now : Timestamp) (r : Session) : Session :=
  { r with
    refreshTokenRevokedAt :=
      if r.refreshTokenHash.isSome then some (r.refreshTokenRevokedAt.getD now)
      else r.refreshTokenRevokedAt
    revokedAt := some (r.revokedAt.getD now) }

def revokeSession (s : State) (uri : String) : State :=
  (s.update (·.requestUri == uri) (markRevoked s.now)).2

def revokeRefreshSession (s : State) (hash : String) : State :=
  (s.update (fun r => r.refreshTokenHash == some hash && r.refreshTokenRevokedAt.isNone) fun r =>
    { r with refreshTokenRevokedAt := some s.now, revokedAt := some (r.revokedAt.getD s.now) }).2

/-- `revoke_refresh_sessions_for_user`. -/
def revokeSessionsForUser (s : State) (tenant : TenantId) (user : PublicKey) : State :=
  (s.update (fun r => r.tenantId == tenant && r.userPubkey == some user && r.revokedAt.isNone)
    (markRevoked s.now)).2

end State

end Keycast.Atproto
