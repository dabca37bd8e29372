import Keycast.Core.Db
import Keycast.Lib.Cache
import Keycast.Lib.Prog

/-!
# `Signer/Handler.lean` — the NIP-46 handler of one authorization

`signer/src/signer_daemon.rs`, the part about a single `Nip46Handler`: its status, the client
gate (`process_connect`, `validate_and_store_client`) and the policy checks.

A handler is a snapshot of an authorization row together with the decrypted keys. It lives in a
cache and goes stale there, so every method that must not trust the snapshot goes back to the
database, and each of those trips is one atomic statement of the program. `Stmt` names them.

A database that fails in the middle of a request ends the request with an error; since an
interleaving may leave a thread unfinished forever, that needs no case of its own.
-/

set_option autoImplicit false

namespace Keycast.Signer

open Lib

inductive SignerError
  | database (e : String)
  | authorization (e : String)
  | encryption (e : String)
  | invalidKey (e : String)
  | permissionDenied (e : String)
  | invalidPermission (identifier : String) (e : PermissionError)
  | nip04 (e : String)
  | nip44 (e : String)
  | eventBuilder (e : String)
  | client (e : String)
  | json
  | tagParse
  | missingParameter (name : String)
  | panicked
  deriving DecidableEq, Repr

/-- `sqlx::Error::RowNotFound`. -/
def rowNotFound : String :=
  "no rows returned by a query that expected to return at least one row"

/-- The `Display` text of an error. Of an invalid permission only the part that does not come from
`serde` is given. -/
def SignerError.text : SignerError → String
  | database e => "Database error: " ++ e
  | authorization e => "Authorization error: Database error: " ++ e
  | encryption e => "Encryption error: " ++ e
  | invalidKey e => "Invalid key: " ++ e
  | permissionDenied e => "Permission denied: " ++ e
  | invalidPermission identifier _ =>
    "Invalid permission config: Failed to convert permission '" ++ identifier ++ "'"
  | nip04 e => "NIP-04 error: " ++ e
  | nip44 e => "NIP-44 error: " ++ e
  | eventBuilder e => "Event builder error: " ++ e
  | client e => "Client error: " ++ e
  | json => "JSON error"
  | tagParse => "Tag parse error"
  | missingParameter name => "Missing parameter: " ++ name
  | panicked => "internal error: entered unreachable code"

inductive HandlerStatus
  | active
  | revoked
  | expired
  deriving DecidableEq, Repr

structure Nip46Handler where
  bunkerKeys : Keys
  userKeys : Keys
  secretHash : String
  authorizationId : RowId
  tenantId : TenantId
  isOauth : Bool
  status : HandlerStatus := .active
  tombstoneAt : Option Timestamp := none
  deriving DecidableEq, Repr

/-- What the requests share: the database, its clock, and the daemon's handler cache, keyed by
bunker public key. -/
structure State where
  db : Db
  now : Timestamp
  handlers : Cache PublicKey Nip46Handler

/-- The atomic statements of the daemon. -/
inductive Stmt
  | cacheGet (bunker : PublicKey)
  | cacheInsert (bunker : PublicKey)
  | cacheIter
  | cacheInvalidate (bunker : PublicKey)
  /-- `Utc::now()` in the daemon, as opposed to `NOW()` inside a query. -/
  | clock
  | selectOAuth (bunker : PublicKey)
  | selectTeam (bunker : PublicKey)
  | selectPersonalKey
  | selectStoredKey
  | findAuthorization
  | selectPermissions
  /-- The `SELECT` of `process_connect`. -/
  | selectConnected (isOauth : Bool) (id : RowId)
  /-- The first `SELECT` of `validate_and_store_client`. -/
  | existsConnected (isOauth : Bool) (bunker client : PublicKey)
  /-- Its second `SELECT`. -/
  | selectUnconnected (isOauth : Bool) (bunker : PublicKey)
  /-- The `UPDATE` of either. -/
  | storeClient (isOauth : Bool) (id : RowId) (client : PublicKey)
  deriving DecidableEq, Repr

abbrev SignerM := Prog Stmt State SignerError

namespace State

/-- `SELECT connected_client_pubkey … WHERE id = $1 AND tenant_id = $2 AND …`, flattened. The
team query has no `revoked_at` condition. -/
def connectedClient (s : State) (isOauth : Bool) (id : RowId) (tenant : TenantId) :
    Option PublicKey :=
  if isOauth then
    (s.db.oauthAuthorizations.find? fun a =>
      a.id == id && a.tenantId == tenant && a.live s.now).bind (·.connectedClientPubkey)
  else
    (s.db.authorizations.find? fun a =>
      a.id == id && a.tenantId == tenant && unexpired s.now a.expiresAt).bind
        (·.connectedClientPubkey)

/-- `SELECT EXISTS(… WHERE bunker_public_key = $1 AND connected_client_pubkey = $2 AND …)`. -/
def existsConnected (s : State) (isOauth : Bool) (bunker client : PublicKey) : Bool :=
  if isOauth then
    s.db.oauthAuthorizations.any fun a =>
      a.bunkerPublicKey == bunker && a.connectedClientPubkey == some client && a.live s.now
  else
    s.db.authorizations.any fun a =>
      a.bunkerPublicKey == bunker && a.connectedClientPubkey == some client &&
        unexpired s.now a.expiresAt

/-- `SELECT id … WHERE bunker_public_key = $1 AND connected_client_pubkey IS NULL AND … LIMIT 1`. -/
def unconnected (s : State) (isOauth : Bool) (bunker : PublicKey) : Option RowId :=
  if isOauth then
    (s.db.oauthAuthorizations.find? fun a =>
      a.bunkerPublicKey == bunker && a.connectedClientPubkey.isNone && a.live s.now).map (·.id)
  else
    (s.db.authorizations.find? fun a =>
      a.bunkerPublicKey == bunker && a.connectedClientPubkey.isNone &&
        unexpired s.now a.expiresAt).map (·.id)

def storeClient (s : State) (isOauth : Bool) (id : RowId) (client : PublicKey) : State :=
  { s with db := if isOauth then s.db.storeOAuthClient s.now client id
                 else s.db.storeTeamClient s.now client id }

def cacheInsert (s : State) (bunker : PublicKey) (h : Nip46Handler) : State :=
  { s with handlers := s.handlers.insert bunker h }

def cacheInvalidate (s : State) (bunker : PublicKey) : State :=
  { s with handlers := s.handlers.invalidate bunker }

@[simp] theorem storeClient_now (s : State) (o : Bool) (id : RowId) (c : PublicKey) :
    (s.storeClient o id c).now = s.now := rfl
@[simp] theorem storeClient_handlers (s : State) (o : Bool) (id : RowId) (c : PublicKey) :
    (s.storeClient o id c).handlers = s.handlers := rfl
@[simp] theorem cacheInsert_db (s : State) (k : PublicKey) (h : Nip46Handler) :
    (s.cacheInsert k h).db = s.db := rfl
@[simp] theorem cacheInsert_now (s : State) (k : PublicKey) (h : Nip46Handler) :
    (s.cacheInsert k h).now = s.now := rfl
@[simp] theorem cacheInvalidate_db (s : State) (k : PublicKey) :
    (s.cacheInvalidate k).db = s.db := rfl
@[simp] theorem cacheInvalidate_now (s : State) (k : PublicKey) :
    (s.cacheInvalidate k).now = s.now := rfl

end State

namespace Nip46Handler

def tombstoneErrorMessage (h : Nip46Handler) : Option String :=
  match h.status with
  | .active => none
  | .revoked => some "Authorization has been revoked"
  | .expired => some "Authorization has expired"

theorem tombstoneErrorMessage_eq_none {h : Nip46Handler} :
    h.tombstoneErrorMessage = none ↔ h.status = .active := by
  cases hs : h.status <;> simp [tombstoneErrorMessage, hs]

/-- `compute_status_from_oauth`, with the clock it reads as an argument. -/
def computeStatusFromOAuth (now : Timestamp) (a : OAuthAuthorization) :
    HandlerStatus × Option Timestamp :=
  if a.revokedAt.isSome then (.revoked, a.revokedAt)
  else
    match a.expiresAt with
    | some t => if t ≤ now then (.expired, some t) else (.active, none)
    | none => (.active, none)

/-- The status the on-demand loader gives a team authorization: `expires_at` decides alone. -/
def computeStatusFromTeam (now : Timestamp) (a : Authorization) :
    HandlerStatus × Option Timestamp :=
  match a.expiresAt with
  | some t => if t ≤ now then (.expired, some t) else (.active, none)
  | none => (.active, none)

/-! ## Policy checks -/

/-- Convert the rows of a policy; the first row that does not convert is an error. -/
def convertPermissions (ext : External) (rows : List Permission) :
    Except SignerError (List CustomPermission) :=
  rows.mapM fun p => (p.toCustomPermission ext).mapError (.invalidPermission p.identifier)

/-- The rows of the authorization's policy, as the database has them now. -/
def policyPermissions (ext : External) (h : Nip46Handler) : SignerM (List Permission) := do
  if h.isOauth then
    let auth ← .read .findAuthorization fun s => s.db.oauthFind h.tenantId h.authorizationId
    let auth ← .orErr auth (.authorization rowNotFound)
    match auth.policyId with
    | none => return []
    | some policyId =>
      let rows ← .read .selectPermissions fun s => s.db.getPermissions ext policyId
      .orErr rows (.authorization "decode")
  else
    let auth ← .read .findAuthorization fun s => s.db.teamFind h.tenantId h.authorizationId
    let auth ← .orErr auth (.authorization rowNotFound)
    let rows ← .read .selectPermissions fun s => s.db.getPermissions ext auth.policyId
    .orErr rows (.authorization "decode")

def loadPermissions (ext : External) (h : Nip46Handler) : SignerM (List CustomPermission) := do
  let rows ← policyPermissions ext h
  .ofExcept (convertPermissions ext rows)

/-- The loop over the permissions that `validate_permissions_for_sign`, `…_for_encrypt` and
`…_for_decrypt` share: the first that refuses names itself in the error. -/
def checkAll (allows : CustomPermission → Bool) : List CustomPermission → Except SignerError Unit
  | [] => .ok ()
  | p :: ps =>
    if allows p then checkAll allows ps
    else .error (.permissionDenied ("Blocked by '" ++ p.identifier ++ "' policy"))

def validatePermissionsForSign (ext : External) (h : Nip46Handler) (event : UnsignedEvent) :
    SignerM Unit := do
  let permissions ← loadPermissions ext h
  .ofExcept (checkAll (·.canSign event) permissions)

def validatePermissionsForEncrypt (ext : External) (h : Nip46Handler) (plaintext : String)
    (recipient : PublicKey) : SignerM Unit := do
  let permissions ← loadPermissions ext h
  .ofExcept (checkAll (·.canEncrypt ext plaintext (ext.publicKey h.userKeys) recipient) permissions)

def validatePermissionsForDecrypt (ext : External) (h : Nip46Handler) (ciphertext : String)
    (sender : PublicKey) : SignerM Unit := do
  let permissions ← loadPermissions ext h
  .ofExcept (checkAll (·.canDecrypt ciphertext sender (ext.publicKey h.userKeys)) permissions)

/-! ## The client gate -/

def processConnect (ext : External) (h : Nip46Handler) (clientPubkey providedSecret : String) :
    SignerM String :=
  if ext.verifySecret providedSecret h.secretHash then do
    let existing ← .read (.selectConnected h.isOauth h.authorizationId) fun s =>
      s.connectedClient h.isOauth h.authorizationId h.tenantId
    match existing with
    | some existing =>
      if existing = clientPubkey then return "ack"
      else .err (.permissionDenied "Secret already used by another client")
    | none =>
      .write (.storeClient h.isOauth h.authorizationId clientPubkey) fun s =>
        s.storeClient h.isOauth h.authorizationId clientPubkey
      return "ack"
  else .err (.permissionDenied "Invalid secret")

def validateAndStoreClient (ext : External) (h : Nip46Handler) (clientPubkey : PublicKey) :
    SignerM Unit := do
  let bunker := ext.publicKey h.bunkerKeys
  let isValid ← .read (.existsConnected h.isOauth bunker clientPubkey) fun s =>
    s.existsConnected h.isOauth bunker clientPubkey
  if isValid then return ()
  else
    let unconnectedId ← .read (.selectUnconnected h.isOauth bunker) fun s =>
      s.unconnected h.isOauth bunker
    match unconnectedId with
    | some authId =>
      .write (.storeClient h.isOauth authId clientPubkey) fun s =>
        s.storeClient h.isOauth authId clientPubkey
    | none => .err (.permissionDenied "Unknown client - not connected to any authorization")

end Nip46Handler

end Keycast.Signer
