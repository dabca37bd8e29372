import Keycast.Core.Db

/-!
# `Http/Handler.lean` — the handler behind the HTTP RPC endpoint

`api/src/handlers/http_rpc_handler.rs`: an authorization as the HTTP path caches it. Unlike the
NIP-46 handler it never goes back to the database: expiry, revocation and policy are copied when it
is built, and all later checks are made on the copy.
-/

set_option autoImplicit false

namespace Keycast.Http

open Lib

/-- 32 bytes: a parsed hex key, or a hash. -/
abbrev CacheKey := String

inductive HandlerError
  | authorizationInvalid
  | permissionDenied
  | signing (e : String)
  | encryption (e : String)
  deriving DecidableEq, Repr

structure HttpRpcHandler where
  /-- The signing session's keys. -/
  keys : Keys
  authorizationId : RowId
  userPubkey : PublicKey
  expiresAt : Option Timestamp
  revokedAt : Option Timestamp
  permissions : List CustomPermission
  isOauth : Bool
  bunkerPubkey : CacheKey
  authorizationHandle : CacheKey
  deriving DecidableEq, Repr

/-- `HttpRpcHandler::new`: the user's public key is that of the session. -/
def HttpRpcHandler.new (ext : External) (keys : Keys) (authorizationId : RowId)
    (expiresAt revokedAt : Option Timestamp) (permissions : List CustomPermission)
    (isOauth : Bool) (bunkerPubkey authorizationHandle : CacheKey) : HttpRpcHandler :=
  { keys, authorizationId, userPubkey := ext.publicKey keys, expiresAt, revokedAt, permissions,
    isOauth, bunkerPubkey, authorizationHandle }

namespace HttpRpcHandler

/-- `is_valid`; unlike the SQL condition it lets `expires_at = now` pass. -/
def isValid (now : Timestamp) (h : HttpRpcHandler) : Bool :=
  if h.revokedAt.isSome then false
  else
    match h.expiresAt with
    | some t => decide (now ≤ t)
    | none => true

/-- The check the three `validate_*_permission` methods share: no permissions allow everything,
otherwise all of them have to. -/
def validate (h : HttpRpcHandler) (allows : CustomPermission → Bool) : Except HandlerError Unit :=
  if h.permissions.isEmpty then .ok ()
  else if h.permissions.all allows then .ok ()
  else .error .permissionDenied

def validateSignPermission (h : HttpRpcHandler) (event : UnsignedEvent) :
    Except HandlerError Unit :=
  h.validate (·.canSign event)

def validateEncryptPermission (ext : External) (h : HttpRpcHandler) (plaintext : String)
    (recipient : PublicKey) : Except HandlerError Unit :=
  h.validate (·.canEncrypt ext plaintext h.userPubkey recipient)

def validateDecryptPermission (h : HttpRpcHandler) (ciphertext : String) (sender : PublicKey) :
    Except HandlerError Unit :=
  h.validate (·.canDecrypt ciphertext sender h.userPubkey)

/-- The check an operation goes through. -/
def validateOperation (ext : External) (h : HttpRpcHandler) : Operation → Except HandlerError Unit
  | .sign event => h.validateSignPermission event
  | .encrypt plaintext recipient => h.validateEncryptPermission ext plaintext recipient
  | .decrypt ciphertext sender => h.validateDecryptPermission ciphertext sender

/-! The operations: validity, then permission, then the signing session. -/

def signEvent (ext : External) (h : HttpRpcHandler) (now : Timestamp) (nonce : Nat)
    (event : UnsignedEvent) : Except HandlerError String := do
  if !h.isValid now then .error .authorizationInvalid
  else
    h.validateSignPermission event
    (ext.signEvent nonce h.keys event).mapError .signing

def nip44Encrypt (ext : External) (h : HttpRpcHandler) (now : Timestamp) (nonce : Nat)
    (recipient : PublicKey) (plaintext : String) : Except HandlerError String := do
  if !h.isValid now then .error .authorizationInvalid
  else
    h.validateEncryptPermission ext plaintext recipient
    (ext.nip44Encrypt nonce h.keys recipient plaintext).mapError .encryption

def nip44Decrypt (ext : External) (h : HttpRpcHandler) (now : Timestamp) (sender : PublicKey)
    (ciphertext : String) : Except HandlerError String := do
  if !h.isValid now then .error .authorizationInvalid
  else
    h.validateDecryptPermission ciphertext sender
    (ext.nip44Decrypt h.keys sender ciphertext).mapError .encryption

def nip04Encrypt (ext : External) (h : HttpRpcHandler) (now : Timestamp) (nonce : Nat)
    (recipient : PublicKey) (plaintext : String) : Except HandlerError String := do
  if !h.isValid now then .error .authorizationInvalid
  else
    h.validateEncryptPermission ext plaintext recipient
    (ext.nip04Encrypt nonce h.keys recipient plaintext).mapError .encryption

def nip04Decrypt (ext : External) (h : HttpRpcHandler) (now : Timestamp) (sender : PublicKey)
    (ciphertext : String) : Except HandlerError String := do
  if !h.isValid now then .error .authorizationInvalid
  else
    h.validateDecryptPermission ciphertext sender
    (ext.nip04Decrypt h.keys sender ciphertext).mapError .encryption

theorem validateOperation_eq (ext : External) (h : HttpRpcHandler) (op : Operation) :
    h.validateOperation ext op = h.validate (·.allows ext h.userPubkey op) := by
  cases op <;> rfl

/-- The special case of an empty list is no special case. -/
theorem validate_eq_ok {h : HttpRpcHandler} {allows : CustomPermission → Bool} :
    h.validate allows = .ok () ↔ ∀ p ∈ h.permissions, allows p = true := by
  unfold validate
  cases hp : h.permissions with
  | nil => simp
  | cons p ps =>
    by_cases hall : (p :: ps).all allows = true
    · simp only [List.isEmpty_cons, hall, if_true]
      simpa using List.all_eq_true.mp hall
    · simp only [List.isEmpty_cons, hall]
      simpa [List.all_eq_true] using hall

end HttpRpcHandler

/-- `filter_map(|p| p.to_custom_permission().ok())`: rows that do not convert are dropped. -/
def convertPermissions (ext : External) (rows : List Permission) : List CustomPermission :=
  rows.filterMap fun p => (p.toCustomPermission ext).toOption

theorem mem_convertPermissions {ext : External} {rows : List Permission} {c : CustomPermission} :
    c ∈ convertPermissions ext rows ↔ ∃ p ∈ rows, p.toCustomPermission ext = .ok c := by
  simp only [convertPermissions, List.mem_filterMap]
  refine exists_congr fun p => and_congr_right fun _ => ?_
  cases p.toCustomPermission ext <;> simp [Except.toOption]

end Keycast.Http
