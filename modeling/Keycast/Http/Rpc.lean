import Keycast.Http.Handler
import Keycast.Http.Token
import Keycast.Lib.Cache
import Keycast.Lib.Faults

/-!
# `Http/Rpc.lean` — the RPC endpoint

`api/src/api/http/nostr_rpc.rs` and the token validation it rests on. A request names an
authorization by a bearer token. `get_handler` finds the handler for the token: from the cache of
the instance that serves the request, keyed by a hash of tenant and token, or by verifying the
token and loading the authorization.

A deployment is any number of instances over one database, each with a cache of its own, so the
shared state holds one cache per instance and every request says where it runs.
-/

set_option autoImplicit false

namespace Keycast.Http

open Lib

inductive RpcError
  | auth (e : AuthError)
  | invalidParams (e : String)
  | unsupportedMethod (method : String)
  | signingFailed (e : String)
  | encryptionFailed (e : String)
  | internal (e : String)
  deriving DecidableEq, Repr

abbrev InstanceId := Nat

structure State where
  db : Db
  now : Timestamp
  caches : InstanceId → Cache CacheKey HttpRpcHandler

/-- The atomic statements of the endpoint and of those that change its caches or its tables. -/
inductive Stmt
  | cacheGet (inst : InstanceId) (key : CacheKey)
  | cacheInsert (inst : InstanceId) (key : CacheKey)
  | cacheInvalidate (inst : InstanceId) (key : CacheKey)
  | clock
  | findByBunkerPubkey (bunker : PublicKey)
  | getPermissions
  | findEncryptedKey
  | isUnclaimed
  | existsActiveForBunker (bunker : PublicKey)
  | revokeByBunkerPubkey (bunker user : PublicKey) (tenant : TenantId)
  | invalidateHandlers (inst : InstanceId) (bunker : PublicKey)
  | sendRemove (bunker : PublicKey)
  | revokeOAuthByOrigin
  | findPubkeyByVineId
  | findPubkeyByUsername
  | createPreloadedUser
  | findValidClaimToken
  | emailExists
  | claimAccount (user : PublicKey)
  | markUsed
  | getCredentials
  | userExists
  | changeKeyTransaction (oldPubkey newPubkey : PublicKey)
  | invalidateHandlersForUser (inst : InstanceId) (user : PublicKey)
  | deleteAccount (user : PublicKey) (tenant : TenantId)
  | findPubkeyByEmail
  | findPolicyBySlug
  | storePending
  | findPendingByToken
  | createVerifiedUser
  | storeVerifiedCode (tenant : TenantId) (user : PublicKey) (email : String)
  | setex
  | deleteCode (tenant : TenantId) (code : String)
  | deletePending
  | findUserByVerificationToken
  | markEmailVerified
  | getEmail
  | getAccountStatus
  | findIdByHandle
  | hasActiveForOrigin
  | storeCode
  | findValidCode (code : String)
  | finalizeRegistration (tenant : TenantId) (code : String) (user : PublicKey) (email : String)
  | createPersonalKey
  | createOAuth
  | createRefreshToken (hash : String) (authorization : RowId)
  | consumeRefreshToken (hash : String)
  | findOAuth
  | revokeRefreshTokens (authorization : RowId)
  | revokeOAuth (authorization : RowId)
  | invalidateHandlersForAuthorization (inst : InstanceId) (authorization : RowId)
  | sendUpsert
  | findPolicy
  | registerWithPersonalKey
  | deleteUserRow
  | deletePersonalKey
  | setPasswordHash
  | getVerificationStatus
  | setVerificationToken
  | setPasswordResetToken
  | findByResetToken
  | resetPassword
  | updatePassword
  | createClaimToken
  | countRecentLinks
  | createMagicLink
  | consumeMagicLink
  | findOrCreatePasswordless
  | findTeam
  | isTeamAdmin
  | isMember
  | getMember
  | countOtherAdmins (team : RowId) (user : PublicKey)
  | countTeamsOf
  | findOrCreateUser
  | addMember (team : RowId) (user : PublicKey)
  | removeMember (team : RowId) (user : PublicKey)
  | findStoredKey
  | createStoredKey
  | policyExistsForTeam
  | createPolicy
  | createTeam
  | createAuthorization
  | findActiveSupport
  | listStoredKeys
  | listPolicies
  | revokeAuthorization
  | callerEmail
  | findInvitation
  | createInvitation
  | acceptInvitation (token : String)
  | revokeInvitation
  | deleteTeam
  | findDue
  | sendNotice (pubkey : PublicKey) (deletedAt : Timestamp) (answered : Bool)
  | acknowledge (id : RowId)
  | scheduleRetry (id : RowId)
  | insertNotice
  | deleteLinks
  | countTeams
  | countAuthorizations
  | selectBunkers
  | deleteTeamUsers
  | deleteCodes
  | commitDeletion (user : PublicKey) (tenant : TenantId) (links : List (String × String))
  | deleteStaleSignups
  | purgeLinks
  | findPolicyIdByOrigin
  | findLatestBunkerPubkey
  | signEventDirect
  deriving DecidableEq, Repr

abbrev RpcM := Prog Stmt State RpcError

namespace State

def withDb (s : State) (db : Db) : State := { s with db }

@[simp] theorem withDb_db (s : State) (db : Db) : (s.withDb db).db = db := rfl
@[simp] theorem withDb_now (s : State) (db : Db) : (s.withDb db).now = s.now := rfl
@[simp] theorem withDb_caches (s : State) (db : Db) : (s.withDb db).caches = s.caches := rfl

def updateCache (s : State) (inst : InstanceId)
    (f : Cache CacheKey HttpRpcHandler → Cache CacheKey HttpRpcHandler) : State :=
  { s with caches := fun i => if i = inst then f (s.caches i) else s.caches i }

@[simp] theorem updateCache_db (s : State) (i : InstanceId)
    (f : Cache CacheKey HttpRpcHandler → Cache CacheKey HttpRpcHandler) :
    (s.updateCache i f).db = s.db := rfl
@[simp] theorem updateCache_now (s : State) (i : InstanceId)
    (f : Cache CacheKey HttpRpcHandler → Cache CacheKey HttpRpcHandler) :
    (s.updateCache i f).now = s.now := rfl
@[simp] theorem updateCache_self (s : State) (i : InstanceId)
    (f : Cache CacheKey HttpRpcHandler → Cache CacheKey HttpRpcHandler) :
    (s.updateCache i f).caches i = f (s.caches i) := by simp [updateCache]
theorem updateCache_of_ne (s : State) {i j : InstanceId} (h : j ≠ i)
    (f : Cache CacheKey HttpRpcHandler → Cache CacheKey HttpRpcHandler) :
    (s.updateCache i f).caches j = s.caches j := by simp [updateCache, h]

end State

/-! ## Loading -/

/-- A statement or transaction that a constraint may refuse; it then changes nothing. -/
def transact {ε β : Type} (l : Stmt) (e : ε) (f : State → Option (β × Db)) :
    Prog Stmt State ε β := do
  let result ← .stmt l fun s =>
    match f s with
    | some (b, db) => (some b, s.withDb db)
    | none => (none, s)
  .orErr result e

/-- A transaction with errors of its own. -/
def inTransaction {ε β : Type} (l : Stmt) (f : State → Except ε β × Db) : Prog Stmt State ε β := do
  let result ← .stmt l fun s => ((f s).1, s.withDb (f s).2)
  .ofExcept result

section Transact

variable {ε α β : Type} {l : Stmt} {e : ε} {f : State → Option (β × Db)} {s : State}

theorem run_transact (l : Stmt) (e : ε) (f : State → Option (β × Db)) (s : State) :
    (transact l e f).run s =
      match f s with
      | some (b, db) => (.ok b, s.withDb db)
      | none => (.error e, s) := by
  cases hfs : f s with
  | none => simp [transact, hfs]
  | some r => simp [transact, hfs]

theorem run_transact_ok {s' : State}
    {b : β} (h : (transact l e f).run s = (.ok b, s')) :
    ∃ db, f s = some (b, db) ∧ s' = s.withDb db := by
  cases hfs : f s with
  | none => simp [transact, hfs] at h
  | some r =>
    obtain ⟨b', db⟩ := r
    simp only [transact, hfs, Prog.bind_def, Prog.stmt_bind, Prog.run_atom, Prog.orErr_some,
      Prog.run_ret, Prod.mk.injEq, Except.ok.injEq] at h
    obtain ⟨rfl, rfl⟩ := h
    exact ⟨db, rfl, rfl⟩

theorem ends_transact {g : β → Prog Stmt State ε α} {Q : Except ε α → State → Prop}
    (hnone : Q (.error e) s)
    (hsome : ∀ b db, f s = some (b, db) → (g b).Ends Q (s.withDb db)) :
    ((transact l e f).bind g).Ends Q s := by
  rw [transact, Prog.bind_def, Prog.bind_assoc]
  refine Prog.Ends.stmt ?_
  cases hf : f s with
  | none => exact hnone
  | some r => exact hsome r.1 r.2 hf

theorem ends_failing_transact {fails : Stmt → Option ε} {g : β → Prog Stmt State ε α}
    {Q : Except ε α → State → Prop} (hfail : ∀ e', fails l = some e' → Q (.error e') s)
    (hnone : f s = none → Q (.error e) s)
    (hsome : fails l = none → ∀ b db, f s = some (b, db) → (g b).Ends Q (s.withDb db)) :
    (((transact l e f).failing fails).bind g).Ends Q s := by
  refine Prog.Ends.bind (Prog.Ends.failing_atom hfail fun hl => ?_)
  dsimp only
  cases hf : f s with
  | none => exact hnone hf
  | some r => exact hsome hl r.1 r.2 hf

theorem transact_steps {G : State → State → Prop} (hrefl : ∀ s, G s s) (l : Stmt) (e : ε)
    {f : State → Option (β × Db)} (hf : ∀ s b db, f s = some (b, db) → G s (s.withDb db)) :
    (transact l e f).Steps G := by
  refine .bind (fun s => ⟨?_, trivial⟩) fun r => .orErr _ _
  show G s (match f s with
    | some (b, db) => (some b, s.withDb db)
    | none => (none, s)).2
  cases hfs : f s with
  | none => exact hrefl s
  | some r => exact hf s r.1 r.2 hfs

theorem run_inTransaction_ok {f : State → Except ε β × Db} {s' : State} {b : β}
    (h : (inTransaction l f).run s = (.ok b, s')) : ∃ db, f s = (.ok b, db) ∧ s' = s.withDb db := by
  obtain ⟨r, s₁, h₁, h⟩ := Prog.run_bind_ok.mp h
  simp only [Prog.stmt, Prog.run_atom, Prog.run_ret, Prod.mk.injEq, Except.ok.injEq] at h₁
  obtain ⟨rfl, rfl⟩ := h₁
  obtain ⟨hok, rfl⟩ := Prog.run_ofExcept_ok.mp h
  exact ⟨(f s).2, Prod.ext hok rfl, rfl⟩

/-- A transaction that changes nothing when it fails. -/
theorem inTransaction_steps {G : State → State → Prop} (hrefl : ∀ s, G s s) (l : Stmt)
    {f : State → Except ε β × Db} (herr : ∀ s e db, f s = (.error e, db) → db = s.db)
    (hf : ∀ s b db, f s = (.ok b, db) → G s (s.withDb db)) : (inTransaction l f).Steps G := by
  refine .bind (fun s => ⟨?_, trivial⟩) fun r => .ofExcept _
  show G s (s.withDb (f s).2)
  rcases hfs : f s with ⟨e | b, db⟩
  · rw [herr s e db hfs]
    exact hrefl s
  · exact hf s b db hfs

theorem transact_uses {P : Stmt → Prop} (hl : P l) (e : ε)
    (f : State → Option (β × Db)) : (transact l e f).Uses P :=
  .bind ⟨hl, fun _ => trivial⟩ fun _ => .orErr _ _

theorem inTransaction_does {P : Stmt → State → State → Prop} {l : Stmt}
    {f : State → Except ε β × Db}
    (h : ∀ s, P l s (s.withDb (f s).2)) : (inTransaction l f).Does P :=
  .bind (.stmt h) fun _ => .ofExcept _

theorem transact_does {P : Stmt → State → State → Prop} (hnone : ∀ s, P l s s)
    (hsome : ∀ s b db, f s = some (b, db) → P l s (s.withDb db)) : (transact l e f).Does P := by
  refine .bind (fun s => ⟨?_, trivial⟩) fun r => .orErr _ _
  show P l s (match f s with
    | some (b, db) => (some b, s.withDb db)
    | none => (none, s)).2
  cases hfs : f s with
  | none => exact hnone s
  | some r => exact hsome s r.1 r.2 hfs

theorem meets_transact {G : Stmt → List (Stmt × State) → State → State → Prop}
    {Q : List (Stmt × State) → Except ε α → Prop} {g : β → Prog Stmt State ε α}
    {seen : List (Stmt × State)}
    (hnone : ∀ s, f s = none → G l seen s s ∧ Q ((l, s) :: seen) (.error e))
    (hsome : ∀ s b db, f s = some (b, db) →
      G l seen s (s.withDb db) ∧ (g b).Meets G Q ((l, s) :: seen)) :
    ((transact l e f).bind g).Meets G Q seen := by
  rw [transact, Prog.bind_def, Prog.bind_assoc]
  refine Prog.Meets.stmt fun s => ?_
  cases hfs : f s with
  | none => exact hnone s hfs
  | some r => exact hsome s r.1 r.2 hfs

/-- The last statement of a program. -/
theorem meets_transact_last {G : Stmt → List (Stmt × State) → State → State → Prop}
    {Q : List (Stmt × State) → Except ε β → Prop} {seen : List (Stmt × State)}
    (hnone : ∀ s, f s = none → G l seen s s)
    (hsome : ∀ s b db, f s = some (b, db) → G l seen s (s.withDb db))
    (hQ : ∀ s r, Q ((l, s) :: seen) r) : (transact l e f).Meets G Q seen := by
  intro s
  cases hfs : f s with
  | none => simpa only [hfs] using ⟨hnone s hfs, hQ s _⟩
  | some r => simpa only [hfs] using ⟨hsome s r.1 r.2 hfs, hQ s _⟩

end Transact

/-- Decrypt a user's key: the same three steps in both loaders. -/
def decryptUserKeys (w : Web) (encrypted : Bytes) : Except RpcError Keys := do
  let decrypted ← (w.kmsDecrypt encrypted).mapError fun e => .internal ("Decryption failed: " ++ e)
  (w.secretKeyFromSlice decrypted).mapError fun e => .internal ("Invalid secret key bytes: " ++ e)

/-- The permissions of the row's policy; no policy is full access. -/
def loadPermissions (w : Web) (row : OAuthAuthorization) : RpcM (List CustomPermission) :=
  match row.policyId with
  | some policyId => do
    let rows ← .read .getPermissions fun s => s.db.getPermissions w.toExternal policyId
    let rows ← .orErr rows (.internal "Database error loading permissions: decode")
    return convertPermissions w.toExternal rows
  | none => return []

/-- The row's handle as a cache key; a legacy row without one falls back to the bunker key. -/
def authorizationHandleKey (w : Web) (row : OAuthAuthorization) (bunkerKey : CacheKey) :
    Except RpcError CacheKey :=
  match row.authorizationHandle with
  | some handle => (w.parseCacheKey handle).mapError fun e =>
      .internal ("Invalid authorization_handle: " ++ e)
  | none => .ok bunkerKey

/-- `load_handler_on_demand`. -/
def loadHandlerOnDemand (w : Web) (bunker tokenUser : PublicKey) (tenant : TenantId) :
    RpcM HttpRpcHandler := do
  let row ← .read (.findByBunkerPubkey bunker) fun s => s.db.oauthByBunker bunker
  let row ← .orErr row (.auth .invalidToken)
  if row.userPubkey ≠ tokenUser then .err (.auth .invalidToken)
  else
    let permissions ← loadPermissions w row
    let encrypted ← .read .findEncryptedKey fun s =>
      s.db.encryptedKeyForTenant row.userPubkey tenant
    let encrypted ← .orErr encrypted (.internal "Personal keys not found")
    let keys ← .ofExcept (decryptUserKeys w encrypted)
    let bunkerKey ← .ofExcept ((w.parseCacheKey bunker).mapError fun e =>
      .internal ("Invalid bunker_pubkey: " ++ e))
    let authHandle ← .ofExcept (authorizationHandleKey w row bunkerKey)
    return .new w.toExternal keys row.id row.expiresAt row.revokedAt permissions true bunkerKey
      authHandle

/-- The permission rows attached to an authorization's policy; no policy means none. -/
def policyRows (ext : External) (db : Db) (row : OAuthAuthorization) : Option (List Permission) :=
  match row.policyId with
  | some policyId => db.getPermissions ext policyId
  | none => some []

/-- The permissions a handler for the row is built with. -/
def policyOf (w : Web) (db : Db) (row : OAuthAuthorization) : Option (List CustomPermission) :=
  (policyRows w.toExternal db row).map (convertPermissions w.toExternal)

theorem loadPermissions_run {w : Web} {row : OAuthAuthorization} {s s' : State}
    {ps : List CustomPermission} (hrun : (loadPermissions w row).run s = (.ok ps, s')) :
    policyOf w s.db row = some ps ∧ s = s' := by
  unfold loadPermissions at hrun
  unfold policyOf policyRows
  split at hrun
  · obtain ⟨o, _, h₁, hrun⟩ := Prog.run_bind_ok.mp hrun
    obtain ⟨rfl, rfl⟩ := Prog.run_read_ok.mp h₁
    obtain ⟨rows, _, h₂, hrun⟩ := Prog.run_bind_ok.mp hrun
    obtain ⟨hrows, rfl⟩ := Prog.run_orErr_ok.mp h₂
    obtain ⟨rfl, hs⟩ := Prog.run_ret_ok.mp hrun
    exact ⟨by simp [hrows], hs⟩
  · obtain ⟨rfl, hs⟩ := Prog.run_ret_ok.mp hrun
    exact ⟨rfl, hs⟩

/-- What a load on an unchanging database returns, and that it changes nothing. -/
theorem loadHandlerOnDemand_run {w : Web} {bunker user : PublicKey} {tenant : TenantId}
    {s s' : State} {h : HttpRpcHandler}
    (hrun : (loadHandlerOnDemand w bunker user tenant).run s = (.ok h, s')) :
    s = s' ∧ ∃ row permissions encrypted keys bunkerKey authHandle,
      s.db.oauthByBunker bunker = some row ∧ row.userPubkey = user ∧
      policyOf w s.db row = some permissions ∧
      s.db.encryptedKeyForTenant user tenant = some encrypted ∧
      decryptUserKeys w encrypted = .ok keys ∧ w.parseCacheKey bunker = .ok bunkerKey ∧
      h = .new w.toExternal keys row.id row.expiresAt row.revokedAt permissions true bunkerKey
        authHandle := by
  obtain ⟨o, _, h₁, hrun⟩ := Prog.run_bind_ok.mp hrun
  obtain ⟨rfl, rfl⟩ := Prog.run_read_ok.mp h₁
  obtain ⟨row, _, h₂, hrun⟩ := Prog.run_bind_ok.mp hrun
  obtain ⟨hrow, rfl⟩ := Prog.run_orErr_ok.mp h₂
  split at hrun
  · exact absurd hrun (by simp)
  · next huser =>
    rw [not_not] at huser
    obtain ⟨permissions, _, h₃, hrun⟩ := Prog.run_bind_ok.mp hrun
    obtain ⟨hpolicy, rfl⟩ := loadPermissions_run h₃
    obtain ⟨o, _, h₄, hrun⟩ := Prog.run_bind_ok.mp hrun
    obtain ⟨rfl, rfl⟩ := Prog.run_read_ok.mp h₄
    obtain ⟨encrypted, _, h₅, hrun⟩ := Prog.run_bind_ok.mp hrun
    obtain ⟨henc, rfl⟩ := Prog.run_orErr_ok.mp h₅
    obtain ⟨keys, _, h₆, hrun⟩ := Prog.run_bind_ok.mp hrun
    obtain ⟨hkeys, rfl⟩ := Prog.run_ofExcept_ok.mp h₆
    obtain ⟨bunkerKey, _, h₇, hrun⟩ := Prog.run_bind_ok.mp hrun
    obtain ⟨hbunker, rfl⟩ := Prog.run_ofExcept_ok.mp h₇
    obtain ⟨authHandle, _, h₈, hrun⟩ := Prog.run_bind_ok.mp hrun
    obtain ⟨-, rfl⟩ := Prog.run_ofExcept_ok.mp h₈
    obtain ⟨rfl, rfl⟩ := Prog.run_ret_ok.mp hrun
    refine ⟨rfl, row, permissions, encrypted, keys, bunkerKey, authHandle, hrow, huser, hpolicy,
      huser ▸ henc, hkeys, ?_, rfl⟩
    cases hb : w.parseCacheKey bunker with
    | error e => simp [hb, Except.mapError] at hbunker
    | ok k => simpa [hb, Except.mapError] using hbunker

/-- `load_preloaded_user_handler`. -/
def loadPreloadedUserHandler (w : Web) (user : PublicKey) (tenant : TenantId) :
    RpcM HttpRpcHandler := do
  let unclaimed ← .read .isUnclaimed fun s => s.db.isUnclaimed user tenant
  if unclaimed ≠ some true then .err (.auth .invalidToken)
  else
    let encrypted ← .read .findEncryptedKey fun s => s.db.encryptedKeyForTenant user tenant
    let encrypted ← .orErr encrypted (.internal "Personal keys not found for preloaded user")
    let keys ← .ofExcept (decryptUserKeys w encrypted)
    let cacheKey ← .ofExcept ((w.parseCacheKey user).mapError fun e =>
      .internal ("Invalid user_pubkey: " ++ e))
    return .new w.toExternal keys 0 none none [] false cacheKey cacheKey

/-- The slow path: verify the token, load what it names. -/
def loadForToken (w : Web) (authHeader : String) (tenant : TenantId) : RpcM HttpRpcHandler := do
  let now ← .read .clock (·.now)
  match validateUcanToken w now authHeader tenant with
  | .error _ => .err (.auth .invalidToken)
  | .ok (user, _, some bunker, _) => loadHandlerOnDemand w bunker user tenant
  | .ok (user, _, none, ucan) =>
    if isServerSigned w ucan then loadPreloadedUserHandler w user tenant
    else .err (.auth .invalidToken)

/-- `compute_token_cache_key`. -/
def computeTokenCacheKey (w : Web) (authHeader : String) (tenant : TenantId) : Option CacheKey :=
  (stripBearer authHeader).map (w.blake3 tenant)

/-- `get_handler` on one instance. -/
def getHandler (w : Web) (inst : InstanceId) (authHeader : String) (tenant : TenantId) :
    RpcM HttpRpcHandler := do
  let key ← .orErr (computeTokenCacheKey w authHeader tenant) (.auth .invalidToken)
  match ← .read (.cacheGet inst key) fun s => (s.caches inst).get key with
  | some handler =>
    let now ← .read .clock (·.now)
    if handler.isValid now then return handler
    else
      .write (.cacheInvalidate inst key) (·.updateCache inst (·.invalidate key))
      .err (.auth .invalidToken)
  | none =>
    let handler ← loadForToken w authHeader tenant
    let now ← .read .clock (·.now)
    if handler.isValid now then
      .write (.cacheInsert inst key) (·.updateCache inst (·.insert key handler))
      return handler
    else .err (.auth .invalidToken)

/-! ## The endpoint -/

structure NostrRpcRequest where
  method : String
  params : List Json := []

/-- `parse_unsigned_event`: the event as text (NIP-46 style) or as an object. -/
def parseUnsignedEvent (ext : External) (params : List Json) : Except RpcError UnsignedEvent :=
  match params with
  | [] => .error (.invalidParams "Missing event parameter")
  | value :: _ =>
    match value.asStr with
    | some text =>
      (ext.parseUnsignedEvent text).elim (.error (.invalidParams "Invalid event JSON")) .ok
    | none =>
      (ext.unsignedEventFromValue value).elim (.error (.invalidParams "Invalid event format")) .ok

/-- `parse_encrypt_params` and `parse_decrypt_params`, which differ in what the two parameters are
called. -/
def parsePairParams (ext : External) (peer text : String) (params : List Json) :
    Except RpcError (PublicKey × String) := do
  let hex ← (params[0]?.bind Json.asStr).elim
    (.error (.invalidParams ("Missing " ++ peer ++ " pubkey parameter"))) .ok
  let body ← (params[1]?.bind Json.asStr).elim
    (.error (.invalidParams ("Missing " ++ text ++ " parameter"))) .ok
  let pubkey ← (ext.publicKeyFromHex hex).mapError fun e => .invalidParams ("Invalid pubkey: " ++ e)
  return (pubkey, body)

def parseEncryptParams (ext : External) (params : List Json) :=
  parsePairParams ext "recipient" "plaintext" params

def parseDecryptParams (ext : External) (params : List Json) :=
  parsePairParams ext "sender" "ciphertext" params

/-- `From<HandlerError> for RpcError`. -/
def RpcError.ofHandler : HandlerError → RpcError
  | .authorizationInvalid => .auth .invalidToken
  | .permissionDenied => .auth (.forbidden "Operation denied by policy")
  | .signing e => .signingFailed e
  | .encryption e => .encryptionFailed e

/-- An operation that needs the time: every one but `get_public_key`. -/
def withClock (op : Timestamp → Except HandlerError String) : RpcM String := do
  let now ← .read .clock (·.now)
  .ofExcept ((op now).mapError .ofHandler)

/-- The `match` on the method. `spawn_log_activity`, which follows the five operations, writes two
columns nothing reads. -/
def dispatch (w : Web) (handler : HttpRpcHandler) (nonce : Nat) (req : NostrRpcRequest) :
    RpcM Json :=
  if req.method = "get_public_key" then return .str handler.userPubkey
  else if req.method = "sign_event" then do
    let event ← .ofExcept (parseUnsignedEvent w.toExternal req.params)
    let signed ← withClock fun now => handler.signEvent w.toExternal now nonce event
    return w.eventValue signed
  else if req.method = "nip44_encrypt" then do
    let (peer, text) ← .ofExcept (parseEncryptParams w.toExternal req.params)
    let out ← withClock fun now => handler.nip44Encrypt w.toExternal now nonce peer text
    return .str out
  else if req.method = "nip44_decrypt" then do
    let (peer, text) ← .ofExcept (parseDecryptParams w.toExternal req.params)
    let out ← withClock fun now => handler.nip44Decrypt w.toExternal now peer text
    return .str out
  else if req.method = "nip04_encrypt" then do
    let (peer, text) ← .ofExcept (parseEncryptParams w.toExternal req.params)
    let out ← withClock fun now => handler.nip04Encrypt w.toExternal now nonce peer text
    return .str out
  else if req.method = "nip04_decrypt" then do
    let (peer, text) ← .ofExcept (parseDecryptParams w.toExternal req.params)
    let out ← withClock fun now => handler.nip04Decrypt w.toExternal now peer text
    return .str out
  else .err (.unsupportedMethod req.method)

/-- `nostr_rpc`. Beside the result it returns the handler that gave it, so that a claim can say with
which authorization a request succeeded. -/
def nostrRpc (w : Web) (inst : InstanceId) (headers : Headers) (tenant : TenantId) (nonce : Nat)
    (req : NostrRpcRequest) : RpcM (HttpRpcHandler × Json) := do
  let authHeader ← .orErr (headers.authorization.bind id) (.auth .missingToken)
  let handler ← getHandler w inst authHeader tenant
  let result ← dispatch w handler nonce req
  return (handler, result)

end Keycast.Http
