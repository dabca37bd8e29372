import Keycast.Core.Accounts
import Keycast.Http.System

/-!
# `Http/Account.lean` — preloading, claiming, rekeying and deleting accounts

`preload_user` and `get_user_token` of `api/http/admin.rs`, `claim_post` of `api/http/claim.rs`, and
`change_key` and `delete_account` of `api/http/auth.rs`. What a page or a cookie shows is left out;
the token in it is returned. Keys that a call generates are an argument of it.
-/

set_option autoImplicit false

namespace Keycast.Http

open Lib

/-- The variants of `ApiError` the admin endpoints use. -/
inductive ApiError
  | badRequest (message : String)
  | forbidden (message : String)
  | notFound (message : String)
  | conflict (message : String)
  | internal (message : String)
  | auth (message : String)
  | tooManyRequests
  deriving DecidableEq, Repr

/-- `From<RepositoryError>`. -/
def ApiError.ofRepository : RepositoryError → ApiError
  | .notFound text => .notFound text
  | .duplicate => .badRequest "Already exists"
  | .integrity text => .badRequest text
  | .database text => .internal text

inductive ClaimError
  | invalidToken
  | passwordMismatch
  | weakPassword
  | invalidEmail
  | emailExists
  | internal (message : String)
  deriving DecidableEq, Repr

/-! ## Admin -/

structure PreloadUserRequest where
  vineId : String
  username : String
  deriving DecidableEq, Repr

structure PreloadUserResponse where
  pubkey : PublicKey
  token : String
  deriving DecidableEq, Repr

/-- The last lines of both branches of `preload_user` and of `get_user_token`. -/
def issuePreloadUcan (w : Web) (user : PublicKey) (tenant : TenantId) (serverKeys : Keys)
    (admin : PublicKey) : Prog Stmt State ApiError String := do
  let now ← .read .clock (·.now)
  .ofExcept ((generatePreloadUcan w now user tenant serverKeys admin).mapError fun e =>
    .internal ("Failed to sign UCAN: " ++ e))

/-- The vine id is known: a token for whoever has it. -/
def preloadExisting (w : Web) (tenant : TenantId) (auth : UcanAuth) (serverKeys : Keys)
    (pubkey : PublicKey) : Prog Stmt State ApiError PreloadUserResponse := do
  let user ← .ofExcept ((w.publicKeyFromHex pubkey).mapError fun e =>
    .internal ("Invalid stored pubkey: " ++ e))
  let token ← issuePreloadUcan w user tenant serverKeys auth.pubkey
  return ⟨pubkey, token⟩

/-- The vine id is new. Claiming the username on the name server is best-effort and left out. -/
def preloadNew (w : Web) (tenant : TenantId) (auth : UcanAuth) (serverKeys fresh : Keys)
    (req : PreloadUserRequest) : Prog Stmt State ApiError PreloadUserResponse := do
  let taken ← .read .findPubkeyByUsername fun s => s.db.findPubkeyByUsername req.username tenant
  if taken.isSome then
    .err (.conflict ("User with username " ++ req.username ++ " already exists"))
  else
    let pubkey := w.publicKey fresh
    let encrypted ← .ofExcept ((w.kmsEncrypt (w.toSecretBytes fresh)).mapError fun e =>
      .internal ("Failed to encrypt secret: " ++ e))
    transact .createPreloadedUser (.badRequest "Already exists") fun s =>
      (s.db.createPreloadedUser pubkey tenant req.vineId req.username encrypted).map (((), ·))
    let token ← issuePreloadUcan w pubkey tenant serverKeys auth.pubkey
    return ⟨pubkey, token⟩

/-- `preload_user`. -/
def preloadUser (w : Web) (tenant : TenantId) (auth : UcanAuth) (fresh : Keys)
    (req : PreloadUserRequest) : Prog Stmt State ApiError PreloadUserResponse := do
  if !isFullAdmin w auth then .err (.forbidden "Admin access required")
  else
    let serverKeys ← .ofExcept (w.getServerKeys.mapError .internal)
    match ← .read .findPubkeyByVineId fun s => s.db.findPubkeyByVineId req.vineId tenant with
    | some pubkey => preloadExisting w tenant auth serverKeys pubkey
    | none => preloadNew w tenant auth serverKeys fresh req

/-- `get_user_token`; the answer is the token alone, and the key it is for is that of the
request. -/
def getUserToken (w : Web) (tenant : TenantId) (auth : UcanAuth) (pubkey : String) :
    Prog Stmt State ApiError String := do
  if !isFullAdmin w auth then .err (.forbidden "Admin access required")
  else
    let user ← .ofExcept ((w.publicKeyFromHex pubkey).mapError fun e =>
      .badRequest ("Invalid pubkey: " ++ e))
    match ← .read .isUnclaimed fun s => s.db.isUnclaimed pubkey tenant with
    | none => .err (.notFound ("User with pubkey " ++ String.ofList (pubkey.toList.take 8) ++
        " not found"))
    | some false => .err (.forbidden "Cannot generate token for claimed user")
    | some true =>
      let serverKeys ← .ofExcept (w.getServerKeys.mapError .internal)
      issuePreloadUcan w user tenant serverKeys auth.pubkey

/-! ## Claiming -/

structure ClaimForm where
  token : String
  email : String
  password : String
  passwordConfirmation : String
  deriving DecidableEq, Repr

/-- The checks of `claim_post` on the form alone. -/
def checkClaimForm (form : ClaimForm) (email : String) : Except ClaimError Unit :=
  if form.password ≠ form.passwordConfirmation then .error .passwordMismatch
  else if form.password.utf8ByteSize < 8 then .error .weakPassword
  else if !email.toList.contains '@' || !email.toList.contains '.' then .error .invalidEmail
  else .ok ()

/-- `claim_post`: the user whose account is claimed, and the session. -/
def claimPost (w : Web) (tenant : TenantId) (form : ClaimForm) :
    Prog Stmt State ClaimError (PublicKey × String) := do
  let email := w.toLowercase form.email
  let claimToken ← .read .findValidClaimToken fun s => s.db.findValidClaimToken s.now form.token
  let claimToken ← .orErr claimToken .invalidToken
  .ofExcept (checkClaimForm form email)
  let taken ← .read .emailExists fun s => s.db.emailExists email tenant
  if taken then .err .emailExists
  else
    let passwordHash ← .ofExcept ((w.bcryptHash form.password).mapError fun e =>
      .internal ("Password hashing failed: " ++ e))
    transact (.claimAccount claimToken.userPubkey) (.internal "Database error") fun s =>
      (s.db.claimAccount claimToken.userPubkey tenant email passwordHash).toOption.map (((), ·))
    .write .markUsed fun s => s.withDb (s.db.markUsed s.now form.token)
    let user ← .ofExcept ((w.publicKeyFromHex claimToken.userPubkey).mapError fun e =>
      .internal ("Invalid pubkey: " ++ e))
    let serverKeys ← .ofExcept (w.getServerKeys.mapError .internal)
    let now ← .read .clock (·.now)
    let token ← .ofExcept ((generateServerSignedUcan w now user tenant email "claim" none serverKeys
      false none w.tokenExpirySeconds).mapError
        fun e => .internal ("Failed to generate session: " ++ e))
    return (claimToken.userPubkey, token)

/-! ## Rekeying and deleting -/

/-- `invalidate_handlers_for_user`. -/
def State.invalidateHandlersForUser (s : State) (inst : InstanceId) (user : PublicKey) : State :=
  s.updateCache inst fun c => c.invalidateEntriesIf fun _ h => h.userPubkey == user

structure ChangeKeyRequest where
  password : String
  nsec : Option String
  deriving DecidableEq, Repr

structure ChangeKeyResponse where
  newPubkey : PublicKey
  oauthCount : Nat
  token : String
  deriving DecidableEq, Repr

/-- The new keys: given or generated. -/
def newKeysFor (w : Web) (req : ChangeKeyRequest) (fresh : Keys) : Except AuthError Keys :=
  match req.nsec with
  | some nsec => (w.keysParse nsec).mapError fun e =>
    .internal ("Invalid nsec or secret key: " ++ e)
  | none => .ok fresh

/-- `change_key`. -/
def changeKey (w : Web) (inst : InstanceId) (headers : Headers) (tenant : TenantId) (fresh : Keys)
    (req : ChangeKeyRequest) : Prog Stmt State AuthError ChangeKeyResponse := do
  let now ← .read .clock (·.now)
  let oldPubkey ← .ofExcept (extractUserFromToken w now headers tenant)
  let credentials ← .read .getCredentials fun s => s.db.getCredentials oldPubkey tenant
  let credentials ← .ofExcept (credentials.mapError .internal)
  let (email, passwordHash) ← .orErr credentials .userNotFound
  let valid ← .ofExcept ((w.bcryptVerify req.password passwordHash).mapError fun _ =>
    .internal "Password verification failed")
  if !valid then .err .invalidCredentials
  else
    let newKeys ← .ofExcept (newKeysFor w req fresh)
    let newPubkey := w.publicKey newKeys
    let taken ← .read .userExists fun s => s.db.userExists newPubkey tenant
    if taken then .err .duplicateKey
    else
      let encrypted ← .ofExcept ((w.kmsEncrypt (w.toSecretBytes newKeys)).mapError .encryption)
      let oauthCount ← transact (.changeKeyTransaction oldPubkey newPubkey) .emailAlreadyExists
        fun s => s.db.changeKeyTransaction oldPubkey newPubkey tenant email passwordHash encrypted
      .write (.invalidateHandlersForUser inst oldPubkey)
        (·.invalidateHandlersForUser inst oldPubkey)
      .write (.sendRemove oldPubkey) id
      let origin ← .orErr (headers.origin.bind id) (.badRequest "Origin header required")
      let now ← .read .clock (·.now)
      let token ← .ofExcept
        ((generateUcanToken w now newKeys tenant email origin).mapError .internal)
      return ⟨newPubkey, oauthCount, token⟩

/-- The header `delete_account` validates: the `Authorization` header whatever it holds, or the
session cookie. -/
def deletionHeader (headers : Headers) : Except AuthError String :=
  match headers.authorization with
  | some (some text) => .ok text
  | some none => .error .invalidToken
  | none => (extractUcanFromCookie headers).elim (.error .missingToken) fun t =>
    .ok ("Bearer " ++ t)

/-- The rule of `delete_account`: signed by the user, or a first-party token. -/
def mayDelete (user : PublicKey) (ucan : Ucan) : Except AuthError Unit :=
  match ucan.issuer with
  | none => .error .invalidToken
  | some issuer =>
    if issuer = user || (ucan.fact "first_party" Json.asBool).getD false then .ok ()
    else .error (.forbidden
      "Account deletion requires the Divine app or web login with your private key")

/-- Drop the handlers of several bunkers, one after the other. -/
def invalidateBunkers {ε : Type} (w : Web) (inst : InstanceId) : List PublicKey →
    Prog Stmt State ε Unit
  | [] => return ()
  | b :: bs => do
    .write (.invalidateHandlers inst b) fun s => s.invalidateHandlersForBunker w inst b
    invalidateBunkers w inst bs

/-- Tell the daemon about them. -/
def sendRemoves {ε : Type} : List PublicKey → Prog Stmt State ε Unit
  | [] => return ()
  | b :: bs => do
    .write (.sendRemove b) id
    sendRemoves bs

/-- The transaction of `delete_account`; a customer's sign-in links go too. -/
def deletion (w : Web) (now : Timestamp) (db : Db) (user : PublicKey) (tenant : TenantId) :
    Except RepositoryError Db.DeleteAccountResult × Db :=
  if w.customerTenant = some tenant then db.deleteCustomerAccount now user tenant
  else db.deleteAccount user tenant

/-- `delete_account`: the deleted user. -/
def deleteAccount (w : Web) (inst : InstanceId) (headers : Headers) (tenant : TenantId) :
    Prog Stmt State AuthError PublicKey := do
  let authHeader ← .ofExcept (deletionHeader headers)
  let now ← .read .clock (·.now)
  let (user, _, _, ucan) ← .ofExcept ((validateUcanToken w now authHeader tenant).mapError fun _ =>
    .invalidToken)
  .ofExcept (mayDelete user ucan)
  let result ← inTransaction (.deleteAccount user tenant) fun s =>
    let (result, db) := deletion w s.now s.db user tenant
    (result.mapError fun e => .database e.toText, db)
  invalidateBunkers w inst result.bunkerPubkeys
  sendRemoves result.bunkerPubkeys
  return user

/-! ## How the two that close an account succeed -/

theorem claimPost_ok {w : Web} {tenant : TenantId} {form : ClaimForm} {s s' : State}
    {user : PublicKey} {token : String}
    (h : (claimPost w tenant form).run s = (.ok (user, token), s')) :
    ∃ t email hash db, s.db.findValidClaimToken s.now form.token = some t ∧ t.userPubkey = user ∧
      s.db.claimAccount user tenant email hash = .ok db ∧
      s' = s.withDb (db.markUsed s.now form.token) := by
  unfold claimPost at h
  obtain ⟨o, _, h₁, h⟩ := Prog.run_bind_ok.mp h
  obtain ⟨rfl, rfl⟩ := Prog.run_read_ok.mp h₁
  obtain ⟨t, _, h₂, h⟩ := Prog.run_bind_ok.mp h
  obtain ⟨ht, rfl⟩ := Prog.run_orErr_ok.mp h₂
  obtain ⟨_, _, h₃, h⟩ := Prog.run_bind_ok.mp h
  obtain ⟨-, rfl⟩ := Prog.run_ofExcept_ok.mp h₃
  obtain ⟨taken, _, h₄, h⟩ := Prog.run_bind_ok.mp h
  obtain ⟨-, rfl⟩ := Prog.run_read_ok.mp h₄
  split at h
  · cases h
  obtain ⟨hash, _, h₅, h⟩ := Prog.run_bind_ok.mp h
  obtain ⟨-, rfl⟩ := Prog.run_ofExcept_ok.mp h₅
  obtain ⟨_, _, h₆, h⟩ := Prog.run_bind_ok.mp h
  obtain ⟨db, hclaim, rfl⟩ := run_transact_ok h₆
  obtain ⟨_, _, h₇, h⟩ := Prog.run_bind_ok.mp h
  rw [Prog.run_write_ok] at h₇
  subst h₇
  obtain ⟨_, _, h₈, h⟩ := Prog.run_bind_ok.mp h
  obtain ⟨-, rfl⟩ := Prog.run_ofExcept_ok.mp h₈
  obtain ⟨_, _, h₉, h⟩ := Prog.run_bind_ok.mp h
  obtain ⟨-, rfl⟩ := Prog.run_ofExcept_ok.mp h₉
  obtain ⟨_, _, h₁₀, h⟩ := Prog.run_bind_ok.mp h
  obtain ⟨-, rfl⟩ := Prog.run_read_ok.mp h₁₀
  obtain ⟨_, _, h₁₁, h⟩ := Prog.run_bind_ok.mp h
  obtain ⟨-, rfl⟩ := Prog.run_ofExcept_ok.mp h₁₁
  obtain ⟨heq, rfl⟩ := Prog.run_ret_ok.mp h
  cases heq
  obtain ⟨db', hdb, heq⟩ := Option.map_eq_some_iff.mp hclaim
  cases heq
  refine ⟨t, w.toLowercase form.email, hash, db, ht, rfl, ?_, rfl⟩
  generalize s.db.claimAccount t.userPubkey tenant (w.toLowercase form.email) hash = result at hdb
  cases result with
  | error e => cases hdb
  | ok db' => cases hdb; rfl

/-- Whose session a deletion comes with. -/
def deletionUser (w : Web) (now : Timestamp) (headers : Headers) (tenant : TenantId) :
    Option PublicKey :=
  (deletionHeader headers).toOption.bind fun authHeader =>
    (validateUcanToken w now authHeader tenant).toOption.map (·.1)

/-- What came before a deletion that succeeded, and what it did. -/
theorem deleteAccount_validated {w : Web} {inst : InstanceId} {headers : Headers}
    {tenant : TenantId}
    {s s' : State} {user : PublicKey}
    (h : (deleteAccount w inst headers tenant).run s = (.ok user, s')) :
    (∃ authHeader origin bunker ucan, deletionHeader headers = .ok authHeader ∧
      validateUcanToken w s.now authHeader tenant = .ok (user, origin, bunker, ucan) ∧
      mayDelete user ucan = .ok ()) ∧
      ∃ result db, deletion w s.now s.db user tenant = (.ok result, db) ∧
        s' = ((sendRemoves result.bunkerPubkeys : Prog Stmt State AuthError Unit).run
          ((invalidateBunkers w inst result.bunkerPubkeys : Prog Stmt State AuthError Unit).run
            (s.withDb db)).2).2 := by
  unfold deleteAccount at h
  obtain ⟨authHeader, _, h₁, h⟩ := Prog.run_bind_ok.mp h
  obtain ⟨hheader, rfl⟩ := Prog.run_ofExcept_ok.mp h₁
  obtain ⟨now, _, h₂, h⟩ := Prog.run_bind_ok.mp h
  obtain ⟨rfl, rfl⟩ := Prog.run_read_ok.mp h₂
  obtain ⟨⟨user', origin, bunker, ucan⟩, _, h₃, h⟩ := Prog.run_bind_ok.mp h
  obtain ⟨hvalid, rfl⟩ := Prog.run_ofExcept_ok.mp h₃
  obtain ⟨⟨⟩, _, h₄, h⟩ := Prog.run_bind_ok.mp h
  obtain ⟨hmay, rfl⟩ := Prog.run_ofExcept_ok.mp h₄
  obtain ⟨result, _, h₅, h⟩ := Prog.run_bind_ok.mp h
  obtain ⟨db, hdelete, rfl⟩ := run_inTransaction_ok h₅
  obtain ⟨_, s₁, h₆, h⟩ := Prog.run_bind_ok.mp h
  obtain ⟨_, s₂, h₇, h⟩ := Prog.run_bind_ok.mp h
  obtain ⟨rfl, rfl⟩ := Prog.run_ret_ok.mp h
  -- the error gets another name, the tables are those of the transaction
  have hdeletion : deletion w s.now s.db user' tenant = (.ok result, db) := by
    rcases hd : deletion w s.now s.db user' tenant with ⟨r, db'⟩
    simp only [hd, Prod.mk.injEq] at hdelete
    obtain ⟨hok, rfl⟩ := hdelete
    rw [mapError_eq_ok.mp hok]
  exact ⟨⟨authHeader, origin, bunker, ucan, hheader, mapError_eq_ok.mp hvalid, hmay⟩, result,
    db, hdeletion,
    by rw [h₆, h₇]⟩

theorem deleteAccount_ok {w : Web} {inst : InstanceId} {headers : Headers} {tenant : TenantId}
    {s s' : State} {user : PublicKey}
    (h : (deleteAccount w inst headers tenant).run s = (.ok user, s')) :
    deletionUser w s.now headers tenant = some user ∧
      ∃ result db, deletion w s.now s.db user tenant = (.ok result, db) ∧
        s' = ((sendRemoves result.bunkerPubkeys : Prog Stmt State AuthError Unit).run
          ((invalidateBunkers w inst result.bunkerPubkeys : Prog Stmt State AuthError Unit).run
            (s.withDb db)).2).2 := by
  obtain ⟨⟨authHeader, origin, bunker, ucan, hheader, hvalid, -⟩, hdeletion⟩ :=
    deleteAccount_validated h
  refine ⟨?_, hdeletion⟩
  unfold deletionUser
  simp [hheader, Except.toOption, hvalid]

/-- Either transaction of a deletion does the same to the two tables. -/
theorem deletion_eq {w : Web} {now : Timestamp} {db db' : Db} {user : PublicKey} {tenant : TenantId}
    {result : Db.DeleteAccountResult} (h : deletion w now db user tenant = (.ok result, db')) :
    (∃ r ∈ db.users, r.pubkey = user) ∧ db'.users = db.users.filter (·.pubkey != user) ∧
      db'.personalKeys = db.personalKeys.filter (·.userPubkey != user) := by
  unfold deletion at h
  split at h
  · -- the notice and the links are in no table of these
    have hrun := Db.run_deleteCustomerAccountIn (Prog.transaction_ok.mp h)
    have hplain :
      Db.deleteAccount ((db.insertNotice now user tenant).deleteLinksOf user tenant) user tenant =
        (.ok result, db') := Prog.transaction_ok.mpr hrun
    obtain ⟨huser, husers, hkeys⟩ := Db.deleteAccount_eq hplain
    exact ⟨huser, husers, hkeys⟩
  · exact Db.deleteAccount_eq h

theorem deletion_error {w : Web} {now : Timestamp} {db db' : Db} {user : PublicKey}
    {tenant : TenantId}
    {e : RepositoryError} (h : deletion w now db user tenant = (.error e, db')) : db' = db := by
  unfold deletion at h
  split at h
  · exact Prog.transaction_error h
  · exact Prog.transaction_error h

/-! ## What the endpoints do to the shared state -/

section Steps

variable {w : Web} {G : State → State → Prop}

theorem issuePreloadUcan_steps (hrefl : ∀ s, G s s) (user : PublicKey) (tenant : TenantId)
    (serverKeys : Keys) (admin : PublicKey) :
    (issuePreloadUcan w user tenant serverKeys admin).Steps G :=
  .bind (.read hrefl _ _) fun _ => .ofExcept _

theorem preloadUser_steps (hrefl : ∀ s, G s s) (tenant : TenantId) (auth : UcanAuth) (fresh : Keys)
    (req : PreloadUserRequest)
    (hcreate : ∀ s enc db, s.db.createPreloadedUser (w.publicKey fresh) tenant req.vineId
      req.username enc = some db → G s (s.withDb db)) :
    (preloadUser w tenant auth fresh req).Steps G := by
  unfold preloadUser
  split
  · trivial
  · refine .bind (.ofExcept _) fun serverKeys => .bind (.read hrefl _ _) fun existing => ?_
    split
    · exact .bind (.ofExcept _) fun _ =>
        .bind (issuePreloadUcan_steps hrefl _ _ _ _) fun _ => trivial
    · refine .bind (.read hrefl _ _) fun taken => ?_
      split
      · trivial
      · refine .bind (.ofExcept _) fun enc => .bind (transact_steps hrefl _ _ fun s b db h => ?_)
          fun _ => .bind (issuePreloadUcan_steps hrefl _ _ _ _) fun _ => trivial
        obtain ⟨db', hdb, heq⟩ := Option.map_eq_some_iff.mp h
        cases heq
        exact hcreate s enc db hdb

theorem getUserToken_steps (hrefl : ∀ s, G s s) (tenant : TenantId) (auth : UcanAuth)
    (pubkey : String) : (getUserToken w tenant auth pubkey).Steps G := by
  unfold getUserToken
  split
  · trivial
  · refine .bind (.ofExcept _) fun user => .bind (.read hrefl _ _) fun unclaimed => ?_
    split
    · trivial
    · trivial
    · exact .bind (.ofExcept _) fun _ => issuePreloadUcan_steps hrefl _ _ _ _

theorem claimPost_steps (hrefl : ∀ s, G s s) (tenant : TenantId) (form : ClaimForm)
    (hclaim : ∀ s user email hash db, s.db.claimAccount user tenant email hash = .ok db →
      G s (s.withDb db))
    (hused : ∀ s, G s (s.withDb (s.db.markUsed s.now form.token))) :
    (claimPost w tenant form).Steps G := by
  refine .bind (.read hrefl _ _) fun _ => .bind (.orErr _ _) fun claimToken =>
    .bind (.ofExcept _) fun _ => .bind (.read hrefl _ _) fun taken => ?_
  split
  · trivial
  · refine .bind (.ofExcept _) fun hash => .bind (transact_steps hrefl _ _ fun s b db h => ?_)
      fun _ => .bind (.write _ hused) fun _ => .bind (.ofExcept _) fun _ => .bind (.ofExcept _)
      fun _ => .bind (.read hrefl _ _) fun _ => .bind (.ofExcept _) fun _ => trivial
    obtain ⟨db', hdb, heq⟩ := Option.map_eq_some_iff.mp h
    cases heq
    refine hclaim s claimToken.userPubkey (w.toLowercase form.email) hash db ?_
    generalize s.db.claimAccount claimToken.userPubkey tenant _ hash = result at hdb
    cases result with
    | error e => cases hdb
    | ok db' => cases hdb; rfl

theorem changeKey_steps (hrefl : ∀ s, G s s) (inst : InstanceId) (headers : Headers)
    (tenant : TenantId) (fresh : Keys) (req : ChangeKeyRequest)
    (hchange : ∀ s oldPubkey keys email hash enc n db, s.db.changeKeyTransaction oldPubkey
      (w.publicKey keys) tenant email hash enc = some (n, db) → G s (s.withDb db))
    (hinvalidate : ∀ s user, G s (s.invalidateHandlersForUser inst user)) :
    (changeKey w inst headers tenant fresh req).Steps G := by
  refine .bind (.read hrefl _ _) fun _ => .bind (.ofExcept _) fun _ =>
    .bind (.read hrefl _ _) fun _ =>
    .bind (.ofExcept _) fun _ => .bind (.orErr _ _) fun _ => .bind (.ofExcept _) fun valid => ?_
  split
  · trivial
  · refine .bind (.ofExcept _) fun keys => .bind (.read hrefl _ _) fun taken => ?_
    split
    · trivial
    · refine .bind (.ofExcept _) fun enc => .bind (transact_steps hrefl _ _ fun s n db h => ?_)
        fun _ => .bind (.write _ fun s => hinvalidate s _) fun _ => .bind (.write _ hrefl) fun _ =>
        .bind (.orErr _ _) fun _ => .bind (.read hrefl _ _) fun _ => .bind (.ofExcept _) fun _ =>
        trivial
      exact hchange s _ keys _ _ enc n db h

theorem invalidateBunkers_steps {ε : Type} (inst : InstanceId)
    (hinvalidate : ∀ s b, G s (s.invalidateHandlersForBunker w inst b)) (bs : List PublicKey) :
    (invalidateBunkers w inst bs : Prog Stmt State ε Unit).Steps G := by
  induction bs with
  | nil => trivial
  | cons b bs ih => exact .bind (.write _ fun s => hinvalidate s b) fun _ => ih

theorem sendRemoves_steps {ε : Type} (hrefl : ∀ s, G s s) (bs : List PublicKey) :
    (sendRemoves bs : Prog Stmt State ε Unit).Steps G := by
  induction bs with
  | nil => trivial
  | cons b bs ih => exact .bind (.write _ hrefl) fun _ => ih

theorem deleteAccount_steps (hrefl : ∀ s, G s s) (inst : InstanceId) (headers : Headers)
    (tenant : TenantId)
    (hdelete : ∀ s user r db, deletion w s.now s.db user tenant = (.ok r, db) → G s (s.withDb db))
    (hinvalidate : ∀ s b, G s (s.invalidateHandlersForBunker w inst b)) :
    (deleteAccount w inst headers tenant).Steps G := by
  refine .bind (.ofExcept _) fun _ => .bind (.read hrefl _ _) fun _ =>
    .bind (.ofExcept _) fun ⟨user, _⟩ =>
    .bind (.ofExcept _) fun _ =>
      .bind (inTransaction_steps hrefl _ (fun s e db h => ?_) fun s r db h => ?_)
    fun _ => .bind (invalidateBunkers_steps inst hinvalidate _) fun _ =>
    .bind (sendRemoves_steps hrefl _) fun _ => trivial
  · rcases hd : deletion w s.now s.db user tenant with ⟨e' | r, db'⟩
    · simp only [hd, Prod.mk.injEq] at h
      obtain ⟨-, rfl⟩ := h
      exact deletion_error hd
    · simp [hd, Except.mapError] at h
  · rcases hd : deletion w s.now s.db user tenant with ⟨r', db'⟩
    simp only [hd, Prod.mk.injEq] at h
    obtain ⟨hok, rfl⟩ := h
    rw [mapError_eq_ok.mp hok] at hd
    exact hdelete s user r _ hd

end Steps

end Keycast.Http
