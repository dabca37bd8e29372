import Keycast.Core.Credentials
import Keycast.Lib.Utf8
import Keycast.Http.Register

/-!
# `Http/Signup.lean` — signing up by password, and getting back in

`register`, `resend_verification`, `forgot_password`, `reset_password` and `change_password` of
`api/http/auth.rs`, the worker of `bcrypt_queue.rs`, and `create_claim_token` of `admin.rs`. Unlike
the OAuth registrations, `register` creates the user at once; the password's hash comes later, from
the worker. Every answer that must not tell whether an account exists is the same one, so what a
program returns in its place is the mail it sends, if it sends one.
-/

set_option autoImplicit false

namespace Keycast.Http

open Lib

/-- A mail with a token in its link. -/
structure Mail where
  address : String
  token : String
  deriving DecidableEq, Repr

/-! ## Registering -/

structure RegisterRequest where
  email : String
  password : String
  nsec : Option String := none
  redirectUri : Option String := none
  deriving DecidableEq, Repr

structure AuthResponse where
  pubkey : PublicKey
  verificationRequired : Option Bool := none
  email : Option String := none
  deriving DecidableEq, Repr

inductive BcryptQueueError
  | atCapacity
  | shuttingDown
  deriving DecidableEq, Repr

def BcryptQueueError.toAuthError : BcryptQueueError → AuthError
  | .atCapacity => .serviceUnavailable "Server at capacity, please try again" (some 5)
  | .shuttingDown => .serviceUnavailable "Server restarting, please try again" (some 10)

def signupKeys (w : Web) (nsec : Option String) (generated : Keys) : Except AuthError Keys :=
  match nsec with
  | some nsec => (w.keysParse nsec).mapError fun e =>
    .internal ("Invalid nsec or secret key: " ++ e ++
      ". Please provide a valid nsec (bech32) or hex secret key.")
  | none => .ok generated

/-- The `redirect_uri` that is stored. -/
def allowedRedirect (uri : String) : Bool :=
  (stripPrefix "https://" uri).isSome || (stripPrefix "http://localhost" uri).isSome

/-- Whether the key is taken; a generated one is not looked up. -/
def signupKeyKnown (nsec : Option String) (pubkey : PublicKey) (tenant : TenantId) :
    Prog Stmt State AuthError Bool :=
  if nsec.isSome then .read .userExists fun s => s.db.userExists pubkey tenant
  else return false

/-- Queue the password for the worker, with the mail that follows. Without the job the row would
wait for its hash forever, so it is taken back. -/
def queuePassword (tenant : TenantId) (pubkey : PublicKey) (email verificationToken : String) :
    Except BcryptQueueError Unit → Prog Stmt State AuthError (AuthResponse × Mail)
  | .ok () => return (⟨pubkey, some true, some email⟩, ⟨email, verificationToken⟩)
  | .error e => do
    .write .deleteUserRow fun s => s.withDb ((s.db.deleteUserRow pubkey tenant).elim s.db (·.2))
    .write .deletePersonalKey fun s => s.withDb (s.db.deletePersonalKey pubkey tenant)
    .err e.toAuthError

/-- `register`. `queue` is how `try_send` turns out. -/
def register (w : Web) (tenant : TenantId) (allowed : Bool) (generated : Keys)
    (verificationToken : String) (queue : Except BcryptQueueError Unit) (req : RegisterRequest) :
    Prog Stmt State AuthError (AuthResponse × Mail) := do
  let email := w.toLowercase req.email
  if !allowed then .err .tooManyRequests
  else
    let keys ← .ofExcept (signupKeys w req.nsec generated)
    let pubkey := w.publicKey keys
    let known ← signupKeyKnown req.nsec pubkey tenant
    if known then .err .duplicateKey
    else
      let secret ← .ofExcept ((w.kmsEncrypt (w.toSecretBytes keys)).mapError .encryption)
      transact .registerWithPersonalKey .emailAlreadyExists fun s =>
        (s.db.registerWithPersonalKey s.now pubkey tenant email none verificationToken
          (s.now + hours emailVerificationExpiryHours) secret
          (req.redirectUri.filter allowedRedirect)).map (((), ·))
      queuePassword tenant pubkey email verificationToken queue

/-- One job of `bcrypt_worker_loop`. A hash that fails is logged. -/
def bcryptJob (w : Web) (token password : String) : Prog Stmt State AuthError Unit :=
  match w.bcryptHash password with
  | .ok hash => .write .setPasswordHash fun s => s.withDb (s.db.setPasswordHash token hash)
  | .error _ => return ()

/-! ## Verification mails -/

/-- Whom a repeated mail is for: the user of the session, else whoever has the address. -/
def verificationLookup (w : Web) (now : Timestamp) (tenant : TenantId) (headers : Headers)
    (email : Option String) (db : Db) : Option (PublicKey × String × Bool × Option Timestamp) :=
  match extractUserFromToken w now headers tenant, email with
  | .ok user, _ => (db.getVerificationStatus user tenant).map fun status => (user, status)
  | .error _, some email => (db.getVerificationStatusByEmail email tenant).map
      fun (user, verified, sentAt) => (user, email, verified, sentAt)
  | .error _, none => none

/-- At most one mail in five minutes. -/
def sentLately (now : Timestamp) (sentAt : Option Timestamp) : Bool :=
  sentAt.any fun t => decide (now - t < seconds 300)

/-- `resend_verification` and `send_verification_again`. -/
def resendVerification (w : Web) (tenant : TenantId) (headers : Headers) (allowed : Bool)
    (newToken : String) (email : Option String) : Prog Stmt State AuthError (Option Mail) := do
  let email := email.map w.toLowercase
  if !allowed then .err .tooManyRequests
  else
    let found ← .read .getVerificationStatus fun s =>
      (verificationLookup w s.now tenant headers email s.db).filter fun (_, _, verified, sentAt) =>
        !verified && !sentLately s.now sentAt
    match found with
    | none => return none
    | some (user, email, _) =>
      .write .setVerificationToken fun s =>
        s.withDb (s.db.setVerificationToken s.now user tenant newToken
        (s.now + hours emailVerificationExpiryHours))
      return some ⟨email, newToken⟩

/-! ## Passwords -/

/-- `PASSWORD_RESET_EXPIRY_HOURS`. -/
def passwordResetExpiryHours : Int := 1

/-- `forgot_password`. The base URL of the link is left out. -/
def forgotPassword (w : Web) (tenant : TenantId) (allowed : Bool) (resetToken email : String) :
    Prog Stmt State AuthError (Option Mail) := do
  let email := w.toLowercase email
  if !allowed then .err .tooManyRequests
  else
    match ← .read .findPubkeyByEmail fun s => s.db.findPubkeyByEmail email tenant with
    | none => return none
    | some user =>
      .write .setPasswordResetToken fun s =>
        s.withDb (s.db.setPasswordResetToken user tenant resetToken
        (s.now + hours passwordResetExpiryHours))
      return some ⟨email, resetToken⟩

structure ResetPasswordResponse where
  success : Bool
  message : String
  deriving DecidableEq, Repr

/-- `reset_password`. A log line at the top slices the token, whatever it is. -/
def resetPassword (w : Web) (tenant : TenantId) (token newPassword : String) :
    Prog Stmt State AuthError ResetPasswordResponse := do
  let _ ← .orErr (sliceTo token 10) .panicked
  let found ← .read .findByResetToken fun s => s.db.findByResetToken token tenant
  let (user, expiresAt) ← .orErr found .invalidToken
  let now ← .read .clock (·.now)
  if expiresAt.any fun t => decide (t < now) then
    return ⟨false, "Password reset link has expired. Please request a new one."⟩
  else
    let hash ← .ofExcept ((w.bcryptHash newPassword).mapError .passwordHash)
    .write .resetPassword fun s => s.withDb (s.db.resetPassword user tenant hash)
    return ⟨true, "Password reset successfully! You can now log in with your new password."⟩

/-- `change_password`. -/
def changePassword (w : Web) (tenant : TenantId) (headers : Headers)
    (currentPassword newPassword : String) : Prog Stmt State AuthError Unit := do
  let now ← .read .clock (·.now)
  let user ← .ofExcept (extractUserFromToken w now headers tenant)
  if newPassword.utf8ByteSize < 8 then
    .err (.badRequest "New password must be at least 8 characters")
  else
    let credentials ← .read .getCredentials fun s => s.db.getCredentials user tenant
    let credentials ← .ofExcept (credentials.mapError .internal)
    let (_, passwordHash) ← .orErr credentials .userNotFound
    let valid ← .ofExcept ((w.bcryptVerify currentPassword passwordHash).mapError fun _ =>
      .internal "Password verification failed")
    if !valid then .err .invalidCredentials
    else
      let hash ← .ofExcept ((w.bcryptHash newPassword).mapError fun e =>
        .internal ("Password hashing failed: " ++ e))
      .write .updatePassword fun s => s.withDb (s.db.updatePassword user tenant hash)

/-! ## Claim links -/

structure CreateClaimTokenResponse where
  claimUrl : String
  expiresAt : Timestamp
  deriving DecidableEq, Repr

/-- `create_claim_token`. `isSupport` is what `is_support_admin` says, which asks Redis. -/
def createClaimToken (w : Web) (tenant : TenantId) (isSupport : Bool) (token vineId : String) :
    Prog Stmt State ApiError CreateClaimTokenResponse := do
  if !isSupport then .err (.forbidden "Admin access required")
  else
    let user ← .read .findPubkeyByVineId fun s => s.db.findPubkeyByVineId vineId tenant
    let user ← .orErr user (.notFound ("User with vine_id " ++ vineId ++ " not found"))
    let unclaimed ← .read .isUnclaimed fun s => s.db.isUnclaimed user tenant
    if unclaimed ≠ some true then .err (.conflict "User has already claimed their account")
    else
      let expiresAt ← transact .createClaimToken (.badRequest "Already exists") fun s =>
        (s.db.createClaimToken s.now token user tenant).map
          ((s.now + hours (Db.claimTokenExpiryDays * 24), ·))
      return ⟨w.appUrl.getD "http://localhost:3000" ++ "/api/claim?token=" ++ token, expiresAt⟩

end Keycast.Http
