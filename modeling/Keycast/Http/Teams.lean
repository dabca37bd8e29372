import Keycast.Core.Teams
import Keycast.Http.Account

/-!
# `Http/Teams.lean` — the endpoints of teams

`api/src/api/http/teams.rs`, and of `admin.rs` what a support admin or a full admin does to
memberships. Whoever calls is known by `auth`. Every endpoint of a team asks `verify_admin` first,
which takes a full admin, or an admin of the team, and does not look at the tenant.

What the responses carry beside the rows (display names, the mark of a support member, the text of
the invitation mail) is left out.
-/

set_option autoImplicit false

namespace Keycast.Http

open Lib

/-- A statement that can fail, with what the handler makes of the repository's error. -/
def executing (l : Stmt) (toError : RepositoryError → ApiError)
    (f : State → Except RepositoryError Db) :
    Prog Stmt State ApiError Unit :=
  .tryStmt l fun s => ((f s).map fun db => ((), s.withDb db)).mapError toError

/-! ## Members -/

/-- `is_full_admin_by_pubkey`. -/
def isFullAdminByPubkey (w : Web) (pubkey : PublicKey) : Bool := isFullAdmin w ⟨pubkey, none⟩

/-- `verify_admin`. -/
def verifyAdmin (w : Web) (pubkey : PublicKey) (team : RowId) : Prog Stmt State ApiError Unit := do
  if isFullAdminByPubkey w pubkey then return ()
  else
    let key ← .ofExcept ((w.publicKeyFromHex pubkey).mapError fun _ => .badRequest "Invalid pubkey")
    let admin ← .read .isTeamAdmin fun s => s.db.isTeamAdmin key team
    if admin then return () else .err (.forbidden "You are not authorized to access this team")

structure AddTeammateRequest where
  userPubkey : String
  role : TeamUserRole
  deriving DecidableEq, Repr

/-- `add_user`. -/
def addUser (w : Web) (tenant : TenantId) (auth : UcanAuth) (team : RowId)
    (req : AddTeammateRequest) :
    Prog Stmt State ApiError Unit := do
  verifyAdmin w auth.pubkey team
  let user ← .ofExcept ((w.publicKeyFromHex req.userPubkey).mapError .badRequest)
  let member ← .read .isMember fun s => s.db.isMember team user
  if member then .err (.badRequest "User already a member of this team")
  else
    .write .findOrCreateUser fun s => s.withDb (s.db.findOrCreateUser s.now tenant user)
    executing (.addMember team user) .ofRepository fun s => s.db.addMember team user req.role

/-- The check of `remove_user`, which is made only for the caller's own membership. -/
def otherAdminRemains (team : RowId) (caller user : PublicKey) : Prog Stmt State ApiError Unit := do
  if caller = user then
    let remaining ← .read (.countOtherAdmins team user) fun s => s.db.countOtherAdmins team user
    if remaining = 0 then .err (.forbidden "Cannot delete the last admin from the team.")
    else return ()
  else return ()

/-- `remove_user`. -/
def removeUser (w : Web) (auth : UcanAuth) (team : RowId) (userPubkey : String) :
    Prog Stmt State ApiError Unit := do
  verifyAdmin w auth.pubkey team
  let user ← .ofExcept ((w.publicKeyFromHex userPubkey).mapError .badRequest)
  otherAdminRemains team auth.pubkey user
  .write (.removeMember team user) fun s => s.withDb (s.db.removeMember team user)

/-! ## Keys, policies, authorizations -/

/-- `add_key`. `id` is the id the row will get. -/
def addKey (w : Web) (tenant : TenantId) (auth : UcanAuth) (team : RowId) (id : RowId)
    (secretKey : String) :
    Prog Stmt State ApiError Unit := do
  verifyAdmin w auth.pubkey team
  let keys ← .ofExcept ((w.keysParse secretKey).mapError .badRequest)
  let encrypted ← .ofExcept ((w.kmsEncrypt (w.toSecretBytes keys)).mapError .badRequest)
  executing .createStoredKey (.internal ·.toText) fun s =>
    s.db.createStoredKey id tenant team (w.publicKey keys) encrypted

/-- `AVAILABLE_PERMISSIONS`. -/
def availablePermissions : List String :=
  ["allowed_kinds", "commerce_envelope", "content_filter", "decrypt_only", "encrypt_to_self",
    "full_access"]

/-- `add_policy`. The ids are those the rows will get; an identifier that is not known is
skipped. -/
def addPolicy (w : Web) (auth : UcanAuth) (team : RowId) (id : RowId)
    (permissions : List (RowId × String × Json)) : Prog Stmt State ApiError Unit := do
  verifyAdmin w auth.pubkey team
  let rows := (permissions.filter fun p => availablePermissions.contains p.2.1).map
    fun p => ⟨p.1, p.2.1, w.renderJson p.2.2⟩
  executing .createPolicy .ofRepository fun s => s.db.createPolicyWithPermissions team id rows

structure AddAuthorizationRequest where
  policyId : RowId
  expiresAt : Option Timestamp
  label : Option String
  deriving DecidableEq, Repr

/-- `add_authorization`. The secret's hash comes from the pool, `none` when that is exhausted. -/
def addAuthorization (w : Web) (tenant : TenantId) (auth : UcanAuth) (team : RowId) (id : RowId)
    (secretHash : Option String) (pubkey : String) (req : AddAuthorizationRequest) :
    Prog Stmt State ApiError Unit := do
  verifyAdmin w auth.pubkey team
  let key ← .ofExcept ((w.publicKeyFromHex pubkey).mapError .badRequest)
  let found ← .read .findStoredKey fun s => s.db.findStoredKey tenant team key
  let stored ← .orErr found (.notFound "Stored key not found")
  let known ← .read .policyExistsForTeam fun s => s.db.policyExistsForTeam team req.policyId
  if !known then .err (.notFound "Policy not found")
  else
    let hash ← .orErr secretHash (.internal "Secret pool exhausted")
    let bunkerKeys ← .orErr (w.bunkerKeysFrom stored.secretKey hash)
      (.internal "Invalid stored key")
    executing .createAuthorization (.internal ·.toText) fun s => s.db.createAuthorization
      { id, tenantId := tenant, storedKeyId := stored.id, bunkerPublicKey := w.publicKey bunkerKeys
        secretHash := hash, policyId := req.policyId, expiresAt :=
          req.expiresAt, label := req.label }

/-- `delete_team`. -/
def deleteTeam (w : Web) (tenant : TenantId) (auth : UcanAuth) (team : RowId) :
    Prog Stmt State ApiError Unit := do
  verifyAdmin w auth.pubkey team
  inTransaction .deleteTeam fun s =>
    let (result, db) := s.db.deleteTeamWithRows tenant team
    (result.mapError fun e => .internal ("Failed to delete team: " ++ e.toText), db)

/-! ## Invitations -/

/-- `email.trim().to_lowercase()`. -/
def normalized (w : Web) (email : String) : String := w.toLowercase (String.ofList (trimmed email))

/-- The email of the caller, `none` when there is no such row; a `NULL` does not decode. -/
def callerEmail (db : Db) (pubkey : PublicKey) (tenant : TenantId) :
    Except ApiError (Option String) :=
  match db.users.find? (Db.isUser pubkey tenant) with
  | none => .ok none
  | some u =>
    u.email.elim (.error (.internal "Failed to look up caller email: unexpected null")) (.ok ∘ some)

inductive InviteResponse
  | added (user : PublicKey)
  /-- With the mail that goes out. -/
  | invited (address token : String)
  deriving DecidableEq, Repr

/-- Whoever has the address is added. -/
def addInvited (w : Web) (tenant : TenantId) (team : RowId) (role : TeamUserRole)
    (user : PublicKey) :
    Prog Stmt State ApiError InviteResponse := do
  let member ← .read .isMember fun s => s.db.isMember team user
  if member then .err (.conflict "Already a team member")
  else
    let key ← .ofExcept
      ((w.publicKeyFromHex user).mapError fun _ => .internal "Invalid stored pubkey")
    .write .findOrCreateUser fun s => s.withDb (s.db.findOrCreateUser s.now tenant key)
    executing (.addMember team user) .ofRepository fun s => s.db.addMember team user role
    return .added user

/-- Nobody has it yet: a link is mailed. The team is looked up for the text of the mail, after the
invitation is stored. -/
def mailInvitation (tenant : TenantId) (caller : PublicKey) (team : RowId) (role : TeamUserRole)
    (token email : String) : Prog Stmt State ApiError InviteResponse := do
  let earlier ← .read .findInvitation fun s => s.db.findPendingInvitation s.now team email
  if earlier.isSome then .err (.conflict "Invitation already pending for this email")
  else
    executing .createInvitation .ofRepository fun s =>
      s.db.createInvitation s.now team tenant email role token caller
    let row ← .read .findTeam fun s => s.db.findTeam tenant team
    let _ ← .orErr row (.notFound "record not found")
    return .invited email token

/-- `invite_user`. `allowed` is the answer of the rate limiter. -/
def inviteUser (w : Web) (tenant : TenantId) (auth : UcanAuth) (allowed : Bool) (token : String)
    (team : RowId) (email : String)
    (role : TeamUserRole) : Prog Stmt State ApiError InviteResponse := do
  verifyAdmin w auth.pubkey team
  let email := normalized w email
  if !allowed then .err .tooManyRequests
  else if !email.toList.contains '@' || decide (email.utf8ByteSize < 5) then
    .err (.badRequest "Invalid email address")
  else
    let found ← .read .callerEmail fun s => callerEmail s.db auth.pubkey tenant
    let mine ← .ofExcept found
    if mine.any fun own => w.toLowercase own == email then
      .err (.badRequest "Cannot invite yourself")
    else
      let existing ← .read .findPubkeyByEmail fun s => s.db.findPubkeyByEmail email tenant
      match existing with
      | some user => addInvited w tenant team role user
      | none => mailInvitation tenant auth.pubkey team role token email

/-- `accept_invitation`. -/
def acceptInvitation (w : Web) (tenant : TenantId) (auth : UcanAuth) (token : String) :
    Prog Stmt State ApiError (RowId × TeamUserRole) := do
  let found ← .read .findInvitation fun s => s.db.findValidInvitation s.now token
  let invitation ← .orErr found (.notFound "Invitation not found or expired")
  if invitation.tenantId ≠ tenant then .err (.notFound "Invitation not found or expired")
  else
    let own ← .read .getEmail fun s =>
      (s.db.users.find? (Db.isUser auth.pubkey tenant)).bind (·.email)
    let email ← .orErr own (.badRequest "Could not retrieve your email address")
    if w.toLowercase email ≠ w.toLowercase invitation.email then
      .err (.forbidden "This invitation was sent to a different email address")
    else
      let member ← .read .isMember fun s => s.db.isMember invitation.teamId auth.pubkey
      if member then .err (.conflict "You are already a member of this team")
      else
        executing (.addMember invitation.teamId auth.pubkey) .ofRepository fun s =>
          s.db.addMember invitation.teamId auth.pubkey invitation.role
        executing (.acceptInvitation token)
          (.internal <| "Failed to mark invitation as accepted: " ++ ·.toText) fun s =>
          s.db.acceptInvitation s.now token auth.pubkey
        return (invitation.teamId, invitation.role)

/-- `revoke_invitation`. -/
def revokeInvitation (w : Web) (tenant : TenantId) (auth : UcanAuth) (team id : RowId) :
    Prog Stmt State ApiError Unit := do
  verifyAdmin w auth.pubkey team
  executing .revokeInvitation .ofRepository fun s => s.db.revokeInvitation s.now id team tenant

/-! ## Admins -/

/-- `is_support_admin`; `listed` is the answer of Redis. -/
def isSupportAdmin (w : Web) (auth : UcanAuth) (listed : Bool) : Bool :=
  isFullAdmin w auth || auth.adminRole == some "support" || listed

/-- `AllowedKindsConfig::default()`, which allows every kind. -/
def allowedKindsDefault : Json := .obj [("allowed_kinds", .null)]

/-- `create_team`, with the ids its rows will get. Whoever is in no team of the tenant may have a
first one. `listed` is the answer of Redis. -/
def createTeam (w : Web) (tenant : TenantId) (auth : UcanAuth) (listed : Bool)
    (team policy permission : RowId) :
    Prog Stmt State ApiError RowId := do
  let user ← .ofExcept
    ((w.publicKeyFromHex auth.pubkey).mapError fun _ => .badRequest "Invalid pubkey")
  let memberships ← .read .countTeamsOf fun s => s.db.countTeamsOf user tenant
  if !isSupportAdmin w auth listed && memberships ≠ 0 then
    .err (.forbidden "Team creation is restricted to authorized users. Contact admin for access.")
  else
    executing .createTeam .ofRepository fun s =>
      s.db.createWithAdmin s.now tenant auth.pubkey team policy permission
      (w.renderJson allowedKindsDefault)
    return team

/-- The loop of `release_team_support_access`. The notices to the signer follow each row that was
still live. -/
def revokeSupport (w : Web) (inst : InstanceId) (tenant : TenantId) :
    List Authorization → Prog Stmt State ApiError Unit
  | [] => return ()
  | a :: rest => do
    let live ← .stmt .revokeAuthorization fun s =>
      ((s.db.teamFind tenant a.id).any (·.revokedAt.isNone),
        s.withDb (s.db.revokeTeam s.now tenant a.id (some "support_session_end")))
    if live then
      .write (.invalidateHandlers inst a.bunkerPublicKey) fun s =>
        s.invalidateHandlersForBunker w inst a.bunkerPublicKey
      .write (.sendRemove a.bunkerPublicKey) id
    revokeSupport w inst tenant rest

/-- `release_team_support_access`: whether the membership was removed. -/
def releaseTeamSupportAccess (w : Web) (inst : InstanceId) (tenant : TenantId) (auth : UcanAuth)
    (listed : Bool) (team : RowId) : Prog Stmt State ApiError Bool := do
  if !isSupportAdmin w auth listed then .err (.forbidden "Support admin access required")
  else
    let row ← .read .findTeam fun s => s.db.findTeam tenant team
    let _ ← .orErr row (.notFound "Team not found")
    let active ← .read .findActiveSupport fun s => s.db.findActiveSupport tenant team auth.pubkey
    revokeSupport w inst tenant active
    let member ← .read .getMember fun s => s.db.getMember team auth.pubkey
    if member.any fun m => m.role == .member then
      .write (.removeMember team auth.pubkey) fun s => s.withDb (s.db.removeMember team auth.pubkey)
      return true
    else return false

/-- `len() == 64` and all of them `is_ascii_hexdigit`. -/
def isHexPubkey (pubkey : List Char) : Bool :=
  pubkey.length == 64 && pubkey.all fun c => c.isDigit || ('a' ≤ c && c ≤ 'f') ||
    ('A' ≤ c && c ≤ 'F')

/-- `delete_user` of the admins. It asks for the teams of its own tenant only. -/
def adminDeleteUser (w : Web) (inst : InstanceId) (tenant : TenantId) (auth : UcanAuth)
    (pubkey : String) :
    Prog Stmt State ApiError Unit := do
  if !isFullAdmin w auth then .err (.forbidden "Full admin access required")
  else
    let user := normalized w pubkey
    if !isHexPubkey user.toList then .err (.badRequest "pubkey must be a 64-char hex string")
    else
      let teams ← .read .countTeamsOf fun s => s.db.countTeamsOf user tenant
      if teams ≠ 0 then .err (.conflict "User still belongs to a team; delete the restaurant first")
      else
        let result ← inTransaction (.deleteAccount user tenant) fun s =>
          let (result, db) := s.db.deleteAccount user tenant
          (result.mapError fun e => match e with
            | .notFound _ => .notFound "User not found"
            | e => .internal ("Failed to delete user: " ++ e.toText), db)
        invalidateBunkers w inst result.bunkerPubkeys
        sendRemoves result.bunkerPubkeys

/-! ## How the calls end -/

/-- The caller passes `verify_admin`. -/
def admits (w : Web) (db : Db) (pubkey : PublicKey) (team : RowId) : Bool :=
  isFullAdminByPubkey w pubkey ||
    (w.publicKeyFromHex pubkey).toOption.any fun key => db.isTeamAdmin key team

/-- `invite_user` comes to look for the address, which is normalized here. -/
def mayInvite (w : Web) (db : Db) (tenant : TenantId) (pubkey : PublicKey) (allowed : Bool)
    (team : RowId)
    (email : String) : Bool :=
  admits w db pubkey team && allowed && email.toList.contains '@' &&
    !decide (email.utf8ByteSize < 5) &&
    (callerEmail db pubkey tenant).toOption.any fun mine => !mine.any fun own =>
      w.toLowercase own == email

section Ends

variable {w : Web} {tenant : TenantId} {team : RowId} {s : State}

theorem verifyAdmin_ends {α : Type} {pubkey : PublicKey} {Q : Except ApiError α → State → Prop}
    {f : Unit → Prog Stmt State ApiError α}
    (hdenied : admits w s.db pubkey team = false → ∀ e, Q (.error e) s)
    (hadmitted : admits w s.db pubkey team = true → (f ()).Ends Q s) :
    ((verifyAdmin w pubkey team).bind f).Ends Q s := by
  unfold verifyAdmin
  by_cases hfull : isFullAdminByPubkey w pubkey = true
  · rw [if_pos hfull]
    exact hadmitted (by simp [admits, hfull])
  rw [if_neg hfull]
  rw [Bool.not_eq_true] at hfull
  cases hkey : w.publicKeyFromHex pubkey with
  | error e => exact hdenied (by simp [admits, hfull, hkey, Except.toOption]) _
  | ok key =>
    cases hadmin : s.db.isTeamAdmin key team with
    | false =>
      have hno : admits w s.db pubkey team = false := by
        simp [admits, hfull, hkey, hadmin, Except.toOption]
      simp only [Except.mapError, Prog.bind_def, Prog.ofExcept_ok, Prog.ret_bind, Prog.read_bind,
        Prog.atom_bind,
        Prog.Ends, Prog.run_atom, id, hadmin]
      exact hdenied hno _
    | true =>
      have hyes : admits w s.db pubkey team = true := by
        simp [admits, hkey, hadmin, Except.toOption]
      simp only [Except.mapError, Prog.bind_def, Prog.ofExcept_ok, Prog.ret_bind, Prog.read_bind,
        Prog.atom_bind,
        Prog.Ends, Prog.run_atom, id, hadmin]
      exact hadmitted hyes

theorem executing_ends {α : Type} {l : Stmt} {toError : RepositoryError → ApiError}
    {f : State → Except RepositoryError Db} {Q : Except ApiError α → State → Prop}
    {g : Unit → Prog Stmt State ApiError α} (herr : ∀ e, f s = .error e → Q (.error (toError e)) s)
    (hok : ∀ db, f s = .ok db → (g ()).Ends Q (s.withDb db)) :
    ((executing l toError f).bind g).Ends Q s := by
  unfold executing Prog.tryStmt
  cases hf : f s with
  | error e => simpa [Prog.Ends, hf, Except.map, Except.mapError] using herr e hf
  | ok db => simpa [Prog.Ends, hf, Except.map, Except.mapError] using hok db hf

theorem executing_last {l : Stmt} {toError : RepositoryError → ApiError}
    {f : State → Except RepositoryError Db}
    {Q : Except ApiError Unit → State → Prop}
    (herr : ∀ e, f s = .error e → Q (.error (toError e)) s)
    (hok : ∀ db, f s = .ok db → Q (.ok ()) (s.withDb db)) : (executing l toError f).Ends Q s := by
  unfold executing Prog.tryStmt
  cases hf : f s with
  | error e => simpa [Prog.Ends, hf, Except.map, Except.mapError] using herr e hf
  | ok db => simpa [Prog.Ends, hf, Except.map, Except.mapError] using hok db hf

theorem inviteUser_ends {auth : UcanAuth} {allowed : Bool} {token email : String}
    {role : TeamUserRole}
    {Q : Except ApiError InviteResponse → State → Prop}
    (hrefused : mayInvite w s.db tenant auth.pubkey allowed team (normalized w email) = false →
      ∀ e, Q (.error e) s)
    (hadds : mayInvite w s.db tenant auth.pubkey allowed team (normalized w email) = true →
      ∀ user, s.db.findPubkeyByEmail (normalized w email) tenant = some user →
        (addInvited w tenant team role user).Ends Q s)
    (hmails : mayInvite w s.db tenant auth.pubkey allowed team (normalized w email) = true →
      s.db.findPubkeyByEmail (normalized w email) tenant = none →
        (mailInvitation tenant auth.pubkey team role token (normalized w email)).Ends Q s) :
    (inviteUser w tenant auth allowed token team email role).Ends Q s := by
  unfold inviteUser
  refine verifyAdmin_ends (fun h => hrefused (by simp [mayInvite, h])) fun hadmin => ?_
  dsimp only
  cases hallowed : allowed with
  | false => exact hrefused (by simp [mayInvite, hallowed]) _
  | true =>
    rw [if_neg (by simp)]
    split
    · next hbad => exact hrefused (by revert hbad; simp [mayInvite]; grind) _
    next hgood =>
    refine .read
      (.ofExcept_cases (fun e he => hrefused (by simp [mayInvite, he, Except.toOption]) _)
      fun mine hmine => ?_)
    split
    · next hself => exact hrefused (by simp [mayInvite, hmine, hself, Except.toOption]) _
    next hself =>
    have hmay : mayInvite w s.db tenant auth.pubkey allowed team (normalized w email) = true := by
      revert hgood
      simp [mayInvite, hadmin, hallowed, hmine, hself, Except.toOption]
    refine .read ?_
    split
    · next user hfound => exact hadds hmay user hfound
    · next hfound => exact hmails hmay hfound

end Ends

end Keycast.Http
