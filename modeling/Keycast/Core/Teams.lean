import Keycast.Core.Schema

/-!
# `Core/Teams.lean` — teams, their members, keys and policies

The statements of `team.rs`, `team_invitation.rs`, `stored_key.rs`, `policy.rs` and, for what they
do to a team, `user.rs` in `core/src/repositories`. `teams` and `stored_keys` have a tenant, and
their queries ask for it; `team_users` and `policies` have none, and theirs cannot.

An id that the database draws from a sequence is an argument of the insert, which fails when it is
taken.
-/

set_option autoImplicit false

namespace Keycast

open Lib

/-- Neither accepted nor revoked: what `uq_pending_invite` goes by, expired or not. -/
def TeamInvitation.unanswered (i : TeamInvitation) : Bool :=
  i.acceptedAt.isNone && i.revokedAt.isNone

/-- `accepted_at IS NULL AND revoked_at IS NULL AND expires_at > NOW()`. -/
def TeamInvitation.pending (now : Timestamp) (i : TeamInvitation) : Bool :=
  i.unanswered && decide (now < i.expiresAt)

namespace Db

/-! ## Teams and members -/

/-- `TeamRepository::find`. -/
def findTeam (db : Db) (tenant : TenantId) (team : RowId) : Option Team :=
  db.teams.find? fun t => t.tenantId == tenant && t.id == team

/-- The key of `team_users`, as far as a `WHERE` goes. -/
def isMembership (team : RowId) (pubkey : PublicKey) (m : TeamUser) : Bool :=
  m.teamId == team && m.userPubkey == pubkey

/-- `UserRepository::is_team_admin`. Its tenant is not used. -/
def isTeamAdmin (db : Db) (pubkey : PublicKey) (team : RowId) : Bool :=
  db.teamUsers.any fun m => isMembership team pubkey m && m.role == .admin

/-- `TeamRepository::is_member`. -/
def isMember (db : Db) (team : RowId) (pubkey : PublicKey) : Bool :=
  db.teamUsers.any (isMembership team pubkey)

/-- `TeamRepository::get_member`. -/
def getMember (db : Db) (team : RowId) (pubkey : PublicKey) : Option TeamUser :=
  db.teamUsers.find? (isMembership team pubkey)

/-- `TeamRepository::count_other_admins`. -/
def countOtherAdmins (db : Db) (team : RowId) (pubkey : PublicKey) : Nat :=
  db.teamUsers.countP fun m => m.teamId == team && m.userPubkey != pubkey && m.role == .admin

/-- `UserRepository::find_or_create`. A key that is known in another tenant stays there. -/
def findOrCreateUser (db : Db) (now : Timestamp) (tenant : TenantId) (pubkey : PublicKey) : Db :=
  if db.users.any (·.pubkey == pubkey) then db
  else { db with users := db.users ++ [{ pubkey, tenantId := tenant, createdAt := now }] }

theorem findOrCreateUser_rows (db : Db) (now : Timestamp) (tenant : TenantId) (user : PublicKey) :
    ∃ users : List User, db.findOrCreateUser now tenant user = { db with users } ∧
      db.users ⊆ users ∧ users.any (·.pubkey == user) = true := by
  unfold findOrCreateUser
  split
  · next hknown => exact ⟨db.users, rfl, List.Subset.refl _, hknown⟩
  · exact ⟨_, rfl, List.subset_append_left _ _, by simp⟩

/-- `TeamRepository::add_member`: one row per team and user, and both are there. -/
def addMember (db : Db) (team : RowId) (pubkey : PublicKey) (role : TeamUserRole) :
    Except RepositoryError Db :=
  if db.isMember team pubkey then .error .duplicate
  else if !db.teams.any (·.id == team) then
    .error (.noReference "team_users" "team_users_team_id_fkey")
  else if !db.users.any (·.pubkey == pubkey) then
    .error (.noReference "team_users" "team_users_user_pubkey_fkey")
  else .ok { db with teamUsers := db.teamUsers ++ [⟨team, pubkey, role⟩] }

theorem addMember_ok {db db' : Db} {team : RowId} {pubkey : PublicKey} {role : TeamUserRole} :
    db.addMember team pubkey role = .ok db' ↔
      db.isMember team pubkey = false ∧ db.teams.any (·.id == team) = true ∧
        db.users.any (·.pubkey == pubkey) = true ∧
        db' = { db with teamUsers := db.teamUsers ++ [⟨team, pubkey, role⟩] } := by
  unfold addMember
  split
  · next hmember => simp [hmember]
  next hmember =>
  split
  · next hteam => simp_all
  next hteam =>
  split
  · next huser => simp_all
  next huser =>
  simp only [Bool.not_eq_true, Bool.not_eq_false'] at hmember hteam huser
  simp only [hmember, hteam, huser, true_and, Except.ok.injEq, eq_comm]

/-- Why it fails, once the user is there. -/
theorem addMember_error {db : Db} {team : RowId} {pubkey : PublicKey} {role : TeamUserRole}
    {e : RepositoryError}
    (h : db.addMember team pubkey role = .error e)
    (huser : db.users.any (·.pubkey == pubkey) = true) :
    db.isMember team pubkey = true ∨ db.teams.any (·.id == team) = false := by
  unfold addMember at h
  split at h
  · next hmember => exact .inl hmember
  split at h
  · next hteam => exact .inr (by simpa using hteam)
  split at h
  · next hmissing => simp [huser] at hmissing
  · cases h

/-- `TeamRepository::remove_member`. -/
def removeMember (db : Db) (team : RowId) (pubkey : PublicKey) : Db :=
  { db with teamUsers := db.teamUsers.filter fun m => !isMembership team pubkey m }

/-- The teams of the tenant that a user belongs to. -/
def countTeamsOf (db : Db) (pubkey : PublicKey) (tenant : TenantId) : Nat :=
  db.teamUsers.countP fun m =>
    m.userPubkey == pubkey && db.teams.any fun t => t.id == m.teamId && t.tenantId == tenant

/-! ## Keys, policies and authorizations of a team -/

/-- `StoredKeyRepository::find_by_pubkey`. -/
def findStoredKey (db : Db) (tenant : TenantId) (team : RowId) (pubkey : PublicKey) :
    Option StoredKey :=
  db.storedKeys.find? fun k => k.tenantId == tenant && k.teamId == some team && k.pubkey == pubkey

/-- `StoredKeyRepository::create`. The team is there, in whatever tenant. -/
def createStoredKey (db : Db) (id : RowId) (tenant : TenantId) (team : RowId) (pubkey : PublicKey)
    (encryptedSecret : Bytes) : Except RepositoryError Db :=
  if db.storedKeys.any (·.id == id) then .error .duplicate
  else if !db.teams.any (·.id == team) then
    .error (.noReference "stored_keys" "stored_keys_team_id_fkey")
  else .ok { db with storedKeys := db.storedKeys ++
    [{ id, tenantId := tenant, secretKey := encryptedSecret, teamId := some team, pubkey }] }

theorem createStoredKey_ok {db db' : Db} {id team : RowId} {tenant : TenantId} {pubkey : PublicKey}
    {secret : Bytes}
    (h : db.createStoredKey id tenant team pubkey secret = .ok db') :
    db.storedKeys.any (·.id == id) = false ∧
      ∃ k : StoredKey, k.teamId = some team ∧
        db' = { db with storedKeys := db.storedKeys ++ [k] } := by
  unfold createStoredKey at h
  split at h
  · cases h
  next hfree =>
  split at h
  · cases h
  cases h
  exact ⟨by simpa using hfree, _, rfl, rfl⟩

theorem createStoredKey_error {db : Db} {id team : RowId} {tenant : TenantId} {pubkey : PublicKey}
    {secret : Bytes}
    {e : RepositoryError} (h : db.createStoredKey id tenant team pubkey secret = .error e) :
    db.storedKeys.any (·.id == id) = true ∨ db.teams.any (·.id == team) = false := by
  unfold createStoredKey at h
  split at h
  · next htaken => exact .inl htaken
  split at h
  · next hteam => exact .inr (by simpa using hteam)
  · cases h

/-- `PolicyRepository::exists_for_team`. -/
def policyExistsForTeam (db : Db) (team policy : RowId) : Bool :=
  db.policies.any fun p => p.teamId == some team && p.id == policy

/-- `PolicyRepository::create_with_permissions`, with the rows of its permissions. -/
def createPolicyWithPermissions (db : Db) (team policy : RowId) (rows : List PermissionRow) :
    Except RepositoryError Db :=
  if rows.any (fun r => db.permissions.any (·.id == r.id)) || !(rows.map (·.id)).Nodup then
    .error .duplicate
  else if db.policies.any (·.id == policy) then .error .duplicate
  else if !db.teams.any (·.id == team) then .error (.noReference "policies" "policies_team_id_fkey")
  else .ok { db with
    permissions := db.permissions ++ rows
    policies := db.policies ++ [{ id := policy, slug := none, teamId := some team }]
    policyPermissions := db.policyPermissions ++ rows.map fun r => ⟨policy, r.id⟩ }

/-- The ids that the rows will get are free. -/
def policyIdsFree (db : Db) (policy : RowId) (rows : List PermissionRow) : Bool :=
  !(rows.any fun r => db.permissions.any (·.id == r.id)) && decide (rows.map (·.id)).Nodup &&
    !db.policies.any (·.id == policy)

theorem createPolicyWithPermissions_ok {db db' : Db} {team policy : RowId}
    {rows : List PermissionRow}
    (h : db.createPolicyWithPermissions team policy rows = .ok db') :
    db.policyIdsFree policy rows = true ∧ db' = { db with
      permissions := db.permissions ++ rows
      policies := db.policies ++ [{ id := policy, slug := none, teamId := some team }]
      policyPermissions := db.policyPermissions ++ rows.map fun r => ⟨policy, r.id⟩ } := by
  unfold createPolicyWithPermissions at h
  split at h
  · cases h
  next hrows =>
  split at h
  · cases h
  next hpolicy =>
  split at h
  · cases h
  cases h
  simp only [Bool.or_eq_true, not_or, Bool.not_eq_true, Bool.not_eq_false'] at hrows hpolicy
  exact ⟨by simp only [policyIdsFree, hrows.1, hrows.2, hpolicy]; rfl, rfl⟩

theorem createPolicyWithPermissions_error {db : Db} {team policy : RowId}
    {rows : List PermissionRow}
    {e : RepositoryError} (h : db.createPolicyWithPermissions team policy rows = .error e) :
    db.policyIdsFree policy rows = false ∨ db.teams.any (·.id == team) = false := by
  unfold createPolicyWithPermissions at h
  unfold policyIdsFree
  split at h
  · next hrows =>
    left
    rw [Bool.or_eq_true] at hrows
    rcases hrows with htaken | hrepeated
    · simp only [htaken, Bool.not_true, Bool.false_and]
    · rw [Bool.not_eq_true'] at hrepeated
      simp only [hrepeated, Bool.and_false, Bool.false_and]
  split at h
  · next hpolicy => exact .inl (by simp [hpolicy])
  split at h
  · next hteam => exact .inr (by simpa using hteam)
  · cases h

/-- `TeamRepository::create_with_admin`: a transaction, with the ids its rows get. The user is put
in the tenant if the key is new, and the team has one policy from the start, with one permission. -/
def createWithAdmin (db : Db) (now : Timestamp) (tenant : TenantId) (admin : PublicKey)
    (team policy permission : RowId) (config : String) : Except RepositoryError Db :=
  let db := db.findOrCreateUser now tenant admin
  if db.teams.any (·.id == team) then .error .duplicate
  else
    match addMember { db with teams := db.teams ++ [⟨team, tenant⟩] } team admin .admin with
    | .error e => .error e
    | .ok db => db.createPolicyWithPermissions team policy [⟨permission, "allowed_kinds", config⟩]

/-- `AuthorizationRepository::create`, with the keys it refers to. -/
def createAuthorization (db : Db) (row : Authorization) : Except RepositoryError Db :=
  if db.authorizations.any (·.id == row.id) then .error .duplicate
  else if !db.policies.any (·.id == row.policyId) then
    .error (.noReference "authorizations" "authorizations_policy_id_fkey")
  else if !db.storedKeys.any (·.id == row.storedKeyId) then
    .error (.noReference "authorizations" "authorizations_stored_key_id_fkey")
  else .ok (db.createTeam row)

/-- `AuthorizationRepository::find_active_support_for_caller`, which goes by the label. -/
def findActiveSupport (db : Db) (tenant : TenantId) (team : RowId) (caller : PublicKey) :
    List Authorization :=
  db.authorizations.filter fun a =>
    a.tenantId == tenant && a.revokedAt.isNone &&
      (a.label.any fun label => ("support:" ++ caller).toList.isPrefixOf label.toList) &&
      db.storedKeys.any fun k => k.id == a.storedKeyId && k.teamId == some team

/-! ## Invitations -/

/-- `INVITATION_EXPIRY_DAYS`. -/
def invitationExpiryDays : Int := 7

/-- `TeamInvitationRepository::find_valid_by_token`. -/
def findValidInvitation (db : Db) (now : Timestamp) (token : String) : Option TeamInvitation :=
  db.teamInvitations.find? fun i => i.token == token && i.pending now

/-- `TeamInvitationRepository::find_pending_by_email`. -/
def findPendingInvitation (db : Db) (now : Timestamp) (team : RowId) (email : String) :
    Option TeamInvitation :=
  db.teamInvitations.find? fun i => i.teamId == team && i.email == email && i.pending now

/-- What the sequence of `team_invitations` gives to the next row. -/
def nextInvitationId (db : Db) : RowId := (db.teamInvitations.map (·.id)).foldl max 0 + 1

/-- `TeamInvitationRepository::create`. The email is a `VARCHAR(255)`, the token is unique, and so
is an open invitation of the email to the team. -/
def createInvitation (db : Db) (now : Timestamp) (team : RowId) (tenant : TenantId) (email : String)
    (role : TeamUserRole) (token : String) (invitedBy : PublicKey) : Except RepositoryError Db :=
  if 255 < email.length then .error (.database "value too long for type character varying(255)")
  else if db.teamInvitations.any (fun i => i.token == token ||
      (i.teamId == team && i.email == email && i.unanswered)) then .error .duplicate
  else if !db.teams.any (·.id == team) then
    .error (.noReference "team_invitations" "team_invitations_team_id_fkey")
  else .ok { db with teamInvitations := db.teamInvitations ++
    [{ id := db.nextInvitationId, teamId := team, tenantId := tenant, email, role, token, invitedBy,
       expiresAt := now + hours (invitationExpiryDays * 24) }] }

/-- The email fits, and neither the token nor an open invitation is there already. -/
def invitationFree (db : Db) (team : RowId) (email token : String) : Bool :=
  !decide (255 < email.length) && !db.teamInvitations.any fun i =>
    i.token == token || (i.teamId == team && i.email == email && i.unanswered)

theorem createInvitation_ok {db db' : Db} {now : Timestamp} {team : RowId} {tenant : TenantId}
    {email token : String} {role : TeamUserRole} {caller : PublicKey}
    (h : db.createInvitation now team tenant email role token caller = .ok db') :
    db.invitationFree team email token = true ∧ ∃ i : TeamInvitation, i.token = token ∧
      i.email = email ∧
      i.teamId = team ∧ db' = { db with teamInvitations := db.teamInvitations ++ [i] } := by
  unfold createInvitation at h
  split at h
  · cases h
  next hlength =>
  split at h
  · cases h
  next hnew =>
  split at h
  · cases h
  cases h
  rw [Bool.not_eq_true] at hnew
  exact ⟨by simp [invitationFree, hlength, hnew], _, rfl, rfl, rfl, rfl⟩

theorem createInvitation_error {db : Db} {now : Timestamp} {team : RowId} {tenant : TenantId}
    {email token : String} {role : TeamUserRole} {caller : PublicKey} {e : RepositoryError}
    (h : db.createInvitation now team tenant email role token caller = .error e) :
    db.invitationFree team email token = false ∨ db.teams.any (·.id == team) = false := by
  unfold createInvitation at h
  unfold invitationFree
  split at h
  · next hlength => exact .inl (by simp [hlength])
  split at h
  · next hnew => exact .inl (by simp [hnew])
  split at h
  · next hteam => exact .inr (by simpa using hteam)
  · cases h

/-- `TeamInvitationRepository::accept`; no row is an error. -/
def acceptInvitation (db : Db) (now : Timestamp) (token : String) (acceptedBy : PublicKey) :
    Except RepositoryError Db :=
  let mine (i : TeamInvitation) := i.token == token && i.pending now
  let accepted (i : TeamInvitation) : TeamInvitation :=
    { i with acceptedAt := some now, acceptedBy := some acceptedBy }
  if db.teamInvitations.any mine then
    .ok { db with teamInvitations := updateWhere mine accepted db.teamInvitations }
  else .error (.notFound "record not found")

/-- `TeamInvitationRepository::revoke`. One that has expired can be revoked too. -/
def revokeInvitation (db : Db) (now : Timestamp) (id team : RowId) (tenant : TenantId) :
    Except RepositoryError Db :=
  let mine (i : TeamInvitation) :=
    i.id == id && i.teamId == team && i.tenantId == tenant && i.unanswered
  let revoked (i : TeamInvitation) : TeamInvitation := { i with revokedAt := some now }
  if db.teamInvitations.any mine then
    .ok { db with teamInvitations := updateWhere mine revoked db.teamInvitations }
  else .error (.notFound "Invitation not found or already resolved")

/-! ## The deletion of a team -/

inductive TeamDeletionStmt
  | deleteAuthorizations
  | deleteStoredKeys
  | selectOrphans
  | deleteLinks
  | deletePermissions
  | deletePolicies
  | deleteTeamUsers
  | deleteTeam
  deriving DecidableEq, Repr

/-- The policies of a team. -/
def policyIdsOf (db : Db) (team : RowId) : List RowId :=
  (db.policies.filter (·.teamId == some team)).map (·.id)

/-- The policies of the other teams. A built-in policy has no team, and `NULL != $1` is not true. -/
def otherPolicyIds (db : Db) (team : RowId) : List RowId :=
  (db.policies.filter fun p => p.teamId.any (· != team)).map (·.id)

/-- Permissions that only this team's policies use. -/
def orphanedPermissions (db : Db) (team : RowId) : List RowId :=
  let others :=
    (db.policyPermissions.filter fun l => (db.otherPolicyIds team).contains l.policyId).map
    (·.permissionId)
  ((db.policyPermissions.filter fun l => (db.policyIdsOf team).contains l.policyId).map
    (·.permissionId)).filter fun id => !others.contains id

/-- Delete rows, unless something still refers to one of them. -/
def deleteUnless (blocked : Bool) (e : RepositoryError) (db : Db) :
    Except RepositoryError (Unit × Db) :=
  if blocked then .error e else .ok ((), db)

/-- A key of the team, in the tenant. -/
def isTeamKey (tenant : TenantId) (team : RowId) (k : StoredKey) : Bool :=
  k.tenantId == tenant && k.teamId == some team

def isTeamRow (tenant : TenantId) (team : RowId) (t : Team) : Bool :=
  t.tenantId == tenant && t.id == team

/-- `TeamRepository::delete`. Only the first two statements and the last ask for the tenant. -/
def deleteTeamIn (tenant : TenantId) (team : RowId) :
    Prog TeamDeletionStmt Db RepositoryError Unit := do
  .write .deleteAuthorizations fun db =>
    { db with authorizations := db.authorizations.filter fun a =>
        !(a.tenantId == tenant && db.storedKeys.any fun k => isTeamKey tenant team k &&
          k.id == a.storedKeyId) }
  .tryStmt .deleteStoredKeys fun db =>
    deleteUnless
      (db.storedKeys.any fun k => isTeamKey tenant team k &&
        db.authorizations.any (·.storedKeyId == k.id))
      (.stillReferenced "stored_keys" "authorizations_stored_key_id_fkey" "authorizations")
      { db with storedKeys := db.storedKeys.filter fun k => !isTeamKey tenant team k }
  let orphans ← .read .selectOrphans (·.orphanedPermissions team)
  .write .deleteLinks fun db =>
    { db with policyPermissions := db.policyPermissions.filter fun l =>
        !(db.policyIdsOf team).contains l.policyId }
  .tryStmt .deletePermissions fun db =>
    deleteUnless (db.policyPermissions.any fun l => orphans.contains l.permissionId)
      (.stillReferenced "permissions" "policy_permissions_permission_id_fkey" "policy_permissions")
      { db with permissions := db.permissions.filter fun p => !orphans.contains p.id }
  .tryStmt .deletePolicies fun db =>
    deleteUnless (db.authorizations.any fun a => (db.policyIdsOf team).contains a.policyId)
      (.stillReferenced "policies" "authorizations_policy_id_fkey" "authorizations")
      { db with policies := db.policies.filter fun p => p.teamId != some team }
  .write .deleteTeamUsers fun db =>
    { db with teamUsers := db.teamUsers.filter fun m => m.teamId != team }
  .tryStmt .deleteTeam fun db =>
    deleteUnless
      (db.teams.any (isTeamRow tenant team) && db.storedKeys.any fun k => k.teamId == some team)
      (.stillReferenced "teams" "stored_keys_team_id_fkey" "stored_keys")
      { db with
        teams := db.teams.filter fun t => !isTeamRow tenant team t
        teamInvitations :=
          if db.teams.any (isTeamRow tenant team) then
            db.teamInvitations.filter fun i => i.teamId != team
          else db.teamInvitations }

def deleteTeamWithRows (db : Db) (tenant : TenantId) (team : RowId) :
    Except RepositoryError Unit × Db :=
  (deleteTeamIn tenant team).transaction db

/-! How the deletion ends. -/

/-- The authorizations that the first statement leaves. -/
def otherAuthorizations (db : Db) (tenant : TenantId) (team : RowId) : List Authorization :=
  db.authorizations.filter fun a =>
    !(a.tenantId == tenant && db.storedKeys.any fun k => isTeamKey tenant team k &&
      k.id == a.storedKeyId)

/-- One of the statements runs into a reference. -/
def deletionBlocked (db : Db) (tenant : TenantId) (team : RowId) : Bool :=
  (db.storedKeys.any fun k =>
      isTeamKey tenant team k &&
        (db.otherAuthorizations tenant team).any (·.storedKeyId == k.id)) ||
    (db.policyPermissions.any fun l =>
      !(db.policyIdsOf team).contains l.policyId &&
        (db.orphanedPermissions team).contains l.permissionId) ||
    ((db.otherAuthorizations tenant team).any fun a => (db.policyIdsOf team).contains a.policyId) ||
    (db.teams.any (isTeamRow tenant team) &&
      db.storedKeys.any fun k => !isTeamKey tenant team k && k.teamId == some team)

/-- What is left when none does. -/
def withoutTeam (db : Db) (tenant : TenantId) (team : RowId) : Db :=
  { db with
    authorizations := db.otherAuthorizations tenant team
    storedKeys := db.storedKeys.filter fun k => !isTeamKey tenant team k
    policyPermissions :=
      db.policyPermissions.filter fun l => !(db.policyIdsOf team).contains l.policyId
    permissions := db.permissions.filter fun p => !(db.orphanedPermissions team).contains p.id
    policies := db.policies.filter fun p => p.teamId != some team
    teamUsers := db.teamUsers.filter fun m => m.teamId != team
    teams := db.teams.filter fun t => !isTeamRow tenant team t
    teamInvitations :=
      if db.teams.any (isTeamRow tenant team) then
        db.teamInvitations.filter fun i => i.teamId != team
      else db.teamInvitations }

theorem deleteUnless_ends {α : Type} {l : TeamDeletionStmt} {blocked : Db → Bool}
    {e : RepositoryError}
    {next : Db → Db} {f : Unit → Prog TeamDeletionStmt Db RepositoryError α} {db : Db}
    {Q : Except RepositoryError α → Db → Prop} (hblocked : blocked db = true → Q (.error e) db)
    (hfree : blocked db = false → (f ()).Ends Q (next db)) :
    ((Prog.tryStmt l fun db => deleteUnless (blocked db) e (next db)).bind f).Ends Q db := by
  unfold Prog.tryStmt deleteUnless
  cases h : blocked db with
  | true => simpa [Prog.Ends, h] using hblocked h
  | false => simpa [Prog.Ends, h] using hfree h

theorem deleteUnless_last {l : TeamDeletionStmt} {blocked : Db → Bool} {e : RepositoryError}
    {next : Db → Db}
    {db : Db} {Q : Except RepositoryError Unit → Db → Prop}
    (hblocked : blocked db = true → Q (.error e) db)
    (hfree : blocked db = false → Q (.ok ()) (next db)) :
    (Prog.tryStmt l fun db => deleteUnless (blocked db) e (next db)).Ends Q db := by
  unfold Prog.tryStmt deleteUnless
  cases h : blocked db with
  | true => simpa [Prog.Ends, h] using hblocked h
  | false => simpa [Prog.Ends, h] using hfree h

theorem deleteTeamIn_ends (db : Db) (tenant : TenantId) (team : RowId) :
    (deleteTeamIn tenant team).Ends (fun r db' =>
      if db.deletionBlocked tenant team then ∃ e, r = .error e
      else r = .ok () ∧ db' = db.withoutTeam tenant team) db := by
  -- what the statements ask, in terms of the rows at the beginning
  have hfilter : ∀ (p q : StoredKey → Bool), (db.storedKeys.filter fun k => !p k).any q =
      db.storedKeys.any fun k => !p k && q k := fun p q => List.any_filter
  have hlinks : ∀ (p q : PolicyPermission → Bool),
    (db.policyPermissions.filter fun l => !p l).any q =
      db.policyPermissions.any fun l => !p l && q l := fun p q => List.any_filter
  refine .write (deleteUnless_ends (fun hkeys => ?_) fun hkeys => .read (.write
    (deleteUnless_ends (fun hperms => ?_) fun hperms => deleteUnless_ends (fun hpolicies => ?_)
      fun hpolicies =>
      .write (deleteUnless_last (fun hteam => ?_) fun hteam => ?_))))
  · rw [if_pos]
    · exact ⟨_, rfl⟩
    · simp only [deletionBlocked, Bool.or_eq_true]
      exact .inl (.inl (.inl hkeys))
  · rw [if_pos]
    · exact ⟨_, rfl⟩
    · simp only [deletionBlocked, Bool.or_eq_true]
      exact .inl (.inl (.inr ((hlinks _ _).symm.trans hperms)))
  · rw [if_pos]
    · exact ⟨_, rfl⟩
    · simp only [deletionBlocked, Bool.or_eq_true]
      exact .inl (.inr hpolicies)
  · rw [if_pos]
    · exact ⟨_, rfl⟩
    · simp only [deletionBlocked, Bool.or_eq_true, ← hfilter]
      exact .inr hteam
  · rw [if_neg]
    · exact ⟨rfl, rfl⟩
    · simp only [deletionBlocked, Bool.or_eq_true, not_or, Bool.not_eq_true, ← hfilter, ← hlinks]
      exact ⟨⟨⟨hkeys, hperms⟩, hpolicies⟩, hteam⟩

theorem deleteTeamWithRows_eq (db : Db) (tenant : TenantId) (team : RowId) :
    if db.deletionBlocked tenant team then ∃ e, db.deleteTeamWithRows tenant team = (.error e, db)
    else db.deleteTeamWithRows tenant team = (.ok (), db.withoutTeam tenant team) := by
  have hends := deleteTeamIn_ends db tenant team
  unfold Prog.Ends at hends
  dsimp only at hends
  split
  · next hblocked =>
    rw [if_pos hblocked] at hends
    obtain ⟨e, he⟩ := hends
    refine ⟨e, ?_⟩
    unfold deleteTeamWithRows Prog.transaction
    rw [show (deleteTeamIn tenant team).run db = (.error e, _) from Prod.ext he rfl]
  · next hfree =>
    rw [if_neg hfree] at hends
    exact Prog.transaction_ok.mpr (Prod.ext hends.1 hends.2)

end Db

end Keycast
