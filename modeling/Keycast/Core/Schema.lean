import Keycast.Core.Credentials

/-!
# `Core/Schema.lean` — the constraints of the tables, and the deletion of a user

`database/migrations`: which columns refer to which rows, and what happens to a reference when its
row is deleted. Most references to `users` cascade. Two do not: `team_users`, which the deletion
empties by hand before it comes to the user, and `account_claim_tokens`, which it does not. The
comment at the `DELETE` counts the claim tokens among what cascades; the migration that made the
table says otherwise, and so a user for whom a claim link was ever made cannot be deleted.

References to `tenants` are left out: nothing deletes a tenant.
-/

set_option autoImplicit false

namespace Keycast

open Lib

namespace Db

/-- What the migrations demand of the rows. -/
structure Valid (db : Db) : Prop where
  users : db.users.Pairwise fun u v => conflicts u v = false
  personalKeys : References (fun k => some k.userPubkey) User.pubkey db.personalKeys db.users
  oauthAuthorizations :
    References (fun a => some a.userPubkey) User.pubkey db.oauthAuthorizations db.users
  refreshTokens :
    References (fun t => some t.authorizationId) OAuthAuthorization.id db.refreshTokens
      db.oauthAuthorizations
  claimTokens : References (fun t => some t.userPubkey) User.pubkey db.claimTokens db.users
  teamUsers : References (fun m => some m.userPubkey) User.pubkey db.teamUsers db.users
  memberships : References (fun m => some m.teamId) Team.id db.teamUsers db.teams
  emailVerificationTokens :
    References UserRef.userPubkey User.pubkey db.emailVerificationTokens db.users
  passwordResetTokens : References UserRef.userPubkey User.pubkey db.passwordResetTokens db.users
  userProfiles : References UserRef.userPubkey User.pubkey db.userProfiles db.users
  atprotoSessions : References UserRef.userPubkey User.pubkey db.atprotoSessions db.users
  teamInvitations : References (fun i => some i.teamId) Team.id db.teamInvitations db.teams
  storedKeys : References StoredKey.teamId Team.id db.storedKeys db.teams
  policies : References Policy.teamId Team.id db.policies db.teams
  authorizationKeys :
    References (fun a => some a.storedKeyId) StoredKey.id db.authorizations db.storedKeys
  authorizationPolicies :
    References (fun a => some a.policyId) Policy.id db.authorizations db.policies
  policyLinks : References (fun l => some l.policyId) Policy.id db.policyPermissions db.policies
  permissionLinks :
    References (fun l => some l.permissionId) PermissionRow.id db.policyPermissions db.permissions
  oauthIds : (db.oauthAuthorizations.map (·.id)).Nodup
  members : (db.teamUsers.map fun m => (m.teamId, m.userPubkey)).Nodup
  oauthCodes : (db.oauthCodes.map (·.code)).Nodup
  claimTokenTexts : (db.claimTokens.map (·.token)).Nodup
  refreshTokenHashes : (db.refreshTokens.map (·.tokenHash)).Nodup
  linkHashes : (db.magicLinkTokens.map (·.tokenHash)).Nodup
  invitationTokens : (db.teamInvitations.map (·.token)).Nodup

/-- No row refers to the user any more. `oauth_codes` has no foreign key, and names its user by key
and tenant. -/
structure Forgotten (db : Db) (user : PublicKey) (tenant : TenantId) : Prop where
  users : ∀ u ∈ db.users, u.pubkey ≠ user
  personalKeys : ∀ k ∈ db.personalKeys, k.userPubkey ≠ user
  oauthAuthorizations : ∀ a ∈ db.oauthAuthorizations, a.userPubkey ≠ user
  claimTokens : ∀ t ∈ db.claimTokens, t.userPubkey ≠ user
  teamUsers : ∀ m ∈ db.teamUsers, m.userPubkey ≠ user
  emailVerificationTokens : ∀ r ∈ db.emailVerificationTokens, r.userPubkey ≠ some user
  passwordResetTokens : ∀ r ∈ db.passwordResetTokens, r.userPubkey ≠ some user
  userProfiles : ∀ r ∈ db.userProfiles, r.userPubkey ≠ some user
  atprotoSessions : ∀ r ∈ db.atprotoSessions, r.userPubkey ≠ some user
  oauthCodes : ∀ c ∈ db.oauthCodes, ¬ (c.userPubkey = user ∧ c.tenantId = tenant)

/-- The user is there, and no claim token refers to it. -/
def Deletable (db : Db) (user : PublicKey) (tenant : TenantId) : Prop :=
  (∃ u ∈ db.users, u.pubkey = user ∧ u.tenantId = tenant) ∧
    ∀ t ∈ db.claimTokens, t.userPubkey ≠ user

instance (db : Db) (user : PublicKey) (tenant : TenantId) : Decidable (db.Deletable user tenant) :=
  inferInstanceAs (Decidable (_ ∧ _))

/-! ## What a deletion keeps -/

section Deletion

variable {db db' : Db} {user : PublicKey} {tenant : TenantId}

/-- A table whose rows go with their user. -/
theorem cascade_users {α : Type} {ref : α → Option PublicKey} {rows : List α}
    (h : References ref User.pubkey rows db.users) :
    References ref User.pubkey (rows.filter fun r => ref r != some user)
      (db.users.filter (·.pubkey != user)) := by
  refine h.cascade fun r _ u _ href hkeep => ?_
  rw [href] at hkeep
  simpa using hkeep

theorem filter_ne {α : Type} {f : α → PublicKey} (rows : List α) :
    (rows.filter fun r => f r != user) = rows.filter fun r => some (f r) != some user := by
  refine List.filter_congr fun r _ => ?_
  rw [Bool.eq_iff_iff]
  simp

/-- **Deleting a user keeps the constraints**, when no claim token and no membership refers to
it. -/
theorem Valid.deleteUser (h : db.Valid) (hclaims : ∀ t ∈ db.claimTokens, t.userPubkey ≠ user)
    (hmembers : ∀ m ∈ db.teamUsers, m.userPubkey ≠ user) : (db.deleteUser user).Valid where
  users := h.users.filter _
  personalKeys := by
    show References _ _ (db.personalKeys.filter fun k => k.userPubkey != user) _
    rw [filter_ne]
    exact cascade_users h.personalKeys
  oauthAuthorizations := by
    show References _ _ (db.oauthAuthorizations.filter fun a => a.userPubkey != user) _
    rw [filter_ne]
    exact cascade_users h.oauthAuthorizations
  refreshTokens := by
    refine h.refreshTokens.cascade fun t _ a ha href hkeep => ?_
    -- the token stays only if none of the rows with its id is the user's
    have hother : ∀ a ∈ db.oauthAuthorizations, a.id = t.authorizationId → a.userPubkey ≠ user := by
      simpa using hkeep
    simpa using hother a ha (Option.some.inj href).symm
  claimTokens := by
    refine h.claimTokens.restrict fun t ht u _ href => ?_
    simpa [← Option.some.inj href] using hclaims t ht
  teamUsers := by
    refine h.teamUsers.restrict fun m hm u _ href => ?_
    simpa [← Option.some.inj href] using hmembers m hm
  memberships := h.memberships
  emailVerificationTokens := cascade_users h.emailVerificationTokens
  passwordResetTokens := cascade_users h.passwordResetTokens
  userProfiles := cascade_users h.userProfiles
  atprotoSessions := cascade_users h.atprotoSessions
  teamInvitations := h.teamInvitations
  storedKeys := h.storedKeys
  policies := h.policies
  authorizationKeys := h.authorizationKeys
  authorizationPolicies := h.authorizationPolicies
  policyLinks := h.policyLinks
  permissionLinks := h.permissionLinks
  oauthIds := h.oauthIds.sublist (List.filter_sublist.map _)
  members := h.members
  oauthCodes := h.oauthCodes
  claimTokenTexts := h.claimTokenTexts
  refreshTokenHashes := h.refreshTokenHashes.sublist (List.filter_sublist.map _)
  linkHashes := h.linkHashes
  invitationTokens := h.invitationTokens

theorem Valid.deleteTeamUsersOf (h : db.Valid) (user : PublicKey) :
    (db.deleteTeamUsersOf user).Valid :=
  { h with
    teamUsers := h.teamUsers.subset (List.filter_subset_self _)
    memberships := h.memberships.subset (List.filter_subset_self _)
    members := h.members.sublist (List.filter_sublist.map _) }

theorem Valid.deleteCodesOf (h : db.Valid) (user : PublicKey) (tenant : TenantId) :
    (db.deleteCodesOf user tenant).Valid :=
  { h with oauthCodes := h.oauthCodes.sublist (List.filter_sublist.map _) }

theorem Valid.deleteLinksOf (h : db.Valid) (user : PublicKey) (tenant : TenantId) :
    (db.deleteLinksOf user tenant).Valid :=
  { h with linkHashes := h.linkHashes.sublist (List.filter_sublist.map _) }

theorem Valid.insertNotice (h : db.Valid) (now : Timestamp) (user : PublicKey) (tenant : TenantId) :
    (db.insertNotice now user tenant).Valid := { h with }

/-- **A deletion keeps the constraints.** -/
theorem Valid.deleteAccountIn (h : db.Valid) {r : DeleteAccountResult}
    (hrun : (Db.deleteAccountIn user tenant).run db = (.ok r, db')) : db'.Valid := by
  obtain ⟨-, hclaims, rfl, -⟩ := run_deleteAccountIn hrun
  refine ((h.deleteTeamUsersOf user).deleteCodesOf user tenant).deleteUser hclaims fun m hm => ?_
  simpa using (List.mem_filter.mp hm).2

/-- Once the row is gone, the foreign keys leave nothing that could refer to it. -/
theorem Valid.forgotten (h : db.Valid) (huser : ∀ u ∈ db.users, u.pubkey ≠ user)
    (hcodes : ∀ c ∈ db.oauthCodes, ¬ (c.userPubkey = user ∧ c.tenantId = tenant)) :
    db.Forgotten user tenant where
  users := huser
  personalKeys k hk heq := h.personalKeys.absent huser k hk (congrArg some heq)
  oauthAuthorizations a ha heq := h.oauthAuthorizations.absent huser a ha (congrArg some heq)
  claimTokens t ht heq := h.claimTokens.absent huser t ht (congrArg some heq)
  teamUsers m hm heq := h.teamUsers.absent huser m hm (congrArg some heq)
  emailVerificationTokens := h.emailVerificationTokens.absent huser
  passwordResetTokens := h.passwordResetTokens.absent huser
  userProfiles := h.userProfiles.absent huser
  atprotoSessions := h.atprotoSessions.absent huser
  oauthCodes := hcodes

theorem Valid.forgotten_of_deleteAccountIn (h : db.Valid) {r : DeleteAccountResult}
    (hrun : (Db.deleteAccountIn user tenant).run db = (.ok r, db')) :
      db'.Forgotten user tenant := by
  refine (h.deleteAccountIn hrun).forgotten ?_ ?_
  · obtain ⟨-, -, rfl, -⟩ := run_deleteAccountIn hrun
    intro u hu
    simpa using (List.mem_filter.mp hu).2
  · obtain ⟨-, -, rfl, -⟩ := run_deleteAccountIn hrun
    rintro c hc ⟨hpub, htenant⟩
    have hkeep := (List.mem_filter.mp hc).2
    simp [hpub, htenant] at hkeep

/-- **When a deletion succeeds.** -/
theorem deleteAccountIn_succeeds_iff :
    (∃ r db', (Db.deleteAccountIn user tenant).run db = (.ok r, db')) ↔
      db.Deletable user tenant := by
  constructor
  · rintro ⟨r, db', hrun⟩
    obtain ⟨huser, hclaims, -⟩ := run_deleteAccountIn hrun
    exact ⟨huser, hclaims⟩
  · rintro ⟨⟨u, hu, rfl, rfl⟩, hclaims⟩
    have hexists :
      ((db.deleteTeamUsersOf u.pubkey).deleteCodesOf u.pubkey u.tenantId).userExists u.pubkey
        u.tenantId = true := List.any_eq_true.mpr ⟨u, hu, by simp⟩
    have hfree :
      ((db.deleteTeamUsersOf u.pubkey).deleteCodesOf u.pubkey u.tenantId).referenced u.pubkey =
        false := by
      simpa [referenced, Db.deleteTeamUsersOf, Db.deleteCodesOf] using hclaims
    let after : Db :=
      ((db.deleteTeamUsersOf u.pubkey).deleteCodesOf u.pubkey u.tenantId).deleteUser u.pubkey
    have hrow :
      ((db.deleteTeamUsersOf u.pubkey).deleteCodesOf u.pubkey u.tenantId).deleteUserRow u.pubkey
        u.tenantId = some (1, after) := by
      rw [deleteUserRow, hexists, hfree]
      rfl
    let result : DeleteAccountResult :=
      { teamsRemoved := db.teamUsers.countP (·.userPubkey == u.pubkey)
        oauthAuthorizationsDeleted := db.oauthAuthorizations.countP (·.userPubkey == u.pubkey)
        bunkerPubkeys :=
          (db.oauthAuthorizations.filter (·.userPubkey == u.pubkey)).map (·.bunkerPublicKey) }
    refine ⟨result, after, Prog.run_bind_ok.mpr ⟨result.teamsRemoved, db, rfl, Prog.run_bind_ok.mpr
      ⟨result.oauthAuthorizationsDeleted, db, rfl,
        Prog.run_bind_ok.mpr ⟨result.bunkerPubkeys, db, rfl,
      Prog.run_bind_ok.mpr ⟨(), _, rfl, Prog.run_bind_ok.mpr ⟨(), _, rfl, Prog.run_bind_ok.mpr
      ⟨1, after, Prog.run_tryStmt_ok.mpr ?_, rfl⟩⟩⟩⟩⟩⟩⟩
    rw [hrow]
    rfl

end Deletion

/-! ## The result -/

/-- The deletion went through, and nothing refers to the user any more. -/
structure Completes (user : PublicKey) (tenant : TenantId)
    (result : Except RepositoryError DeleteAccountResult × Db) : Prop where
  succeeds : ∃ r, result.1 = .ok r
  forgotten : result.2.Forgotten user tenant

/-- A deletion that fails changes no table. -/
def Atomic (before : Db) (result : Except RepositoryError DeleteAccountResult × Db) : Prop :=
  ∀ e, result.1 = .error e → result.2 = before

/-- Both deletions are transactions. -/
theorem atomic_transaction (p : Prog DeletionStmt Db RepositoryError DeleteAccountResult)
    (db : Db) :
    Atomic db (p.transaction db) :=
  fun _ he => Prog.transaction_error (Prod.ext he rfl)

/-- A transaction that succeeds exactly when `C` holds, and forgets the user when it does. -/
theorem completes_iff {C : Prop}
    {p : Prog DeletionStmt Db RepositoryError DeleteAccountResult} {db : Db}
    {user : PublicKey} {tenant : TenantId} (hsucceeds : (∃ r db', p.run db = (.ok r, db')) ↔ C)
    (hforgets : ∀ r db', p.run db = (.ok r, db') → db'.Forgotten user tenant) :
    Completes user tenant (p.transaction db) ↔ C := by
  rw [← hsucceeds]
  constructor
  · rintro ⟨⟨r, hr⟩, -⟩
    exact ⟨r, _, Prog.transaction_ok.mp (Prod.ext hr rfl)⟩
  · rintro ⟨r, db', hrun⟩
    rw [Prog.transaction_ok.mpr hrun]
    exact ⟨⟨r, rfl⟩, hforgets r db' hrun⟩

theorem run_deleteCustomerAccountIn_eq (now : Timestamp) (user : PublicKey)
    (tenant : TenantId) (db : Db) :
    (deleteCustomerAccountIn now user tenant).run db =
      (deleteAccountIn user tenant).run
        ((db.insertNotice now user tenant).deleteLinksOf user tenant) := rfl

/-- **Account deletion is complete exactly when no claim token was ever made for the user**, and
atomic always. -/
theorem account_deletion_complete_iff {db : Db} (hvalid : db.Valid) {u : User} (hu : u ∈ db.users)
    (now : Timestamp) :
    (Completes u.pubkey u.tenantId (db.deleteAccount u.pubkey u.tenantId) ↔
      ∀ t ∈ db.claimTokens, t.userPubkey ≠ u.pubkey) ∧
    (Completes u.pubkey u.tenantId (db.deleteCustomerAccount now u.pubkey u.tenantId) ↔
      ∀ t ∈ db.claimTokens, t.userPubkey ≠ u.pubkey) ∧
    Atomic db (db.deleteAccount u.pubkey u.tenantId) ∧
    Atomic db (db.deleteCustomerAccount now u.pubkey u.tenantId) := by
  have hdeletable : db.Deletable u.pubkey u.tenantId ↔
    ∀ t ∈ db.claimTokens, t.userPubkey ≠ u.pubkey :=
    and_iff_right ⟨u, hu, rfl, rfl⟩
  refine ⟨?_, ?_, atomic_transaction _ db, atomic_transaction _ db⟩
  · rw [← hdeletable]
    exact completes_iff deleteAccountIn_succeeds_iff fun r db' =>
      hvalid.forgotten_of_deleteAccountIn
  · -- the notice and the links are no reason to fail
    have hvalid' :
      ((db.insertNotice now u.pubkey u.tenantId).deleteLinksOf u.pubkey u.tenantId).Valid :=
      (hvalid.insertNotice now u.pubkey u.tenantId).deleteLinksOf u.pubkey u.tenantId
    rw [← hdeletable]
    refine completes_iff ?_ fun r db' hrun => ?_
    · simp only [run_deleteCustomerAccountIn_eq]
      exact deleteAccountIn_succeeds_iff
    · rw [run_deleteCustomerAccountIn_eq] at hrun
      exact hvalid'.forgotten_of_deleteAccountIn hrun

/-! A user with a row in most of the tables, and one whose account was claimed by link. -/

def ownedRows : Db where
  users := [{ pubkey := "p", tenantId := 1, email := some "p@example.com" }]
  personalKeys := [⟨"p", 1, "sk"⟩]
  oauthAuthorizations :=
    [{ id := 1, tenantId := 1, userPubkey := "p", bunkerPublicKey := "b", secretHash := "h" }]
  refreshTokens := [{ tokenHash := "r", authorizationId := 1, tenantId := 1, expiresAt := 10 }]
  oauthCodes :=
    [{ tenantId := 1, code := "c", userPubkey := "p", clientId := "app", redirectUri := "/",
       scope := "",
       expiresAt := 10 }]
  teams := [⟨1, 1⟩]
  teamUsers := [⟨1, "p", .admin⟩]
  userProfiles := [⟨"1", some "p"⟩]
  atprotoSessions := [⟨"1", some "p"⟩, ⟨"2", none⟩]

def claimedRows : Db :=
  { ownedRows with
    claimTokens :=
      [{ token := "link", userPubkey := "p", tenantId := 1, expiresAt := 10, usedAt := some 5 }] }

theorem claimedRows_valid : claimedRows.Valid := by
  constructor <;> simp [claimedRows, ownedRows, References]

theorem account_deletion_complete_owned :
    Completes "p" 1 (ownedRows.deleteAccount "p" 1) ∧
      Completes "p" 1 (ownedRows.deleteCustomerAccount 7 "p" 1) := by
  have hvalid : ownedRows.Valid := by constructor <;> simp [ownedRows, References]
  have h := account_deletion_complete_iff hvalid
    (u := { pubkey := "p", tenantId := 1, email := some "p@example.com" }) (by decide) 7
  exact ⟨h.1.mpr (by decide), h.2.1.mpr (by decide)⟩

/-- **A user who was once sent a claim link cannot be deleted**, though the link is used. -/
theorem claimed_user_cannot_be_deleted :
    claimedRows.Valid ∧ (∃ u ∈ claimedRows.users, u.pubkey = "p" ∧ u.tenantId = 1) ∧
      ¬ Completes "p" 1 (claimedRows.deleteAccount "p" 1) ∧
      ¬ Completes "p" 1 (claimedRows.deleteCustomerAccount 7 "p" 1) := by
  refine ⟨claimedRows_valid, by decide, ?_, ?_⟩
  · rintro ⟨⟨r, hr⟩, -⟩
    have hfails : (claimedRows.deleteAccount "p" 1).1 = .error claimTokensLeft := by decide
    rw [hfails] at hr
    cases hr
  · rintro ⟨⟨r, hr⟩, -⟩
    have hfails : (claimedRows.deleteCustomerAccount 7 "p" 1).1 = .error claimTokensLeft := by
      decide
    rw [hfails] at hr
    cases hr

end Db

end Keycast
