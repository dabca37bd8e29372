import Mathlib.Data.List.Pairwise
import Keycast.Core.Db
import Keycast.Lib.Prog

/-!
# `Core/Accounts.lean` — users and their claims

The statements of `core/src/repositories/user.rs` and `claim_token.rs` that create, claim, rekey
and delete accounts. A transaction is one statement here. One that violates a constraint changes
nothing and gives `none`.
-/

set_option autoImplicit false

namespace Keycast

open Lib

inductive RepositoryError
  | notFound (text : String)
  | duplicate
  | integrity (text : String)
  | database (text : String)
  deriving DecidableEq, Repr

def RepositoryError.toText : RepositoryError → String
  | .notFound text => "Not found: " ++ text
  | .duplicate => "Already exists"
  | .integrity text => "Integrity violation: " ++ text
  | .database text => "Database error: " ++ text

/-- A row of `parent` cannot go, since one of `child` refers to it. -/
def RepositoryError.stillReferenced (parent constraint child : String) : RepositoryError :=
  .integrity ("update or delete on table \"" ++ parent ++ "\" violates foreign key constraint \"" ++
    constraint ++ "\" on table \"" ++ child ++ "\"")

/-- A row of `child` cannot come, since what it refers to is not there. -/
def RepositoryError.noReference (child constraint : String) : RepositoryError :=
  .integrity ("insert or update on table \"" ++ child ++ "\" violates foreign key constraint \"" ++
    constraint ++ "\"")

namespace Db

/-! ## Lookups -/

/-- `UserRepository::exists`. -/
def userExists (db : Db) (pubkey : PublicKey) (tenant : TenantId) : Bool := db.userIn pubkey tenant

def findPubkeyByVineId (db : Db) (vineId : String) (tenant : TenantId) : Option PublicKey :=
  (db.users.find? fun u => u.vineId == some vineId && u.tenantId == tenant).map (·.pubkey)

def findPubkeyByUsername (db : Db) (username : String) (tenant : TenantId) : Option PublicKey :=
  (db.users.find? fun u => u.username == some username && u.tenantId == tenant).map (·.pubkey)

def emailExists (db : Db) (email : String) (tenant : TenantId) : Bool :=
  db.users.any fun u => u.email == some email && u.tenantId == tenant

/-- `UserRepository::get_credentials`. The row is decoded into two strings, so a `NULL` in either
column is an error. -/
def getCredentials (db : Db) (pubkey : PublicKey) (tenant : TenantId) :
    Except String (Option (String × String)) :=
  match db.users.find? fun u => u.pubkey == pubkey && u.tenantId == tenant with
  | none => .ok none
  | some u =>
    match u.email, u.passwordHash with
    | some email, some hash => .ok (some (email, hash))
    | _, _ => .error "unexpected null"

/-! ## Changes -/

/-- The constraints of `users`: the public key is the primary key, and within a tenant email,
username and vine id are unique where they are set. -/
def conflicts (u v : User) : Bool :=
  u.pubkey == v.pubkey || (u.tenantId == v.tenantId &&
    ((u.email.isSome && u.email == v.email) || (u.username.isSome && u.username == v.username) ||
      (u.vineId.isSome && u.vineId == v.vineId)))

def insertUser (db : Db) (u : User) : Option Db :=
  if db.users.any (conflicts u) then none else some { db with users := db.users ++ [u] }

def insertPersonalKey (db : Db) (k : PersonalKey) : Db :=
  { db with personalKeys := db.personalKeys ++ [k] }

/-- `UserRepository::create_preloaded_user`. -/
def createPreloadedUser (db : Db) (pubkey : PublicKey) (tenant : TenantId)
    (vineId username : String) (encryptedSecret : Bytes) : Option Db :=
  (db.insertUser { pubkey, tenantId := tenant, vineId := some vineId,
                   username := some username }).map
    (·.insertPersonalKey ⟨pubkey, tenant, encryptedSecret⟩)

/-- `UserRepository::claim_account`. -/
def claimAccount (db : Db) (pubkey : PublicKey) (tenant : TenantId) (email passwordHash : String) :
    Except String Db :=
  let mine (u : User) := u.pubkey == pubkey && u.tenantId == tenant && u.email.isNone
  if !db.users.any mine then .error "User not found or already claimed"
  else if db.emailExists email tenant then .error "duplicate key value"
  else
    let claim (u : User) : User :=
      { u with email := some email, passwordHash := some passwordHash, emailVerified := true }
    .ok { db with users := updateWhere mine claim db.users }

/-- It is only a change of `users`. -/
theorem claimAccount_rows {db db' : Db} {pubkey : PublicKey} {tenant : TenantId}
    {email passwordHash : String} (h : db.claimAccount pubkey tenant email passwordHash = .ok db') :
    (∃ u ∈ db.users, u.pubkey = pubkey ∧ u.tenantId = tenant ∧ u.email = none) ∧
      db' = { db with
        users := updateWhere
          (fun u => u.pubkey == pubkey && u.tenantId == tenant && u.email.isNone)
          (fun u => { u with
            email := some email, passwordHash := some passwordHash, emailVerified := true })
          db.users } := by
  unfold claimAccount at h
  extract_lets mine claim at h
  split at h
  · cases h
  next hany =>
  split at h
  · cases h
  cases h
  rw [Bool.not_eq_true', Bool.not_eq_false, List.any_eq_true] at hany
  obtain ⟨u, hu, hmine⟩ := hany
  simp only [mine, Bool.and_eq_true, beq_iff_eq, Option.isNone_iff_eq_none] at hmine
  exact ⟨⟨u, hu, hmine.1.1, hmine.1.2, hmine.2⟩, rfl⟩

/-- `UserRepository::change_key_transaction`, with the number of authorizations it deletes. -/
def changeKeyTransaction (db : Db) (oldPubkey newPubkey : PublicKey) (tenant : TenantId)
    (email passwordHash : String) (encryptedSecret : Bytes) : Option (Nat × Db) :=
  let count := (db.oauthAuthorizations.filter (·.userPubkey == oldPubkey)).length
  let orphan (u : User) : User := { u with email := none, passwordHash := none }
  let orphaned : Db :=
    { db with
      oauthAuthorizations := db.oauthAuthorizations.filter (·.userPubkey != oldPubkey)
      refreshTokens := db.refreshTokensWithout oldPubkey
      personalKeys := db.personalKeys.filter (·.userPubkey != oldPubkey)
      users := updateWhere (fun u => u.pubkey == oldPubkey && u.tenantId == tenant)
        orphan db.users }
  (orphaned.insertUser
      { pubkey := newPubkey, tenantId := tenant, email := some email,
        passwordHash := some passwordHash, emailVerified := true }).map
    fun db => (count, db.insertPersonalKey ⟨newPubkey, tenant, encryptedSecret⟩)

/-- The statements of a deletion. -/
inductive DeletionStmt
  | insertNotice
  | deleteLinks
  | countTeams
  | countAuthorizations
  | selectBunkers
  | deleteTeamUsers
  | deleteCodes
  | deleteUser
  deriving DecidableEq, Repr

/-- `DELETE FROM users WHERE pubkey = $1 AND tenant_id = $2`, with what cascades and the number of
rows; `none` when a row that does not cascade still refers to the user. -/
def deleteUserRow (db : Db) (pubkey : PublicKey) (tenant : TenantId) : Option (Nat × Db) :=
  if !db.userExists pubkey tenant then some (0, db)
  else if db.referenced pubkey then none
  else some (1, db.deleteUser pubkey)

/-- `DELETE FROM team_users WHERE user_pubkey = $1`. -/
def deleteTeamUsersOf (db : Db) (pubkey : PublicKey) : Db :=
  { db with teamUsers := db.teamUsers.filter (·.userPubkey != pubkey) }

/-- `DELETE FROM oauth_codes WHERE user_pubkey = $1 AND tenant_id = $2`. -/
def deleteCodesOf (db : Db) (pubkey : PublicKey) (tenant : TenantId) : Db :=
  { db with
    oauthCodes := db.oauthCodes.filter fun c => !(c.userPubkey == pubkey && c.tenantId == tenant) }

/-- Why a deletion fails: the memberships are gone by then, so what is left is a claim token. -/
def claimTokensLeft : RepositoryError :=
  .stillReferenced "users" "account_claim_tokens_user_pubkey_fkey" "account_claim_tokens"

structure DeleteAccountResult where
  teamsRemoved : Nat
  oauthAuthorizationsDeleted : Nat
  bunkerPubkeys : List PublicKey
  deriving DecidableEq, Repr

/-- `UserRepository::delete_account_in`. -/
def deleteAccountIn (pubkey : PublicKey) (tenant : TenantId) :
    Prog DeletionStmt Db RepositoryError DeleteAccountResult := do
  let teamsRemoved ← .read .countTeams fun db => db.teamUsers.countP (·.userPubkey == pubkey)
  let oauthAuthorizationsDeleted ← .read .countAuthorizations fun db =>
    db.oauthAuthorizations.countP (·.userPubkey == pubkey)
  let bunkerPubkeys ← .read .selectBunkers fun db =>
    (db.oauthAuthorizations.filter (·.userPubkey == pubkey)).map (·.bunkerPublicKey)
  .write .deleteTeamUsers (·.deleteTeamUsersOf pubkey)
  .write .deleteCodes (·.deleteCodesOf pubkey tenant)
  let rows ← .tryStmt .deleteUser fun db =>
    (db.deleteUserRow pubkey tenant).elim (.error claimTokensLeft) .ok
  if rows = 0 then .err (.notFound "User not found")
  else return { teamsRemoved, oauthAuthorizationsDeleted, bunkerPubkeys }

/-- `UserRepository::delete_account`. -/
def deleteAccount (db : Db) (pubkey : PublicKey) (tenant : TenantId) :
    Except RepositoryError DeleteAccountResult × Db :=
  (deleteAccountIn pubkey tenant).transaction db

/-- `INSERT INTO customer_deletion_notices (tenant_id, pubkey)`: due at once. -/
def insertNotice (db : Db) (now : Timestamp) (pubkey : PublicKey) (tenant : TenantId) : Db :=
  let id := db.noticeSeq + 1
  { db with
    noticeSeq := id
    deletionNotices := db.deletionNotices ++
      [{ id, tenantId := tenant, pubkey, deletedAt := now, nextAttemptAt := now }] }

/-- The sign-in links still in the user's inbox. -/
def deleteLinksOf (db : Db) (pubkey : PublicKey) (tenant : TenantId) : Db :=
  let email := (db.users.find? fun u => u.pubkey == pubkey && u.tenantId == tenant).bind (·.email)
  { db with
    magicLinkTokens :=
      db.magicLinkTokens.filter fun l => !(l.tenantId == tenant && some l.email == email) }

/-- The transaction of `UserRepository::delete_customer_account`. -/
def deleteCustomerAccountIn (now : Timestamp) (pubkey : PublicKey) (tenant : TenantId) :
    Prog DeletionStmt Db RepositoryError DeleteAccountResult := do
  .write .insertNotice (·.insertNotice now pubkey tenant)
  .write .deleteLinks (·.deleteLinksOf pubkey tenant)
  deleteAccountIn pubkey tenant

def deleteCustomerAccount (db : Db) (now : Timestamp) (pubkey : PublicKey) (tenant : TenantId) :
    Except RepositoryError DeleteAccountResult × Db :=
  (deleteCustomerAccountIn now pubkey tenant).transaction db

/-! ## The constraints of `users` -/

section Unique

variable {users : List User}

/-- No two rows conflict. -/
def UsersUnique (users : List User) : Prop := users.Pairwise fun u v => conflicts u v = false

instance (users : List User) : Decidable (UsersUnique users) :=
  inferInstanceAs (Decidable (users.Pairwise _))

theorem conflicts_comm (u v : User) : conflicts u v = conflicts v u := by
  rw [Bool.eq_iff_iff]
  simp only [conflicts, Bool.or_eq_true, Bool.and_eq_true, beq_iff_eq, Option.isSome_iff_exists]
  grind

theorem conflicts_of_pubkey {u v : User} (hkey : u.pubkey = v.pubkey) : conflicts u v = true := by
  simp [conflicts, hkey]

theorem UsersUnique.eq_of_conflicts (h : UsersUnique users) {u v : User} (hu : u ∈ users)
    (hv : v ∈ users)
    (hclash : conflicts u v = true) : u = v := by
  by_contra hne
  have hsymm : Std.Symm fun u v => conflicts u v = false :=
    ⟨fun u v huv => (conflicts_comm v u).trans huv⟩
  have hno : conflicts u v = false := List.Pairwise.forall h hu hv hne
  rw [hclash] at hno
  cases hno

theorem UsersUnique.eq_of_pubkey (h : UsersUnique users) {u v : User} (hu : u ∈ users)
    (hv : v ∈ users)
    (hkey : u.pubkey = v.pubkey) : u = v :=
  h.eq_of_conflicts hu hv (conflicts_of_pubkey hkey)

theorem UsersUnique.eq_of_email (h : UsersUnique users) {u v : User} {email : String}
    (hu : u ∈ users) (hv : v ∈ users)
    (htenant : u.tenantId = v.tenantId) (hemail : u.email = some email)
    (hemail' : v.email = some email) : u = v :=
  h.eq_of_conflicts hu hv (by simp [conflicts, htenant, hemail, hemail'])

theorem UsersUnique.insert {u : User} (h : UsersUnique users)
    (hno : users.any (conflicts u) = false) :
    UsersUnique (users ++ [u]) := by
  refine List.pairwise_append.mpr ⟨h, List.pairwise_singleton _ _, fun v hv u' hu' => ?_⟩
  obtain rfl := List.mem_singleton.mp hu'
  rw [conflicts_comm]
  simpa using List.any_eq_false.mp hno v hv

theorem UsersUnique.nodup (h : UsersUnique users) : users.Nodup := by
  refine List.Pairwise.imp (fun {u v} hno heq => ?_) h
  subst heq
  simp [conflicts] at hno

theorem UsersUnique.perm {users' : List User} (h : UsersUnique users) (hperm : users.Perm users') :
    UsersUnique users' :=
  (hperm.pairwise_iff fun {u v} huv => (conflicts_comm v u).trans huv).mp h

/-- An update that sets none of the columns, or clears the email. -/
theorem UsersUnique.updateWhere (h : UsersUnique users) {p : User → Bool} {f : User → User}
    (hf : ∀ u v, conflicts (f u) v = true → conflicts u v = true) :
      UsersUnique (updateWhere p f users) := by
  refine List.Pairwise.map _ (fun u v hno => ?_) h
  -- what conflicts after the update conflicted before
  by_contra hclash
  have hclash := Bool.not_eq_false _ ▸ hclash
  have hfirst : ∀ {u v : User}, conflicts (if p u then f u else u) v = true →
    conflicts u v = true := by
    intro u v hclash
    split at hclash
    · exact hf u v hclash
    · exact hclash
  have hsecond := hfirst hclash
  rw [conflicts_comm] at hsecond
  have hboth := hfirst hsecond
  rw [conflicts_comm, hno] at hboth
  cases hboth

end Unique

/-! ## What the changes do to the two tables -/

theorem insertUser_eq_none {db : Db} {u : User} (h : db.insertUser u = none) :
    db.users.any (conflicts u) = true := by
  unfold insertUser at h
  split at h
  · assumption
  · cases h

theorem insertUser_eq_some {db db' : Db} {u : User} (h : db.insertUser u = some db') :
    db.users.any (conflicts u) = false ∧ db' = { db with users := db.users ++ [u] } := by
  unfold insertUser at h
  split at h
  · cases h
  · next hno => exact ⟨by simpa using hno, (Option.some.inj h).symm⟩

theorem insertUser_eq {db db' : Db} {u : User} (h : db.insertUser u = some db') :
    db' = { db with users := db.users ++ [u] } ∧ ∀ r ∈ db.users, r.pubkey ≠ u.pubkey := by
  obtain ⟨hfree, heq⟩ := insertUser_eq_some h
  refine ⟨heq, fun r hr hkey => List.any_eq_false.mp hfree r hr ?_⟩
  simp [conflicts, hkey]

theorem createPreloadedUser_eq {db db' : Db} {pubkey : PublicKey} {tenant : TenantId}
    {vineId username : String} {enc : Bytes}
    (h : db.createPreloadedUser pubkey tenant vineId username enc = some db') :
    ∃ u : User, u.pubkey = pubkey ∧ db'.users = db.users ++ [u] ∧
      db'.personalKeys = db.personalKeys ++ [⟨pubkey, tenant, enc⟩] ∧
      ∀ r ∈ db.users, r.pubkey ≠ pubkey := by
  obtain ⟨db₁, h₁, rfl⟩ := Option.map_eq_some_iff.mp h
  obtain ⟨rfl, hno⟩ := insertUser_eq h₁
  exact ⟨_, rfl, rfl, rfl, hno⟩

/-- The row of a new key. -/
def rekeyed (newPubkey : PublicKey) (tenant : TenantId) (email passwordHash : String) : User where
  pubkey := newPubkey
  tenantId := tenant
  email := some email
  passwordHash := some passwordHash
  emailVerified := true

theorem changeKeyTransaction_users {db db' : Db} {oldPubkey newPubkey : PublicKey}
    {tenant : TenantId}
    {email hash : String} {enc : Bytes} {n : Nat}
    (h : db.changeKeyTransaction oldPubkey newPubkey tenant email hash enc = some (n, db')) :
    (updateWhere (fun u => u.pubkey == oldPubkey && u.tenantId == tenant)
        (fun u => { u with email := none, passwordHash := none }) db.users).any
          (conflicts (rekeyed newPubkey tenant email hash)) = false ∧
      db'.users = updateWhere (fun u => u.pubkey == oldPubkey && u.tenantId == tenant)
        (fun u => { u with email := none, passwordHash := none }) db.users ++
          [rekeyed newPubkey tenant email hash] ∧
      db'.personalKeys = db.personalKeys.filter (·.userPubkey != oldPubkey) ++
        [⟨newPubkey, tenant, enc⟩] := by
  obtain ⟨db₁, h₁, heq⟩ := Option.map_eq_some_iff.mp h
  obtain ⟨hfree, rfl⟩ := insertUser_eq_some h₁
  cases heq
  exact ⟨hfree, rfl, rfl⟩

theorem changeKeyTransaction_eq {db db' : Db} {oldPubkey newPubkey : PublicKey} {tenant : TenantId}
    {email hash : String} {enc : Bytes} {n : Nat}
    (h : db.changeKeyTransaction oldPubkey newPubkey tenant email hash enc = some (n, db')) :
    ∃ u : User, u.pubkey = newPubkey ∧ u.email = some email ∧
      db'.users = updateWhere (fun u => u.pubkey == oldPubkey && u.tenantId == tenant)
        (fun u => { u with email := none, passwordHash := none }) db.users ++ [u] ∧
      db'.personalKeys =
        db.personalKeys.filter (·.userPubkey != oldPubkey) ++ [⟨newPubkey, tenant, enc⟩] ∧
      ∀ r ∈ db.users, r.pubkey ≠ newPubkey := by
  obtain ⟨hfree, husers, hkeys⟩ := changeKeyTransaction_users h
  refine ⟨_, rfl, rfl, husers, hkeys, fun r hr hkey => ?_⟩
  -- the update changes no public key
  by_cases hp : (r.pubkey == oldPubkey && r.tenantId == tenant) = true
  · refine List.any_eq_false.mp hfree _ (mem_updateWhere.mpr (.inl ⟨r, hr, hp, rfl⟩)) ?_
    simp [conflicts, rekeyed, hkey]
  · refine List.any_eq_false.mp hfree _ (mem_updateWhere.mpr (.inr ⟨hr, by simpa using hp⟩)) ?_
    simp [conflicts, rekeyed, hkey]

theorem deleteUserRow_eq {db db' : Db} {pubkey : PublicKey} {tenant : TenantId} {n : Nat}
    (h : db.deleteUserRow pubkey tenant = some (n, db')) (hn : n ≠ 0) :
    (∃ r ∈ db.users, r.pubkey = pubkey ∧ r.tenantId = tenant) ∧ db.referenced pubkey = false ∧
      db' = db.deleteUser pubkey := by
  unfold deleteUserRow at h
  split at h
  · cases h
    exact absurd rfl hn
  · next hexists =>
    split at h
    · cases h
    · next hfree =>
      cases h
      have hany : db.userExists pubkey tenant = true := by simpa using hexists
      obtain ⟨r, hr, hmine⟩ := List.any_eq_true.mp hany
      rw [Bool.and_eq_true, beq_iff_eq, beq_iff_eq] at hmine
      exact ⟨⟨r, hr, hmine⟩, by simpa using hfree, rfl⟩

/-- **How a deletion succeeds**: the user is there, and no claim token is. -/
theorem run_deleteAccountIn {db db' : Db} {pubkey : PublicKey} {tenant : TenantId}
    {r : DeleteAccountResult} (h : (deleteAccountIn pubkey tenant).run db = (.ok r, db')) :
    (∃ u ∈ db.users, u.pubkey = pubkey ∧ u.tenantId = tenant) ∧
      (∀ c ∈ db.claimTokens, c.userPubkey ≠ pubkey) ∧
      db' = ((db.deleteTeamUsersOf pubkey).deleteCodesOf pubkey tenant).deleteUser pubkey ∧
      r.bunkerPubkeys =
        (db.oauthAuthorizations.filter (·.userPubkey == pubkey)).map (·.bunkerPublicKey) := by
  unfold deleteAccountIn at h
  obtain ⟨teams, _, h₁, h⟩ := Prog.run_bind_ok.mp h
  obtain ⟨-, rfl⟩ := Prog.run_read_ok.mp h₁
  obtain ⟨count, _, h₂, h⟩ := Prog.run_bind_ok.mp h
  obtain ⟨-, rfl⟩ := Prog.run_read_ok.mp h₂
  obtain ⟨bunkers, _, h₃, h⟩ := Prog.run_bind_ok.mp h
  obtain ⟨rfl, rfl⟩ := Prog.run_read_ok.mp h₃
  obtain ⟨_, _, h₄, h⟩ := Prog.run_bind_ok.mp h
  rw [Prog.run_write_ok] at h₄
  subst h₄
  obtain ⟨_, _, h₅, h⟩ := Prog.run_bind_ok.mp h
  rw [Prog.run_write_ok] at h₅
  subst h₅
  obtain ⟨rows, db₁, h₆, h⟩ := Prog.run_bind_ok.mp h
  rw [Prog.run_tryStmt_ok] at h₆
  split at h
  · cases h
  next hrows =>
  obtain ⟨rfl, rfl⟩ := Prog.run_ret_ok.mp h
  cases hdelete : ((db.deleteTeamUsersOf pubkey).deleteCodesOf pubkey tenant).deleteUserRow
    pubkey tenant with
  | none => simp [hdelete] at h₆
  | some x =>
    simp only [hdelete, Option.elim_some, Except.ok.injEq] at h₆
    subst h₆
    obtain ⟨huser, hfree, rfl⟩ := deleteUserRow_eq hdelete hrows
    refine ⟨huser, fun c hc heq => ?_, rfl, rfl⟩
    simp only [referenced, Bool.or_eq_false_iff, List.any_eq_false] at hfree
    exact hfree.2 c hc (by simpa using heq)

theorem run_deleteCustomerAccountIn {db db' : Db} {now : Timestamp} {pubkey : PublicKey}
    {tenant : TenantId}
    {r : DeleteAccountResult}
    (h : (deleteCustomerAccountIn now pubkey tenant).run db = (.ok r, db')) :
    (deleteAccountIn pubkey tenant).run
      ((db.insertNotice now pubkey tenant).deleteLinksOf pubkey tenant) =
      (.ok r, db') := by
  unfold deleteCustomerAccountIn at h
  obtain ⟨_, _, h₁, h⟩ := Prog.run_bind_ok.mp h
  rw [Prog.run_write_ok] at h₁
  subst h₁
  obtain ⟨_, _, h₂, h⟩ := Prog.run_bind_ok.mp h
  rw [Prog.run_write_ok] at h₂
  subst h₂
  exact h

theorem deleteAccount_eq {db db' : Db} {pubkey : PublicKey} {tenant : TenantId}
    {r : DeleteAccountResult} (h : db.deleteAccount pubkey tenant = (.ok r, db')) :
    (∃ r ∈ db.users, r.pubkey = pubkey) ∧ db'.users = db.users.filter (·.pubkey != pubkey) ∧
      db'.personalKeys = db.personalKeys.filter (·.userPubkey != pubkey) := by
  obtain ⟨⟨u, hu, hpub, -⟩, -, rfl, -⟩ := run_deleteAccountIn (Prog.transaction_ok.mp h)
  exact ⟨⟨u, hu, hpub⟩, rfl, rfl⟩

/-! ## Claim tokens -/

/-- `ClaimTokenRepository::find_valid`. -/
def findValidClaimToken (db : Db) (now : Timestamp) (token : String) : Option ClaimToken :=
  db.claimTokens.find? fun t => t.token == token && decide (now < t.expiresAt) && t.usedAt.isNone

/-- `ClaimTokenRepository::mark_used`. -/
def markUsed (db : Db) (now : Timestamp) (token : String) : Db :=
  let used (t : ClaimToken) : ClaimToken := { t with usedAt := some now }
  { db with
    claimTokens := updateWhere (fun t => t.token == token && t.usedAt.isNone) used db.claimTokens }

end Db

end Keycast
