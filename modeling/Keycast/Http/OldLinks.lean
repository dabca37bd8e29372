import Keycast.Core.Schema
import Keycast.Http.MagicLink

/-!
# `Http/OldLinks.lean` — links that are older than a deletion

A customer account is deleted together with the links that were sent to its address, so that a link
in the inbox does not bring it back. Here the transaction of `delete_customer_account` is not one
step: its statements are interleaved with those of `send_link` and `verify_magic_link`. What a
statement of the open transaction deletes is settled when it is executed, and others see it when the
transaction commits.

A row that the transaction has deleted is locked until then, and a request that wants to consume it
would wait. That is not modelled, so there are more runs here than the database has.

`old_links_stay_dead` says what has to be true at a commit for the links to stay dead, and
`old_link_brings_account_back` is a run in which it is not.

The invariant (`LinkWorld.Sound`): a dead link cannot be used any more, and no request that has used
one may still create the account. `LinkMove` says what each statement does to accounts and links,
after what its request has executed before. From it, an account comes by a request that was open for
it and goes at a commit (`users_step`), and a link after a step is new, or of no use, or was there
before (`links_step`). The condition is used in one place, where a deletion commits: its customer is
settled then (`settled_of_gone`), and so the invariant holds of the links that become dead in the
step.
-/

set_option autoImplicit false

namespace Keycast

open Lib

namespace Db

/-! ## The transaction, statement by statement -/

/-- What the statements of an open deletion have settled so far. -/
structure OpenDeletion where
  startedAt : Timestamp
  links : List (String × String)
  teams : List RowId
  codes : List String

/-- The links that the second statement deletes, by address and hash. -/
def linksOf (db : Db) (pubkey : PublicKey) (tenant : TenantId) : List (String × String) :=
  let email := (db.users.find? fun u => u.pubkey == pubkey && u.tenantId == tenant).bind (·.email)
  (db.magicLinkTokens.filter fun l => l.tenantId == tenant && some l.email == email).map
    fun l => (l.email, l.tokenHash)

def teamsOf (db : Db) (pubkey : PublicKey) : List RowId :=
  (db.teamUsers.filter (·.userPubkey == pubkey)).map (·.teamId)

def codesOf (db : Db) (pubkey : PublicKey) (tenant : TenantId) : List String :=
  (db.oauthCodes.filter fun c => c.userPubkey == pubkey && c.tenantId == tenant).map (·.code)

/-- The link is one of those that the transaction has deleted. -/
def deletesLink (tenant : TenantId) (links : List (String × String)) (l : MagicLinkToken) : Bool :=
  l.tenantId == tenant && links.contains (l.email, l.tokenHash)

/-- The database without the rows the open transaction has deleted, and with its notice. -/
def settle (db : Db) (pubkey : PublicKey) (tenant : TenantId) (d : OpenDeletion) : Db :=
  { db.insertNotice d.startedAt pubkey tenant with
    magicLinkTokens := db.magicLinkTokens.filter fun l => !deletesLink tenant d.links l
    teamUsers := db.teamUsers.filter fun m => !(m.userPubkey == pubkey && d.teams.contains m.teamId)
    oauthCodes := db.oauthCodes.filter fun c =>
      !(c.userPubkey == pubkey && c.tenantId == tenant && d.codes.contains c.code) }

/-- `DELETE FROM users` and the commit. A membership that is newer than the third `DELETE` is in the
way too. -/
def commitDeletion (db : Db) (pubkey : PublicKey) (tenant : TenantId) (d : OpenDeletion) :
    Except RepositoryError Unit × Db :=
  let db' := db.settle pubkey tenant d
  match db'.deleteUserRow pubkey tenant with
  | none =>
    if db'.teamUsers.any (·.userPubkey == pubkey) then
      (.error (.stillReferenced "users" "team_users_user_pubkey_fkey" "team_users"), db)
    else (.error claimTokensLeft, db)
  | some (rows, db'') =>
    if rows = 0 then (.error (.notFound "User not found"), db) else (.ok (), db'')

theorem commitDeletion_eq (db : Db) (pubkey : PublicKey) (tenant : TenantId) (d : OpenDeletion) :
    (db.commitDeletion pubkey tenant d).2 = db ∨
      (db.commitDeletion pubkey tenant d).2 = (db.settle pubkey tenant d).deleteUser pubkey := by
  unfold commitDeletion
  dsimp only
  split
  · split <;> exact .inl rfl
  · next rows db' hrow =>
    split
    · exact .inl rfl
    · next hrows => exact .inr (deleteUserRow_eq hrow hrows).2.2

/-- Nothing in between: every row that is there has been seen. -/
theorem filter_unseen {α β : Type} [DecidableEq β] (p : α → Bool) (f : α → β) (rows : List α) :
    (rows.filter fun r => !(p r && ((rows.filter p).map f).contains (f r))) = rows.filter
      fun r => !p r := by
  refine List.filter_congr fun r hr => ?_
  cases hp : p r with
  | false => rfl
  | true =>
    have hseen : f r ∈ (rows.filter p).map f := List.mem_map_of_mem (List.mem_filter.mpr ⟨hr, hp⟩)
    simpa using hseen

theorem settle_seen (db : Db) (now : Timestamp) (pubkey : PublicKey) (tenant : TenantId) :
    db.settle pubkey tenant ⟨now, db.linksOf pubkey tenant, db.teamsOf pubkey,
      db.codesOf pubkey tenant⟩ =
      (((db.insertNotice now pubkey tenant).deleteLinksOf pubkey tenant).deleteTeamUsersOf
        pubkey).deleteCodesOf
        pubkey tenant := by
  have hlinks :
    (db.magicLinkTokens.filter fun l => !deletesLink tenant (db.linksOf pubkey tenant) l) =
      ((db.insertNotice now pubkey tenant).deleteLinksOf pubkey tenant).magicLinkTokens := by
    refine List.filter_congr fun l hl => congrArg _ ?_
    rw [Bool.eq_iff_iff]
    simp only [deletesLink, linksOf, insertNotice, Bool.and_eq_true, List.contains_iff_mem,
      List.mem_map, List.mem_filter]
    constructor
    · rintro ⟨htenant, l', ⟨-, -, hemail⟩, heq⟩
      rw [Prod.mk.injEq] at heq
      rw [heq.1] at hemail
      exact ⟨htenant, hemail⟩
    · rintro ⟨htenant, hemail⟩
      exact ⟨htenant, l, ⟨hl, htenant, hemail⟩, rfl⟩
  have hteams := filter_unseen (fun m : TeamUser => m.userPubkey == pubkey) (·.teamId) db.teamUsers
  have hcodes :=
    filter_unseen (fun c : OAuthCode => c.userPubkey == pubkey && c.tenantId == tenant) (·.code)
    db.oauthCodes
  unfold settle teamsOf codesOf
  rw [hlinks, hteams, hcodes]
  rfl

end Db

namespace Http

/-- `UserRepository::delete_customer_account`, one statement at a time. -/
def deleteCustomerAccount (user : PublicKey) (tenant : TenantId) :
    Prog Stmt State RepositoryError Db.DeleteAccountResult := do
  let startedAt ← .read .insertNotice (·.now)
  let links ← .read .deleteLinks fun s => s.db.linksOf user tenant
  let teamsRemoved ← .read .countTeams fun s => s.db.teamUsers.countP (·.userPubkey == user)
  let oauthAuthorizationsDeleted ← .read .countAuthorizations fun s =>
    s.db.oauthAuthorizations.countP (·.userPubkey == user)
  let bunkerPubkeys ← .read .selectBunkers fun s =>
    (s.db.oauthAuthorizations.filter (·.userPubkey == user)).map (·.bunkerPublicKey)
  let teams ← .read .deleteTeamUsers fun s => s.db.teamsOf user
  let codes ← .read .deleteCodes fun s => s.db.codesOf user tenant
  inTransaction (.commitDeletion user tenant links) fun s =>
    s.db.commitDeletion user tenant { startedAt, links, teams, codes }
  return { teamsRemoved, oauthAuthorizationsDeleted, bunkerPubkeys }

/-- **Undisturbed, the statements are the transaction.** -/
theorem run_deleteCustomerAccount (user : PublicKey) (tenant : TenantId) (s : State) :
    (deleteCustomerAccount user tenant).run s =
      ((s.db.deleteCustomerAccount s.now user tenant).1,
        s.withDb (s.db.deleteCustomerAccount s.now user tenant).2) := by
  -- the memberships are gone by then
  have hfree : ¬ ∃ m,
    m ∈ ((((s.db.insertNotice s.now user tenant).deleteLinksOf user tenant).deleteTeamUsersOf
      user).deleteCodesOf user tenant).teamUsers ∧ m.userPubkey = user := by
    simp [Db.deleteTeamUsersOf, Db.deleteCodesOf]
  unfold deleteCustomerAccount inTransaction Db.deleteCustomerAccount Prog.transaction
  rw [Db.run_deleteCustomerAccountIn_eq]
  cases hrow : ((((s.db.insertNotice s.now user tenant).deleteLinksOf user tenant).deleteTeamUsersOf
      user).deleteCodesOf user tenant).deleteUserRow user tenant with
  | none =>
    simp [Db.commitDeletion, Db.settle_seen, Db.deleteAccountIn, Prog.read, Prog.stmt,
      Prog.write, Prog.tryStmt,
      hrow, hfree]
  | some row =>
    obtain ⟨rows, db⟩ := row
    by_cases hzero : rows = 0
    · simp [Db.commitDeletion, Db.settle_seen, Db.deleteAccountIn, Prog.read, Prog.stmt,
        Prog.write, Prog.tryStmt,
        hrow, hzero]
    · simp [Db.commitDeletion, Db.settle_seen, Db.deleteAccountIn, Prog.read, Prog.stmt,
        Prog.write, Prog.tryStmt,
        hrow, hzero]
      exact ⟨rfl, rfl, rfl⟩

/-! ## The system -/

inductive LinkWork
  | deleteCustomer (user : PublicKey) (tenant : TenantId)
  | sendLink (tenant : TenantId) (ipAllowed windowAllowed : Bool) (email token page : String)
    (purpose : LinkPurpose)
  | verify (inst : InstanceId) (tenant : TenantId) (drawn : GrantDrawn) (generated : Keys)
      (approved : Option PublicKey) (policyId : RowId) (req : VerifyMagicLinkRequest)
  deriving DecidableEq

/-- What comes back to the caller plays no part here. -/
def performLink (w : Web) : LinkWork → Prog Stmt State Unit Unit
  | .deleteCustomer user tenant => do
    let _ ← (deleteCustomerAccount user tenant).mapErr fun _ => ()
    return ()
  | .sendLink tenant ipAllowed windowAllowed email token page purpose => do
    let _ ← (sendLink w tenant ipAllowed windowAllowed email token page purpose).mapErr fun _ => ()
    return ()
  | .verify inst tenant drawn generated approved policyId req => do
    let _ ← (verifyMagicLink w inst tenant drawn generated approved policyId req).mapErr fun _ => ()
    return ()

/-- Beside the requests, time passes. -/
def linkSystem (w : Web) : System LinkWork Stmt State Unit Unit Nat where
  prog := performLink w
  env d s := { s with now := s.now + d }

abbrev LinkPool := Conf LinkWork Stmt State Unit Unit
abbrev LinkThread := Thread LinkWork Stmt State Unit Unit
abbrev LinkEvent := Ev LinkWork Nat

/-- A link, by tenant, hash and address. -/
abbrev LinkKey := TenantId × String × String

def linkKey (l : MagicLinkToken) : LinkKey := (l.tenantId, l.tokenHash, l.email)

/-- The links whose token a step stores. -/
def storedLinks (before after : Db) : List LinkKey :=
  (after.magicLinkTokens.filter fun l => before.magicLinkTokens.all
    fun r => r.tokenHash != l.tokenHash).map linkKey

/-- The account with this address is there before a step and not after it. -/
def Gone (before after : Db) (tenant : TenantId) (email : String) : Prop :=
  before.emailExists email tenant = true ∧ after.emailExists email tenant = false

instance (before after : Db) (tenant : TenantId) (email : String) :
    Decidable (Gone before after tenant email) :=
  inferInstanceAs (Decidable (_ ∧ _))

/-- The servers, with the links stored so far and those that were followed by a deletion of their
account. -/
structure LinkWorld where
  pool : LinkPool
  issued : List LinkKey
  dead : List LinkKey := []

namespace LinkWorld

abbrev db (x : LinkWorld) : Db := x.pool.state.db

def start (s : State) : LinkWorld where
  pool := .init s
  issued := s.db.magicLinkTokens.map linkKey

end LinkWorld

/-- A token that is drawn once more is another link. -/
def linkStep (w : Web) (x : LinkWorld) (e : LinkEvent) : LinkWorld :=
  let pool := (linkSystem w).step x.pool e
  let stored := storedLinks x.db pool.state.db
  { pool
    issued := x.issued ++ stored
    dead := (x.dead ++ x.issued.filter fun k => decide (Gone x.db pool.state.db k.1 k.2.2)).filter
      (· ∉ stored) }

/-- The account with this address is not there before a step, and is after it. -/
def Created (before after : Db) (tenant : TenantId) (email : String) : Prop :=
  Gone after before tenant email

instance (before after : Db) (tenant : TenantId) (email : String) :
    Decidable (Created before after tenant email) :=
  inferInstanceAs (Decidable (Gone after before tenant email))

/-- A request that presents a dead link creates an account with its address. -/
def BringsBack (w : Web) (x : LinkWorld) (e : LinkEvent) : Prop :=
  ∃ i t inst tenant drawn generated approved policyId req email,
    e = .exec i ∧ x.pool.threads[i]? = some t ∧
    t.req = .verify inst tenant drawn generated approved policyId req ∧
    Created x.db (linkStep w x e).db tenant email ∧ (tenant, w.sha256 req.token, email) ∈ x.dead

/-! ## When it does not happen -/

/-- The link could still be used to sign in. -/
def signsIn (now : Timestamp) (l : MagicLinkToken) : Bool :=
  l.purpose == .signIn && l.consumedAt.isNone && decide (now < l.expiresAt)

/-- The request has consumed a sign-in link for this address, has found no account and has not tried
to create one. -/
def mayCreate (w : Web) (tenant : TenantId) (email : String) (seen : List (Stmt × State)) :
    LinkWork → Bool
  | .verify _ tenant' _ _ _ _ req =>
    tenant' == tenant &&
      (seen.any fun x => x.1 == .consumeMagicLink &&
        (x.2.db.consumeMagicLink x.2.now (w.sha256 req.token) tenant).1.any fun l =>
          l.purpose == .signIn && l.email == email) &&
      !(seen.any fun x => x.1 == .findPubkeyByEmail &&
        (x.2.db.findPubkeyByEmail email tenant).isSome) &&
      !(seen.any fun x => x.1 == .findOrCreatePasswordless)
  | _ => false

/-- The request may still create the account. -/
def openFor (w : Web) (tenant : TenantId) (email : String) (t : LinkThread) : Bool :=
  t.next?.isSome && mayCreate w tenant email t.seen t.req

/-- The deletion a statement commits: the user, the tenant and the links that were deleted. -/
def Stmt.commit? : Stmt → Option (PublicKey × TenantId × List (String × String))
  | .commitDeletion user tenant links => some (user, tenant, links)
  | _ => none

/-- Nothing of this customer is under way: the links that can still be used are deleted, and no
request has consumed one and may still create the account. -/
structure CustomerSettled (w : Web) (x : LinkWorld) (deletes : MagicLinkToken → Bool)
    (tenant : TenantId)
    (email : String) : Prop where
  links : ∀ l ∈ x.db.magicLinkTokens, l.tenantId = tenant → l.email = email →
    signsIn x.pool.state.now l = true → deletes l = true
  requests : ∀ t ∈ x.pool.threads, openFor w tenant email t = false

instance (w : Web) (x : LinkWorld) (deletes : MagicLinkToken → Bool) (tenant : TenantId)
    (email : String) :
    Decidable (CustomerSettled w x deletes tenant email) :=
  decidable_of_iff
    ((∀ l ∈ x.db.magicLinkTokens, l.tenantId = tenant → l.email = email →
      signsIn x.pool.state.now l = true → deletes l = true) ∧
      ∀ t ∈ x.pool.threads, openFor w tenant email t = false)
    ⟨fun h => ⟨h.1, h.2⟩, fun h => ⟨h.links, h.requests⟩⟩

/-- A deletion commits only when its customer is settled. -/
def Undisturbed (w : Web) (x : LinkWorld) : LinkEvent → Prop
  | .exec i =>
    ∀ c ∈ ((x.pool.threads[i]?).bind Thread.next?).bind Stmt.commit?, ∀ u ∈ x.db.users,
      u.pubkey = c.1 →
      ∀ email ∈ u.email, Gone x.db (linkStep w x (.exec i)).db u.tenantId email →
        CustomerSettled w x (Db.deletesLink c.2.1 c.2.2) u.tenantId email
  | _ => True

instance (w : Web) (x : LinkWorld) : ∀ e, Decidable (Undisturbed w x e)
  | .spawn _ | .env _ => .isTrue trivial
  | .exec i =>
    inferInstanceAs
      (Decidable (∀ c ∈ ((x.pool.threads[i]?).bind Thread.next?).bind Stmt.commit?, _))

/-! ## What the statements do -/

/-- The accounts and the links are as before. -/
structure SameLinks (s s' : State) : Prop where
  now : s'.now = s.now
  users : s'.db.users = s.db.users
  links : s'.db.magicLinkTokens = s.db.magicLinkTokens

/-- What each statement does to accounts and links. An account is created by a request that was open
for it. -/
def LinkMove (w : Web) (r : LinkWork) : Stmt → List (Stmt × State) → State → State → Prop
  | .consumeMagicLink, _, s, s' =>
    ∃ inst tenant drawn generated approved policyId req,
      r = .verify inst tenant drawn generated approved policyId req ∧
      s' = s.withDb (s.db.consumeMagicLink s.now (w.sha256 req.token) tenant).2
  | .createMagicLink, _, s, s' =>
    SameLinks s s' ∨
      ∃ l, s' = s.withDb { s.db with magicLinkTokens := s.db.magicLinkTokens ++ [l] } ∧
      ∀ r ∈ s.db.magicLinkTokens, r.tokenHash ≠ l.tokenHash
  | .findOrCreatePasswordless, seen, s, s' =>
    SameLinks s s' ∨ ∃ u email, mayCreate w u.tenantId email seen r = true ∧ u.email = some email ∧
      s'.now = s.now ∧ s'.db.users = s.db.users ++ [u] ∧
        s'.db.magicLinkTokens = s.db.magicLinkTokens
  | .commitDeletion user tenant links, _, s, s' =>
    SameLinks s s' ∨ (s'.now = s.now ∧ s'.db.users = s.db.users.filter (·.pubkey != user) ∧
      s'.db.magicLinkTokens = s.db.magicLinkTokens.filter fun l => !Db.deletesLink tenant links l)
  | _, _, s, s' => SameLinks s s'

/-- The statements that have nothing to do with accounts and links. -/
def Stmt.keepsLinks : Stmt → Bool
  | .consumeMagicLink | .createMagicLink | .findOrCreatePasswordless | .commitDeletion .. => false
  | _ => true

def LinkQuiet (l : Stmt) (s s' : State) : Prop := l.keepsLinks = true ∧ SameLinks s s'

section Moves

variable {w : Web} {r : LinkWork} {tenant : TenantId}

theorem SameLinks.refl (s : State) : SameLinks s s := ⟨rfl, rfl, rfl⟩

theorem LinkQuiet.move {l : Stmt} {seen : List (Stmt × State)} {s s' : State}
    (h : LinkQuiet l s s') :
    LinkMove w r l seen s s' := by
  cases l with
  | consumeMagicLink | createMagicLink | findOrCreatePasswordless | commitDeletion => cases h.1
  | _ => exact h.2

theorem GrantMove.linkQuiet (l : Stmt) (s s' : State) (h : GrantMove l s s') :
    LinkQuiet l s s' := by
  refine ⟨?_, h.2.now, ?_, ?_⟩
  · cases l with
    | consumeMagicLink | createMagicLink | findOrCreatePasswordless | commitDeletion => cases h.1
    | _ => rfl
  · rw [h.2.db]
  · rw [h.2.db]

theorem readLink_quiet {ε α : Type} {l : Stmt} (hl : l.keepsLinks = true) (f : State → α) :
    (Prog.read l f : Prog Stmt State ε α).Does LinkQuiet :=
  .read (fun s => ⟨hl, .refl s⟩) f

/-- A part of a request that leaves accounts and links alone. -/
theorem quiet_meets {ε α : Type} {p : Prog Stmt State ε α} {seen : List (Stmt × State)}
    (h : p.Does LinkQuiet) :
    p.Meets (LinkMove w r) (fun _ _ => True) seen :=
  h.meets (fun hq => hq.move) fun _ _ _ => trivial

/-- Deleting an account does the same with every history. -/
theorem deleteCustomerAccount_does (user : PublicKey) :
    (deleteCustomerAccount user tenant).Does fun l s s' => ∀ seen, LinkMove w r l seen s s' := by
  have hread : ∀ {α : Type} {l : Stmt}, l.keepsLinks = true → ∀ f : State → α,
      (Prog.read l f : Prog Stmt State RepositoryError α).Does fun l s s' =>
        ∀ seen, LinkMove w r l seen s s' :=
    fun hl f => (readLink_quiet hl f).mono fun _ _ _ h _ => h.move
  refine .bind (hread rfl _) fun startedAt => .bind (hread rfl _) fun links =>
    .bind (hread rfl _) fun _ =>
    .bind (hread rfl _) fun _ => .bind (hread rfl _) fun _ => .bind (hread rfl _) fun teams =>
    .bind (hread rfl _) fun codes => .bind (inTransaction_does fun s seen => ?_) fun _ => trivial
  rcases s.db.commitDeletion_eq user tenant ⟨startedAt, links, teams, codes⟩ with hfails | hcommits
  · rw [hfails]
    exact .inl (.refl s)
  · rw [hcommits]
    exact .inr ⟨rfl, rfl, rfl⟩

/-- And so does sending a link. -/
theorem sendLink_does (ipAllowed windowAllowed : Bool) (email token page : String)
    (purpose : LinkPurpose) :
    (sendLink w tenant ipAllowed windowAllowed email token page purpose).Does
      fun l s s' => ∀ seen, LinkMove w r l seen s s' := by
  unfold sendLink
  split
  · trivial
  refine .bind ((readLink_quiet rfl _).mono fun _ _ _ h _ => h.move) fun recent => ?_
  split
  · trivial
  refine .bind
    (.attempt (transact_does (fun s seen => .inl (.refl s)) fun s _ db hstored seen => ?_))
      fun stored => ?_
  · obtain ⟨db', hcreate, heq⟩ := Option.map_eq_some_iff.mp hstored
    cases heq
    unfold Db.createMagicLink at hcreate
    split at hcreate
    · cases hcreate
    · next hnew =>
      cases hcreate
      refine .inr ⟨_, rfl, fun row hrow heq => hnew ?_⟩
      exact List.any_eq_true.mpr ⟨row, hrow, by rw [heq]; exact beq_self_eq_true _⟩
  · cases stored <;> trivial

theorem linkSession_linkQuiet (user : PublicKey) (email page : String) (isFirstParty : Bool)
    (lifetime : Nat) :
    (linkSession w tenant user email page isFirstParty lifetime).Does LinkQuiet :=
  .bind (.ofExcept _) fun _ => .bind (.ofExcept _) fun _ =>
    .bind (readLink_quiet rfl _) fun _ => .ofExcept _

/-- The account is created after a look for it that found none. -/
theorem findOrCreateCustomer_meets {email : String} {s₀ : State} (localKey : Option Keys)
    (generated : Keys)
    (hpending : ∀ s₁, s₁.db.findPubkeyByEmail email tenant = none →
      mayCreate w tenant email [(.findPubkeyByEmail, s₁), (.consumeMagicLink, s₀)] r = true) :
    (findOrCreateCustomer w tenant email localKey generated).Meets (LinkMove w r) (fun _ _ => True)
      [(.consumeMagicLink, s₀)] := by
  refine .read .refl fun s₁ => ?_
  cases hfound : s₁.db.findPubkeyByEmail email tenant with
  | some user => trivial
  | none =>
    refine .ofExcept (fun _ => trivial) fun secret _ => ?_
    refine meets_transact_last (fun s _ => .inl (.refl s)) (fun s user db hcreate => ?_)
      fun _ _ => trivial
    rcases Db.findOrCreatePasswordless_eq hcreate with ⟨-, rfl⟩ | ⟨-, -, -, rfl⟩
    · exact .inl (.refl s)
    · exact .inr ⟨_, _, hpending s₁ hfound, rfl, rfl, rfl, rfl⟩

theorem verifyMagicLink_meets (inst : InstanceId) (drawn : GrantDrawn) (generated : Keys)
    (approved : Option PublicKey) (policyId : RowId) (req : VerifyMagicLinkRequest) :
    (verifyMagicLink w inst tenant drawn generated approved policyId req).Meets
      (LinkMove w (.verify inst tenant drawn generated approved policyId req))
        (fun _ _ => True) [] := by
  unfold verifyMagicLink
  split
  · trivial
  refine .ofExcept (fun _ => trivial) fun localKey _ => .ofExcept (fun _ => trivial) fun grant _ =>
    .stmt fun s₀ => ⟨⟨_, _, _, _, _, _, _, rfl, rfl⟩, .orErr trivial fun link hlink => ?_⟩
  split
  · exact quiet_meets (.bind (.bind (readLink_quiet rfl _) fun _ => .bind (.orErr _ _) fun _ =>
      .bind (linkSession_linkQuiet _ _ _ _ _) fun _ => trivial) fun _ => trivial)
  next hpurpose =>
  refine .ofExcept (fun _ => trivial) fun _ _ => .bind ?_
  have hcustomer : (findOrCreateCustomer w tenant link.email localKey generated).Meets
      (LinkMove w (.verify inst tenant drawn generated approved policyId req)) (fun _ _ => True)
      [(.consumeMagicLink, s₀)] := by
    refine findOrCreateCustomer_meets localKey generated fun s₁ hnone => ?_
    have hsignIn : link.purpose = .signIn := by
      cases h : link.purpose with
      | signIn => rfl
      | deleteAccount => exact absurd h hpurpose
    dsimp only at hlink
    simp [mayCreate, hnone, hlink, hsignIn]
  refine hcustomer.mono fun seen result _ => ?_
  cases result with
  | error => trivial
  | ok user =>
    refine quiet_meets (.bind ?_ fun _ => trivial)
    cases grant with
    | none => exact .bind (linkSession_linkQuiet _ _ _ _ _) fun _ => trivial
    | some grant =>
      exact .bind (.mapErr ((createOAuthAuthorization_does _ _ _).mono GrantMove.linkQuiet))
        fun _ => trivial

theorem performLink_meets (r : LinkWork) : (performLink w r).Meets (LinkMove w r)
    (fun _ _ => True) [] := by
  have hany : ∀ p : Prog Stmt State Unit Unit,
    p.Does (fun l s s' => ∀ seen, LinkMove w r l seen s s') →
      p.Meets (LinkMove w r) (fun _ _ => True) [] :=
    fun p hp => hp.meets (fun h => h _) fun _ _ _ => trivial
  cases r with
  | deleteCustomer user tenant =>
    exact hany _ (.bind (.mapErr (deleteCustomerAccount_does user)) fun _ => trivial)
  | sendLink tenant ipAllowed windowAllowed email token page purpose =>
    exact hany _ (.bind (.mapErr (sendLink_does ipAllowed windowAllowed email token page purpose))
      fun _ => trivial)
  | verify inst tenant drawn generated approved policyId req =>
    refine .bind
      (.mapErr ((verifyMagicLink_meets inst drawn generated approved policyId req).mono
        fun seen r _ => ?_))
    cases r <;> trivial

end Moves

/-! ## Runs -/

/-- The hash of the token a request presents. -/
def presented (w : Web) : LinkWork → Option String
  | .verify _ _ _ _ _ _ req => some (w.sha256 req.token)
  | _ => none

/-- **The invariant.** A dead link cannot be used, and no request that has used one may still create
the account. -/
structure LinkWorld.Sound (w : Web) (x : LinkWorld) : Prop where
  meets : System.Meets (LinkMove w) (fun _ _ _ => True) x.pool
  table : ∀ l ∈ x.db.magicLinkTokens, linkKey l ∈ x.dead → signsIn x.pool.state.now l = false
  requests : ∀ t ∈ x.pool.threads, ∀ tenant email, openFor w tenant email t = true →
    ∀ hash ∈ presented w t.req, (tenant, hash, email) ∉ x.dead

section Runs

variable {w : Web} {x : LinkWorld} {e : LinkEvent}

theorem mem_dead_step {k : LinkKey} (h : k ∈ (linkStep w x e).dead) :
    (k ∈ x.dead ∨ Gone x.db (linkStep w x e).db k.1 k.2.2) ∧
      k ∉ storedLinks x.db (linkStep w x e).db := by
  obtain ⟨hmem, hnew⟩ := List.mem_filter.mp h
  refine ⟨?_, of_decide_eq_true hnew⟩
  rcases List.mem_append.mp hmem with hdead | hkilled
  · exact .inl hdead
  · exact .inr (of_decide_eq_true (List.mem_filter.mp hkilled).2)

theorem not_gone_of_subset {before after : Db} {tenant : TenantId} {email : String}
    (hsub : before.users ⊆ after.users) : ¬ Gone before after tenant email := by
  rintro ⟨hbefore, hafter⟩
  obtain ⟨u, hu, hmatch⟩ := List.any_eq_true.mp hbefore
  rw [Db.emailExists, List.any_eq_false] at hafter
  exact hafter u (hsub hu) hmatch

theorem signsIn_later {now now' : Timestamp} {l : MagicLinkToken} (hnow : now ≤ now')
    (h : signsIn now l = false) :
    signsIn now' l = false := by
  rw [← Bool.not_eq_true] at h ⊢
  intro hlater
  simp only [signsIn, Bool.and_eq_true, decide_eq_true_eq] at h hlater
  exact h ⟨hlater.1, Int.lt_of_le_of_lt hnow hlater.2⟩

/-- What an executed statement does, or nothing was executed. -/
theorem exec_move (hmeets : System.Meets (LinkMove w) (fun _ _ _ => True) x.pool) (i : Nat) :
    (linkStep w x (.exec i)).pool.state = x.pool.state ∨
      ∃ t l, x.pool.threads[i]? = some t ∧ t.next? = some l ∧
        LinkMove w t.req l t.seen x.pool.state (linkStep w x (.exec i)).pool.state := by
  cases hl : (x.pool.threads[i]?).bind Thread.next? with
  | none => exact .inl (System.exec_idle (linkSystem w) hl)
  | some l =>
    obtain ⟨t, ht, hnext⟩ := Option.bind_eq_some_iff.mp hl
    exact .inr ⟨t, l, ht, hnext, hmeets.exec (linkSystem w) ht hnext⟩

/-- **What a step does to the accounts**: nothing, or a request that was open for it creates one, or
a deletion commits. -/
theorem users_step (hmeets : System.Meets (LinkMove w) (fun _ _ _ => True) x.pool) (e : LinkEvent) :
    (linkStep w x e).db.users = x.db.users ∨
    (∃ i t u email, e = .exec i ∧ x.pool.threads[i]? = some t ∧
      openFor w u.tenantId email t = true ∧
      u.email = some email ∧ (linkStep w x e).db.users = x.db.users ++ [u]) ∨
    ∃ i t user tenant links, e = .exec i ∧ x.pool.threads[i]? = some t ∧
      t.next? = some (.commitDeletion user tenant links) ∧
      (linkStep w x e).db.users = x.db.users.filter (·.pubkey != user) ∧
      (linkStep w x e).db.magicLinkTokens = x.db.magicLinkTokens.filter fun l =>
        !Db.deletesLink tenant links l := by
  cases e with
  | spawn r => exact .inl rfl
  | env d => exact .inl rfl
  | exec i =>
    rcases exec_move hmeets i with hidle | ⟨t, l, ht, hnext, hmove⟩
    · exact .inl (congrArg (·.db.users) hidle)
    cases l with
    | consumeMagicLink =>
      obtain ⟨_, _, _, _, _, _, _, -, hs⟩ := hmove
      exact .inl (congrArg (·.db.users) hs)
    | createMagicLink =>
      rcases hmove with h | ⟨_, hs, -⟩
      · exact .inl h.users
      · exact .inl (congrArg (·.db.users) hs)
    | findOrCreatePasswordless =>
      rcases hmove with h | ⟨u, email, hpending, hemail, -, husers, -⟩
      · exact .inl h.users
      · refine .inr (.inl ⟨i, t, u, email, rfl, ht, ?_, hemail, husers⟩)
        rw [openFor, hnext, hpending]
        rfl
    | commitDeletion user tenant links =>
      rcases hmove with h | ⟨-, husers, hlinks⟩
      · exact .inl h.users
      · exact .inr (.inr ⟨i, t, user, tenant, links, rfl, ht, hnext, husers, hlinks⟩)
    | _ => exact .inl hmove.users

/-- Only a deletion that commits makes an account go. -/
theorem gone_step (hmeets : System.Meets (LinkMove w) (fun _ _ _ => True) x.pool)
    {tenant : TenantId} {email : String}
    (hgone : Gone x.db (linkStep w x e).db tenant email) :
    ∃ i t user tenant' links, e = .exec i ∧ x.pool.threads[i]? = some t ∧
      t.next? = some (.commitDeletion user tenant' links) ∧
      (linkStep w x e).db.users = x.db.users.filter (·.pubkey != user) ∧
      (linkStep w x e).db.magicLinkTokens = x.db.magicLinkTokens.filter fun l =>
        !Db.deletesLink tenant' links l := by
  rcases users_step hmeets e with hsame | ⟨_, _, _, _, -, -, -, -, hmore⟩ | hcommit
  · exact absurd hgone (not_gone_of_subset (hsame ▸ List.Subset.refl _))
  · exact absurd hgone (not_gone_of_subset (hmore ▸ List.subset_append_left _ _))
  · exact hcommit

/-- When an account goes, its customer was settled. -/
theorem settled_of_gone (hmeets : System.Meets (LinkMove w) (fun _ _ _ => True) x.pool)
    (hc : Undisturbed w x e)
    {tenant : TenantId} {email : String} (hgone : Gone x.db (linkStep w x e).db tenant email) :
    ∃ deletes, CustomerSettled w x deletes tenant email ∧
      (linkStep w x e).db.magicLinkTokens = x.db.magicLinkTokens.filter fun l => !deletes l := by
  obtain ⟨i, t, user, tenant', links, rfl, ht, hnext, husers, hlinks⟩ := gone_step hmeets hgone
  obtain ⟨u, hu, hmatch⟩ := List.any_eq_true.mp hgone.1
  rw [Bool.and_eq_true, beq_iff_eq, beq_iff_eq] at hmatch
  obtain ⟨hemail, rfl⟩ := hmatch
  have huser : u.pubkey = user := by
    by_contra hother
    have hstays : u ∈ (linkStep w x (.exec i)).db.users := by
      rw [husers]
      exact List.mem_filter.mpr ⟨hu, by simpa using hother⟩
    have hafter := hgone.2
    rw [Db.emailExists, List.any_eq_false] at hafter
    exact hafter u hstays (by simp [hemail])
  have hcommit : ((x.pool.threads[i]?).bind Thread.next?).bind Stmt.commit? =
    some (user, tenant', links) := by
    rw [ht, Option.bind_some, hnext]
    rfl
  exact ⟨_, hc _ hcommit u hu huser email hemail hgone, hlinks⟩

/-- A link after a step is new, or of no use, or was there before. -/
theorem links_step (hmeets : System.Meets (LinkMove w) (fun _ _ _ => True) x.pool)
    {l : MagicLinkToken}
    (hl : l ∈ (linkStep w x e).db.magicLinkTokens) :
    linkKey l ∈ storedLinks x.db (linkStep w x e).db ∨
    signsIn (linkStep w x e).pool.state.now l = false ∨
      (l ∈ x.db.magicLinkTokens ∧ x.pool.state.now ≤ (linkStep w x e).pool.state.now) := by
  cases e with
  | spawn r => exact .inr (.inr ⟨hl, Int.le_refl _⟩)
  | env d => exact .inr (.inr ⟨hl, Int.le_add_of_nonneg_right (Int.natCast_nonneg d)⟩)
  | exec i =>
    rcases exec_move hmeets i with hidle | ⟨t, label, ht, hnext, hmove⟩
    · rw [LinkWorld.db, hidle] at hl
      exact .inr (.inr ⟨hl, Int.le_of_eq (congrArg State.now hidle).symm⟩)
    · have hsame : SameLinks x.pool.state (linkStep w x (.exec i)).pool.state →
          l ∈ x.db.magicLinkTokens ∧
            x.pool.state.now ≤ (linkStep w x (.exec i)).pool.state.now := by
        intro h
        rw [LinkWorld.db, h.links] at hl
        exact ⟨hl, Int.le_of_eq h.now.symm⟩
      cases label with
      | consumeMagicLink =>
        obtain ⟨_, _, _, _, _, _, _, -, hs⟩ := hmove
        rw [LinkWorld.db, hs] at hl
        rcases mem_updateWhere.mp hl with ⟨l₀, -, -, rfl⟩ | ⟨hl, -⟩
        · exact .inr (.inl (by simp [signsIn]))
        · exact .inr (.inr ⟨hl, Int.le_of_eq (congrArg State.now hs).symm⟩)
      | createMagicLink =>
        rcases hmove with h | ⟨l₀, hs, hnew⟩
        · exact .inr (.inr (hsame h))
        · have hmem := hl
          rw [LinkWorld.db, hs] at hmem
          rcases List.mem_append.mp hmem with hmem | hmem
          · exact .inr (.inr ⟨hmem, Int.le_of_eq (congrArg State.now hs).symm⟩)
          · obtain rfl := List.mem_singleton.mp hmem
            refine .inl
              (List.mem_map_of_mem (List.mem_filter.mpr ⟨hl, List.all_eq_true.mpr fun r hr => ?_⟩))
            simpa using hnew r hr
      | findOrCreatePasswordless =>
        rcases hmove with h | ⟨_, _, -, -, hnow, -, hlinks⟩
        · exact .inr (.inr (hsame h))
        · rw [LinkWorld.db, hlinks] at hl
          exact .inr (.inr ⟨hl, Int.le_of_eq hnow.symm⟩)
      | commitDeletion user tenant' links =>
        rcases hmove with h | ⟨hnow, -, hlinks⟩
        · exact .inr (.inr (hsame h))
        · rw [LinkWorld.db, hlinks] at hl
          exact .inr (.inr ⟨(List.mem_filter.mp hl).1, Int.le_of_eq hnow.symm⟩)
      | _ => exact .inr (.inr (hsame hmove))

theorem table_step (h : x.Sound w) (hc : Undisturbed w x e) {l : MagicLinkToken}
    (hl : l ∈ (linkStep w x e).db.magicLinkTokens) (hdead : linkKey l ∈ (linkStep w x e).dead) :
    signsIn (linkStep w x e).pool.state.now l = false := by
  obtain ⟨hdead, hold⟩ := mem_dead_step hdead
  rcases links_step h.meets hl with hstored | hno | ⟨hmem, hnow⟩
  · exact absurd hstored hold
  · exact hno
  · refine signsIn_later hnow ?_
    rcases hdead with hdead | hgone
    · exact h.table l hmem hdead
    · -- the deletion has taken every link that could be used, and this one is still there
      obtain ⟨deletes, hsettled, hlinks⟩ := settled_of_gone h.meets hc hgone
      rw [hlinks] at hl
      have hkept := (List.mem_filter.mp hl).2
      rw [← Bool.not_eq_true]
      intro hsigns
      rw [hsettled.links l hmem rfl rfl hsigns] at hkept
      cases hkept

/-- A request that is open after executing anything but its first statement was open before. -/
theorem mayCreate_cons {r : LinkWork} {l : Stmt} {s : State} {seen : List (Stmt × State)}
    {tenant : TenantId}
    {email : String} (h : mayCreate w tenant email ((l, s) :: seen) r = true) :
    mayCreate w tenant email seen r = true ∨ l = .consumeMagicLink ∧
      ∃ hash ∈ presented w r, (s.db.consumeMagicLink s.now hash tenant).1.any (fun l =>
        l.purpose == .signIn && l.email == email) = true := by
  cases r with
  | deleteCustomer | sendLink => cases h
  | verify inst tenant' drawn generated approved policyId req =>
    simp only [mayCreate, List.any_cons, Bool.and_eq_true, Bool.or_eq_true, Bool.not_eq_true',
      Bool.or_eq_false_iff,
      beq_iff_eq] at h ⊢
    obtain ⟨⟨⟨htenant, hconsumed⟩, -, hfound⟩, -, hcreated⟩ := h
    rcases hconsumed with ⟨hl, hlink⟩ | hconsumed
    · exact .inr ⟨hl, _, rfl, hlink⟩
    · exact .inl ⟨⟨⟨htenant, hconsumed⟩, hfound⟩, hcreated⟩

/-- What can be consumed can be used. -/
theorem signsIn_of_consumed {db : Db} {now : Timestamp} {hash email : String} {tenant : TenantId}
    (h : (db.consumeMagicLink now hash tenant).1.any
      (fun l => l.purpose == .signIn && l.email == email) = true) :
    ∃ l ∈ db.magicLinkTokens, linkKey l = (tenant, hash, email) ∧ signsIn now l = true := by
  cases hfound : (db.consumeMagicLink now hash tenant).1 with
  | none =>
    rw [hfound] at h
    cases h
  | some l =>
    rw [hfound, Option.any_some, Bool.and_eq_true, beq_iff_eq, beq_iff_eq] at h
    have hvalid := List.find?_some hfound
    simp only [Bool.and_eq_true, beq_iff_eq, decide_eq_true_eq] at hvalid
    obtain ⟨⟨⟨hhash, htenant⟩, hunused⟩, hnow⟩ := hvalid
    refine ⟨l, List.mem_of_find?_eq_some hfound, ?_, ?_⟩
    · rw [linkKey, hhash, htenant, h.2]
    · simp [signsIn, h.1, hunused, hnow]

theorem requests_step (h : x.Sound w) (hc : Undisturbed w x e) {t' : LinkThread}
    (ht' : t' ∈ (linkStep w x e).pool.threads) {tenant : TenantId} {email hash : String}
    (hopen : openFor w tenant email t' = true) (hhash : hash ∈ presented w t'.req) :
    (tenant, hash, email) ∉ (linkStep w x e).dead := by
  intro hdead
  obtain ⟨hdead, -⟩ := mem_dead_step hdead
  have hbefore : ∀ t ∈ x.pool.threads, openFor w tenant email t = true →
    hash ∈ presented w t.req → False := by
    intro t ht hopen hhash
    rcases hdead with hdead | hgone
    · exact h.requests t ht tenant email hopen hash hhash hdead
    · obtain ⟨_, hsettled, -⟩ := settled_of_gone h.meets hc hgone
      rw [hsettled.requests t ht] at hopen
      cases hopen
  have hpending : mayCreate w tenant email t'.seen t'.req = true :=
    (Bool.and_eq_true_iff.mp hopen).2
  rcases System.threads_step (linkSystem w) ht' with
    ht | hnew | ⟨i, t, l, rfl, hi, hnext, hreq, hseen⟩
  · exact hbefore t' ht hopen hhash
  · rw [hnew] at hpending
    cases hr : t'.req <;> simp [hr, mayCreate] at hpending
  · rw [hseen, hreq] at hpending
    rw [hreq] at hhash
    rcases mayCreate_cons hpending with hpending | ⟨rfl, hash', hhash', hlink⟩
    · refine hbefore t (List.mem_of_getElem? hi) ?_ hhash
      rw [openFor, hnext, hpending]
      rfl
    · -- the link was of use when it was consumed, so it was not dead, and no account has gone
      obtain rfl : hash' = hash := Option.mem_unique hhash' hhash
      obtain ⟨l, hl, hkey, hsigns⟩ := signsIn_of_consumed hlink
      rcases hdead with hdead | hgone
      · rw [h.table l hl (hkey ▸ hdead)] at hsigns
        cases hsigns
      · obtain ⟨j, t₁, _, _, _, heq, hj, hcommit, -⟩ := gone_step h.meets hgone
        cases heq
        rw [hi] at hj
        cases hj
        rw [hnext] at hcommit
        cases hcommit

/-- **One step.** -/
theorem LinkWorld.Sound.step (h : x.Sound w) (hc : Undisturbed w x e) :
    (linkStep w x e).Sound w where
  meets := System.meets_step performLink_meets e h.meets
  table _ hl hdead := table_step h hc hl hdead
  requests _ ht _ _ hopen _ hhash := requests_step h hc ht hopen hhash

theorem LinkWorld.sound_start (w : Web) (s : State) : (LinkWorld.start s).Sound w where
  meets := fun _ ht => nomatch ht
  table _ _ hdead := nomatch hdead
  requests _ ht := nomatch ht

/-- An account is created by a request that was open for it. -/
theorem LinkWorld.Sound.not_bringsBack (h : x.Sound w) : ¬ BringsBack w x e := by
  rintro ⟨i, t, inst, tenant, drawn, generated, approved, policyId, req, email, rfl, ht, hreq,
    hcreated, hdead⟩
  have hkept : (linkStep w x (.exec i)).db.users ⊆ x.db.users → False :=
    fun hsub => not_gone_of_subset hsub hcreated
  rcases users_step h.meets (.exec i) with
    hsame | ⟨j, t₁, u, email', heq, hj, hopen, hemail, husers⟩ |
    ⟨_, _, _, _, _, -, -, -, hfewer, -⟩
  · exact hkept (hsame ▸ List.Subset.refl _)
  · -- the new account is the one the request was open for
    cases heq
    obtain rfl : t₁ = t := Option.some.inj (hj.symm.trans ht)
    obtain ⟨hafter, hbefore⟩ := hcreated
    rw [Db.emailExists, husers, List.any_append, ← Db.emailExists, hbefore] at hafter
    have hnew : u.email = some email ∧ u.tenantId = tenant := by simpa using hafter
    obtain rfl : email' = email := Option.some.inj (hemail.symm.trans hnew.1)
    obtain rfl := hnew.2
    exact h.requests t₁ (List.mem_of_getElem? hj) _ _ hopen _ (by rw [hreq]; rfl) hdead
  · exact hkept (hfewer ▸ List.filter_sublist.subset)

end Runs

/-- **Dead links stay dead.** In every run in which each deletion that commits finds its customer
settled, no request that presents a link older than the deletion of its account creates it again. -/
theorem old_links_stay_dead {w : Web} {s : State} {events : List LinkEvent}
    (hc : Along (linkStep w) (Undisturbed w) (.start s) events) :
    Along (linkStep w) (fun x e => ¬ BringsBack w x e) (.start s) events :=
  along_of_invariant (I := LinkWorld.Sound w) (fun _ _ h hc => h.step hc)
    (fun _ _ h _ => h.not_bringsBack)
    (LinkWorld.sound_start w s) hc

/-! A customer deletes the account. The link of the morning is dead then; with a new one the
customer comes back. -/

def linkWeb : Web := { Web.symbolic [] [] with customerTenant := some 1 }

def linkRows : Db where
  users := [{ pubkey := "p", tenantId := 1, email := some "p@example.com", emailVerified := true }]
  magicLinkTokens :=
    [{ tenantId := 1, email := "p@example.com", tokenHash := "sha256:old", purpose := .signIn,
       appOrigin := "https://app.example", expiresAt := 900000000, createdAt := 0 }]

def click (token : String) : LinkWork :=
  .verify 0 1 ⟨none, 1, "h", "r"⟩ "sk" none 0 { token }

def deletion8 (i : Nat) : List LinkEvent := List.replicate 8 (.exec i)

def clickedAfter : List LinkEvent :=
  .spawn (.deleteCustomer "p" 1) :: deletion8 0 ++
    [.spawn (click "old"), .exec 1,
      .spawn (.sendLink 1 true true "p@example.com" "new" "https://app.example" .signIn),
        .exec 2, .exec 2,
      .spawn (click "new"), .exec 3, .exec 3, .exec 3]

theorem old_links_stay_dead_settled :
    (run (linkStep linkWeb) (.start (.boot linkRows 0)) clickedAfter).dead =
      [(1, "sha256:old", "p@example.com")] ∧
    (run (linkStep linkWeb) (.start (.boot linkRows 0)) clickedAfter).db.users.map
      (·.pubkey) = ["pub:sk"] ∧
    Along (linkStep linkWeb) (fun x e => ¬ BringsBack linkWeb x e) (.start (.boot linkRows 0))
      clickedAfter :=
  ⟨by decide, by decide, old_links_stay_dead (by decide)⟩

/-! The customer clicks the link, and deletes the account before the server has looked for it. -/

def clickedBefore : List LinkEvent :=
  .spawn (click "old") :: .exec 0 :: .spawn (.deleteCustomer "p" 1) :: deletion8 1 ++ [.exec 0]

/-- **It happens.** The link is consumed before the deletion, and the account is created after
it. -/
theorem old_link_brings_account_back :
    BringsBack linkWeb (run (linkStep linkWeb) (.start (.boot linkRows 0)) clickedBefore)
      (.exec 0) := by
  obtain ⟨t, ht, hreq⟩ := Conf.exists_thread (i := 0) (p := fun t => decide (t.req = click "old"))
    (c := (run (linkStep linkWeb) (.start (.boot linkRows 0)) clickedBefore).pool) (by decide)
  refine ⟨0, t, 0, 1, _, _, _, _, { token := "old" }, "p@example.com", rfl, ht,
    of_decide_eq_true hreq, ?_, ?_⟩
  · decide
  · decide

end Http

end Keycast
