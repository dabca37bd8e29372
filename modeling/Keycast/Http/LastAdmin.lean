import Keycast.Http.Teams
import Keycast.Lib.Interleave

/-!
# `Http/LastAdmin.lean` — a team and its last admin

`remove_user` refuses to take the last admin out of a team, "at least one admin has to remain". It
counts the others first and deletes the membership in a second statement, and it counts only when
the caller is the one to go. The other ways out do not count at all: a full admin, or an admin of
the team, removes somebody else; a user deletes the account; a full admin deletes the account of
somebody whose teams are in another tenant.

Requests are interleaved statement by statement. `last_admin_stays_iff` says that the runs in which
the team keeps an admin are exactly those in which every statement that takes an admin out of it
finds another one there, which is what `count_other_admins` would say at that moment.
-/

set_option autoImplicit false

namespace Keycast.Http

open Lib

variable {w : Web} {team : RowId} {user : PublicKey} {tenant : TenantId}

/-! ## The requests -/

inductive TeamWork
  | addUser (tenant : TenantId) (auth : UcanAuth) (team : RowId) (req : AddTeammateRequest)
  | removeUser (auth : UcanAuth) (team : RowId) (userPubkey : String)
  | acceptInvitation (tenant : TenantId) (auth : UcanAuth) (token : String)
  | releaseSupport (inst : InstanceId) (tenant : TenantId) (auth : UcanAuth) (listed : Bool)
    (team : RowId)
  | deleteAccount (inst : InstanceId) (headers : Headers) (tenant : TenantId)
  | adminDeleteUser (inst : InstanceId) (tenant : TenantId) (auth : UcanAuth) (pubkey : String)
  deriving DecidableEq, Repr

inductive TeamError
  | api (e : ApiError)
  | auth (e : AuthError)

def performTeam (w : Web) : TeamWork → Prog Stmt State TeamError Unit
  | .addUser tenant auth team req => (addUser w tenant auth team req).mapErr .api
  | .removeUser auth team userPubkey => (removeUser w auth team userPubkey).mapErr .api
  | .acceptInvitation tenant auth token => do
    let _ ← (acceptInvitation w tenant auth token).mapErr .api
    return ()
  | .releaseSupport inst tenant auth listed team => do
    let _ ← (releaseTeamSupportAccess w inst tenant auth listed team).mapErr .api
    return ()
  | .deleteAccount inst headers tenant => do
    let _ ← (deleteAccount w inst headers tenant).mapErr .auth
    return ()
  | .adminDeleteUser inst tenant auth pubkey =>
    (adminDeleteUser w inst tenant auth pubkey).mapErr .api

/-- Requests of any number of callers; beside them only the clock moves. -/
def teamSystem (w : Web) : System TeamWork Stmt State TeamError Unit Nat where
  prog := performTeam w
  env d s := { s with now := s.now + d }

abbrev TeamPool := Conf TeamWork Stmt State TeamError Unit
abbrev TeamEvent := Ev TeamWork Nat

def HasAdmin (team : RowId) (db : Db) : Prop :=
  ∃ m ∈ db.teamUsers, m.teamId = team ∧ m.role = .admin

instance (team : RowId) (db : Db) : Decidable (HasAdmin team db) :=
  inferInstanceAs (Decidable (∃ m ∈ db.teamUsers, m.teamId = team ∧ m.role = .admin))

/-- Whose membership of the team a statement deletes: the one that `remove_user` or
`release_team_support_access` names, and the user of a deletion that goes through. -/
def takesOut (team : RowId) : Stmt → State → Option PublicKey
  | .removeMember team' user, _ => if team' = team then some user else none
  | .deleteAccount user tenant, s => if s.db.Deletable user tenant then some user else none
  | _, _ => none

/-- A statement that takes an admin out of the team finds another one there. -/
def AnotherAdminLeft (team : RowId) (l : Stmt) (s : State) : Prop :=
  ∀ user ∈ takesOut team l s, s.db.isTeamAdmin user team = true →
    s.db.countOtherAdmins team user ≠ 0

instance (team : RowId) (l : Stmt) (s : State) : Decidable (AnotherAdminLeft team l s) :=
  inferInstanceAs (Decidable (∀ user ∈ takesOut team l s, _ → _))

/-! ## What the statements do to the memberships -/

/-- The two kinds of statement that delete memberships say which; every other keeps them all. -/
def MembersMove : Stmt → State → State → Prop
  | .removeMember team user, s, s' =>
    s'.db.teamUsers = s.db.teamUsers.filter fun m => !Db.isMembership team user m
  | .deleteAccount user tenant, s, s' =>
    s'.db.teamUsers =
      if s.db.Deletable user tenant then s.db.teamUsers.filter (·.userPubkey != user)
      else s.db.teamUsers
  | _, s, s' => s.db.teamUsers ⊆ s'.db.teamUsers

def Stmt.keepsMembers : Stmt → Bool
  | .removeMember .. | .deleteAccount .. => false
  | _ => true

theorem MembersMove.of_subset {l : Stmt} {s s' : State} (hl : l.keepsMembers = true)
    (h : s.db.teamUsers ⊆ s'.db.teamUsers) : MembersMove l s s' := by
  cases l with
  | removeMember | deleteAccount => cases hl
  | _ => exact h

theorem read_does {ε α : Type} {l : Stmt} (hl : l.keepsMembers = true) (f : State → α) :
    (Prog.read l f : Prog Stmt State ε α).Does MembersMove :=
  .read (fun _ => .of_subset hl (List.Subset.refl _)) f

/-- The memberships after the transaction of either deletion. -/
theorem transaction_members {p : Prog Db.DeletionStmt Db RepositoryError Db.DeleteAccountResult}
    {db db₀ : Db}
    (hrun : p.run db = (Db.deleteAccountIn user tenant).run db₀)
    (hmembers : db₀.teamUsers = db.teamUsers)
    (hdeletable : db₀.Deletable user tenant ↔ db.Deletable user tenant) :
    (p.transaction db).2.teamUsers =
      if db.Deletable user tenant then db.teamUsers.filter (·.userPubkey != user)
      else db.teamUsers := by
  split
  · next h =>
    obtain ⟨r, db', hok⟩ := Db.deleteAccountIn_succeeds_iff.mpr (hdeletable.mpr h)
    rw [Prog.transaction_ok.mpr (hrun.trans hok)]
    obtain ⟨-, -, rfl, -⟩ := Db.run_deleteAccountIn hok
    show db₀.teamUsers.filter _ = _
    rw [hmembers]
  · next h =>
    cases hresult : (p.transaction db).1 with
    | error e =>
      have hsame : (p.transaction db).2 = db := Prog.transaction_error (Prod.ext hresult rfl)
      rw [hsame]
    | ok r =>
      have hok := Prog.transaction_ok.mp (Prod.ext hresult rfl)
      exact absurd
        (hdeletable.mp (Db.deleteAccountIn_succeeds_iff.mp ⟨r, _, hrun.symm.trans hok⟩)) h

theorem deleteAccount_members (db : Db) (user : PublicKey) (tenant : TenantId) :
    (db.deleteAccount user tenant).2.teamUsers =
      if db.Deletable user tenant then db.teamUsers.filter (·.userPubkey != user)
      else db.teamUsers :=
  transaction_members rfl rfl Iff.rfl

theorem deletion_members (now : Timestamp) (db : Db) (user : PublicKey) (tenant : TenantId) :
    (deletion w now db user tenant).2.teamUsers =
      if db.Deletable user tenant then db.teamUsers.filter (·.userPubkey != user)
      else db.teamUsers := by
  unfold deletion
  split
  · exact transaction_members (Db.run_deleteCustomerAccountIn_eq now user tenant db) rfl Iff.rfl
  · exact deleteAccount_members db user tenant

theorem executing_does {P : Stmt → State → State → Prop} {l : Stmt}
    {toError : RepositoryError → ApiError}
    {f : State → Except RepositoryError Db} (hrefl : ∀ s, P l s s)
    (hok : ∀ s db, f s = .ok db → P l s (s.withDb db)) : (executing l toError f).Does P := by
  refine .tryStmt (fun s _ _ => hrefl s) fun s _ s' h => ?_
  cases hf : f s with
  | error e => simp [hf, Except.map, Except.mapError] at h
  | ok db =>
    simp only [hf, Except.map, Except.mapError, Except.ok.injEq, Prod.mk.injEq, true_and] at h
    rw [← h]
    exact hok s db hf

theorem verifyAdmin_does (pubkey : PublicKey) : (verifyAdmin w pubkey team).Does MembersMove := by
  unfold verifyAdmin
  split
  · trivial
  refine .bind (.ofExcept _) fun key => .bind (read_does rfl _) fun admin => ?_
  split
  · trivial
  · trivial

theorem addMember_members {db db' : Db} {role : TeamUserRole}
    (h : db.addMember team user role = .ok db') :
    db'.teamUsers = db.teamUsers ++ [⟨team, user, role⟩] := by
  obtain ⟨-, -, -, rfl⟩ := Db.addMember_ok.mp h
  rfl

theorem addUser_does (auth : UcanAuth) (req : AddTeammateRequest) :
    (addUser w tenant auth team req).Does MembersMove := by
  refine .bind (verifyAdmin_does _) fun _ => .bind (.ofExcept _) fun user =>
    .bind (read_does rfl _) fun member => ?_
  split
  · trivial
  refine .bind (.write fun s => ?_) fun _ =>
    executing_does (fun s => List.Subset.refl _) fun s db h => ?_
  · show s.db.teamUsers ⊆ (s.db.findOrCreateUser s.now tenant user).teamUsers
    unfold Db.findOrCreateUser
    split <;> exact List.Subset.refl _
  · show s.db.teamUsers ⊆ db.teamUsers
    rw [addMember_members h]
    exact List.subset_append_left _ _

theorem removeUser_does (auth : UcanAuth) (userPubkey : String) :
    (removeUser w auth team userPubkey).Does MembersMove := by
  refine .bind (verifyAdmin_does _) fun _ => .bind (.ofExcept _) fun user => .bind ?_ fun _ =>
    .write fun s => rfl
  unfold otherAdminRemains
  split
  · refine .bind (read_does rfl _) fun remaining => ?_
    split
    · trivial
    · trivial
  · trivial

theorem acceptInvitation_does (auth : UcanAuth) (token : String) :
    (acceptInvitation w tenant auth token).Does MembersMove := by
  refine .bind (read_does rfl _) fun found => .bind (.orErr _ _) fun invitation => ?_
  split
  · trivial
  refine .bind (read_does rfl _) fun own => .bind (.orErr _ _) fun email => ?_
  split
  · trivial
  refine .bind (read_does rfl _) fun member => ?_
  split
  · trivial
  refine .bind (executing_does (fun s => List.Subset.refl _) fun s db h => ?_) fun _ =>
    .bind (executing_does (fun s => List.Subset.refl _) fun s db h => ?_) fun _ => trivial
  · show s.db.teamUsers ⊆ db.teamUsers
    rw [addMember_members h]
    exact List.subset_append_left _ _
  · show s.db.teamUsers ⊆ db.teamUsers
    unfold Db.acceptInvitation at h
    dsimp only at h
    split at h
    · cases h
      exact List.Subset.refl _
    · cases h

theorem revokeSupport_does (inst : InstanceId) (rows : List Authorization) :
    (revokeSupport w inst tenant rows).Does MembersMove := by
  induction rows with
  | nil => trivial
  | cons a rows ih =>
    refine .bind (.stmt fun s => List.Subset.refl _) fun live => ?_
    split
    · exact .bind (.write fun s => List.Subset.refl _) fun _ =>
        .bind (.write fun s => List.Subset.refl _) fun _ => ih
    · exact ih

theorem releaseTeamSupportAccess_does (inst : InstanceId) (auth : UcanAuth) (listed : Bool) :
    (releaseTeamSupportAccess w inst tenant auth listed team).Does MembersMove := by
  unfold releaseTeamSupportAccess
  split
  · trivial
  refine .bind (read_does rfl _) fun row => .bind (.orErr _ _) fun _ =>
    .bind (read_does rfl _) fun active => .bind (revokeSupport_does inst active) fun _ =>
    .bind (read_does rfl _) fun member => ?_
  split
  · exact .bind (.write fun s => rfl) fun _ => trivial
  · trivial

theorem invalidateBunkers_does {ε : Type} (inst : InstanceId) (bs : List PublicKey) :
    (invalidateBunkers w inst bs : Prog Stmt State ε Unit).Does MembersMove := by
  induction bs with
  | nil => trivial
  | cons b bs ih => exact .bind (.write fun s => List.Subset.refl _) fun _ => ih

theorem sendRemoves_does {ε : Type} (bs : List PublicKey) :
    (sendRemoves bs : Prog Stmt State ε Unit).Does MembersMove := by
  induction bs with
  | nil => trivial
  | cons b bs ih => exact .bind (.write fun s => List.Subset.refl _) fun _ => ih

theorem deleteAccount_does (inst : InstanceId) (headers : Headers) :
    (deleteAccount w inst headers tenant).Does MembersMove := by
  refine .bind (.ofExcept _) fun header => .bind (read_does rfl _) fun now =>
    .bind (.ofExcept _) fun ⟨user, _⟩ => .bind (.ofExcept _) fun _ =>
      .bind (inTransaction_does fun s => ?_)
    fun result => .bind (invalidateBunkers_does inst _) fun _ =>
      .bind (sendRemoves_does _) fun _ => trivial
  exact deletion_members s.now s.db user tenant

theorem adminDeleteUser_does (inst : InstanceId) (auth : UcanAuth) (pubkey : String) :
    (adminDeleteUser w inst tenant auth pubkey).Does MembersMove := by
  unfold adminDeleteUser
  split
  · trivial
  dsimp only
  split
  · trivial
  refine .bind (read_does rfl _) fun teams => ?_
  split
  · trivial
  refine .bind (inTransaction_does fun s => ?_) fun result =>
    .bind (invalidateBunkers_does inst _) fun _ => sendRemoves_does _
  exact deleteAccount_members s.db _ tenant

theorem performTeam_does (r : TeamWork) : (performTeam w r).Does MembersMove := by
  cases r with
  | addUser tenant auth team req => exact .mapErr (addUser_does auth req)
  | removeUser auth team userPubkey => exact .mapErr (removeUser_does auth userPubkey)
  | acceptInvitation tenant auth token =>
    exact .bind (.mapErr (acceptInvitation_does auth token)) fun _ => trivial
  | releaseSupport inst tenant auth listed team =>
    exact .bind (.mapErr (releaseTeamSupportAccess_does inst auth listed)) fun _ => trivial
  | deleteAccount inst headers tenant =>
    exact .bind (.mapErr (deleteAccount_does inst headers)) fun _ => trivial
  | adminDeleteUser inst tenant auth pubkey => exact .mapErr (adminDeleteUser_does inst auth pubkey)

/-! ## One step -/

theorem countOtherAdmins_ne_zero {db : Db} :
    db.countOtherAdmins team user ≠ 0 ↔
      ∃ m ∈ db.teamUsers, m.teamId = team ∧ m.userPubkey ≠ user ∧ m.role = .admin := by
  rw [Db.countOtherAdmins, ← Nat.pos_iff_ne_zero, List.countP_pos_iff]
  simp [and_assoc]

theorem isTeamAdmin_iff {db : Db} :
    db.isTeamAdmin user team = true ↔
      ∃ m ∈ db.teamUsers, m.teamId = team ∧ m.userPubkey = user ∧ m.role = .admin := by
  simp [Db.isTeamAdmin, Db.isMembership, and_assoc]

/-- Of the members of a team one leaves. -/
theorem HasAdmin.leave {db db' : Db} (h : HasAdmin team db)
    (hmembers : ∀ m, m.teamId = team →
      (m ∈ db'.teamUsers ↔ m ∈ db.teamUsers ∧ m.userPubkey ≠ user)) :
    (db.isTeamAdmin user team = true → db.countOtherAdmins team user ≠ 0) ↔ HasAdmin team db' := by
  rw [countOtherAdmins_ne_zero, isTeamAdmin_iff]
  constructor
  · intro hother
    obtain ⟨m, hm, hteam, hrole⟩ := h
    by_cases huser : m.userPubkey = user
    · obtain ⟨m', hm', hteam', hne, hrole'⟩ := hother ⟨m, hm, hteam, huser, hrole⟩
      exact ⟨m', (hmembers m' hteam').mpr ⟨hm', hne⟩, hteam', hrole'⟩
    · exact ⟨m, (hmembers m hteam).mpr ⟨hm, huser⟩, hteam, hrole⟩
  · rintro ⟨m, hm, hteam, hrole⟩ -
    obtain ⟨hm, hne⟩ := (hmembers m hteam).mp hm
    exact ⟨m, hm, hteam, hne, hrole⟩

theorem HasAdmin.stay {db db' : Db} (h : HasAdmin team db)
    (hmembers : ∀ m, m.teamId = team → m ∈ db.teamUsers → m ∈ db'.teamUsers) :
      HasAdmin team db' := by
  obtain ⟨m, hm, hteam, hrole⟩ := h
  exact ⟨m, hmembers m hteam hm, hteam, hrole⟩

/-- **One statement** keeps an admin in the team exactly if it finds another one than it takes
out. -/
theorem MembersMove.hasAdmin_iff {l : Stmt} {s s' : State} (h : MembersMove l s s')
    (hadmin : HasAdmin team s.db) : AnotherAdminLeft team l s ↔ HasAdmin team s'.db := by
  cases l with
  | removeMember team' user =>
    have hmoved : s'.db.teamUsers = s.db.teamUsers.filter fun m => !Db.isMembership team' user m :=
      h
    simp only [AnotherAdminLeft, takesOut]
    by_cases hteam : team' = team
    · subst hteam
      simp only [if_pos, Option.mem_def, Option.some.injEq, forall_eq']
      refine hadmin.leave fun m hm => ?_
      simp [hmoved, List.mem_filter, Db.isMembership, hm]
    · refine ⟨fun _ => hadmin.stay fun m hm hmem => ?_, fun _ => by simp [hteam]⟩
      rw [hmoved, List.mem_filter]
      refine ⟨hmem, ?_⟩
      simp [Db.isMembership, hm, Ne.symm hteam]
  | deleteAccount user tenant =>
    have hmoved : s'.db.teamUsers = if s.db.Deletable user tenant then
      s.db.teamUsers.filter (·.userPubkey != user) else s.db.teamUsers := h
    simp only [AnotherAdminLeft, takesOut]
    by_cases hdel : s.db.Deletable user tenant
    · rw [if_pos hdel] at hmoved
      simp only [if_pos hdel, Option.mem_def, Option.some.injEq, forall_eq']
      refine hadmin.leave fun m hm => ?_
      simp [hmoved, List.mem_filter]
    · rw [if_neg hdel] at hmoved
      refine ⟨fun _ => hadmin.stay fun m _ hmem => ?_, fun _ => by simp [hdel]⟩
      rwa [hmoved]
  | _ => exact ⟨fun _ => hadmin.stay fun m _ hmem => h hmem, fun _ user huser => nomatch huser⟩

/-! ## Runs -/

/-- Every thread has only statements ahead of it that move the members as their label says. -/
abbrev TeamPool.Moves (c : TeamPool) : Prop :=
  System.Meets (fun _ l _ s s' => MembersMove l s s') (fun _ _ _ => True) c

theorem performTeam_meets (r : TeamWork) :
    (performTeam w r).Meets (fun l _ s s' => MembersMove l s s') (fun _ _ => True) [] :=
  (performTeam_does r).meets id fun _ _ _ => trivial

/-- **One step** of a run. -/
theorem teamStep_hasAdmin_iff {c : TeamPool} (e : TeamEvent) (hc : c.Moves)
    (hadmin : HasAdmin team c.state.db) :
    System.Allowed (AnotherAdminLeft team) (fun _ _ => True) c e ↔
      HasAdmin team ((teamSystem w).step c e).state.db := by
  cases e with
  | spawn r => exact ⟨fun _ => hadmin, fun _ => trivial⟩
  | env d => exact ⟨fun _ => hadmin, fun _ => trivial⟩
  | exec i =>
    cases hl : (c.threads[i]?).bind Thread.next? with
    | none =>
      rw [System.exec_idle (teamSystem w) hl]
      refine ⟨fun _ => hadmin, fun _ t ht l hnext => ?_⟩
      rw [Option.mem_def.mp ht, Option.bind_some, Option.mem_def.mp hnext] at hl
      cases hl
    | some l =>
      obtain ⟨t, ht, hnext⟩ := Option.bind_eq_some_iff.mp hl
      have hmoves := hc.exec (teamSystem w) ht hnext
      rw [← hmoves.hasAdmin_iff hadmin]
      simp [System.Allowed, ht, hnext]

/-- **A team keeps an admin exactly in those runs** in which every statement that takes an admin out
of it finds another one there. -/
theorem last_admin_stays_iff {s : State} {events : List TeamEvent} (hadmin : HasAdmin team s.db) :
    Along (teamSystem w).step (System.Allowed (AnotherAdminLeft team) fun _ _ => True)
      (.init s) events ↔
      ∀ pre post, events = pre ++ post →
        HasAdmin team (run (teamSystem w).step (.init s) pre).state.db := by
  refine along_iff_always (I := TeamPool.Moves) (H := fun c => HasAdmin team c.state.db)
    (fun c e hc => System.meets_step performTeam_meets e hc)
      (fun c e hc => teamStep_hasAdmin_iff e hc) ?_ hadmin
  exact fun t ht => nomatch ht

/-! Two admins of one team. -/

def coAdmins : Db where
  users := [{ pubkey := "a", tenantId := 1 }, { pubkey := "b", tenantId := 1 }]
  teams := [⟨7, 1⟩]
  teamUsers := [⟨7, "a", .admin⟩, ⟨7, "b", .admin⟩]

def coWeb : Web := .symbolic [] []

def leaves (user : PublicKey) : TeamEvent := .spawn (.removeUser ⟨user, none⟩ 7 user)

def executed (i : Nat) (n : Nat) : List TeamEvent := List.replicate n (.exec i)

/-- One of the two leaves, and then the other tries to. -/
def leaveInTurn : List TeamEvent := leaves "a" :: leaves "b" :: (executed 0 3 ++ executed 1 3)

/-- Both count before either is gone. -/
def leaveTogether : List TeamEvent :=
  leaves "a" :: leaves "b" :: (executed 0 2 ++ executed 1 3 ++ executed 0 1)

/-- Each removes the other: nobody is counted. -/
def removeEachOther : List TeamEvent :=
  [.spawn (.removeUser ⟨"a", none⟩ 7 "b"), .spawn (.removeUser ⟨"b", none⟩ 7 "a"), .exec 0, .exec 1,
    .exec 0, .exec 1]

theorem last_admin_stays_in_turn :
    HasAdmin 7 (run (teamSystem coWeb).step (.init (.boot coAdmins 0)) leaveInTurn).state.db := by
  have hadmin : HasAdmin 7 (State.boot coAdmins 0).db := by decide
  refine (last_admin_stays_iff (w := coWeb) hadmin).mp ?_ leaveInTurn [] (List.append_nil _).symm
  decide

/-! The only admin of a team, with an account in another tenant than the team's. -/

def onlyAdmin : PublicKey := String.ofList (List.replicate 64 'a')

def loneAdmin : Db where
  users := [{ pubkey := onlyAdmin, tenantId := 1 }]
  teams := [⟨7, 2⟩]
  teamUsers := [⟨7, onlyAdmin, .admin⟩]

def onlyAdminUcan : Ucan :=
  ⟨some onlyAdmin, some onlyAdmin, none,
    [.obj [("tenant_id", .int 1), ("redirect_origin", .str "https://app.example"),
      ("first_party", .bool true)]]⟩

def loneWeb : Web := { Web.symbolic [("own", onlyAdminUcan)] [] with allowedPubkeys := some "root" }

/-- The account is deleted by its owner. -/
def deletesAccount : List TeamEvent :=
  .spawn (.deleteAccount 0 { authorization := some (some "Bearer own") } 1) :: executed 0 2

/-- A full admin deletes it; the team is not of this tenant. -/
def adminDeletes : List TeamEvent :=
  .spawn (.adminDeleteUser 0 1 ⟨"root", some "full"⟩ onlyAdmin) :: executed 0 2

/-- A full admin removes the membership. -/
def adminRemoves : List TeamEvent :=
  .spawn (.removeUser ⟨"root", none⟩ 7 onlyAdmin) :: executed 0 1

/-- **Ways to lose the last admin**: two leave at the same moment, two remove each other, the
account is deleted by its owner or by a full admin, a full admin removes the membership. -/
theorem last_admin_can_go :
    (HasAdmin 7 coAdmins ∧
      ¬ HasAdmin 7 (run (teamSystem coWeb).step (.init (.boot coAdmins 0)) leaveTogether).state.db ∧
      ¬ HasAdmin 7
        (run (teamSystem coWeb).step (.init (.boot coAdmins 0)) removeEachOther).state.db) ∧
    HasAdmin 7 loneAdmin ∧
      ¬ HasAdmin 7
        (run (teamSystem loneWeb).step (.init (.boot loneAdmin 0)) deletesAccount).state.db ∧
      ¬ HasAdmin 7
        (run (teamSystem loneWeb).step (.init (.boot loneAdmin 0)) adminDeletes).state.db ∧
      ¬ HasAdmin 7
        (run (teamSystem loneWeb).step (.init (.boot loneAdmin 0)) adminRemoves).state.db := by
  refine ⟨⟨by decide, ?_, ?_⟩, by decide, ?_, ?_, ?_⟩
  · decide
  · decide
  · decide
  · decide
  · decide

end Keycast.Http
