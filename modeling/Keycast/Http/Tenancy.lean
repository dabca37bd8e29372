import Keycast.Http.Teams

/-!
# `Http/Tenancy.lean` — a team and the other tenants

The comment at `is_team_admin` leaves the tenant to the handlers, "validating team ownership before
calling this". None of them does. Whoever is an admin of a team, or a full admin, is taken for one
on the hostname of any tenant, and the statements that follow mostly go by the team alone.

`foreign_team_kept_iff` says for each of the seven endpoints when a call on another tenant's
hostname leaves the rows of a team as they are: exactly if the caller is not admitted, or a check of
the endpoint that has nothing to do with the tenant stops the call.

Everything that refers to a team is one value (`teamRows`), and each endpoint has one lemma of the
same shape (`KeptIff`): the value stays as it is exactly if the call does not reach its statements.
That it changes otherwise is seen in a column; that it stays needs that rows of other teams are not
counted among those of this one, which the ids see to (`policyIdsOf_disjoint`, `not_orphaned`).
-/

set_option autoImplicit false

namespace Keycast.Http

open Lib

variable {w : Web} {tenant : TenantId} {auth : UcanAuth} {team called : RowId} {s s' : State}

/-! ## The rows of a team -/

structure TeamRows where
  teams : List Team
  members : List TeamUser
  storedKeys : List StoredKey
  policies : List Policy
  links : List PolicyPermission
  permissions : List PermissionRow
  invitations : List TeamInvitation
  deriving DecidableEq

/-- Everything that refers to the team, and what its policies are made of. -/
def teamRows (db : Db) (team : RowId) : TeamRows :=
  let links := db.policyPermissions.filter fun l => (db.policyIdsOf team).contains l.policyId
  { teams := db.teams.filter fun t => t.id == team
    members := db.teamUsers.filter fun m => m.teamId == team
    storedKeys := db.storedKeys.filter fun k => k.teamId == some team
    policies := db.policies.filter fun p => p.teamId == some team
    links
    permissions := db.permissions.filter fun p => (links.map (·.permissionId)).contains p.id
    invitations := db.teamInvitations.filter fun i => i.teamId == team }

/-- The team is there, in another tenant. -/
structure BelongsElsewhere (db : Db) (team : RowId) (tenant : TenantId) : Prop where
  known : ∃ t ∈ db.teams, t.id = team
  elsewhere : ∀ t ∈ db.teams, t.id = team → t.tenantId ≠ tenant

/-! ## The endpoints -/

inductive TeamCall
  | addUser (req : AddTeammateRequest)
  | removeUser (userPubkey : String)
  | addKey (id : RowId) (secretKey : String)
  | addPolicy (id : RowId) (permissions : List (RowId × String × Json))
  | addAuthorization (id : RowId) (secretHash : Option String) (pubkey : String)
      (req : AddAuthorizationRequest)
  | inviteUser (allowed : Bool) (token email : String) (role : TeamUserRole)
  | deleteTeam

/-- The state after a call on the hostname of a tenant. -/
def serveTeam (w : Web) (tenant : TenantId) (auth : UcanAuth) (team : RowId) (s : State) :
    TeamCall → State
  | .addUser req => ((addUser w tenant auth team req).run s).2
  | .removeUser userPubkey => ((removeUser w auth team userPubkey).run s).2
  | .addKey id secretKey => ((addKey w tenant auth team id secretKey).run s).2
  | .addPolicy id permissions => ((addPolicy w auth team id permissions).run s).2
  | .addAuthorization id secretHash pubkey req =>
    ((addAuthorization w tenant auth team id secretHash pubkey req).run s).2
  | .inviteUser allowed token email role =>
    ((inviteUser w tenant auth allowed token team email role).run s).2
  | .deleteTeam => ((deleteTeam w tenant auth team).run s).2

/-! ## The condition -/

/-- The rows of the permissions that `add_policy` knows. -/
def permissionRows (w : Web) (permissions : List (RowId × String × Json)) : List PermissionRow :=
  (permissions.filter fun p => availablePermissions.contains p.2.1).map fun p =>
    ⟨p.1, p.2.1, w.renderJson p.2.2⟩

/-- The checks of a call beside `verify_admin`. None of them asks for the tenant of the team. -/
def writes (w : Web) (tenant : TenantId) (auth : UcanAuth) (team : RowId) (s : State) :
    TeamCall → Bool
  | .addUser req => (w.publicKeyFromHex req.userPubkey).toOption.any fun user =>
    !s.db.isMember team user
  | .removeUser userPubkey => (w.publicKeyFromHex userPubkey).toOption.any fun user =>
    s.db.isMember team user && (auth.pubkey != user || s.db.countOtherAdmins team user != 0)
  | .addKey id secretKey => (w.keysParse secretKey).toOption.any fun keys =>
    (w.kmsEncrypt (w.toSecretBytes keys)).isOk && !s.db.storedKeys.any (·.id == id)
  | .addPolicy id permissions => s.db.policyIdsFree id (permissionRows w permissions)
  | .addAuthorization .. => false
  | .inviteUser allowed token email _ =>
    let email := normalized w email
    mayInvite w s.db tenant auth.pubkey allowed team email &&
      match s.db.findPubkeyByEmail email tenant with
      | some user => !s.db.isMember team user && (w.publicKeyFromHex user).isOk
      | none =>
        (s.db.findPendingInvitation s.now team email).isNone && s.db.invitationFree team email token
  | .deleteTeam => !s.db.deletionBlocked tenant team &&
    (s.db.teamUsers.any (·.teamId == team) || s.db.policies.any (·.teamId == some team) ||
      s.db.storedKeys.any (Db.isTeamKey tenant team))

def touches (w : Web) (tenant : TenantId) (auth : UcanAuth) (team : RowId) (s : State)
    (c : TeamCall) : Bool :=
  admits w s.db auth.pubkey team && writes w tenant auth team s c

/-! ## Views -/

/-- A call keeps the rows of a team exactly if it does not reach them. -/
def KeptIff (w : Web) (tenant : TenantId) (auth : UcanAuth) (called team : RowId) (c : TeamCall)
    (s s' : State) :
    Prop :=
  teamRows s'.db team = teamRows s.db team ↔
    ¬ (called = team ∧ touches w tenant auth called s c = true)

section KeptIff

variable {c : TeamCall}

theorem KeptIff.refused (hview : teamRows s'.db team = teamRows s.db team)
    (hno : touches w tenant auth called s c = false) :
      KeptIff w tenant auth called team c s s' := by
  rw [KeptIff, hno]
  simp [hview]

theorem KeptIff.of_ne (hview : teamRows s'.db team = teamRows s.db team) (hne : called ≠ team) :
    KeptIff w tenant auth called team c s s' :=
  ⟨fun _ h => hne h.1, fun _ => hview⟩

theorem KeptIff.written (hyes : touches w tenant auth called s c = true)
    (hview : teamRows s'.db team = teamRows s.db team ↔ called ≠ team) :
    KeptIff w tenant auth called team c s s' := by
  rw [KeptIff, hview, hyes]
  simp

/-- The team is known, so what a call cannot find is another one. -/
theorem BelongsElsewhere.ne (h : BelongsElsewhere s.db team tenant)
    (hmissing : s.db.teams.any (·.id == called) = false) : called ≠ team := by
  rintro rfl
  obtain ⟨t, ht, hid⟩ := h.known
  have hany : s.db.teams.any (·.id == called) = true :=
    List.any_eq_true.mpr ⟨t, ht, beq_iff_eq.mpr hid⟩
  rw [hmissing] at hany
  cases hany

/-- The links and the permissions, over the same policies. -/
theorem teamRows_congr {db db' : Db}
    (hteams : db'.teams.filter (·.id == team) = db.teams.filter (·.id == team))
    (hmembers : db'.teamUsers.filter (·.teamId == team) = db.teamUsers.filter (·.teamId == team))
    (hkeys : db'.storedKeys.filter (·.teamId == some team) =
      db.storedKeys.filter (·.teamId == some team))
    (hpolicies : db'.policies.filter (·.teamId == some team) =
      db.policies.filter (·.teamId == some team))
    (hlinks : (db'.policyPermissions.filter fun l => (db.policyIdsOf team).contains l.policyId) =
      db.policyPermissions.filter fun l => (db.policyIdsOf team).contains l.policyId)
    (hperms : (db'.permissions.filter
      fun p => ((teamRows db team).links.map (·.permissionId)).contains p.id) =
      db.permissions.filter fun p => ((teamRows db team).links.map (·.permissionId)).contains p.id)
    (hinvitations : db'.teamInvitations.filter (·.teamId == team) =
      db.teamInvitations.filter (·.teamId == team)) :
    teamRows db' team = teamRows db team := by
  have hids : db'.policyIdsOf team = db.policyIdsOf team := by
    rw [Db.policyIdsOf, Db.policyIdsOf, hpolicies]
  simp only [teamRows] at hperms ⊢
  rw [hteams, hmembers, hkeys, hpolicies, hids, hlinks, hperms, hinvitations]

/-- The permissions of a team's policies are there. -/
theorem permission_known {db : Db}
    (hrefs : References (fun l : PolicyPermission => some l.permissionId)
    PermissionRow.id db.policyPermissions db.permissions) {id : RowId}
    (hid : id ∈ (teamRows db team).links.map (·.permissionId)) : ∃ p ∈ db.permissions,
      p.id = id := by
  obtain ⟨l, hl, rfl⟩ := List.mem_map.mp hid
  exact hrefs l (List.mem_filter.mp hl).1 _ rfl

theorem teamRows_addMember (db : Db) (user : PublicKey) (role : TeamUserRole) :
    teamRows { db with teamUsers := db.teamUsers ++ [⟨called, user, role⟩] } team =
      teamRows db team ↔
      called ≠ team := by
  simp [teamRows, Db.policyIdsOf]

theorem teamRows_removeMember (db : Db) (user : PublicKey) :
    teamRows (db.removeMember called user) team = teamRows db team ↔
      ¬ (called = team ∧ db.isMember team user = true) := by
  simp only [teamRows, Db.policyIdsOf, Db.removeMember, TeamRows.mk.injEq, true_and, and_true]
  rw [filter_filter_eq]
  constructor
  · rintro hspared ⟨rfl, hmember⟩
    obtain ⟨m, hm, hmine⟩ := List.any_eq_true.mp hmember
    have hteam : (m.teamId == called) = true := by
      simp only [Db.isMembership, Bool.and_eq_true] at hmine
      exact hmine.1
    have := hspared m hm hteam
    simp [hmine] at this
  · intro hnot m hm hteam
    rw [beq_iff_eq] at hteam
    cases hmine : Db.isMembership called user m with
    | false => rfl
    | true =>
      refine absurd ⟨?_, List.any_eq_true.mpr ⟨m, hm, ?_⟩⟩ hnot
      · simp only [Db.isMembership, Bool.and_eq_true, beq_iff_eq] at hmine
        exact hmine.1.symm.trans hteam
      · simp only [Db.isMembership, Bool.and_eq_true, beq_iff_eq] at hmine ⊢
        exact ⟨hteam, hmine.2⟩

theorem teamRows_insertKey (db : Db) (k : StoredKey) (hk : k.teamId = some called) :
    teamRows { db with storedKeys := db.storedKeys ++ [k] } team = teamRows db team ↔
      called ≠ team := by
  simp [teamRows, Db.policyIdsOf, hk]

theorem teamRows_insertInvitation (db : Db) (i : TeamInvitation) (hi : i.teamId = called) :
    teamRows { db with teamInvitations := db.teamInvitations ++ [i] } team = teamRows db team ↔
      called ≠ team := by
  simp [teamRows, Db.policyIdsOf, hi]

/-- A new policy with its permissions. The ids are new, so no policy of another team leads to
them. -/
theorem teamRows_insertPolicy {db : Db} {policy : RowId} {rows : List PermissionRow}
    (hrefs : References (fun l : PolicyPermission => some l.permissionId) PermissionRow.id
      db.policyPermissions
      db.permissions)
    (hpolicy : db.policies.any (·.id == policy) = false)
    (hrows : (rows.any fun r => db.permissions.any (·.id == r.id)) = false) :
    teamRows { db with
      permissions := db.permissions ++ rows
      policies := db.policies ++ [{ id := policy, slug := none, teamId := some called }]
      policyPermissions :=
        db.policyPermissions ++ rows.map fun r => ⟨policy, r.id⟩ } team = teamRows db team ↔
      called ≠ team := by
  constructor
  · rintro hview rfl
    have hpolicies := congrArg TeamRows.policies hview
    simp [teamRows] at hpolicies
  · intro hne
    refine teamRows_congr rfl rfl rfl (by simp [hne]) ?_ ?_ rfl
    · have hnew : policy ∉ db.policyIdsOf team := by
        intro hmem
        obtain ⟨p, hp, rfl⟩ := List.mem_map.mp hmem
        have hany : db.policies.any (·.id == p.id) = true :=
          List.any_eq_true.mpr ⟨p, (List.mem_filter.mp hp).1, beq_self_eq_true _⟩
        rw [hpolicy] at hany
        cases hany
      rw [List.filter_append, List.append_right_eq_self, List.filter_eq_nil_iff]
      intro l hl
      obtain ⟨r, -, rfl⟩ := List.mem_map.mp hl
      simpa using hnew
    · rw [List.filter_append, List.append_right_eq_self, List.filter_eq_nil_iff]
      intro r hr hmem
      obtain ⟨p, hp, hid⟩ := permission_known hrefs (List.contains_iff_mem.mp hmem)
      have hany : (rows.any fun r => db.permissions.any (·.id == r.id)) = true :=
        List.any_eq_true.mpr ⟨r, hr, List.any_eq_true.mpr ⟨p, hp, beq_iff_eq.mpr hid⟩⟩
      rw [hrows] at hany
      cases hany

/-- A policy is of one team. -/
theorem policyIdsOf_disjoint {db : Db} (hids : (db.policies.map (·.id)).Nodup)
    (hne : called ≠ team) {id : RowId}
    (hid : id ∈ db.policyIdsOf team) : id ∉ db.policyIdsOf called := by
  intro hcalled
  obtain ⟨p, hp, rfl⟩ := List.mem_map.mp hid
  obtain ⟨q, hq, hsame⟩ := List.mem_map.mp hcalled
  obtain ⟨hp, hpteam⟩ := List.mem_filter.mp hp
  obtain ⟨hq, hqteam⟩ := List.mem_filter.mp hq
  obtain rfl := List.inj_on_of_nodup_map hids hq hp hsame
  rw [beq_iff_eq] at hpteam hqteam
  exact hne (Option.some.inj (hqteam.symm.trans hpteam))

/-- What a policy of another team uses is not orphaned. -/
theorem not_orphaned {db : Db} (hne : called ≠ team) {id : RowId}
    (hid : id ∈ (teamRows db team).links.map (·.permissionId)) : id ∉
      db.orphanedPermissions called := by
  intro horphaned
  obtain ⟨-, hnot⟩ := List.mem_filter.mp horphaned
  have hused : id ∈
    (db.policyPermissions.filter fun l => (db.otherPolicyIds called).contains l.policyId).map
      (·.permissionId) := by
    obtain ⟨l, hl, rfl⟩ := List.mem_map.mp hid
    obtain ⟨hl, hpolicy⟩ := List.mem_filter.mp hl
    obtain ⟨p, hp, hpid⟩ := List.mem_map.mp (List.contains_iff_mem.mp hpolicy)
    obtain ⟨hp, hteam⟩ := List.mem_filter.mp hp
    rw [beq_iff_eq] at hteam
    refine List.mem_map_of_mem (List.mem_filter.mpr ⟨hl, List.contains_iff_mem.mpr ?_⟩)
    rw [← hpid]
    refine List.mem_map_of_mem (List.mem_filter.mpr ⟨hp, ?_⟩)
    simpa [hteam] using hne.symm
  rw [List.contains_iff_mem.mpr hused] at hnot
  cases hnot

theorem teamRows_withoutOther {db : Db} (hids : (db.policies.map (·.id)).Nodup)
    (hne : called ≠ team) :
    teamRows (db.withoutTeam tenant called) team = teamRows db team := by
  refine teamRows_congr ?_ ?_ ?_ ?_ ?_ ?_ ?_
  · refine filter_filter_eq.mpr fun t _ ht => ?_
    rw [beq_iff_eq] at ht
    simp [Db.isTeamRow, ht, hne.symm]
  · refine filter_filter_eq.mpr fun m _ hm => ?_
    rw [beq_iff_eq] at hm
    simp [hm, hne.symm]
  · refine filter_filter_eq.mpr fun k _ hk => ?_
    rw [beq_iff_eq] at hk
    simp [Db.isTeamKey, hk, hne.symm]
  · refine filter_filter_eq.mpr fun p _ hp => ?_
    rw [beq_iff_eq] at hp
    simp [hp, hne.symm]
  · refine filter_filter_eq.mpr fun l _ hl => ?_
    have := policyIdsOf_disjoint hids hne (List.contains_iff_mem.mp hl)
    simpa using this
  · refine filter_filter_eq.mpr fun p _ hp => ?_
    have := not_orphaned hne (List.contains_iff_mem.mp hp)
    simpa using this
  · show List.filter _ (if _ then _ else _) = _
    split
    · refine filter_filter_eq.mpr fun i _ hi => ?_
      rw [beq_iff_eq] at hi
      simp [hi, hne.symm]
    · rfl

/-- Of a team of another tenant, a deletion takes the members, the policies and the keys of its own
tenant. -/
theorem teamRows_withoutTeam {db : Db} (helsewhere : BelongsElsewhere db team tenant) :
    teamRows (db.withoutTeam tenant team) team = teamRows db team ↔
      (db.teamUsers.any (·.teamId == team) || db.policies.any (·.teamId == some team) ||
        db.storedKeys.any (Db.isTeamKey tenant team)) = false := by
  simp only [Bool.or_eq_false_iff, List.any_eq_false, Bool.not_eq_true]
  constructor
  · intro hview
    have hmembers := filter_filter_eq.mp (congrArg TeamRows.members hview)
    have hpolicies := filter_filter_eq.mp (congrArg TeamRows.policies hview)
    have hkeys := filter_filter_eq.mp (congrArg TeamRows.storedKeys hview)
    refine ⟨⟨fun m hm => ?_, fun p hp => ?_⟩, fun k hk => ?_⟩
    · by_contra hteam
      have := hmembers m hm (by simpa using hteam)
      simp_all
    · by_contra hteam
      have := hpolicies p hp (by simpa using hteam)
      simp_all
    · by_contra hteam
      rw [Bool.not_eq_false] at hteam
      have hmine : (k.teamId == some team) = true := by
        simp only [Db.isTeamKey, Bool.and_eq_true] at hteam
        exact hteam.2
      have := hkeys k hk hmine
      simp [hteam] at this
  · rintro ⟨⟨hmembers, hpolicies⟩, hkeys⟩
    have hnoids : db.policyIdsOf team = [] := by
      rw [Db.policyIdsOf, List.map_eq_nil_iff, List.filter_eq_nil_iff]
      intro p hp
      simp [hpolicies p hp]
    have hnorow : db.teams.any (Db.isTeamRow tenant team) = false := by
      rw [List.any_eq_false]
      intro t ht hrow
      simp only [Db.isTeamRow, Bool.and_eq_true, beq_iff_eq] at hrow
      exact helsewhere.elsewhere t ht hrow.2 hrow.1
    refine teamRows_congr ?_ ?_ ?_ ?_ ?_ ?_ ?_
    · refine filter_filter_eq.mpr fun t ht _ => ?_
      rw [List.any_eq_false] at hnorow
      simpa using hnorow t ht
    · refine filter_filter_eq.mpr fun m hm hteam => ?_
      rw [hmembers m hm] at hteam
      cases hteam
    · refine filter_filter_eq.mpr fun k hk _ => ?_
      simp [hkeys k hk]
    · refine filter_filter_eq.mpr fun p hp hteam => ?_
      rw [hpolicies p hp] at hteam
      cases hteam
    · simp [hnoids]
    · simp [teamRows, hnoids]
    · show List.filter _ (if _ then _ else _) = _
      rw [hnorow]
      rfl

end KeptIff

/-! ## The endpoints, one by one -/

section Endpoints

theorem touches_denied {c : TeamCall} (h : admits w s.db auth.pubkey called = false) :
    touches w tenant auth called s c = false := by
  rw [touches, h, Bool.false_and]

theorem touches_stopped {c : TeamCall} (h : writes w tenant auth called s c = false) :
    touches w tenant auth called s c = false := by
  rw [touches, h, Bool.and_false]

theorem touches_through {c : TeamCall} (hadmin : admits w s.db auth.pubkey called = true)
    (h : writes w tenant auth called s c = true) : touches w tenant auth called s c = true := by
  rw [touches, h, hadmin]
  rfl

/-- A member is added once everything is checked, whoever was created before. -/
theorem addMember_keptIff {c : TeamCall} {users : List User} {user : PublicKey}
    {role : TeamUserRole}
    (helsewhere : BelongsElsewhere s.db team tenant)
    (hyes : touches w tenant auth called s c = true)
    (hmember : s.db.isMember called user = false) (hknown : users.any (·.pubkey == user) = true)
    {r : Except RepositoryError Db} (hr : Db.addMember { s.db with users } called user role = r) :
    KeptIff w tenant auth called team c s (s.withDb (r.toOption.getD { s.db with users })) := by
  cases r with
  | error e =>
    rcases Db.addMember_error hr hknown with htaken | hteam
    · rw [show Db.isMember { s.db with users } called user = s.db.isMember called user from rfl,
        hmember] at htaken
      cases htaken
    · exact .of_ne rfl (helsewhere.ne hteam)
  | ok db =>
    obtain ⟨-, -, -, rfl⟩ := Db.addMember_ok.mp hr
    exact .written hyes (teamRows_addMember { s.db with users } user role)

theorem addUser_keptIff (helsewhere : BelongsElsewhere s.db team tenant)
    (req : AddTeammateRequest) :
    (addUser w tenant auth called req).Ends
      (fun _ s' => KeptIff w tenant auth called team (.addUser req) s s') s := by
  refine verifyAdmin_ends (fun hno e => .refused rfl (touches_denied hno)) fun hadmin => ?_
  refine .ofExcept_cases (fun e he => .refused rfl (touches_stopped ?_)) fun user huser => .read ?_
  · obtain ⟨e', hbad, -⟩ := mapError_eq_error he
    simp [writes, hbad, Except.toOption]
  have hkey : w.publicKeyFromHex req.userPubkey = .ok user := mapError_eq_ok.mp huser
  split
  · next hmember =>
      exact .refused rfl (touches_stopped (by simp [writes, hkey, Except.toOption, hmember]))
  next hmember =>
  rw [Bool.not_eq_true] at hmember
  have hyes : touches w tenant auth called s (.addUser req) = true :=
    touches_through hadmin (by simp [writes, hkey, Except.toOption, hmember])
  obtain ⟨users, hcreated, -, hknown⟩ := Db.findOrCreateUser_rows s.db s.now tenant user
  refine .write ?_
  rw [hcreated]
  refine executing_last (fun e he => ?_) fun db hdb => ?_
  · exact addMember_keptIff helsewhere hyes hmember hknown he
  · exact addMember_keptIff helsewhere hyes hmember hknown hdb

theorem removeUser_keptIff (userPubkey : String) :
    (removeUser w auth called userPubkey).Ends
      (fun _ s' => KeptIff w tenant auth called team (.removeUser userPubkey) s s') s := by
  refine verifyAdmin_ends (fun hno e => .refused rfl (touches_denied hno)) fun hadmin => ?_
  refine .ofExcept_cases (fun e he => .refused rfl (touches_stopped ?_)) fun user huser => ?_
  · obtain ⟨e', hbad, -⟩ := mapError_eq_error he
    simp [writes, hbad, Except.toOption]
  have hkey : w.publicKeyFromHex userPubkey = .ok user := mapError_eq_ok.mp huser
  -- the membership goes, if it is there
  have hremoved : (auth.pubkey ≠ user ∨ s.db.countOtherAdmins called user ≠ 0) →
      KeptIff w tenant auth called team (.removeUser userPubkey) s
        (s.withDb (s.db.removeMember called user)) := by
    intro hmay
    rw [KeptIff, State.withDb_db, teamRows_removeMember]
    have htouches : touches w tenant auth called s (.removeUser userPubkey) =
      s.db.isMember called user := by
      rcases hmay with hmay | hmay
      · simp [touches, hadmin, writes, hkey, Except.toOption, hmay]
      · simp [touches, hadmin, writes, hkey, Except.toOption, hmay]
    rw [htouches]
    refine not_congr (and_congr_right ?_)
    rintro rfl
    rfl
  unfold otherAdminRemains
  split
  · next hself =>
    by_cases hothers : s.db.countOtherAdmins called user = 0
    · have hno : touches w tenant auth called s (.removeUser userPubkey) = false :=
        touches_stopped (by simp [writes, hkey, Except.toOption, hself, hothers])
      simp only [Prog.bind_def, Prog.read_bind, Prog.atom_bind, hothers, if_true, Prog.Ends,
        Prog.run_atom, id]
      exact .refused rfl hno
    · simp only [Prog.bind_def, Prog.read_bind, Prog.atom_bind, hothers, if_false, Prog.Ends,
        Prog.run_atom, id]
      exact hremoved (.inr hothers)
  · next hself => exact hremoved (.inl hself)

theorem addKey_keptIff (helsewhere : BelongsElsewhere s.db team tenant) (id : RowId)
    (secretKey : String) :
    (addKey w tenant auth called id secretKey).Ends
      (fun _ s' => KeptIff w tenant auth called team (.addKey id secretKey) s s') s := by
  refine verifyAdmin_ends (fun hno e => .refused rfl (touches_denied hno)) fun hadmin => ?_
  refine .ofExcept_cases (fun e he => .refused rfl (touches_stopped ?_)) fun keys hkeys => ?_
  · obtain ⟨e', hbad, -⟩ := mapError_eq_error he
    simp [writes, hbad, Except.toOption]
  refine .ofExcept_cases (fun e he => .refused rfl (touches_stopped ?_)) fun encrypted henc => ?_
  · obtain ⟨e', hbad, -⟩ := mapError_eq_error he
    simp [writes, mapError_eq_ok.mp hkeys, hbad, Except.toOption, Except.isOk, Except.toBool]
  have hwrites : writes w tenant auth called s (.addKey id secretKey) =
    !s.db.storedKeys.any (·.id == id) := by
    simp [writes, mapError_eq_ok.mp hkeys, mapError_eq_ok.mp henc, Except.toOption, Except.isOk,
      Except.toBool]
  refine executing_last (fun e he => ?_) fun db hdb => ?_
  · rcases Db.createStoredKey_error he with htaken | hteam
    · exact .refused rfl (touches_stopped (by rw [hwrites, htaken]; rfl))
    · exact .of_ne rfl (helsewhere.ne hteam)
  · obtain ⟨hfree, k, hk, rfl⟩ := Db.createStoredKey_ok hdb
    exact .written (touches_through hadmin (by rw [hwrites, hfree]; rfl))
      (teamRows_insertKey s.db k hk)

theorem addPolicy_keptIff (hvalid : s.db.Valid)
    (helsewhere : BelongsElsewhere s.db team tenant) (id : RowId)
    (permissions : List (RowId × String × Json)) :
    (addPolicy w auth called id permissions).Ends
      (fun _ s' => KeptIff w tenant auth called team (.addPolicy id permissions) s s') s := by
  refine verifyAdmin_ends (fun hno e => .refused rfl (touches_denied hno)) fun hadmin => ?_
  refine executing_last (fun e he => ?_) fun db hdb => ?_
  · rcases Db.createPolicyWithPermissions_error he with htaken | hteam
    · exact .refused rfl (touches_stopped htaken)
    · exact .of_ne rfl (helsewhere.ne hteam)
  · obtain ⟨hfree, rfl⟩ := Db.createPolicyWithPermissions_ok hdb
    refine .written (touches_through hadmin hfree) ?_
    simp only [Db.policyIdsFree, Bool.and_eq_true, Bool.not_eq_true'] at hfree
    exact teamRows_insertPolicy hvalid.permissionLinks hfree.2 hfree.1.1

theorem addAuthorization_keptIff (id : RowId) (secretHash : Option String) (pubkey : String)
    (req : AddAuthorizationRequest) :
    (addAuthorization w tenant auth called id secretHash pubkey req).Ends
      (fun _ s' => KeptIff w tenant auth called team
        (.addAuthorization id secretHash pubkey req) s s') s := by
  -- an authorization is no row of the team
  have hsame : ∀ s' : State, teamRows s'.db team = teamRows s.db team →
      KeptIff w tenant auth called team (.addAuthorization id secretHash pubkey req) s s' :=
    fun s' hview => .refused hview (touches_stopped rfl)
  refine verifyAdmin_ends (fun hno e => hsame s rfl) fun hadmin =>
    .ofExcept (fun e => hsame s rfl) fun key _ =>
    .read (.orErr (hsame s rfl) fun stored _ => .read ?_)
  split
  · exact hsame s rfl
  refine .orErr (hsame s rfl) fun hash _ => .orErr (hsame s rfl) fun bunkerKeys _ =>
    executing_last (fun e _ => hsame s rfl) fun db hdb => ?_
  unfold Db.createAuthorization at hdb
  split at hdb
  · cases hdb
  split at hdb
  · cases hdb
  split at hdb
  · cases hdb
  cases hdb
  refine hsame _ ?_
  unfold State.withDb Db.createTeam
  split
  · rfl
  · rfl

theorem inviteUser_keptIff (helsewhere : BelongsElsewhere s.db team tenant) (allowed : Bool)
    (token email : String) (role : TeamUserRole) :
    (inviteUser w tenant auth allowed token called email role).Ends
      (fun _ s' => KeptIff w tenant auth called team (.inviteUser allowed token email role) s s')
        s := by
  have hadmits : mayInvite w s.db tenant auth.pubkey allowed called (normalized w email) = true →
      admits w s.db auth.pubkey called = true := by
    intro hmay
    simp only [mayInvite, Bool.and_eq_true] at hmay
    exact hmay.1.1.1.1
  refine inviteUser_ends (fun hno e => .refused rfl (touches_stopped ?_))
    (fun hmay user hfound => ?_)
    fun hmay hnone => ?_
  · simp only [writes, hno, Bool.false_and]
  · have hwrites : writes w tenant auth called s (.inviteUser allowed token email role) =
        (!s.db.isMember called user && (w.publicKeyFromHex user).isOk) := by
      simp only [writes, hmay, hfound, Bool.true_and]
    refine .read ?_
    split
    · next hmember => exact .refused rfl (touches_stopped (by rw [hwrites, hmember]; rfl))
    next hmember =>
    rw [Bool.not_eq_true] at hmember
    refine .ofExcept_cases (fun e he => .refused rfl (touches_stopped ?_)) fun key hkey => .write ?_
    · obtain ⟨e', hbad, -⟩ := mapError_eq_error he
      rw [hwrites, hbad]
      exact Bool.and_false _
    have hyes : touches w tenant auth called s (.inviteUser allowed token email role) = true := by
      refine touches_through (hadmits hmay) ?_
      rw [hwrites, hmember, mapError_eq_ok.mp hkey]
      rfl
    obtain ⟨users, hcreated, hkept, -⟩ := Db.findOrCreateUser_rows s.db s.now tenant key
    have hknown : users.any (·.pubkey == user) = true := by
      obtain ⟨u, hu, rfl⟩ := Option.map_eq_some_iff.mp hfound
      exact List.any_eq_true.mpr ⟨u, hkept (List.mem_of_find?_eq_some hu), beq_self_eq_true _⟩
    rw [hcreated]
    refine executing_ends (fun e he => ?_) fun db hdb => ?_
    · exact addMember_keptIff helsewhere hyes hmember hknown he
    · exact addMember_keptIff helsewhere hyes hmember hknown hdb
  · have hwrites : writes w tenant auth called s (.inviteUser allowed token email role) =
        ((s.db.findPendingInvitation s.now called (normalized w email)).isNone &&
          s.db.invitationFree called (normalized w email) token) := by
      simp only [writes, hmay, hnone, Bool.true_and]
    refine .read ?_
    split
    · next hpending =>
      refine .refused rfl (touches_stopped ?_)
      rw [hwrites, Option.isNone_eq_false_iff.mpr hpending]
      rfl
    next hpending =>
    rw [Bool.not_eq_true, Option.isSome_eq_false_iff] at hpending
    refine executing_ends (fun e he => ?_) fun db hdb => ?_
    · rcases Db.createInvitation_error he with htaken | hteam
      · exact .refused rfl (touches_stopped (by rw [hwrites, htaken, Bool.and_false]))
      · exact .of_ne rfl (helsewhere.ne hteam)
    · obtain ⟨hfree, i, -, -, hteam, rfl⟩ := Db.createInvitation_ok hdb
      have hkept : KeptIff w tenant auth called team (.inviteUser allowed token email role) s
          (s.withDb { s.db with teamInvitations := s.db.teamInvitations ++ [i] }) :=
        .written (touches_through (hadmits hmay) (by rw [hwrites, hpending, hfree]; rfl))
          (teamRows_insertInvitation s.db i hteam)
      exact .read (.orErr hkept fun _ _ => hkept)

theorem deleteTeam_keptIff (hids : (s.db.policies.map (·.id)).Nodup)
    (helsewhere : BelongsElsewhere s.db team tenant) :
    (deleteTeam w tenant auth called).Ends
      (fun _ s' => KeptIff w tenant auth called team .deleteTeam s s') s := by
  refine verifyAdmin_ends (fun hno e => .refused rfl (touches_denied hno)) fun hadmin => ?_
  have hdeleted := Db.deleteTeamWithRows_eq s.db tenant called
  split at hdeleted
  · next hblocked =>
    obtain ⟨e, hfailed⟩ := hdeleted
    simp only [inTransaction, Prog.bind_def, Prog.stmt_bind, Prog.Ends, Prog.run_atom, hfailed]
    exact .refused rfl (touches_stopped (by simp [writes, hblocked]))
  · next hfree =>
    have hkept :
      KeptIff w tenant auth called team .deleteTeam s
        (s.withDb (s.db.withoutTeam tenant called)) := by
      by_cases hne : called = team
      · subst hne
        rw [KeptIff, State.withDb_db, teamRows_withoutTeam helsewhere]
        simp [touches, hadmin, writes, hfree]
      · exact .of_ne (teamRows_withoutOther hids hne) hne
    simp only [inTransaction, Prog.bind_def, Prog.stmt_bind, Prog.Ends, Prog.run_atom, hdeleted]
    exact hkept

end Endpoints

/-- **A call on another tenant's hostname leaves a team alone exactly if it does not reach it**: it
names another team, `verify_admin` does not admit the caller, or one of the checks that have nothing
to do with the tenant stops it. -/
theorem foreign_team_kept_iff (hvalid : s.db.Valid) (hids : (s.db.policies.map (·.id)).Nodup)
    (helsewhere : BelongsElsewhere s.db team tenant) (c : TeamCall) :
    teamRows (serveTeam w tenant auth called s c).db team = teamRows s.db team ↔
      ¬ (called = team ∧ touches w tenant auth called s c = true) := by
  cases c with
  | addUser req => exact addUser_keptIff helsewhere req
  | removeUser userPubkey => exact removeUser_keptIff userPubkey
  | addKey id secretKey => exact addKey_keptIff helsewhere id secretKey
  | addPolicy id permissions => exact addPolicy_keptIff hvalid helsewhere id permissions
  | addAuthorization id secretHash pubkey req =>
    exact addAuthorization_keptIff id secretHash pubkey req
  | inviteUser allowed token email role =>
    exact inviteUser_keptIff helsewhere allowed token email role
  | deleteTeam => exact deleteTeam_keptIff hids helsewhere

/-! A team of tenant 2, and calls on the hostname of tenant 1. -/

def abroad : Db where
  users := [{ pubkey := "chef", tenantId := 2 }, { pubkey := "cook", tenantId := 2 }]
  teams := [⟨7, 2⟩]
  teamUsers := [⟨7, "chef", .admin⟩, ⟨7, "cook", .member⟩]
  policies := [{ id := 3, slug := none, teamId := some 7 }]
  permissions := [⟨4, "full_access", "null"⟩]
  policyPermissions := [⟨3, 4⟩]

def abroadWeb : Web := .symbolic [] []

/-- The admin of the team, and what the property is about. -/
def kept (c : TeamCall) : Prop :=
  teamRows (serveTeam abroadWeb 1 ⟨"chef", none⟩ 7 (.boot abroad 0) c).db 7 = teamRows abroad 7

theorem abroad_elsewhere : BelongsElsewhere abroad 7 1 := ⟨by decide, by decide⟩

/-- Whoever is only a member is not admitted. -/
theorem foreign_team_kept_member :
    teamRows (serveTeam abroadWeb 1 ⟨"cook", none⟩ 7 (.boot abroad 0) .deleteTeam).db 7 =
      teamRows abroad 7 := by
  have hvalid : abroad.Valid := by constructor <;> simp [abroad, References, Db.conflicts]
  refine (foreign_team_kept_iff (w := abroadWeb) (s := .boot abroad 0) hvalid (by decide)
    abroad_elsewhere
    .deleteTeam).mpr ?_
  decide

/-- **Six of the seven endpoints reach a team of another tenant.** -/
theorem foreign_team_is_changed :
    BelongsElsewhere abroad 7 1 ∧ ¬ kept (.addUser ⟨"mallory", .admin⟩) ∧
    ¬ kept (.removeUser "cook") ∧
      ¬ kept (.addKey 1 "sk") ∧ ¬ kept (.addPolicy 9 [(5, "full_access", .null)]) ∧
      ¬ kept (.inviteUser true "token" "mallory@example.com" .admin) ∧ ¬ kept .deleteTeam := by
  refine ⟨abroad_elsewhere, ?_, ?_, ?_, ?_, ?_, ?_⟩
  · unfold kept
    decide
  · unfold kept
    decide
  · unfold kept
    decide
  · unfold kept
    decide
  · unfold kept
    decide
  · unfold kept
    decide

end Keycast.Http
