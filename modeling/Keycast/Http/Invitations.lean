import Keycast.Http.Preload
import Keycast.Http.Signup
import Keycast.Http.Teams

/-!
# `Http/Invitations.lean` — whom an invitation by email adds

`invite_user` takes an address. If nobody has it, a token is stored and mailed there, and
`accept_invitation` wants the token back: that is proof of the mailbox. If an account has it, that
account is added at once, and there the proof is missing: `find_pubkey_by_email` does not look at
`email_verified`, and `register` stores any address that is free, with a key that may be the
caller's own.

A run is a list of whole calls. Beside the state it keeps the mails of invitations, which no call
reads. `invitations_reach_owner_iff` says that the runs in which every new member is the owner of
the mailbox are exactly those in which an account that is added at once has its email verified.

What a call leaves is said by three structures, one for each kind of call (`OnlyAccounts`,
`Invites`, `Accepts`). From them `InviteWorld.Consistent.step` keeps the bookkeeping over the run,
and `reachesOwner_iff` compares, for one call, the property with the condition; the result is the
second along the first.
-/

set_option autoImplicit false

namespace Keycast.Http

open Lib

variable {w : Web}

/-! ## Runs -/

inductive InviteCall
  | register (tenant : TenantId) (allowed : Bool) (generated : Keys) (verificationToken : String)
      (queue : Except BcryptQueueError Unit) (req : RegisterRequest)
  | verifyEmail (tenant : TenantId) (headers : Headers) (redis : Redis) (newCode token : String)
  | inviteUser (tenant : TenantId) (auth : UcanAuth) (allowed : Bool) (token : String)
    (team : RowId)
      (email : String) (role : TeamUserRole)
  | acceptInvitation (tenant : TenantId) (auth : UcanAuth) (token : String)
  | tick (d : Nat)

/-- The mails of invitations that a call sends, and the state it leaves. -/
def serveInvite (w : Web) (s : State) : InviteCall → List Mail × State
  | .register tenant allowed generated token queue req =>
    ([], ((register w tenant allowed generated token queue req).run s).2)
  | .verifyEmail tenant headers redis newCode token =>
    ([], ((verifyEmail w tenant headers redis newCode token).run s).2)
  | .inviteUser tenant auth allowed token team email role =>
    match (inviteUser w tenant auth allowed token team email role).run s with
    | (.ok (.invited address token), s') => ([⟨address, token⟩], s')
    | (_, s') => ([], s')
  | .acceptInvitation tenant auth token => ([], ((acceptInvitation w tenant auth token).run s).2)
  | .tick d => ([], { s with now := s.now + d })

structure InviteWorld where
  state : State
  mails : List Mail

def inviteStep (w : Web) (x : InviteWorld) (c : InviteCall) : InviteWorld where
  state := (serveInvite w x.state c).2
  mails := x.mails ++ (serveInvite w x.state c).1

/-- The keys of the tables, and that every mail took the token of an invitation to the address it is
for. -/
structure InviteWorld.Consistent (x : InviteWorld) : Prop where
  users : PkUnique x.state.db
  tokens : (x.state.db.teamInvitations.map (·.token)).Nodup
  mails : ∀ mail ∈ x.mails, ∃ i ∈ x.state.db.teamInvitations, i.token = mail.token ∧
    i.email = mail.address

/-! ## The property and its condition -/

/-- The account has the email, and it is verified. -/
def HasVerified (db : Db) (user : PublicKey) (email : String) : Prop :=
  ∃ u ∈ db.users, u.pubkey = user ∧ u.email = some email ∧ u.emailVerified = true

/-- An invitation to the email has the token, and no mail took it to anybody else. -/
def InviteWorld.MadeOutTo (x : InviteWorld) (email token : String) : Prop :=
  (∃ i ∈ x.state.db.teamInvitations, i.token = token ∧ i.email = email) ∧
    ∀ mail ∈ x.mails, mail.token = token → mail.address = email

/-- Whoever the call makes a member has the invited email verified, or has presented the token that
was mailed there. Registration and verification make nobody a member. -/
def ReachesOwner (w : Web) (x : InviteWorld) (c : InviteCall) : Prop :=
  ∀ m ∈ (inviteStep w x c).state.db.teamUsers, m ∉ x.state.db.teamUsers →
    match c with
    | .inviteUser _ _ _ _ _ email _ =>
      HasVerified (inviteStep w x c).state.db m.userPubkey (normalized w email)
    | .acceptInvitation _ auth token =>
      m.userPubkey = auth.pubkey ∧ ∃ email, x.MadeOutTo email token
    | _ => False

/-- An account with the address, which an invitation that passes its checks makes a member. -/
structure AddedAtOnce (w : Web) (db : Db) (tenant : TenantId) (pubkey : PublicKey) (allowed : Bool)
    (team : RowId) (email : String) (u : User) : Prop where
  invites : mayInvite w db tenant pubkey allowed team email = true
  found : (db.users.find? fun u => u.email == some email && u.tenantId == tenant) = some u
  notMember : db.isMember team u.pubkey = false
  isKey : (w.publicKeyFromHex u.pubkey).isOk = true
  team : db.teams.any (·.id == team) = true

/-- The condition: such an account has its email verified. -/
def AddsVerified (w : Web) (x : InviteWorld) : InviteCall → Prop
  | .inviteUser tenant auth allowed _ team email _ =>
    ∀ u, AddedAtOnce w x.state.db tenant auth.pubkey allowed team (normalized w email) u →
      u.emailVerified = true
  | _ => True

/-! ## Registration and verification -/

/-- No member and no invitation changes, and the primary key of `users` stays one. -/
structure OnlyAccounts (s s' : State) : Prop where
  unique : PkUnique s.db → PkUnique s'.db
  members : s'.db.teamUsers = s.db.teamUsers
  invitations : s'.db.teamInvitations = s.db.teamInvitations

section OnlyAccounts

variable {tenant : TenantId}

theorem OnlyAccounts.refl (s : State) : OnlyAccounts s s := ⟨id, rfl, rfl⟩

theorem OnlyAccounts.trans (s₁ s₂ s₃ : State) (h : OnlyAccounts s₁ s₂) (h' : OnlyAccounts s₂ s₃) :
    OnlyAccounts s₁ s₃ :=
  ⟨h'.unique ∘ h.unique, h'.members.trans h.members, h'.invitations.trans h.invitations⟩

theorem PkUnique.insertUser {db db' : Db} {u : User} (h : PkUnique db)
    (hins : db.insertUser u = some db') :
    PkUnique db' := by
  obtain ⟨rfl, hnew⟩ := Db.insertUser_eq hins
  exact h.insert rfl hnew

theorem OnlyAccounts.insertUser {s : State} {u : User} {db : Db}
    (hins : s.db.insertUser u = some db) :
    OnlyAccounts s (s.withDb db) := by
  refine ⟨fun h => h.insertUser hins, ?_, ?_⟩ <;>
    · obtain ⟨rfl, -⟩ := Db.insertUser_eq hins
      rfl

theorem OnlyAccounts.registerWithPersonalKey {s : State} {now expiresAt : Timestamp}
    {pubkey : PublicKey}
    {email token : String} {hash redirectUri : Option String} {secret : Bytes} {db : Db}
    (h : s.db.registerWithPersonalKey now pubkey tenant email hash token expiresAt secret
      redirectUri = some db) :
    OnlyAccounts s (s.withDb db) := by
  obtain ⟨db₁, hins, rfl⟩ := Option.map_eq_some_iff.mp h
  exact .trans _ _ _ (OnlyAccounts.insertUser hins) ⟨id, rfl, rfl⟩

theorem OnlyAccounts.deleteUserRow (s : State) (pubkey : PublicKey) :
    OnlyAccounts s (s.withDb ((s.db.deleteUserRow pubkey tenant).elim s.db (·.2))) := by
  unfold Db.deleteUserRow
  split
  · exact .refl s
  split
  · exact .refl s
  refine ⟨fun h => ?_, rfl, rfl⟩
  exact h.sublist (List.filter_sublist.map _)

theorem register_onlyAccounts {allowed : Bool} {generated : Keys} {token : String}
    {queue : Except BcryptQueueError Unit} {req : RegisterRequest} :
    (register w tenant allowed generated token queue req).Steps OnlyAccounts := by
  unfold register
  dsimp only
  split
  · trivial
  refine .bind (.ofExcept _) fun keys => .bind ?_ fun known => ?_
  · unfold signupKeyKnown
    split
    · exact .read .refl _ _
    · trivial
  split
  · trivial
  refine .bind (.ofExcept _) fun secret =>
    .bind (transact_steps .refl _ _ fun s _ db h => ?_) fun _ => ?_
  · obtain ⟨db', hregister, heq⟩ := Option.map_eq_some_iff.mp h
    cases heq
    exact .registerWithPersonalKey hregister
  · unfold queuePassword
    split
    · trivial
    · exact .bind (.write _ fun s => .deleteUserRow s _) fun _ =>
        .bind (.write _ fun s => ⟨id, rfl, rfl⟩)
        fun _ => trivial

theorem verifyEmail_onlyAccounts {headers : Headers} {redis : Redis} {newCode token : String} :
    (verifyEmail w tenant headers redis newCode token).Steps OnlyAccounts := by
  refine verifyEmail_steps .refl (fun s u db keys hins => ?_) (fun s codes _ => ⟨id, rfl, rfl⟩)
    (fun s user => ⟨fun h => ?_, rfl, rfl⟩) _ _ _ _
  · exact .trans _ _ _ (OnlyAccounts.insertUser hins) ⟨id, rfl, rfl⟩
  · show ((updateWhere _ _ s.db.users).map (·.pubkey)).Nodup
    rw [map_updateWhere]
    · exact h
    · exact fun _ => rfl

end OnlyAccounts

/-! ## Invitations -/

/-- What an invitation leaves, with the mail it sends. -/
structure Invites (s : State) (r : Except ApiError InviteResponse) (s' : State) : Prop where
  unique : PkUnique s.db → PkUnique s'.db
  tokens : (s.db.teamInvitations.map (·.token)).Nodup → (s'.db.teamInvitations.map (·.token)).Nodup
  kept : s.db.teamInvitations ⊆ s'.db.teamInvitations
  mail : ∀ address token, r = .ok (.invited address token) →
    ∃ i ∈ s'.db.teamInvitations, i.token = token ∧ i.email = address

section Invites

variable {s : State} {tenant : TenantId} {team : RowId} {role : TeamUserRole}

theorem Invites.refused (e : ApiError) : Invites s (.error e) s :=
  ⟨id, id, List.Subset.refl _, fun _ _ h => nomatch h⟩

theorem PkUnique.findOrCreateUser {db : Db} (h : PkUnique db) (now : Timestamp) (user : PublicKey) :
    PkUnique (db.findOrCreateUser now tenant user) := by
  unfold Db.findOrCreateUser
  split
  · exact h
  · next hnew =>
    refine h.insert rfl fun r hr heq => hnew ?_
    exact List.any_eq_true.mpr ⟨r, hr, beq_iff_eq.mpr heq⟩

theorem findOrCreateUser_eq (db : Db) (now : Timestamp) (tenant : TenantId) (user : PublicKey) :
    ∃ rows : List User, (∀ u ∈ rows, u.email = none) ∧
      db.findOrCreateUser now tenant user = { db with users := db.users ++ rows } := by
  unfold Db.findOrCreateUser
  split
  · exact ⟨[], by simp, by simp⟩
  · exact ⟨[{ pubkey := user, tenantId := tenant, createdAt := now }], by simp, rfl⟩

theorem addInvited_invites (user : PublicKey) :
    (addInvited w tenant team role user).Ends (Invites s) s := by
  refine .read ?_
  split
  · exact .refused _
  refine .ofExcept (fun e => .refused e) fun key _ => .write ?_
  obtain ⟨rows, -, hrows⟩ := findOrCreateUser_eq s.db s.now tenant key
  have hcreated :
    Invites s (.error (.internal "")) (s.withDb (s.db.findOrCreateUser s.now tenant key)) := by
    refine ⟨fun h => h.findOrCreateUser s.now key, ?_, ?_, fun _ _ h => nomatch h⟩
    · rw [hrows]
      exact id
    · rw [hrows]
      exact List.Subset.refl _
  refine executing_ends (fun e _ => ?_) fun db hadd => ?_
  · exact ⟨hcreated.unique, hcreated.tokens, hcreated.kept, fun _ _ h => nomatch h⟩
  · obtain ⟨-, -, -, rfl⟩ := Db.addMember_ok.mp hadd
    exact ⟨hcreated.unique, hcreated.tokens, hcreated.kept, fun _ _ h => nomatch h⟩

theorem invitationFree_token {db : Db} {email token : String}
    (h : db.invitationFree team email token = true) :
    ∀ i ∈ db.teamInvitations, i.token ≠ token := by
  intro i hi heq
  simp only [Db.invitationFree, Bool.and_eq_true, Bool.not_eq_true', List.any_eq_false] at h
  have := h.2 i hi
  simp [heq] at this

theorem mailInvitation_invites (caller : PublicKey) (token email : String) :
    (mailInvitation tenant caller team role token email).Ends (Invites s) s := by
  refine .read ?_
  split
  · exact .refused _
  refine executing_ends (fun e _ => .refused _) fun db hcreate => ?_
  obtain ⟨hfree, i, htoken, hemail, -, rfl⟩ := Db.createInvitation_ok hcreate
  have hnew := invitationFree_token hfree
  have hstored : Invites s (.ok (.invited email token))
      (s.withDb { s.db with teamInvitations := s.db.teamInvitations ++ [i] }) := by
    refine ⟨id, fun h => ?_, List.subset_append_left _ _, ?_⟩
    · show ((s.db.teamInvitations ++ [i]).map (·.token)).Nodup
      rw [List.map_append, List.nodup_append]
      refine ⟨h, List.nodup_singleton _, ?_⟩
      rintro _ ha _ hb
      obtain ⟨j, hj, rfl⟩ := List.mem_map.mp ha
      obtain rfl : _ = i.token := List.mem_singleton.mp hb
      rw [htoken]
      exact hnew j hj
    · rintro _ _ ⟨⟩
      exact ⟨i, List.mem_append_right _ (List.mem_singleton_self i), htoken, hemail⟩
  refine .read (.orErr ?_ fun _ _ => hstored)
  exact ⟨hstored.unique, hstored.tokens, hstored.kept, fun _ _ h => nomatch h⟩

theorem inviteUser_invites (auth : UcanAuth) (allowed : Bool) (token email : String) :
    (inviteUser w tenant auth allowed token team email role).Ends (Invites s) s :=
  inviteUser_ends (fun _ e => .refused e) (fun _ user _ => addInvited_invites user)
    fun _ _ => mailInvitation_invites _ _ _

end Invites

/-! ## Acceptance -/

/-- What an acceptance leaves: whoever is new has presented the token of an invitation. -/
structure Accepts (pubkey : PublicKey) (token : String) (s s' : State) : Prop where
  users : s'.db.users = s.db.users
  invitations : (s'.db.teamInvitations.map fun i => (i.token, i.email)) =
    s.db.teamInvitations.map fun i => (i.token, i.email)
  added : ∀ m ∈ s'.db.teamUsers, m ∉ s.db.teamUsers →
    m.userPubkey = pubkey ∧ ∃ i ∈ s.db.teamInvitations, i.token = token

theorem Accepts.refl (pubkey : PublicKey) (token : String) (s : State) : Accepts pubkey token s s :=
  ⟨rfl, rfl, fun _ hm hnew => absurd hm hnew⟩

theorem acceptInvitation_accepts {s : State} {tenant : TenantId} {auth : UcanAuth}
    {token : String} :
    (acceptInvitation w tenant auth token).Ends (fun _ s' => Accepts auth.pubkey token s s') s := by
  refine .read (.orErr (.refl _ _ s) fun i hfound => ?_)
  have hi : i ∈ s.db.teamInvitations ∧ i.token = token := by
    refine ⟨List.mem_of_find?_eq_some hfound, ?_⟩
    have := List.find?_some hfound
    simp only [Bool.and_eq_true, beq_iff_eq] at this
    exact this.1
  split
  · exact .refl _ _ s
  refine .read (.orErr (.refl _ _ s) fun email _ => ?_)
  split
  · exact .refl _ _ s
  refine .read ?_
  split
  · exact .refl _ _ s
  refine executing_ends (fun e _ => .refl _ _ s) fun db hadd => ?_
  obtain ⟨-, -, -, rfl⟩ := Db.addMember_ok.mp hadd
  have hadded : ∀ m ∈ s.db.teamUsers ++ [⟨i.teamId, auth.pubkey, i.role⟩], m ∉ s.db.teamUsers →
      m.userPubkey = auth.pubkey ∧ ∃ i ∈ s.db.teamInvitations, i.token = token := by
    intro m hm hnew
    rcases List.mem_append.mp hm with hm | hm
    · exact absurd hm hnew
    · rw [List.mem_singleton.mp hm]
      exact ⟨rfl, i, hi⟩
  refine executing_ends (fun e _ => ⟨rfl, rfl, hadded⟩) fun db haccept => ?_
  unfold Db.acceptInvitation at haccept
  dsimp only at haccept
  split at haccept
  · cases haccept
    refine ⟨rfl, ?_, hadded⟩
    show (updateWhere _ _ s.db.teamInvitations).map _ = _
    rw [map_updateWhere]
    exact fun _ => rfl
  · cases haccept

/-! ## One call -/

/-- Only the tokens and emails of the invitations matter. -/
theorem InviteWorld.Consistent.keep {x : InviteWorld} {s' : State} (h : x.Consistent)
    (hunique : PkUnique x.state.db → PkUnique s'.db)
    (hinvitations : (s'.db.teamInvitations.map fun i => (i.token, i.email)) =
      x.state.db.teamInvitations.map fun i => (i.token, i.email)) :
    InviteWorld.Consistent ⟨s', x.mails⟩ := by
  refine ⟨hunique h.users, ?_, fun mail hmail => ?_⟩
  · have htokens : s'.db.teamInvitations.map (·.token) =
      x.state.db.teamInvitations.map (·.token) := by
      have := congrArg (List.map Prod.fst) hinvitations
      simpa [List.map_map, Function.comp_def] using this
    rw [htokens]
    exact h.tokens
  · obtain ⟨i, hi, htoken, hemail⟩ := h.mails mail hmail
    have hmem : (i.token, i.email) ∈ s'.db.teamInvitations.map fun i => (i.token, i.email) := by
      rw [hinvitations]
      exact List.mem_map_of_mem hi
    obtain ⟨j, hj, hsame⟩ := List.mem_map.mp hmem
    obtain ⟨hjt, hje⟩ := Prod.mk.inj hsame
    exact ⟨j, hj, hjt.trans htoken, hje.trans hemail⟩

theorem OnlyAccounts.consistent {x : InviteWorld} {s' : State} (hx : x.Consistent)
    (h : OnlyAccounts x.state s') :
    InviteWorld.Consistent ⟨s', x.mails⟩ :=
  hx.keep h.unique (congrArg _ h.invitations)

/-- **One call** keeps the bookkeeping. -/
theorem InviteWorld.Consistent.step {x : InviteWorld} (h : x.Consistent) (c : InviteCall) :
    (inviteStep w x c).Consistent := by
  cases c with
  | register tenant allowed generated token queue req =>
    simp only [inviteStep, serveInvite, List.append_nil]
    exact (register_onlyAccounts.run .refl .trans x.state).consistent h
  | verifyEmail tenant headers redis newCode token =>
    simp only [inviteStep, serveInvite, List.append_nil]
    exact (verifyEmail_onlyAccounts.run .refl .trans x.state).consistent h
  | inviteUser tenant auth allowed token team email role =>
    have hinvites :
      Invites x.state ((inviteUser w tenant auth allowed token team email role).run x.state).1
      ((inviteUser w tenant auth allowed token team email role).run x.state).2 :=
      inviteUser_invites auth allowed token email
    simp only [inviteStep, serveInvite]
    generalize (inviteUser w tenant auth allowed token team email role).run x.state =
      result at hinvites
    have hkept : ∀ mail ∈ x.mails, ∃ i ∈ result.2.db.teamInvitations, i.token = mail.token ∧
      i.email = mail.address := by
      intro mail hmail
      obtain ⟨i, hi, hmatch⟩ := h.mails mail hmail
      exact ⟨i, hinvites.kept hi, hmatch⟩
    split
    · next address token' s' =>
      refine ⟨hinvites.unique h.users, hinvites.tokens h.tokens, fun mail hmail => ?_⟩
      rcases List.mem_append.mp hmail with hmail | hmail
      · exact hkept mail hmail
      · rw [List.mem_singleton.mp hmail]
        exact hinvites.mail address token' rfl
    · rw [List.append_nil]
      exact ⟨hinvites.unique h.users, hinvites.tokens h.tokens, hkept⟩
  | acceptInvitation tenant auth token =>
    have haccepts :
      Accepts auth.pubkey token x.state ((acceptInvitation w tenant auth token).run x.state).2 :=
      acceptInvitation_accepts
    simp only [inviteStep, serveInvite, List.append_nil]
    refine h.keep ?_ haccepts.invitations
    rw [PkUnique, PkUnique, haccepts.users]
    exact id
  | tick d =>
    simp only [inviteStep, serveInvite, List.append_nil]
    exact h.keep id rfl

theorem Accepts.reachesOwner {x : InviteWorld} {s' : State} {pubkey : PublicKey} {token : String}
    {m : TeamUser}
    (hx : x.Consistent) (h : Accepts pubkey token x.state s') (hm : m ∈ s'.db.teamUsers)
    (hnew : m ∉ x.state.db.teamUsers) : m.userPubkey = pubkey ∧
      ∃ email, x.MadeOutTo email token := by
  obtain ⟨huser, i, hi, htoken⟩ := h.added m hm hnew
  refine ⟨huser, i.email, ⟨i, hi, htoken, rfl⟩, fun mail hmail hmine => ?_⟩
  -- tokens are unique, so a mail with this one was for this invitation
  obtain ⟨j, hj, hjtoken, hjemail⟩ := hx.mails mail hmail
  have hsame : j = i := List.inj_on_of_nodup_map hx.tokens hj hi (by rw [hjtoken, hmine, htoken])
  rw [← hjemail, hsame]

section Direct

variable {s : State} {tenant : TenantId} {team : RowId} {role : TeamUserRole} {pubkey : PublicKey}
  {allowed : Bool} {email : String}

/-- The property of an invitation, and the condition, when nobody is added. -/
theorem reaches_iff_of_same {s' : State} (hmembers : s'.db.teamUsers = s.db.teamUsers)
    (hnone : ∀ u, ¬ AddedAtOnce w s.db tenant pubkey allowed team email u) :
    (∀ m ∈ s'.db.teamUsers, m ∉ s.db.teamUsers → HasVerified s'.db m.userPubkey email) ↔
      ∀ u, AddedAtOnce w s.db tenant pubkey allowed team email u → u.emailVerified = true := by
  refine ⟨fun _ u hu => absurd hu (hnone u), fun _ m hm hnew => ?_⟩
  rw [hmembers] at hm
  exact absurd hm hnew

/-- A row that `find_or_create` adds has no email, so it is the row that was found. -/
theorem hasVerified_iff {rows : List User} {u : User} {db : Db} (hunique : PkUnique s.db)
    (hu : u ∈ s.db.users)
    (hemail : u.email = some email) (hrows : ∀ r ∈ rows, r.email = none)
    (husers : db.users = s.db.users ++ rows) :
    HasVerified db u.pubkey email ↔ u.emailVerified = true := by
  constructor
  · rintro ⟨v, hv, hkey, hvemail, hverified⟩
    rw [husers] at hv
    rcases List.mem_append.mp hv with hv | hv
    · rwa [List.inj_on_of_nodup_map hunique hv hu hkey] at hverified
    · rw [hrows v hv] at hvemail
      cases hvemail
  · intro hverified
    exact ⟨u, husers ▸ List.mem_append_left _ hu, rfl, hemail, hverified⟩

theorem addInvited_reaches_iff {u : User} (hunique : PkUnique s.db)
    (hmay : mayInvite w s.db tenant pubkey allowed team email = true)
    (hfound : (s.db.users.find? fun u => u.email == some email && u.tenantId == tenant) = some u) :
    (addInvited w tenant team role u.pubkey).Ends (fun _ s' =>
      (∀ m ∈ s'.db.teamUsers, m ∉ s.db.teamUsers → HasVerified s'.db m.userPubkey email) ↔
        ∀ u, AddedAtOnce w s.db tenant pubkey allowed team email u → u.emailVerified = true) s := by
  have hu : u ∈ s.db.users := List.mem_of_find?_eq_some hfound
  have hmatch := List.find?_some hfound
  simp only [Bool.and_eq_true, beq_iff_eq] at hmatch
  -- the account that is added at once can only be this one
  have honly : ∀ v, AddedAtOnce w s.db tenant pubkey allowed team email v → v = u := by
    intro v hv
    exact Option.some.inj (hv.found.symm.trans hfound)
  refine .read ?_
  split
  · next hmember =>
    refine reaches_iff_of_same rfl fun v hv => ?_
    have hnot := hv.notMember
    rw [honly v hv, hmember] at hnot
    cases hnot
  next hmember =>
  refine .ofExcept_cases (fun e he => reaches_iff_of_same rfl fun v hv => ?_)
    fun key hkey => .write ?_
  · have hiskey := hv.isKey
    rw [honly v hv] at hiskey
    cases hok : w.publicKeyFromHex u.pubkey with
    | error e' => simp [hok, Except.isOk, Except.toBool] at hiskey
    | ok key => simp [hok, Except.mapError] at he
  obtain ⟨rows, hrows, hdb⟩ := findOrCreateUser_eq s.db s.now tenant key
  rw [hdb]
  refine executing_ends (fun e he => reaches_iff_of_same rfl fun v hv => ?_) fun db hadd => ?_
  · obtain ⟨db, hok⟩ : ∃ db,
      (State.withDb s { s.db with users := s.db.users ++ rows }).db.addMember team
        u.pubkey role = .ok db := by
      refine ⟨_, Db.addMember_ok.mpr ⟨?_, hv.team, ?_, rfl⟩⟩
      · simpa [Db.isMember] using hmember
      · exact List.any_eq_true.mpr ⟨u, List.mem_append_left _ hu, beq_self_eq_true _⟩
    rw [hok] at he
    cases he
  · obtain ⟨-, hteam, -, rfl⟩ := Db.addMember_ok.mp hadd
    have hiff : HasVerified { s.db with
        users := s.db.users ++ rows, teamUsers :=
          s.db.teamUsers ++ [⟨team, u.pubkey, role⟩] } u.pubkey email ↔
        u.emailVerified = true := hasVerified_iff hunique hu hmatch.1 hrows rfl
    constructor
    · intro hreaches v hv
      rw [honly v hv]
      refine hiff.mp (hreaches ⟨team, u.pubkey, role⟩ ?_ fun hold => hmember ?_)
      · exact List.mem_append_right _ (List.mem_singleton_self _)
      · exact List.any_eq_true.mpr ⟨_, hold, by simp [Db.isMembership]⟩
    · intro hverified m hm hnew
      rcases List.mem_append.mp hm with hm | hm
      · exact absurd hm hnew
      · rw [List.mem_singleton.mp hm]
        refine hiff.mpr (hverified u ⟨hmay, hfound, by simpa using hmember, ?_, hteam⟩)
        cases hok : w.publicKeyFromHex u.pubkey with
        | error e' => simp [hok, Except.mapError] at hkey
        | ok key => rfl

theorem inviteUser_reaches_iff {auth : UcanAuth} {token : String} (hunique : PkUnique s.db) :
    (inviteUser w tenant auth allowed token team email role).Ends (fun _ s' =>
      (∀ m ∈ s'.db.teamUsers, m ∉ s.db.teamUsers →
        HasVerified s'.db m.userPubkey (normalized w email)) ↔
        ∀ u, AddedAtOnce w s.db tenant auth.pubkey allowed team (normalized w email) u →
          u.emailVerified = true) s := by
  refine inviteUser_ends (fun hno e => ?_) (fun hmay user hfound => ?_) fun hmay hnone => ?_
  · refine reaches_iff_of_same rfl fun u hu => ?_
    rw [hu.invites] at hno
    cases hno
  · obtain ⟨u, hu, rfl⟩ := Option.map_eq_some_iff.mp hfound
    exact addInvited_reaches_iff hunique hmay hu
  · have hnobody : ∀ u,
      ¬ AddedAtOnce w s.db tenant auth.pubkey allowed team (normalized w email) u := by
      intro u hu
      have : s.db.findPubkeyByEmail (normalized w email) tenant = some u.pubkey := by
        rw [Db.findPubkeyByEmail, hu.found]
        rfl
      rw [hnone] at this
      cases this
    refine .read ?_
    split
    · exact reaches_iff_of_same rfl hnobody
    refine executing_ends (fun e _ => reaches_iff_of_same rfl hnobody) fun db hcreate => ?_
    obtain ⟨-, i, -, -, -, rfl⟩ := Db.createInvitation_ok hcreate
    exact .read
      (.orErr (reaches_iff_of_same rfl hnobody) fun _ _ => reaches_iff_of_same rfl hnobody)

end Direct

/-- **One call** reaches the owner of the mailbox exactly if it meets the condition. -/
theorem reachesOwner_iff {x : InviteWorld} (hx : x.Consistent) (c : InviteCall) :
    AddsVerified w x c ↔ ReachesOwner w x c := by
  cases c with
  | register tenant allowed generated token queue req =>
    refine ⟨fun _ m hm hnew => hnew ?_, fun _ => trivial⟩
    exact (register_onlyAccounts.run .refl .trans x.state).members ▸ hm
  | verifyEmail tenant headers redis newCode token =>
    refine ⟨fun _ m hm hnew => hnew ?_, fun _ => trivial⟩
    exact (verifyEmail_onlyAccounts.run .refl .trans x.state).members ▸ hm
  | inviteUser tenant auth allowed token team email role =>
    have hstate : (inviteStep w x (.inviteUser tenant auth allowed token team email role)).state =
        ((inviteUser w tenant auth allowed token team email role).run x.state).2 := by
      simp only [inviteStep, serveInvite]
      split <;> simp_all
    simp only [AddsVerified, ReachesOwner, hstate]
    exact (inviteUser_reaches_iff hx.users).symm
  | acceptInvitation tenant auth token =>
    have haccepts :
      Accepts auth.pubkey token x.state ((acceptInvitation w tenant auth token).run x.state).2 :=
      acceptInvitation_accepts
    exact ⟨fun _ m hm hnew => haccepts.reachesOwner hx hm hnew, fun _ => trivial⟩
  | tick d => exact ⟨fun _ m hm hnew => hnew hm, fun _ => trivial⟩

/-- **Membership by email goes to the owner of the mailbox** in exactly those runs in which every
account that an invitation adds at once has its email verified. -/
theorem invitations_reach_owner_iff {x : InviteWorld} {calls : List InviteCall}
    (hx : x.Consistent) :
    Along (inviteStep w) (AddsVerified w) x calls ↔
      ∀ pre c post, calls = pre ++ c :: post → ReachesOwner w (run (inviteStep w) x pre) c := by
  rw [along_iff_split]
  have hrun : ∀ pre : List InviteCall, (run (inviteStep w) x pre).Consistent := by
    intro pre
    exact run_invariant (C := fun _ _ => True) (fun _ c h _ => h.step c) hx
      (Along.of_forall (fun _ _ => trivial) x)
  constructor
  · intro h pre c post heq
    exact (reachesOwner_iff (hrun pre) c).mp (h pre c post heq)
  · intro h pre c post heq
    exact (reachesOwner_iff (hrun pre) c).mpr (h pre c post heq)

/-! Somebody registers the address of somebody else with a key of their own, and an admin invites
the address. -/

def crew : Db where
  users := [{ pubkey := "chef", tenantId := 1, email := some "chef@example.com",
              emailVerified := true },
    { pubkey := "cook", tenantId := 1, email := some "cook@example.com", emailVerified := true }]
  teams := [⟨7, 1⟩]
  teamUsers := [⟨7, "chef", .admin⟩]

def crewWeb : Web := .symbolic [] []

def registersAs (email : String) : InviteCall :=
  .register 1 true "unused" "token-a" (.ok ()) { email, password := "password", nsec := some "sk" }

def chefInvites (email : String) : InviteCall :=
  .inviteUser 1 ⟨"chef", none⟩ true "invite-a" 7 email .admin

theorem crew_consistent : InviteWorld.Consistent ⟨.boot crew 0, []⟩ := by
  refine ⟨?_, by decide, fun _ h => nomatch h⟩
  show (crew.users.map (·.pubkey)).Nodup
  decide

theorem invitations_reach_owner_cook :
    (∃ m ∈ (run (inviteStep crewWeb) ⟨.boot crew 0, []⟩
        [chefInvites "cook@example.com"]).state.db.teamUsers,
      m.userPubkey = "cook") ∧
    ReachesOwner crewWeb ⟨.boot crew 0, []⟩ (chefInvites "cook@example.com") := by
  refine ⟨by decide, ?_⟩
  refine (invitations_reach_owner_iff (w := crewWeb) crew_consistent).mp ?_ [] _ [] rfl
  refine ⟨fun u hu => ?_, trivial⟩
  have hcook : ∀ u ∈ crew.users, u.emailVerified = true := by decide
  exact hcook u (List.mem_of_find?_eq_some hu.found)

/-- **An account that merely registered the address is added.** -/
theorem unproved_account_is_added :
    InviteWorld.Consistent ⟨.boot crew 0, []⟩ ∧
      (∃ m ∈ (run (inviteStep crewWeb) ⟨.boot crew 0, []⟩
          [registersAs "victim@example.com", chefInvites "victim@example.com"]).state.db.teamUsers,
        m.userPubkey = "pub:sk" ∧ m.role = .admin) ∧
      ¬ ReachesOwner crewWeb
        (run (inviteStep crewWeb) ⟨.boot crew 0, []⟩ [registersAs "victim@example.com"])
        (chefInvites "victim@example.com") := by
  refine ⟨crew_consistent, by decide, fun h => ?_⟩
  have hverified := h ⟨7, "pub:sk", .admin⟩ (by decide) (by decide)
  obtain ⟨u, hu, hkey, -, hflag⟩ := hverified
  revert u
  decide

end Keycast.Http
