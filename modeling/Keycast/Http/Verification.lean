import Keycast.Http.Register

/-!
# `Http/Verification.lean` — whose account a verified email opens

Between a registration and its verification the key is reserved by nothing. `oauth_register` looks
whether the key is taken and stores the registration; when the email is verified, `verify_email`
looks again, but now a user with that key is taken for a first attempt of the same verification, and
the code is stored for it. If somebody else has registered the key meanwhile, the code is for their
account. The token endpoint, which can complete a registration too, refuses in the same place ("This
Nostr key is already registered.").

So the rule that keeps accounts apart is one about creating users: not for a key that somebody has
registered under another email and not verified yet. `verified_code_is_for_owner` says that it is
enough.

The invariant of a run is `EmailsAgree`, under which the user with the key of an unverified
registration has its email. A call keeps it or creates a user, and there the condition says that the
key is free. A call that verifies an email either finds that user or creates it
(`ensureVerifiedUser_agree`), and the one place where a verified code is stored comes after that
(`storeVerifiedCode_trace`).
-/

set_option autoImplicit false

namespace Keycast.Http

open Lib

variable {w : Web}

/-! ## Runs -/

/-- The calls that the property is about. `createUser` is a registration by any other flow: whatever
`INSERT` into `users` it makes, with or without a key; one that a constraint refuses changes
nothing. -/
inductive RegistrationCall
  | oauthRegister (tenant : TenantId) (allowed : Bool) (drawn : Drawn) (req : OAuthRegisterRequest)
  | headlessRegister (tenant : TenantId) (allowed : Bool) (drawn : Drawn)
      (req : HeadlessRegisterRequest)
  | verifyEmail (tenant : TenantId) (headers : Headers) (redis : Redis) (newCode token : String)
  | createUser (user : User) (key : Option Bytes)
  | tick (d : Nat)

def createUser (db : Db) (user : User) (key : Option Bytes) : Option Db :=
  (db.insertUser user).map fun db =>
    match key with
    | some secret => db.insertPersonalKey ⟨user.pubkey, user.tenantId, secret⟩
    | none => db

def registrationStep (w : Web) (s : State) : RegistrationCall → State
  | .oauthRegister tenant allowed drawn req => ((oauthRegister w tenant allowed drawn req).run s).2
  | .headlessRegister tenant allowed drawn req =>
    ((headlessRegister w tenant allowed drawn req).run s).2
  | .verifyEmail tenant headers redis newCode token =>
    ((verifyEmail w tenant headers redis newCode token).run s).2
  | .createUser user key => s.withDb ((createUser s.db user key).getD s.db)
  | .tick d => { s with now := s.now + d }

/-! ## The property -/

/-- Whenever the call stores a code for a verified registration, the user's email is the verified
one, in the state the statement finds. -/
def CodeForOwner (w : Web) (s : State) : RegistrationCall → Prop
  | .verifyEmail tenant headers redis newCode token => ∀ tenant' user email s',
      (.storeVerifiedCode tenant' user email, s') ∈
        (verifyEmail w tenant headers redis newCode token).trace s →
      s'.db.getEmail user tenant' = some (some email)
  | _ => True

/-! ## The condition -/

/-- The registrations of a key that are still to be verified. -/
def pendingFor (s : State) (user : PublicKey) (tenant : TenantId) : List OAuthCode :=
  s.db.oauthCodes.filter fun c =>
    c.userPubkey == user && c.tenantId == tenant && c.pendingEmail.isSome &&
      decide (s.now < c.expiresAt)

/-- No user is created for a key that is registered under another email and not verified yet. Keys
the headless registration generates are new; it does not look. -/
def KeyFree (w : Web) (s : State) : RegistrationCall → Prop
  | .createUser user _ => ∀ c ∈ pendingFor s user.pubkey user.tenantId, c.pendingEmail = user.email
  | .verifyEmail tenant _ _ _ token => ∀ p ∈ s.db.findPendingByToken s.now token tenant,
      s.db.userExists p.userPubkey tenant = false →
      ∀ c ∈ pendingFor s p.userPubkey tenant, c.pendingEmail = p.pendingEmail
  | .headlessRegister tenant _ drawn req => req.nsec = none →
      s.db.userExists (w.publicKey drawn.keys) tenant = false
  | _ => True

/-- A user who has unverified registrations has their email. -/
def EmailsAgree (s : State) : Prop :=
  ∀ user tenant, s.db.userExists user tenant = true →
    ∀ c ∈ pendingFor s user tenant, s.db.getEmail user tenant = some c.pendingEmail

/-! ## What the calls do to the two tables -/

/-- The call leaves the state alone, or stores a registration of a key no user has. -/
def StoresFree (s s' : State) : Prop :=
  s' = s ∨ ∃ c db, s.db.storeOAuthCode c = some db ∧
    s.db.userExists c.userPubkey c.tenantId = false ∧ s' = s.withDb db

theorem oauthRegister_stores (tenant : TenantId) (allowed : Bool) (drawn : Drawn)
    (req : OAuthRegisterRequest) (s : State) :
    StoresFree s ((oauthRegister w tenant allowed drawn req).run s).2 := by
  unfold oauthRegister
  split
  · exact .inl rfl
  simp only [Prog.bind_def, Prog.read_bind, Prog.run_atom, id]
  split
  · exact .inl rfl
  cases w.bcryptHash req.password with
  | error e => exact .inl rfl
  | ok passwordHash =>
  simp only [Except.mapError, Prog.ofExcept_ok, Prog.ret_bind]
  cases registrationKey w req drawn.keys with
  | error e => exact .inl rfl
  | ok key =>
  obtain ⟨pubkey, keys⟩ := key
  simp only [Prog.ofExcept_ok, Prog.ret_bind, Prog.run_atom, id]
  by_cases hknown : s.db.userExists pubkey tenant = true
  · simp only [hknown, if_true]
    exact .inl rfl
  simp only [hknown, Bool.false_eq_true, if_false, Prog.run_atom, id]
  split
  · exact .inl rfl
  cases encryptOptional w keys with
  | error e => exact .inl rfl
  | ok secret =>
  simp only [Prog.ofExcept_ok, Prog.ret_bind]
  rw [Prog.run_bind, run_transact]
  generalize hstore : s.db.storeOAuthCode _ = result
  cases result with
  | none => exact .inl rfl
  | some db => exact .inr ⟨_, db, hstore, by simpa using hknown, rfl⟩

theorem checkHeadlessScope_state (scope : String) (s : State) :
    ((checkHeadlessScope scope).run s).2 = s := by
  unfold checkHeadlessScope
  split
  · cases parsePolicyScope scope with
    | error e => rfl
    | ok slug =>
      simp only [Except.mapError, Prog.bind_def, Prog.ofExcept_ok, Prog.ret_bind, Prog.read_bind,
        Prog.run_atom, id]
      cases s.db.findPolicyBySlug slug with
      | none => rfl
      | some policy => rfl
  · rfl

theorem headlessKeyKnown_run (nsec : Option String) (pubkey : PublicKey) (tenant : TenantId)
    (s : State) : (headlessKeyKnown nsec pubkey tenant).run s =
      (.ok (nsec.isSome && s.db.userExists pubkey tenant), s) := by
  cases nsec with
  | none => rfl
  | some nsec => rfl

theorem headlessRegister_stores {tenant : TenantId} {drawn : Drawn} {req : HeadlessRegisterRequest}
    {s : State} (allowed : Bool)
    (hnew : req.nsec = none → s.db.userExists (w.publicKey drawn.keys) tenant = false) :
    StoresFree s ((headlessRegister w tenant allowed drawn req).run s).2 := by
  unfold headlessRegister
  split
  · exact .inl rfl
  simp only [Prog.bind_def]
  cases extractOrigin w req.redirectUri with
  | error e => exact .inl rfl
  | ok origin =>
  simp only [Except.mapError, Prog.ofExcept_ok, Prog.ret_bind]
  rw [Prog.run_bind]
  have hscope := checkHeadlessScope_state (req.scope.getD "policy:full") s
  cases hrun : (checkHeadlessScope (req.scope.getD "policy:full")).run s with
  | mk res s₁ =>
  rw [hrun] at hscope
  subst hscope
  cases res with
  | error e => exact .inl rfl
  | ok _ =>
  cases hkeys : headlessKeys w req.nsec drawn.keys with
  | error e => exact .inl rfl
  | ok keys =>
  simp only [Prog.ofExcept_ok, Prog.ret_bind]
  rw [Prog.run_bind, headlessKeyKnown_run]
  by_cases hknown : (req.nsec.isSome && s₁.db.userExists (w.publicKey keys) tenant) = true
  · simp only [hknown, if_true]
    exact .inl rfl
  simp only [hknown, Bool.false_eq_true, if_false, Prog.run_atom, id, Prog.read_bind]
  split
  · exact .inl rfl
  cases w.kmsEncrypt (w.toSecretBytes keys) with
  | error e => exact .inl rfl
  | ok secret =>
  cases w.bcryptHash req.password with
  | error e => exact .inl rfl
  | ok passwordHash =>
  simp only [Prog.ofExcept_ok, Prog.ret_bind]
  rw [Prog.run_bind, run_transact]
  generalize hstore : s₁.db.storeOAuthCode _ = result
  cases result with
  | none => exact .inl rfl
  | some db =>
    refine .inr ⟨_, db, hstore, ?_, rfl⟩
    show s₁.db.userExists (w.publicKey keys) tenant = false
    cases hnsec : req.nsec with
    | some nsec => simpa [hnsec] using hknown
    | none =>
      rw [hnsec] at hkeys
      cases hkeys
      exact hnew hnsec

/-- How an `INSERT` into `users` succeeds. -/
theorem createUser_eq {db db' : Db} {user : User} {key : Option Bytes}
    (h : createUser db user key = some db') :
    (∀ r ∈ db.users, r.pubkey ≠ user.pubkey) ∧ db'.users = db.users ++ [user] ∧
      db'.oauthCodes = db.oauthCodes := by
  obtain ⟨db₁, h₁, rfl⟩ := Option.map_eq_some_iff.mp h
  obtain ⟨rfl, hnew⟩ := Db.insertUser_eq h₁
  cases key with
  | none => exact ⟨hnew, rfl, rfl⟩
  | some secret => exact ⟨hnew, rfl, rfl⟩

section Insert

variable {db db' : Db} {user : User} {key : Option Bytes}

theorem createUser_getEmail (h : createUser db user key = some db') :
    db'.getEmail user.pubkey user.tenantId = some user.email := by
  obtain ⟨hnew, husers, -⟩ := createUser_eq h
  have hnone : db.users.find? (fun r => r.pubkey == user.pubkey && r.tenantId == user.tenantId) =
      none := by
    refine List.find?_eq_none.mpr fun r hr hq => ?_
    rw [Bool.and_eq_true, beq_iff_eq] at hq
    exact hnew r hr hq.1
  rw [Db.getEmail, husers, List.find?_append, hnone]
  simp

/-- Nobody else notices. -/
theorem createUser_other (h : createUser db user key = some db') {p : PublicKey} {t : TenantId}
    (hne : ¬ (user.pubkey = p ∧ user.tenantId = t)) :
    db'.userExists p t = db.userExists p t ∧ db'.getEmail p t = db.getEmail p t := by
  obtain ⟨-, husers, -⟩ := createUser_eq h
  have hno : (user.pubkey == p && user.tenantId == t) = false := by simpa using hne
  constructor
  · rw [Db.userExists, Db.userExists, Db.userIn, Db.userIn, husers, List.any_append]
    simp [hno]
  · rw [Db.getEmail, Db.getEmail, husers, List.find?_append]
    simp [hno]

end Insert

theorem EmailsAgree.createUser {s : State} {db : Db} {user : User} {key : Option Bytes}
    (hs : EmailsAgree s)
    (hfree : ∀ c ∈ pendingFor s user.pubkey user.tenantId, c.pendingEmail = user.email)
    (h : createUser s.db user key = some db) : EmailsAgree (s.withDb db) := by
  intro p t hexists c hc
  have hc' : c ∈ pendingFor s p t := by
    unfold pendingFor at hc ⊢
    rwa [State.withDb_db, (createUser_eq h).2.2] at hc
  by_cases heq : user.pubkey = p ∧ user.tenantId = t
  · -- the new user
    obtain ⟨rfl, rfl⟩ := heq
    rw [State.withDb_db, createUser_getEmail h, hfree c hc']
  · obtain ⟨hsame, hemail⟩ := createUser_other h heq
    rw [State.withDb_db] at hexists ⊢
    rw [hsame] at hexists
    rw [hemail]
    exact hs p t hexists c hc'

theorem EmailsAgree.storesFree {s s' : State} (hs : EmailsAgree s) (h : StoresFree s s') :
    EmailsAgree s' := by
  rcases h with rfl | ⟨row, db, hstore, hfree, rfl⟩
  · exact hs
  unfold Db.storeOAuthCode at hstore
  split at hstore
  · cases hstore
  cases hstore
  intro p t hexists c hc
  simp only [pendingFor, State.withDb_db, State.withDb_now, List.filter_append,
    List.mem_append] at hc
  rcases hc with hc | hc
  · exact hs p t hexists c hc
  · -- the new registration is of a key that no user has
    obtain ⟨hrow, hpending⟩ := List.mem_filter.mp hc
    rw [List.mem_singleton] at hrow
    subst hrow
    simp only [Bool.and_eq_true, beq_iff_eq] at hpending
    obtain ⟨⟨⟨rfl, rfl⟩, -⟩, -⟩ := hpending
    have hexists' : s.db.userExists c.userPubkey c.tenantId = true := hexists
    rw [hfree] at hexists'
    cases hexists'

/-- Users stay as they are, up to columns nothing here is about, and no registration is added. -/
structure Fades (s s' : State) : Prop where
  users : ∀ p t, s'.db.userExists p t = s.db.userExists p t ∧ s'.db.getEmail p t = s.db.getEmail p t
  pending : ∀ p t, ∀ c ∈ pendingFor s' p t, c ∈ pendingFor s p t

theorem Fades.refl (s : State) : Fades s s := ⟨fun _ _ => ⟨rfl, rfl⟩, fun _ _ _ h => h⟩

theorem Fades.trans {a b c : State} (h : Fades a b) (h' : Fades b c) : Fades a c where
  users p t := ⟨(h'.users p t).1.trans (h.users p t).1, (h'.users p t).2.trans (h.users p t).2⟩
  pending p t x hx := h.pending p t x (h'.pending p t x hx)

theorem EmailsAgree.fades {s s' : State} (hs : EmailsAgree s) (h : Fades s s') :
    EmailsAgree s' := by
  intro p t hexists c hc
  obtain ⟨hsame, hemail⟩ := h.users p t
  rw [hsame] at hexists
  rw [hemail]
  exact hs p t hexists c (h.pending p t c hc)

/-- A statement on `oauth_codes` that adds no registration. -/
theorem Fades.ofCodes {s : State} {codes : List OAuthCode}
    (h : ∀ c ∈ codes, c.pendingEmail.isSome = true → c ∈ s.db.oauthCodes) :
    Fades s (s.withDb { s.db with oauthCodes := codes }) := by
  refine ⟨fun _ _ => ⟨rfl, rfl⟩, fun p t c hc => ?_⟩
  obtain ⟨hmem, hp⟩ := List.mem_filter.mp hc
  refine List.mem_filter.mpr ⟨h c hmem ?_, hp⟩
  simp only [Bool.and_eq_true] at hp
  exact hp.1.2

theorem Fades.markEmailVerified (s : State) (user : PublicKey) (tenant : TenantId) :
    Fades s (s.withDb (s.db.markEmailVerified user tenant)) := by
  refine ⟨fun p t => ⟨?_, ?_⟩, fun _ _ _ h => h⟩
  · show (updateWhere _ _ s.db.users).any _ = _
    rw [updateWhere, List.any_map]
    refine congrArg (fun q => s.db.users.any q) (funext fun u => ?_)
    simp only [Function.comp]
    split <;> rfl
  · show ((updateWhere _ _ s.db.users).find? _).map _ = _
    rw [find?_updateWhere, Option.map_map]
    · refine congrArg (fun g => Option.map g _) (funext fun u => ?_)
      simp only [Function.comp]
      split <;> rfl
    · exact fun _ => rfl

/-! ## `verify_email` -/

/-- The user a verified registration creates. -/
def verifiedUser (pending : OAuthCode) (tenant : TenantId) (email passwordHash token : String)
    (now : Timestamp) : User :=
  { pubkey := pending.userPubkey, tenantId := tenant, email := some email,
    passwordHash := some passwordHash, emailVerified := true, emailVerificationToken := some token,
    createdAt := now }

theorem ensureVerifiedUser_run (pending : OAuthCode) (tenant : TenantId)
    (email passwordHash token : String) (s : State) :
    ((ensureVerifiedUser pending tenant email passwordHash token).run s).2 = s ∧
        (((ensureVerifiedUser pending tenant email passwordHash token).run s).1 = .ok () →
          s.db.userExists pending.userPubkey tenant = true) ∨
      s.db.userExists pending.userPubkey tenant = false ∧ ∃ db,
        createUser s.db (verifiedUser pending tenant email passwordHash token s.now)
          pending.pendingEncryptedSecret = some db ∧
        (ensureVerifiedUser pending tenant email passwordHash token).run s =
          (.ok (), s.withDb db) := by
  unfold ensureVerifiedUser createUser verifiedUser
  simp only [Prog.bind_def, Prog.read_bind, Prog.run_atom, id]
  by_cases hknown : s.db.userExists pending.userPubkey tenant = true
  · simp only [hknown, if_true]
    exact .inl ⟨rfl, fun _ => trivial⟩
  simp only [hknown, Bool.false_eq_true, if_false]
  cases pending.pendingEncryptedSecret with
  | none =>
    simp only [run_transact]
    generalize s.db.insertUser _ = result
    cases result with
    | none => exact .inl ⟨rfl, fun h => nomatch h⟩
    | some db => exact .inr ⟨trivial, db, rfl, rfl⟩
  | some secret =>
    simp only [run_transact]
    generalize s.db.insertUser _ = result
    cases result with
    | none => exact .inl ⟨rfl, fun h => nomatch h⟩
    | some db => exact .inr ⟨trivial, _, rfl, rfl⟩

/-- After the user has been looked up or created, their email is that of the registration. -/
theorem ensureVerifiedUser_agree {pending : OAuthCode} {tenant : TenantId}
    {email passwordHash token : String} {s s' : State} {r : Except AuthError Unit}
    (hs : EmailsAgree s) (hmem : pending ∈ pendingFor s pending.userPubkey tenant)
    (hemail : pending.pendingEmail = some email)
    (hfree : s.db.userExists pending.userPubkey tenant = false →
      ∀ c ∈ pendingFor s pending.userPubkey tenant, c.pendingEmail = pending.pendingEmail)
    (hrun : (ensureVerifiedUser pending tenant email passwordHash token).run s = (r, s')) :
    EmailsAgree s' ∧
      (r = .ok () → s'.db.getEmail pending.userPubkey tenant = some (some email)) := by
  rcases ensureVerifiedUser_run pending tenant email passwordHash token s with
    ⟨hstate, hknown⟩ | ⟨hnew, db, hcreate, hok⟩
  · rw [hrun] at hstate hknown
    subst hstate
    refine ⟨hs, fun hr => ?_⟩
    rw [← hemail]
    exact hs _ _ (hknown hr) pending hmem
  · rw [hrun] at hok
    cases hok
    refine ⟨hs.createUser (fun c hc => ?_) hcreate, fun _ => createUser_getEmail hcreate⟩
    rw [hfree hnew c hc, hemail]
    rfl

/-- Whether a statement is the one the property is about. -/
def Stmt.isVerifiedCode : Stmt → Bool
  | .storeVerifiedCode .. => true
  | _ => false

theorem announceCode_uses (pending : OAuthCode) (tenant : TenantId) (redis : Redis)
    (code : String) :
    (announceCode pending tenant redis code).Uses (·.isVerifiedCode = false) := by
  unfold announceCode
  split
  · split
    · exact .write (by rfl) _
    · exact .bind (.write (by rfl) _) fun _ => .bind (.write (by rfl) _) fun _ => trivial
  · split
    · exact .write (by rfl) _
    · trivial

theorem ensureVerifiedUser_uses (pending : OAuthCode) (tenant : TenantId)
    (email passwordHash token : String) :
    (ensureVerifiedUser pending tenant email passwordHash token).Uses
      (·.isVerifiedCode = false) := by
  refine .bind (.read (by rfl) _) fun known => ?_
  split
  · trivial
  · split
    · exact transact_uses (by rfl) _ _
    · exact transact_uses (by rfl) _ _

theorem verifyUser_uses (tenant : TenantId) (headers : Headers) (token : String) :
    (verifyUser w tenant headers token).Uses (·.isVerifiedCode = false) := by
  refine .bind (.read (by rfl) _) fun _ => .bind (.orErr _ _) fun user =>
    .bind (.read (by rfl) _) fun _ => ?_
  split
  · trivial
  split
  · trivial
  split
  · split <;> trivial
  exact .bind (.write (by rfl) _) fun _ => .bind (.read (by rfl) _) fun _ =>
    .bind (.orErr _ _) fun _ =>
    .bind (.orErr _ _) fun _ => .bind (.read (by rfl) _) fun _ => .bind (.orErr _ _) fun _ =>
    .bind (.ofExcept _) fun _ => .bind (.ofExcept _) fun _ => .bind (.read (by rfl) _) fun _ =>
    .bind (.ofExcept _) fun _ => trivial

/-- The one place where the code is stored. -/
theorem storeVerifiedCode_trace {tenant tenant' : TenantId} {redis : Redis}
    {code token email email' : String} {pending : OAuthCode} {user : PublicKey} {s s' : State}
    (h : (.storeVerifiedCode tenant' user email', s') ∈
      (storeVerifiedCode tenant redis code token email pending).trace s) :
    tenant' = tenant ∧ user = pending.userPubkey ∧ email' = email ∧ s' = s := by
  unfold storeVerifiedCode at h
  split at h
  · cases h
  rcases Prog.mem_trace_bind.mp h with h | ⟨_, s₁, -, h⟩
  · simp only [transact, Prog.bind_def, Prog.stmt_bind, Prog.trace, Prog.trace_orErr,
      List.mem_singleton, Prod.mk.injEq, Stmt.storeVerifiedCode.injEq] at h
    exact ⟨h.1.1, h.1.2.1, h.1.2.2, h.2⟩
  · -- nothing after it stores another
    have huses : ((announceCode pending tenant redis code).bind fun _ =>
        (Prog.write .deletePending fun s => s.withDb (s.db.deletePendingByToken token tenant)).bind
          fun _ => .ret (verifiedResponse code pending)).Uses (·.isVerifiedCode = false) :=
      .bind (announceCode_uses _ _ _ _) fun _ => .bind (.write (by rfl) _) fun _ => trivial
    have hlabel := huses.trace h
    cases hlabel

theorem mem_pendingFor_of_find {s : State} {token : String} {tenant : TenantId}
    {pending : OAuthCode}
    (h : s.db.findPendingByToken s.now token tenant = some pending)
    (hemail : pending.pendingEmail.isSome = true) :
    pending ∈ pendingFor s pending.userPubkey tenant := by
  have hq := List.find?_some h
  simp only [Bool.and_eq_true, beq_iff_eq, decide_eq_true_eq] at hq
  refine List.mem_filter.mpr ⟨List.mem_of_find?_eq_some h, ?_⟩
  simp [hq.1.2, hq.2, hemail]

/-- What the OAuth branch leaves, and what it stores on the way. -/
theorem verifyRegistration_agree {tenant : TenantId} {redis : Redis} {newCode token : String}
    {pending : OAuthCode} {s : State} (hs : EmailsAgree s)
    (hfind : s.db.findPendingByToken s.now token tenant = some pending)
    (hfree : s.db.userExists pending.userPubkey tenant = false →
      ∀ c ∈ pendingFor s pending.userPubkey tenant, c.pendingEmail = pending.pendingEmail) :
    EmailsAgree ((verifyRegistration tenant redis newCode token pending).run s).2 ∧
      ∀ tenant' user email s', (.storeVerifiedCode tenant' user email, s') ∈
          (verifyRegistration tenant redis newCode token pending).trace s →
        s'.db.getEmail user tenant' = some (some email) := by
  unfold verifyRegistration
  cases hemail : pending.pendingEmail with
  | none => exact ⟨hs, fun _ _ _ _ h => by cases h⟩
  | some email =>
  cases pending.pendingPasswordHash with
  | none => exact ⟨hs, fun _ _ _ _ h => by cases h⟩
  | some passwordHash =>
  simp only [Prog.orErr_some, Prog.bind_def, Prog.ret_bind]
  have hmem := mem_pendingFor_of_find hfind (by rw [hemail]; rfl)
  cases hrun : (ensureVerifiedUser pending tenant email passwordHash token).run s with
  | mk r s₁ =>
  obtain ⟨hs₁, howner⟩ := ensureVerifiedUser_agree hs hmem hemail hfree hrun
  constructor
  · rw [Prog.run_bind, hrun]
    cases r with
    | error e => exact hs₁
    | ok _ =>
      exact hs₁.fades
        ((storeVerifiedCode_steps .refl (fun _ _ => .ofCodes) redis newCode token email pending).run
        .refl (fun _ _ _ => .trans) s₁)
  · intro tenant' user email' s' hx
    rcases Prog.mem_trace_bind.mp hx with hx | ⟨_, s₂, hrun₂, hx⟩
    · have hlabel := (ensureVerifiedUser_uses pending tenant email passwordHash token).trace hx
      cases hlabel
    · rw [hrun] at hrun₂
      cases hrun₂
      obtain ⟨rfl, rfl, rfl, rfl⟩ := storeVerifiedCode_trace hx
      exact howner rfl

theorem verifyEmail_agree {tenant : TenantId} {headers : Headers} {redis : Redis}
    {newCode token : String} {s : State} (hs : EmailsAgree s)
    (hfree : KeyFree w s (.verifyEmail tenant headers redis newCode token)) :
    EmailsAgree ((verifyEmail w tenant headers redis newCode token).run s).2 ∧
      CodeForOwner w s (.verifyEmail tenant headers redis newCode token) := by
  unfold CodeForOwner verifyEmail
  simp only [Prog.bind_def, Prog.read_bind, Prog.run_atom, id, Prog.trace, List.mem_cons,
    Prod.mk.injEq, reduceCtorEq, false_and, false_or]
  cases hfind : s.db.findPendingByToken s.now token tenant with
  | some pending => exact verifyRegistration_agree hs hfind (hfree pending hfind)
  | none =>
    refine ⟨hs.fades
      ((verifyUser_steps .refl (fun s user => .markEmailVerified s user tenant) headers token).run
      .refl (fun _ _ _ => .trans) s), ?_⟩
    intro tenant' user email s' hx
    have hlabel := (verifyUser_uses tenant headers token).trace hx
    cases hlabel

/-! ## The result -/

theorem EmailsAgree.registrationStep {s : State} {c : RegistrationCall} (hs : EmailsAgree s)
    (hfree : KeyFree w s c) : EmailsAgree (registrationStep w s c) := by
  cases c with
  | oauthRegister tenant allowed drawn req =>
    exact hs.storesFree (oauthRegister_stores tenant allowed drawn req s)
  | headlessRegister tenant allowed drawn req =>
    exact hs.storesFree (headlessRegister_stores allowed hfree)
  | verifyEmail tenant headers redis newCode token => exact (verifyEmail_agree hs hfree).1
  | createUser user key =>
    show EmailsAgree (s.withDb ((Http.createUser s.db user key).getD s.db))
    cases h : Http.createUser s.db user key with
    | none => exact hs
    | some db => exact hs.createUser hfree h
  | tick d =>
    -- time only takes registrations away
    refine hs.fades ⟨fun _ _ => ⟨rfl, rfl⟩, fun p t c hc => ?_⟩
    obtain ⟨hmem, hp⟩ := List.mem_filter.mp hc
    refine List.mem_filter.mpr ⟨hmem, ?_⟩
    simp only [Bool.and_eq_true, decide_eq_true_eq] at hp ⊢
    refine ⟨hp.1, ?_⟩
    have hlater : s.now + (d : Int) < c.expiresAt := hp.2
    exact Int.lt_of_le_of_lt (Int.le_add_of_nonneg_right (Int.natCast_nonneg d)) hlater

/-- **A verified email opens its own account only**, in every run in which no user is created for a
key that is registered under another email and not verified yet. -/
theorem verified_code_is_for_owner {s : State} {calls : List RegistrationCall} (hs : EmailsAgree s)
    (hfree : Along (registrationStep w) (KeyFree w) s calls) :
    Along (registrationStep w) (CodeForOwner w) s calls := by
  refine along_of_invariant (I := EmailsAgree) (fun s c h hc => h.registrationStep hc)
    (fun s c h hc => ?_) hs hfree
  cases c with
  | verifyEmail tenant headers redis newCode token => exact (verifyEmail_agree h hc).2
  | oauthRegister | headlessRegister | createUser | tick => trivial

/-! One key and two mailboxes. The first registers the bare public key of an account that does not
exist yet; its holder shows up with the secret before the email is verified. -/

def mailWeb : Web := .symbolic [] []

def bareKey : RegistrationCall :=
  .oauthRegister 1 true ⟨"unused", "code-a", "device-a", "token-a"⟩
    { email := "a@example.com", password := "pw", clientId := "app", redirectUri := "app.example",
      pubkey := some "pub:sk" }

def holderRegisters : RegistrationCall :=
  .createUser { pubkey := "pub:sk", tenantId := 1, email := some "b@example.com" } (some "sk")

def verifyA : RegistrationCall := .verifyEmail 1 {} .absent "code-for-a" "token-a"

def emptyState : State := .boot {} 0

theorem emptyState_agree : EmailsAgree emptyState := by
  intro user tenant hexists
  cases hexists

/-- Alone, the registration is verified and its code stored. -/
theorem verified_code_is_for_owner_alone :
    (∃ s', (.storeVerifiedCode 1 "pub:sk" "a@example.com", s') ∈
      (verifyEmail mailWeb 1 {} .absent "code-for-a" "token-a").trace
        (registrationStep mailWeb emptyState bareKey)) ∧
      CodeForOwner mailWeb (registrationStep mailWeb emptyState bareKey) verifyA := by
  have hstored : Stmt.storeVerifiedCode 1 "pub:sk" "a@example.com" ∈
      ((verifyEmail mailWeb 1 {} .absent "code-for-a" "token-a").trace
        (registrationStep mailWeb emptyState bareKey)).map (·.1) := by decide
  have hfree : KeyFree mailWeb (registrationStep mailWeb emptyState bareKey) verifyA := by
    show ∀ p ∈ Db.findPendingByToken _ _ "token-a" 1, _
    decide
  have howner :
    Along (registrationStep mailWeb) (CodeForOwner mailWeb) emptyState [bareKey, verifyA] :=
    verified_code_is_for_owner emptyState_agree ⟨trivial, hfree, trivial⟩
  obtain ⟨x, hx, hlabel⟩ := List.mem_map.mp hstored
  refine ⟨⟨x.2, ?_⟩, howner.2.1⟩
  rw [← hlabel]
  exact hx

/-- **The mailbox that registered first gets a code for the account of the other.** -/
theorem verified_code_for_stranger :
    ¬ Along (registrationStep mailWeb) (CodeForOwner mailWeb) emptyState
      [bareKey, holderRegisters, verifyA] := by
  intro hall
  have hstored : ∃ x ∈ (verifyEmail mailWeb 1 {} .absent "code-for-a" "token-a").trace
      (run (registrationStep mailWeb) emptyState [bareKey, holderRegisters]),
      x.1 = .storeVerifiedCode 1 "pub:sk" "a@example.com" ∧
        x.2.db.getEmail "pub:sk" 1 = some (some "b@example.com") := by decide
  obtain ⟨⟨l, s⟩, hx, rfl, hemail⟩ := hstored
  have hother := hall.2.2.1 1 "pub:sk" "a@example.com" s hx
  rw [hemail] at hother
  exact absurd hother (by decide)

end Keycast.Http
