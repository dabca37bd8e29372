import Keycast.Http.Signup
import Keycast.Lib.Histories

/-!
# `Http/SignupPassword.lean` — the password of a signup

`register` writes a row without a password hash and queues a job; a worker hashes the password and
writes the hash to the row with the verification token of the job. Until then `resend_verification`
may have given the row another token: the update of the worker then changes no row, and after ten
minutes the cleanup deletes the account. A registration that is taken back because the queue is full
can do the same to a later one with the same key. In every run without these two, a hash that was
written in time stays.

What a registration can count on is a fact of its thread (`RowKept`): while its row is young it
waits for the hash (`Waits`), and once the hash was written in time the row has it (`Hashed`). The
statements of the registration establish the fact (`RowKept.own`), and the statements of all other
requests leave it alone (`spares_of_move`). The second is where the condition is used, by kind of
statement: another job, a registration taken back, a new verification token, the cleanup; that
tokens are drawn once tells the row of one registration from that of another.
-/

set_option autoImplicit false

namespace Keycast.Http

open Lib

/-! ## The system -/

/-- `register`, and the job it queues, which a worker takes up at any later time. -/
def signup (w : Web) (tenant : TenantId) (allowed : Bool) (generated : Keys) (token : String)
    (queue : Except BcryptQueueError Unit)
    (req : RegisterRequest) : Prog Stmt State AuthError Unit := do
  let _ ← register w tenant allowed generated token queue req
  bcryptJob w token req.password

/-- One pass of `spawn_cleanup_task`. -/
def cleanupPass : Prog Stmt State AuthError Unit := do
  .write .deleteStaleSignups fun s => s.withDb (s.db.deleteStaleSignups s.now)
  .write .purgeLinks fun s => s.withDb
    { s.db with
      magicLinkTokens :=
        s.db.magicLinkTokens.filter fun l => !decide (l.createdAt < s.now - hours 24) }

inductive SignupWork
  | signup (tenant : TenantId) (allowed : Bool) (generated : Keys) (token : String)
      (queue : Except BcryptQueueError Unit) (req : RegisterRequest)
  | resend (tenant : TenantId) (headers : Headers) (allowed : Bool) (newToken : String)
    (email : Option String)
  | verify (tenant : TenantId) (headers : Headers) (redis : Redis) (newCode token : String)
  | cleanup
  deriving DecidableEq

def signupProg (w : Web) : SignupWork → Prog Stmt State AuthError Unit
  | .signup tenant allowed generated token queue req =>
    signup w tenant allowed generated token queue req
  | .resend tenant headers allowed newToken email => do
    let _ ← resendVerification w tenant headers allowed newToken email
  | .verify tenant headers redis newCode token => do
    let _ ← verifyEmail w tenant headers redis newCode token
  | .cleanup => cleanupPass

def signupSystem (w : Web) : System SignupWork Stmt State AuthError Unit Nat where
  prog := signupProg w
  env d s := { s with now := s.now + d }

abbrev SignupConf := Conf SignupWork Stmt State AuthError Unit
abbrev SignupEvent := Ev SignupWork Nat

/-- The verification tokens that requests draw. -/
def SignupWork.drawn : SignupWork → Option String
  | .signup _ _ _ token _ _ => some token
  | .resend _ _ _ newToken _ => some newToken
  | .verify .. | .cleanup => none

def SignupWork.signupToken : SignupWork → Option String
  | .signup _ _ _ token _ _ => some token
  | _ => none

/-! ## The property, and its condition -/

/-- The job of a registration was processed in time, and the row holds the hash. -/
def PasswordKept (w : Web) (c : SignupConf) : Prop :=
  ∀ t ∈ c.threads, ∀ tenant allowed generated token queue req keys hash s₁ s₂,
    t.req = .signup tenant allowed generated token queue req →
    signupKeys w req.nsec generated = .ok keys → w.bcryptHash req.password = .ok hash →
    (.registerWithPersonalKey, s₁) ∈ t.seen → (.setPasswordHash, s₂) ∈ t.seen →
    s₂.now ≤ s₁.now + seconds 600 →
    ∃ u ∈ c.state.db.users, u.pubkey = w.publicKey keys ∧ u.tenantId = tenant ∧
      u.passwordHash = some hash

/-- Whom the mail of a `resend_verification` is for, once it has looked. -/
def resendTarget (w : Web) : SignupWork → List (Stmt × State) → Option PublicKey
  | .resend tenant headers _ _ email, (.getVerificationStatus, s) :: _ =>
    (verificationLookup w s.now tenant headers (email.map w.toLowercase) s.db).map (·.1)
  | _, _ => none

/-- A new verification token goes to a row that has its hash, and a registration that is taken back
takes its own row. -/
def tokenUndisturbed (w : Web) (t : Thread SignupWork Stmt State AuthError Unit) (db : Db) : Bool :=
  match t.req, t.next? with
  | .resend tenant .., some .setVerificationToken =>
    (resendTarget w t.req t.seen).all fun user =>
      db.users.all fun u => !Db.isUser user tenant u || u.passwordHash.isSome
  | .signup _ _ generated token _ req, some .deleteUserRow =>
    (signupKeys w req.nsec generated).toOption.all fun keys =>
      db.users.all fun u => u.pubkey != w.publicKey keys || u.emailVerificationToken == some token
  | _, _ => true

def TokenUndisturbed (w : Web) (c : SignupConf) : SignupEvent → Prop
  | .exec i => ∀ t ∈ c.threads[i]?, tokenUndisturbed w t c.state.db = true
  | _ => True

instance (w : Web) (c : SignupConf) : ∀ e, Decidable (TokenUndisturbed w c e)
  | .spawn _ | .env _ => .isTrue trivial
  | .exec i => inferInstanceAs (Decidable (∀ t ∈ c.threads[i]?, _))

/-! ## What the statements do to the rows -/

/-- The row of a registration. -/
def signupRow (w : Web) (tenant : TenantId) (pubkey : PublicKey) (token : String)
    (req : RegisterRequest)
    (now : Timestamp) : User where
  pubkey := pubkey
  tenantId := tenant
  email := some (w.toLowercase req.email)
  emailVerificationToken := some token
  emailVerificationExpiresAt := some (now + hours emailVerificationExpiryHours)
  redirectUri := req.redirectUri.filter allowedRedirect
  createdAt := now

/-- The registration found its key and its address free. -/
def Inserts (w : Web) (tenant : TenantId) (keys : Keys) (token : String) (req : RegisterRequest)
    (s : State) : Prop :=
  (s.db.insertUser (signupRow w tenant (w.publicKey keys) token req s.now)).isSome

def SignupStmt (w : Web) (tenant : TenantId) (keys : Keys) (token : String)
    (queue : Except BcryptQueueError Unit)
    (req : RegisterRequest) : Stmt → List (Stmt × State) → State → State → Prop
  | .registerWithPersonalKey, seen, s, s' =>
    (∀ x ∈ seen, x.1 = .userExists) ∧
      (¬ Inserts w tenant keys token req s ∧ s'.db.users = s.db.users ∨
        Inserts w tenant keys token req s ∧
          s'.db.users = s.db.users ++ [signupRow w tenant (w.publicKey keys) token req s.now])
  | .setPasswordHash, seen, s, s' =>
    (∃ s₁ rest, seen = (.registerWithPersonalKey, s₁) :: rest ∧ (∀ x ∈ rest, x.1 = .userExists) ∧
      Inserts w tenant keys token req s₁) ∧ queue = .ok () ∧
    ∃ hash, w.bcryptHash req.password = .ok hash ∧ s'.db.users =
      updateWhere (·.emailVerificationToken == some token)
        (fun u => { u with passwordHash := some hash }) s.db.users
  | .deleteUserRow, _, s, s' =>
    queue ≠ .ok () ∧
      (s'.db.users = s.db.users ∨ s'.db.users = s.db.users.filter (·.pubkey != w.publicKey keys))
  | _, _, s, s' => s'.db.users = s.db.users

def SignupMove (w : Web) (r : SignupWork) (l : Stmt) (seen : List (Stmt × State))
    (s s' : State) : Prop :=
  s'.now = s.now ∧
  match r with
  | .signup tenant _ generated token queue req =>
    (∀ x ∈ seen, x.1 ≠ .setPasswordHash) ∧
      ∃ keys, signupKeys w req.nsec generated = .ok keys ∧
        SignupStmt w tenant keys token queue req l seen s s'
  | .resend tenant _ _ newToken _ =>
    s'.db.users = s.db.users ∨ ∃ user sentAt expiresAt, l = .setVerificationToken ∧
      resendTarget w r seen = some user ∧
      s'.db.users = updateWhere (Db.isUser user tenant) (fun u =>
        { u with emailVerificationToken := some newToken,
                 emailVerificationExpiresAt := some expiresAt,
                 emailVerificationSentAt := some sentAt }) s.db.users
  | .verify .. =>
    s'.db.users = s.db.users ∨
    (∃ u, (∀ u' ∈ s.db.users, u'.pubkey ≠ u.pubkey) ∧ s'.db.users = s.db.users ++ [u]) ∨
      ∃ p, s'.db.users = updateWhere p (fun u => { u with emailVerified := true }) s.db.users
  | .cleanup => s'.db.users = s.db.users ∨ s'.db.users = (s.db.deleteStaleSignups s.now).users

section Programs

variable {w : Web}

theorem insertUser_users (db : Db) (u : User) :
    (∃ db', db.insertUser u = some db' ∧ db'.users = db.users ++ [u]) ∨ db.insertUser u = none := by
  unfold Db.insertUser
  split
  · exact .inr rfl
  · exact .inl ⟨_, rfl, rfl⟩

theorem deleteUserRow_users (db : Db) (pubkey : PublicKey) (tenant : TenantId) :
    ((db.deleteUserRow pubkey tenant).elim db (·.2)).users = db.users ∨
      ((db.deleteUserRow pubkey tenant).elim db (·.2)).users =
        db.users.filter (·.pubkey != pubkey) := by
  unfold Db.deleteUserRow
  by_cases hexists : (!db.userExists pubkey tenant) = true
  · rw [if_pos hexists]
    exact .inl rfl
  rw [if_neg hexists]
  by_cases hreferenced : db.referenced pubkey = true
  · rw [if_pos hreferenced]
    exact .inl rfl
  · rw [if_neg hreferenced]
    exact .inr rfl

theorem bcryptJob_meets {tenant : TenantId} {allowed : Bool} {generated keys : Keys}
    {token : String}
    {req : RegisterRequest} {s₁ : State} {rest : List (Stmt × State)}
    (hkeys : signupKeys w req.nsec generated = .ok keys) (hrest : ∀ x ∈ rest, x.1 = .userExists)
    (hinserts : Inserts w tenant keys token req s₁) :
    (bcryptJob w token req.password).Meets
      (SignupMove w (.signup tenant allowed generated token (.ok ()) req))
      (fun _ _ => True) ((.registerWithPersonalKey, s₁) :: rest) := by
  unfold bcryptJob
  split
  · next hash hhash =>
    refine fun s =>
      ⟨⟨rfl, ?_, keys, hkeys, ⟨s₁, rest, rfl, hrest, hinserts⟩, rfl, hash, hhash, rfl⟩, trivial⟩
    intro x hx
    rcases List.mem_cons.mp hx with rfl | hx
    · exact nofun
    · rw [hrest x hx]
      exact nofun
  · trivial

/-- A registration that is not queued is taken back. -/
theorem queuePassword_meets {tenant : TenantId} {allowed : Bool} {generated keys : Keys}
    {email token : String}
    {queue : Except BcryptQueueError Unit} {req : RegisterRequest} {s₁ : State}
    {rest : List (Stmt × State)}
    (hkeys : signupKeys w req.nsec generated = .ok keys) (hrest : ∀ x ∈ rest, x.1 = .userExists)
    (hinserts : Inserts w tenant keys token req s₁) :
    ((queuePassword tenant (w.publicKey keys) email token queue).bind
      fun _ => bcryptJob w token req.password).Meets
      (SignupMove w (.signup tenant allowed generated token queue req)) (fun _ _ => True)
      ((.registerWithPersonalKey, s₁) :: rest) := by
  have hnot : ∀ x ∈ (Stmt.registerWithPersonalKey, s₁) :: rest, x.1 ≠ .setPasswordHash := by
    intro x hx
    rcases List.mem_cons.mp hx with rfl | hx
    · exact nofun
    · rw [hrest x hx]
      exact nofun
  cases queue with
  | ok u => exact bcryptJob_meets hkeys hrest hinserts
  | error e =>
    refine fun s =>
      ⟨⟨rfl, hnot, keys, hkeys, nofun, ?_⟩, fun s' => ⟨⟨rfl, ?_, keys, hkeys, rfl⟩, trivial⟩⟩
    · exact deleteUserRow_users s.db (w.publicKey keys) tenant
    · intro x hx
      rcases List.mem_cons.mp hx with rfl | hx
      · exact nofun
      · exact hnot x hx

theorem signup_meets (tenant : TenantId) (allowed : Bool) (generated : Keys) (token : String)
    (queue : Except BcryptQueueError Unit) (req : RegisterRequest) :
    (signup w tenant allowed generated token queue req).Meets
      (SignupMove w (.signup tenant allowed generated token queue req)) (fun _ _ => True) [] := by
  unfold signup register
  simp only [Prog.bind_def]
  split
  · trivial
  simp only [Prog.bind_assoc]
  refine .ofExcept (fun _ => trivial) fun keys hkeys => ?_
  -- the rest, whether or not the key was looked up
  have hrest : ∀ (known : Bool) (seen : List (Stmt × State)), (∀ x ∈ seen, x.1 = .userExists) →
      Prog.Meets (SignupMove w (.signup tenant allowed generated token queue req)) (fun _ _ => True)
        ((if known = true then Prog.err .duplicateKey else
          (Prog.ofExcept ((w.kmsEncrypt (w.toSecretBytes keys)).mapError AuthError.encryption)).bind
            fun secret =>
            (transact .registerWithPersonalKey .emailAlreadyExists fun s =>
              (s.db.registerWithPersonalKey s.now (w.publicKey keys) tenant
                (w.toLowercase req.email) none token
                (s.now + hours emailVerificationExpiryHours) secret
                (req.redirectUri.filter allowedRedirect)).map (((), ·))).bind fun _ =>
            queuePassword tenant (w.publicKey keys) (w.toLowercase req.email) token
              queue).bind fun _ =>
          bcryptJob w token req.password) seen := by
    intro known seen hseen
    have hnot : ∀ x ∈ seen, x.1 ≠ .setPasswordHash := by
      intro x hx
      rw [hseen x hx]
      exact nofun
    split
    · trivial
    simp only [Prog.bind_assoc]
    refine .ofExcept (fun _ => trivial) fun secret _ =>
      meets_transact (fun s hnone => ?_) fun s b db hsome => ?_
    · refine ⟨⟨rfl, hnot, keys, hkeys, hseen, .inl ⟨?_, rfl⟩⟩, trivial⟩
      rcases insertUser_users s.db (signupRow w tenant (w.publicKey keys) token req s.now) with
        ⟨db', hdb', -⟩ | hinsert
      · rw [Option.map_eq_none_iff, Db.registerWithPersonalKey, Option.map_eq_none_iff] at hnone
        cases hnone.symm.trans hdb'
      · rw [Inserts, hinsert]
        exact Bool.false_ne_true
    · obtain ⟨db₁, hregister, heq⟩ := Option.map_eq_some_iff.mp hsome
      cases heq
      obtain ⟨db₂, hinsert, rfl⟩ := Option.map_eq_some_iff.mp hregister
      have hinserts : Inserts w tenant keys token req s :=
        Option.isSome_iff_exists.mpr ⟨db₂, hinsert⟩
      refine ⟨⟨rfl, hnot, keys, hkeys, hseen, .inr ⟨hinserts, ?_⟩⟩,
        queuePassword_meets hkeys hseen hinserts⟩
      rw [(Db.insertUser_eq hinsert).1]
      rfl
  unfold signupKeyKnown
  split
  · exact .read (fun s => ⟨rfl, (fun _ h => nomatch h), keys, hkeys, rfl⟩) fun s =>
      hrest _ _ fun x hx => by rw [List.mem_singleton.mp hx]
  · exact hrest _ _ fun _ h => nomatch h

theorem resend_meets (tenant : TenantId) (headers : Headers) (allowed : Bool) (newToken : String)
    (email : Option String) :
    (signupProg w (.resend tenant headers allowed newToken email)).Meets
      (SignupMove w (.resend tenant headers allowed newToken email)) (fun _ _ => True) [] := by
  show Prog.Meets _ _
    ((resendVerification w tenant headers allowed newToken email).bind fun _ => .ret ()) []
  unfold resendVerification
  split
  · trivial
  simp only [Prog.bind_def, Prog.bind_assoc]
  refine .read (fun s => ⟨rfl, .inl rfl⟩) fun s => ?_
  split
  · trivial
  next user email' status hfound =>
  refine .write fun s' => ⟨⟨rfl, .inr ⟨user, s'.now, _, rfl, ?_, rfl⟩⟩, trivial⟩
  show Option.map _ (verificationLookup w s.now tenant headers (email.map w.toLowercase) s.db) =
    some user
  rw [(Option.filter_eq_some_iff.mp hfound).1]
  rfl

/-- What the statements of `verify_email` do to the rows. -/
def VerifyMove (s s' : State) : Prop :=
  s'.now = s.now ∧ (s'.db.users = s.db.users ∨
    (∃ u, (∀ u' ∈ s.db.users, u'.pubkey ≠ u.pubkey) ∧ s'.db.users = s.db.users ++ [u]) ∨
      ∃ p, s'.db.users = updateWhere p (fun u => { u with emailVerified := true }) s.db.users)

theorem VerifyMove.refl (s : State) : VerifyMove s s := ⟨rfl, .inl rfl⟩

theorem verifyEmail_moves (tenant : TenantId) (headers : Headers) (redis : Redis)
    (newCode token : String) :
    (verifyEmail w tenant headers redis newCode token).Steps VerifyMove := by
  refine verifyEmail_steps VerifyMove.refl (fun s u db keys hins => ?_)
    (fun s codes _ => ⟨rfl, .inl rfl⟩)
    (fun s user => ⟨rfl, .inr (.inr ⟨_, rfl⟩)⟩) _ _ _ _
  obtain ⟨rfl, hnew⟩ := Db.insertUser_eq hins
  exact ⟨rfl, .inr (.inl ⟨u, hnew, rfl⟩)⟩

/-- Every program does what is said of its statements. -/
theorem signupProg_meets (r : SignupWork) : (signupProg w r).Meets (SignupMove w r)
    (fun _ _ => True) [] := by
  cases r with
  | signup tenant allowed generated token queue req =>
    exact signup_meets tenant allowed generated token queue req
  | resend tenant headers allowed newToken email =>
    exact resend_meets tenant headers allowed newToken email
  | verify tenant headers redis newCode token =>
    have hsteps : (signupProg w (.verify tenant headers redis newCode token)).Steps VerifyMove :=
      .bind (verifyEmail_moves tenant headers redis newCode token) fun _ => trivial
    exact hsteps.meets (fun h => h) fun _ _ => trivial
  | cleanup => exact fun s => ⟨⟨rfl, .inr rfl⟩, fun s' => ⟨⟨rfl, .inl rfl⟩, trivial⟩⟩

end Programs

/-! ## What a registration can count on -/

/-- A row that waits for its hash. -/
structure Waits (tenant : TenantId) (token : String) (createdAt : Timestamp) (u : User) : Prop where
  tenant : u.tenantId = tenant
  token : u.emailVerificationToken = some token
  hash : u.passwordHash = none
  created : u.createdAt = createdAt

/-- A row with its hash. Its token is still that of the registration, or none that a registration
draws. -/
structure Hashed (drawn : List String) (tenant : TenantId) (token hash : String)
    (u : User) : Prop where
  tenant : u.tenantId = tenant
  hash : u.passwordHash = some hash
  token : u.emailVerificationToken = some token ∨ ∀ k ∈ drawn, u.emailVerificationToken ≠ some k

abbrev RowOf (pubkey : PublicKey) (P : User → Prop) (s : State) : Prop :=
  OnlyRow (·.pubkey) pubkey P s.db.users

/-- A statement that leaves the row of a registration as it has to be. -/
structure SparesRow (drawn : List String) (tenant : TenantId) (pubkey : PublicKey) (token : String)
    (s s' : State) : Prop where
  now : s'.now = s.now
  waits : ∀ createdAt, s.now ≤ createdAt + seconds 600 →
    RowOf pubkey (Waits tenant token createdAt) s →
    RowOf pubkey (Waits tenant token createdAt) s'
  hashed : ∀ hash, RowOf pubkey (Hashed drawn tenant token hash) s →
    RowOf pubkey (Hashed drawn tenant token hash) s'

section Spares

variable {w : Web} {drawn : List String} {tenant : TenantId} {pubkey : PublicKey} {token : String}
  {s s' : State}

theorem SparesRow.same (hnow : s'.now = s.now) (husers : s'.db.users = s.db.users) :
    SparesRow drawn tenant pubkey token s s' := by
  refine ⟨hnow, fun createdAt _ h => ?_, fun hash h => ?_⟩
  · unfold RowOf
    rwa [husers]
  · unfold RowOf
    rwa [husers]

theorem SparesRow.insert {u : User} (hnow : s'.now = s.now)
    (hnew : ∀ u' ∈ s.db.users, u'.pubkey ≠ u.pubkey)
    (husers : s'.db.users = s.db.users ++ [u]) : SparesRow drawn tenant pubkey token s s' := by
  refine ⟨hnow, fun createdAt _ h => ?_, fun hash h => ?_⟩
  · unfold RowOf
    rw [husers]
    exact h.insert hnew
  · unfold RowOf
    rw [husers]
    exact h.insert hnew

/-- The job of another registration. -/
theorem SparesRow.setPasswordHash {other hash : String} (hnow : s'.now = s.now)
    (hother : other ∈ drawn)
    (hne : token ≠ other)
    (husers : s'.db.users = updateWhere (·.emailVerificationToken == some other)
      (fun u => { u with passwordHash := some hash }) s.db.users) : SparesRow drawn tenant pubkey
        token s s' := by
  refine ⟨hnow, fun createdAt _ h => ?_, fun hash' h => ?_⟩
  · unfold RowOf
    rw [husers]
    refine h.updateWhere (fun _ => rfl) (fun u _ _ hu hp => ?_) fun u _ hu _ => hu
    rw [hu.token, beq_iff_eq] at hp
    exact absurd (Option.some.inj hp) hne
  · unfold RowOf
    rw [husers]
    refine h.updateWhere (fun _ => rfl) (fun u _ _ hu hp => ?_) fun u _ hu _ => hu
    rw [beq_iff_eq] at hp
    rcases hu.token with htoken | htoken
    · exact absurd (Option.some.inj (htoken.symm.trans hp)) hne
    · exact absurd hp (htoken other hother)

/-- A registration with another token is taken back. -/
theorem SparesRow.takeBack {other : String} {key : PublicKey} (hnow : s'.now = s.now)
    (hother : other ∈ drawn)
    (hne : token ≠ other)
    (hown : ∀ u ∈ s.db.users, u.pubkey = key → u.emailVerificationToken = some other)
    (husers : s'.db.users = s.db.users.filter (·.pubkey != key)) :
      SparesRow drawn tenant pubkey token s s' := by
  refine ⟨hnow, fun createdAt _ h => ?_, fun hash h => ?_⟩
  · unfold RowOf
    rw [husers]
    refine h.filter fun u hu _ hwaits => bne_iff_ne.mpr fun heq => ?_
    exact hne (Option.some.inj (hwaits.token.symm.trans (hown u hu heq)))
  · unfold RowOf
    rw [husers]
    refine h.filter fun u hu _ hhashed => bne_iff_ne.mpr fun heq => ?_
    rcases hhashed.token with htoken | htoken
    · exact hne (Option.some.inj (htoken.symm.trans (hown u hu heq)))
    · exact htoken other hother (hown u hu heq)

/-- A new token for a row that has its hash. -/
theorem SparesRow.setVerificationToken {other : String} {p : User → Bool} {f : User → User}
    (hnow : s'.now = s.now)
    (hother : other ∉ drawn) (hf : ∀ u, (f u).pubkey = u.pubkey ∧ (f u).tenantId = u.tenantId ∧
      (f u).passwordHash = u.passwordHash ∧ (f u).emailVerificationToken = some other)
    (hsettled : ∀ u ∈ s.db.users, p u = true → u.passwordHash.isSome = true)
    (husers : s'.db.users = updateWhere p f s.db.users) :
      SparesRow drawn tenant pubkey token s s' := by
  refine ⟨hnow, fun createdAt _ h => ?_, fun hash h => ?_⟩
  · unfold RowOf
    rw [husers]
    refine h.updateWhere (fun u => (hf u).1) (fun u hmem _ hwaits hp => ?_) fun u _ hu _ => hu
    have hsome := hsettled u hmem hp
    rw [hwaits.hash] at hsome
    cases hsome
  · unfold RowOf
    rw [husers]
    refine h.updateWhere (fun u => (hf u).1) (fun u _ _ hu _ => ?_) fun u _ hu _ => hu
    refine ⟨(hf u).2.1.trans hu.tenant, (hf u).2.2.1.trans hu.hash, .inr fun k hk heq => ?_⟩
    rw [(hf u).2.2.2] at heq
    exact hother (Option.some.inj heq ▸ hk)

theorem SparesRow.verified {p : User → Bool} (hnow : s'.now = s.now)
    (husers : s'.db.users = updateWhere p (fun u => { u with emailVerified := true }) s.db.users) :
    SparesRow drawn tenant pubkey token s s' := by
  refine ⟨hnow, fun createdAt _ h => ?_, fun hash h => ?_⟩
  · unfold RowOf
    rw [husers]
    exact h.updateWhere (fun _ => rfl)
      (fun u _ _ hu _ => ⟨hu.tenant, hu.token, hu.hash, hu.created⟩) fun u _ hu _ => hu
  · unfold RowOf
    rw [husers]
    exact h.updateWhere (fun _ => rfl) (fun u _ _ hu _ => ⟨hu.tenant, hu.hash, hu.token⟩)
      fun u _ hu _ => hu

/-- **The cleanup** deletes neither a row younger than ten minutes nor one with its hash. -/
theorem SparesRow.cleanup (hnow : s'.now = s.now)
    (husers : s'.db.users = (s.db.deleteStaleSignups s.now).users) :
    SparesRow drawn tenant pubkey token s s' := by
  rcases s.db.deleteStaleSignups_users s.now with hsame | hfilter
  · exact .same hnow (husers.trans hsame)
  -- the row goes only when it is stale itself, being the only one with its key
  have hkeeps : ∀ P : User → Prop, (∀ u, P u → Db.staleSignup s.now u = false) → RowOf pubkey P s →
    RowOf pubkey P s' := by
    intro P hP h
    unfold RowOf
    rw [husers, hfilter]
    obtain ⟨u, hu, hkey, hp, hone⟩ := h
    refine OnlyRow.filter (fun r hr hrkey hpr => ?_) ⟨u, hu, hkey, hp, hone⟩
    rw [Bool.not_eq_true', ← Bool.not_eq_true, List.contains_iff_mem, List.mem_map]
    rintro ⟨r', hr', heq⟩
    obtain ⟨hmem, hstale⟩ := List.mem_filter.mp hr'
    have hsame : r' = r := (hone r' hmem (heq.trans hrkey)).trans (hone r hr hrkey).symm
    rw [hsame, hP r hpr] at hstale
    cases hstale
  refine ⟨hnow, fun createdAt hyoung h => hkeeps _ (fun u hu => ?_) h,
    fun hash h => hkeeps _ (fun u hu => ?_) h⟩
  · have hdate : ¬ u.createdAt < s.now - seconds 600 := by
      rw [hu.created]
      exact Int.not_lt.mpr (Int.sub_right_le_of_le_add hyoung)
    simp [Db.staleSignup, hdate]
  · simp [Db.staleSignup, hu.hash]

end Spares

/-- What a registration with a queued job knows of its row: it waits, while it is young, and once
the hash was written in time it holds the hash. -/
structure RowKept (w : Web) (drawn : List String) (tenant : TenantId) (keys : Keys) (token : String)
    (req : RegisterRequest) (seen : List (Stmt × State)) (s : State) : Prop where
  waits : ∀ s₁ rest, seen = (.registerWithPersonalKey, s₁) :: rest →
    Inserts w tenant keys token req s₁ →
    s.now ≤ s₁.now + seconds 600 → RowOf (w.publicKey keys) (Waits tenant token s₁.now) s
  hashed : ∀ s₁ s₂ hash, w.bcryptHash req.password = .ok hash →
    (.registerWithPersonalKey, s₁) ∈ seen →
    (.setPasswordHash, s₂) ∈ seen → s₂.now ≤ s₁.now + seconds 600 →
    RowOf (w.publicKey keys) (Hashed drawn tenant token hash) s

def SignupFact (w : Web) (drawn : List String) : SignupWork → List (Stmt × State) → State → Prop
  | .signup tenant _ generated token queue req, seen, s =>
    token ∈ drawn ∧ (∀ s₂, (.setPasswordHash, s₂) ∈ seen → queue = .ok ()) ∧
      ∀ keys, signupKeys w req.nsec generated = .ok keys → queue = .ok () →
        RowKept w drawn tenant keys token req seen s
  | .resend _ _ _ newToken _, _, _ => newToken ∉ drawn
  | .verify .., _, _ | .cleanup, _, _ => True

/-- The condition of a run, with what follows of its tokens from their being drawn at random. -/
structure SignupOk (w : Web) (drawn : List String) (c : SignupConf) (e : SignupEvent) : Prop where
  undisturbed : TokenUndisturbed w c e
  distinct : (c.threads.filterMap fun t => t.req.signupToken).Nodup
  signups : ∀ tenant allowed generated token queue req,
    e = .spawn (.signup tenant allowed generated token queue req) → token ∈ drawn
  resends : ∀ tenant headers allowed newToken email,
    e = .spawn (.resend tenant headers allowed newToken email) → newToken ∉ drawn

section Facts

variable {w : Web} {drawn : List String} {tenant : TenantId} {keys : Keys} {token : String}
  {req : RegisterRequest}
  {seen : List (Stmt × State)} {s s' : State}

theorem RowKept.spares (h : RowKept w drawn tenant keys token req seen s)
    (hspares : SparesRow drawn tenant (w.publicKey keys) token s s') :
      RowKept w drawn tenant keys token req seen s' where
  waits s₁ rest hseen hinserts hyoung := by
    rw [hspares.now] at hyoung
    exact hspares.waits _ hyoung (h.waits s₁ rest hseen hinserts hyoung)
  hashed s₁ s₂ hash hhash h₁ h₂ htime := hspares.hashed hash (h.hashed s₁ s₂ hash hhash h₁ h₂ htime)

/-- The statements of the registration itself. -/
theorem RowKept.own {l : Stmt} (h : RowKept w drawn tenant keys token req seen s)
    (hnot : ∀ x ∈ seen, x.1 ≠ .setPasswordHash)
    (hmove : SignupStmt w tenant keys token (.ok ()) req l seen s s') :
    RowKept w drawn tenant keys token req ((l, s) :: seen) s' where
  waits s₁ rest hseen hinserts _ := by
    cases hseen
    obtain ⟨-, ⟨hno, -⟩ | ⟨-, husers⟩⟩ := hmove
    · exact absurd hinserts hno
    obtain ⟨db, hinsert⟩ := Option.isSome_iff_exists.mp hinserts
    unfold RowOf
    rw [husers]
    exact OnlyRow.of_insert (Db.insertUser_eq hinsert).2 ⟨rfl, rfl, rfl, rfl⟩
  hashed s₁ s₂ hash hhash h₁ h₂ htime := by
    rcases List.mem_cons.mp h₂ with heq | h₂
    · cases heq
      obtain ⟨⟨s₀, rest, rfl, hrest, hinserts⟩, -, hash', hhash', husers⟩ := hmove
      obtain rfl : hash = hash' := Except.ok.inj (hhash.symm.trans hhash')
      -- it has registered once
      have hs₁ : s₁ = s₀ := by
        rcases List.mem_cons.mp h₁ with heq | h₁
        · cases heq
        rcases List.mem_cons.mp h₁ with heq | h₁
        · cases heq
          rfl
        · cases hrest _ h₁
      subst hs₁
      have hwaits := h.waits s₁ rest rfl hinserts htime
      unfold RowOf
      rw [husers]
      refine hwaits.updateWhere (fun _ => rfl) (fun u _ _ hu _ => ⟨hu.tenant, rfl, .inl hu.token⟩)
        fun u _ hu hp => ?_
      rw [hu.token, beq_self_eq_true] at hp
      cases hp
    · exact absurd rfl (hnot _ h₂)

/-- The statements of another request. -/
theorem spares_of_move {c : SignupConf} {i : Nat}
    {t : Thread SignupWork Stmt State AuthError Unit} {l : Stmt}
    (hok : SignupOk w drawn c (.exec i)) (ht : c.threads[i]? = some t) (hl : t.next? = some l)
    (hmove : SignupMove w t.req l t.seen c.state s')
    (hfact : SignupFact w drawn t.req t.seen c.state)
    (hne : ∀ k, t.req.signupToken = some k → token ≠ k) (pubkey : PublicKey) :
    SparesRow drawn tenant pubkey token c.state s' := by
  obtain ⟨hnow, hmove⟩ := hmove
  have hundisturbed := hok.undisturbed t ht
  unfold tokenUndisturbed at hundisturbed
  cases hreq : t.req with
  | signup tenant' allowed generated token' queue req' =>
    rw [hreq] at hmove hfact hne hundisturbed
    obtain ⟨-, keys', hkeys', hmove⟩ := hmove
    have hother : token ≠ token' := hne token' rfl
    cases l with
    | registerWithPersonalKey =>
      obtain ⟨-, ⟨-, husers⟩ | ⟨hinserts, husers⟩⟩ := hmove
      · exact .same hnow husers
      · obtain ⟨db, hinsert⟩ := Option.isSome_iff_exists.mp hinserts
        exact .insert hnow (Db.insertUser_eq hinsert).2 husers
    | setPasswordHash =>
      obtain ⟨-, -, hash, -, husers⟩ := hmove
      exact .setPasswordHash hnow hfact.1 hother husers
    | deleteUserRow =>
      obtain ⟨-, husers | husers⟩ := hmove
      · exact .same hnow husers
      · refine .takeBack hnow hfact.1 hother (fun u hu hkey => ?_) husers
        simp only [hl, hkeys', Except.toOption, Option.all_some, List.all_eq_true] at hundisturbed
        have hrow := hundisturbed u hu
        rw [hkey] at hrow
        simpa using hrow
    | _ => exact .same hnow hmove
  | resend tenant' headers allowed newToken email =>
    rw [hreq] at hmove hfact hundisturbed
    rcases hmove with husers | ⟨user, sentAt, expiresAt, rfl, htarget, husers⟩
    · exact .same hnow husers
    · refine SparesRow.setVerificationToken hnow hfact ?_ (fun u hu hp => ?_) husers
      · exact fun u => ⟨rfl, rfl, rfl, rfl⟩
      simp only [hl, htarget, Option.all_some, List.all_eq_true] at hundisturbed
      have hrow := hundisturbed u hu
      rw [hp] at hrow
      exact hrow
  | verify tenant' headers redis newCode token' =>
    rw [hreq] at hmove
    rcases hmove with husers | ⟨u, hnew, husers⟩ | ⟨p, husers⟩
    · exact .same hnow husers
    · exact .insert hnow hnew husers
    · exact .verified hnow husers
  | cleanup =>
    rw [hreq] at hmove
    rcases hmove with husers | husers
    · exact .same hnow husers
    · exact .cleanup hnow husers

theorem signup_lasting : (signupSystem w).Lasting (SignupMove w) (SignupOk w drawn)
    (SignupFact w drawn) where
  spawn {c r} hok := by
    cases r with
    | signup tenant allowed generated token queue req =>
      exact ⟨hok.signups _ _ _ _ _ _ rfl, (fun _ h => nomatch h), fun keys _ _ =>
        ⟨(fun _ _ h => nomatch h), fun _ _ _ _ h => nomatch h⟩⟩
    | resend tenant headers allowed newToken email => exact hok.resends _ _ _ _ _ rfl
    | verify | cleanup => trivial
  own {c i t l s'} hok ht hl hmove hfact := by
    obtain ⟨-, hmove⟩ := hmove
    cases hreq : t.req with
    | signup tenant allowed generated token queue req =>
      rw [hreq] at hmove hfact
      obtain ⟨hnot, keys', hkeys', hmove⟩ := hmove
      refine ⟨hfact.1, fun s₂ h₂ => ?_, fun keys hkeys hqueue => ?_⟩
      · rcases List.mem_cons.mp h₂ with heq | h₂
        · cases heq
          exact hmove.2.1
        · exact hfact.2.1 s₂ h₂
      obtain rfl : keys = keys' := Except.ok.inj (hkeys.symm.trans hkeys')
      subst hqueue
      exact (hfact.2.2 keys hkeys rfl).own hnot hmove
    | resend =>
      rw [hreq] at hfact
      exact hfact
    | verify | cleanup => trivial
  other {c i t l s' j t'} hok ht hl hmove hmover ht' hji hfact := by
    cases hreq : t'.req with
    | signup tenant allowed generated token queue req =>
      rw [hreq] at hfact
      refine ⟨hfact.1, hfact.2.1, fun keys hkeys hqueue => (hfact.2.2 keys hkeys hqueue).spares ?_⟩
      refine spares_of_move hok ht hl hmove hmover (fun k hk heq => hji ?_) (w.publicKey keys)
      -- two threads with one token are one thread
      refine nodup_filterMap_place hok.distinct ht' ht ?_ hk
      rw [hreq, ← heq]
      rfl
    | resend =>
      rw [hreq] at hfact
      exact hfact
    | verify | cleanup => trivial
  env {c d r seen} _ hfact := by
    cases r with
    | signup tenant allowed generated token queue req =>
      refine ⟨hfact.1, hfact.2.1,
        fun keys hkeys hqueue => ⟨fun s₁ rest hseen hinserts hyoung => ?_, ?_⟩⟩
      · refine (hfact.2.2 keys hkeys hqueue).waits s₁ rest hseen hinserts (Int.le_trans ?_ hyoung)
        exact Int.le_add_of_nonneg_right (Int.natCast_nonneg d)
      · exact (hfact.2.2 keys hkeys hqueue).hashed
    | resend => exact hfact
    | verify | cleanup => trivial

end Facts

/-! ## Every run -/

/-- The tokens that are drawn in a run. -/
def drawnTokens (events : List SignupEvent) : List String :=
  events.filterMap fun e => e.request?.bind SignupWork.drawn

def signupTokens (events : List SignupEvent) : List String :=
  events.filterMap fun e => e.request?.bind SignupWork.signupToken

theorem SignupWork.drawn_of_signupToken {r : SignupWork} {k : String} (h : r.signupToken = some k) :
    r.drawn = some k := by
  cases r with
  | signup => exact h
  | resend | verify | cleanup => cases h

theorem signupOk_of_fresh {w : Web} {s : State} {events : List SignupEvent}
    (hfresh : (drawnTokens events).Nodup)
    (hc : Along (signupSystem w).step (TokenUndisturbed w) (Conf.init s) events) :
    Along (signupSystem w).step (SignupOk w (signupTokens events)) (Conf.init s) events := by
  rw [along_iff_split] at hc ⊢
  rintro pre e post rfl
  have he : e ∈ pre ++ e :: post := List.mem_append_right _ List.mem_cons_self
  refine ⟨hc pre e post rfl, ?_, ?_, ?_⟩
  · -- the requests of the threads are those of the events before
    have hreqs : (run (signupSystem w).step (Conf.init s) pre).threads.map (·.req) =
      pre.filterMap Ev.request? := by
      rw [System.reqs_run]
      rfl
    have hmap :
      (run (signupSystem w).step (Conf.init s) pre).threads.filterMap (fun t => t.req.signupToken) =
        signupTokens pre := by
      unfold signupTokens
      rw [← List.filterMap_filterMap, ← hreqs, List.filterMap_map]
      rfl
    rw [hmap]
    unfold drawnTokens at hfresh
    rw [List.filterMap_append] at hfresh
    have hpre := (List.nodup_append.mp hfresh).1
    unfold signupTokens
    unfold List.Nodup at hpre ⊢
    rw [List.pairwise_filterMap] at hpre ⊢
    refine hpre.imp fun {a a'} h k hk k' hk' => ?_
    have hdrawn : ∀ {a : SignupEvent} {k : String},
      a.request?.bind SignupWork.signupToken = some k →
        a.request?.bind SignupWork.drawn = some k := by
      intro a k hk
      obtain ⟨r, hr, hk⟩ := Option.bind_eq_some_iff.mp hk
      exact Option.bind_eq_some_iff.mpr ⟨r, hr, SignupWork.drawn_of_signupToken hk⟩
    exact h k (hdrawn hk) k' (hdrawn hk')
  · rintro tenant allowed generated token queue req rfl
    exact List.mem_filterMap.mpr ⟨_, he, rfl⟩
  · rintro tenant headers allowed newToken email rfl hmem
    obtain ⟨e', he', htoken⟩ := List.mem_filterMap.mp hmem
    obtain ⟨r, hr, htoken⟩ := Option.bind_eq_some_iff.mp htoken
    obtain ⟨i, hi⟩ := List.getElem?_of_mem he
    obtain ⟨j, hj⟩ := List.getElem?_of_mem he'
    have hdrawn : e'.request?.bind SignupWork.drawn = some newToken :=
      Option.bind_eq_some_iff.mpr ⟨r, hr, SignupWork.drawn_of_signupToken htoken⟩
    have hij : i = j := nodup_filterMap_place hfresh hi hj rfl hdrawn
    subst hij
    cases hi.symm.trans hj
    cases hr
    cases htoken

/-- **A signup password is not lost**, in every run in which no row that waits for its hash gets
another verification token and a registration that is taken back deletes its own row. -/
theorem signup_password_kept {w : Web} {s : State} {events : List SignupEvent}
    (hfresh : (drawnTokens events).Nodup)
    (hc : Along (signupSystem w).step (TokenUndisturbed w) (Conf.init s) events) :
    PasswordKept w (run (signupSystem w).step (Conf.init s) events) := by
  have htold := signup_lasting.run signupProg_meets (signupOk_of_fresh hfresh hc)
  intro t ht tenant allowed generated token queue req keys hash s₁ s₂ hreq hkeys hhash h₁ h₂ htime
  obtain ⟨j, hj⟩ := List.getElem?_of_mem ht
  have hfact := htold.facts j t hj
  rw [hreq] at hfact
  obtain ⟨-, hqueue, hkept⟩ := hfact
  obtain ⟨u, hu, hkey, hhashed, -⟩ :=
    (hkept keys hkeys (hqueue s₂ h₂)).hashed s₁ s₂ hash hhash h₁ h₂ htime
  exact ⟨u, hu, hkey, hhashed.tenant, hhashed.hash⟩

/-! A user registers, the worker writes the hash, a second mail is sent and opened, and the cleanup
passes. -/

def joiningWeb : Web := Web.symbolic [] []

def joins : SignupWork :=
  .signup 1 true "sk" "token-1" (.ok ()) { email := "p@example.com", password := "correct horse" }

def mailedAgain : SignupWork := .resend 1 {} true "token-2" (some "p@example.com")

def hashedFirst : List SignupEvent :=
  [.spawn joins, .exec 0, .exec 0, .spawn mailedAgain, .exec 1, .exec 1,
    .spawn (.verify 1 {} .absent "code" "token-2"),
    .exec 2, .exec 2, .exec 2, .exec 2, .env 700000000, .spawn .cleanup, .exec 3, .exec 3]

def signupRun (events : List SignupEvent) : SignupConf :=
  run (signupSystem joiningWeb).step (Conf.init (.boot {} 0)) events

theorem signup_password_kept_hashed_first :
    (signupRun hashedFirst).state.db.users.map
      (fun u => (u.pubkey, u.passwordHash, u.emailVerified)) =
        [("pub:sk", some "bcrypt:correct horse", true)] ∧
      PasswordKept joiningWeb (signupRun hashedFirst) :=
  ⟨by decide, signup_password_kept (by decide) (by decide)⟩

/-! The second mail is asked for before the worker comes to the job. -/

def mailedFirst : List SignupEvent :=
  [.spawn joins, .exec 0, .spawn mailedAgain, .exec 1, .exec 1, .exec 0, .env 700000000,
    .spawn .cleanup, .exec 2]

/-- **It happens.** The job finds no row, and the cleanup deletes the account. -/
theorem signup_password_lost :
    (signupRun mailedFirst).state.db.users = [] ∧
      ¬ PasswordKept joiningWeb (signupRun mailedFirst) := by
  have hgone : (signupRun mailedFirst).state.db.users = [] := by decide
  obtain ⟨t, ht, hcheck⟩ := Conf.exists_thread (i := 0) (c := signupRun mailedFirst)
    (p := fun t => decide (t.req = joins) &&
      decide (t.seen.map (·.1) = [.setPasswordHash, .registerWithPersonalKey]) &&
      decide (t.seen.map (·.2.now) = [0, 0])) (by decide)
  refine ⟨hgone, fun hkept => ?_⟩
  simp only [Bool.and_eq_true, decide_eq_true_eq] at hcheck
  obtain ⟨⟨hreq, hlabels⟩, htimes⟩ := hcheck
  obtain ⟨⟨l₂, s₂⟩, tail, hseen, hl₂, htail⟩ := List.map_eq_cons_iff.mp hlabels
  obtain ⟨⟨l₁, s₁⟩, rest, rfl, hl₁, -⟩ := List.map_eq_cons_iff.mp htail
  simp only at hl₁ hl₂
  subst hl₁ hl₂
  rw [hseen] at htimes
  simp only [List.map_cons, List.cons.injEq] at htimes
  obtain ⟨u, hu, -⟩ :=
    hkept t (List.mem_of_getElem? ht) _ _ _ _ _ _ "sk" "bcrypt:correct horse" s₁ s₂ hreq rfl rfl
    (by rw [hseen]; exact List.mem_cons_of_mem _ List.mem_cons_self)
      (by rw [hseen]; exact List.mem_cons_self)
    (by rw [htimes.1, htimes.2.1]; decide)
  rw [hgone] at hu
  cases hu

end Keycast.Http
