import Keycast.Http.EmailTokens
import Keycast.Http.MagicLink
import Keycast.Http.Verification

/-!
# `Http/EmailProof.lean` — a verified email was proved

The flag `email_verified` is what the key export and the teams go by. Every endpoint that sets it
has been shown a token first, except one: `change_key` copies the email to a new row and sets the
flag there without having read the old one. Whoever registers with a key of their own needs no login
for it, since a session they sign themselves is accepted, and the password they have just chosen is
the right one.

A run is a list of whole calls from a database without accounts. Beside the state it keeps two lists
that no call reads: the tokens that were sent or issued so far, and those of them that a later call
presented, with the email they stand for. `verified_email_was_proved` says that the second list
accounts for every verified email, if `change_key` is only used where the email is verified already.

The invariant is `Sound I P` of the tables, for the issued tokens `I` and the proved emails `P`.
Wherever a token stands (in a row of `users`, in a registration that waits, in a sign-in link or a
claim link) it was issued, and for the email it stands beside; wherever an email is marked as
verified it is proved. Both may grow, and a token in a row of `users` may have been issued for an
earlier email of the row, once the present one is proved.

There is one lemma for each endpoint, grouped by what the endpoints are for. A program whose
statements all keep sound tables sound is dealt with at once (`Stays.of_keeps`), and one that only
reads is passed over (`ends_quiet`); what is left are the statements that write an email or a token.
`serveEmail_sound` puts the endpoints together, for `P` with the proof that the call makes by
presenting its token, and `EmailWorld.Sound` is the invariant of the run.
-/

set_option autoImplicit false

namespace Keycast.Http

open Lib

variable {w : Web}

/-! ## Runs -/

inductive EmailCall
  | register (tenant : TenantId) (allowed : Bool) (generated : Keys) (verificationToken : String)
      (queue : Except BcryptQueueError Unit) (req : RegisterRequest)
  | bcryptJob (token password : String)
  | oauthRegister (tenant : TenantId) (allowed : Bool) (drawn : Drawn) (req : OAuthRegisterRequest)
  | headlessRegister (tenant : TenantId) (allowed : Bool) (drawn : Drawn)
      (req : HeadlessRegisterRequest)
  | verifyEmail (tenant : TenantId) (headers : Headers) (redis : Redis) (newCode token : String)
  | resendVerification (tenant : TenantId) (headers : Headers) (allowed : Bool) (newToken : String)
      (email : Option String)
  | forgotPassword (tenant : TenantId) (allowed : Bool) (resetToken email : String)
  | resetPassword (tenant : TenantId) (token newPassword : String)
  | changePassword (tenant : TenantId) (headers : Headers) (currentPassword newPassword : String)
  | changeKey (inst : InstanceId) (headers : Headers) (tenant : TenantId) (fresh : Keys)
      (req : ChangeKeyRequest)
  | preloadUser (tenant : TenantId) (auth : UcanAuth) (fresh : Keys) (req : PreloadUserRequest)
  | createClaimToken (tenant : TenantId) (isSupport : Bool) (token vineId : String)
  | claimPost (tenant : TenantId) (form : ClaimForm)
  | requestMagicLink (tenant : TenantId) (headers : Headers) (ipAllowed windowAllowed : Bool)
      (token : String) (page email purpose : Option String)
  | verifyMagicLink (inst : InstanceId) (tenant : TenantId) (drawn : GrantDrawn) (generated : Keys)
      (approved : Option PublicKey) (policyId : RowId) (req : VerifyMagicLinkRequest)
  | tokenExchange (inst : InstanceId) (tenant : TenantId) (drawn : GrantDrawn) (req : TokenRequest)
  | deleteAccount (inst : InstanceId) (headers : Headers) (tenant : TenantId)
  | cleanup
  | tick (d : Nat)

/-- Run a program, and read off its answer what it issued. -/
def served {ε α : Type} (p : Prog Stmt State ε α) (issues : α → List Issue) (s : State) :
    List Issue × State :=
  match p.run s with
  | (.ok a, s') => (issues a, s')
  | (.error _, s') => ([], s')

/-- The mail of an answer. -/
def mailed (kind : TokenKind) (tenant : TenantId) (mail : Mail) : Issue :=
  ⟨kind, mail.token, some mail.address, tenant⟩

/-- What a call issues, and the state it leaves. The OAuth registrations mail the token they drew to
the address in their answer. -/
def serveEmail (w : Web) (s : State) : EmailCall → List Issue × State
  | .register tenant allowed generated token queue req =>
    served (register w tenant allowed generated token queue req)
      (fun r => [mailed .verification tenant r.2]) s
  | .bcryptJob token password => served (bcryptJob w token password) (fun _ => []) s
  | .oauthRegister tenant allowed drawn req => served (oauthRegister w tenant allowed drawn req)
      (fun r => [mailed .verification tenant ⟨r.email, drawn.verificationToken⟩]) s
  | .headlessRegister tenant allowed drawn req =>
    served (headlessRegister w tenant allowed drawn req)
      (fun r => [mailed .verification tenant ⟨r.email, drawn.verificationToken⟩]) s
  | .verifyEmail tenant headers redis newCode token =>
    served (verifyEmail w tenant headers redis newCode token) (fun _ => []) s
  | .resendVerification tenant headers allowed newToken email =>
    served (resendVerification w tenant headers allowed newToken email)
      (fun r => r.toList.map (mailed .verification tenant)) s
  | .forgotPassword tenant allowed resetToken email =>
    served (forgotPassword w tenant allowed resetToken email)
      (fun r => r.toList.map (mailed .passwordReset tenant)) s
  | .resetPassword tenant token newPassword =>
    served (resetPassword w tenant token newPassword) (fun _ => []) s
  | .changePassword tenant headers currentPassword newPassword =>
    served (changePassword w tenant headers currentPassword newPassword) (fun _ => []) s
  | .changeKey inst headers tenant fresh req =>
    served (changeKey w inst headers tenant fresh req) (fun _ => []) s
  | .preloadUser tenant auth fresh req =>
    served (preloadUser w tenant auth fresh req) (fun _ => []) s
  | .createClaimToken tenant isSupport token vineId =>
    served (createClaimToken w tenant isSupport token vineId)
      (fun _ => [⟨.claim, token, none, tenant⟩]) s
  | .claimPost tenant form => served (claimPost w tenant form) (fun _ => []) s
  | .requestMagicLink tenant headers ipAllowed windowAllowed token page email purpose =>
    served (requestMagicLink w tenant headers ipAllowed windowAllowed token page email purpose)
      (fun r => r.toList.map
        fun mail => mailed .magicLink tenant ⟨mail.address, w.sha256 mail.token⟩) s
  | .verifyMagicLink inst tenant drawn generated approved policyId req =>
    served (verifyMagicLink w inst tenant drawn generated approved policyId req) (fun _ => []) s
  | .tokenExchange inst tenant drawn req => served (token w inst tenant drawn req) (fun _ => []) s
  | .deleteAccount inst headers tenant =>
    served (deleteAccount w inst headers tenant) (fun _ => []) s
  | .cleanup => ([], s.withDb (s.db.cleanup s.now))
  | .tick d => ([], { s with now := s.now + d })

/-- The token a call presents, with the tenant it is presented to; a claim also says which email it
is for. -/
def EmailCall.presents (w : Web) : EmailCall →
    Option (TokenKind × String × TenantId × Option String)
  | .verifyEmail tenant _ _ _ token => some (.verification, token, tenant, none)
  | .resetPassword tenant token _ => some (.passwordReset, token, tenant, none)
  | .claimPost tenant form => some (.claim, form.token, tenant, some (w.toLowercase form.email))
  | .verifyMagicLink _ tenant _ _ _ _ req => some (.magicLink, w.sha256 req.token, tenant, none)
  | _ => none

/-- An issued token that was presented, and the email it stands for: the one it was sent to or, a
claim link, the one the account gets. -/
structure EmailProof where
  issue : Issue
  email : String
  deriving DecidableEq, Repr

/-- The proof a call makes of an issued token, if it presents that token. -/
def EmailCall.proof (w : Web) (c : EmailCall) (i : Issue) : Option EmailProof :=
  (c.presents w).bind fun (kind, token, tenant, named) =>
    if i.kind = kind ∧ i.token = token ∧ i.tenant = tenant then
      (i.email.or named).map (⟨i, ·⟩) else none

/-- The server, with what was issued and what was proved so far. -/
structure EmailWorld where
  state : State
  issued : List Issue := []
  proofs : List EmailProof := []

def emailStep (w : Web) (x : EmailWorld) (c : EmailCall) : EmailWorld where
  state := (serveEmail w x.state c).2
  issued := x.issued ++ (serveEmail w x.state c).1
  proofs := x.proofs ++ x.issued.filterMap (c.proof w)

/-! ## The property -/

def EmailWorld.Proved (x : EmailWorld) (email : String) (tenant : TenantId) : Prop :=
  ∃ p ∈ x.proofs, p.email = email ∧ p.issue.tenant = tenant

/-- Every verified email was proved in its tenant. -/
def VerifiedProved (x : EmailWorld) : Prop :=
  ∀ u ∈ x.state.db.users, ∀ e, u.email = some e → u.emailVerified = true → x.Proved e u.tenantId

/-! ## The condition -/

/-- A `change_key` that passes its checks — the session, the password, a key that is new to the
tenant — is made for a user whose email is verified. -/
def RekeysVerified (w : Web) (x : EmailWorld) : EmailCall → Prop
  | .changeKey _ headers tenant fresh req => ∀ user email hash keys,
      extractUserFromToken w x.state.now headers tenant = .ok user →
      x.state.db.getCredentials user tenant = .ok (some (email, hash)) →
      w.bcryptVerify req.password hash = .ok true → newKeysFor w req fresh = .ok keys →
      x.state.db.userExists (w.publicKey keys) tenant = false →
      ∀ u ∈ x.state.db.users, Db.isUser user tenant u = true → u.emailVerified = true
  | _ => True

/-- A database without accounts. -/
structure NoAccounts (db : Db) : Prop where
  users : db.users = []
  codes : db.oauthCodes = []
  links : db.magicLinkTokens = []
  claims : db.claimTokens = []
  members : db.teamUsers = []

/-! ## What the calls do -/

section Endpoints

variable {ε α β : Type} {I : Issue → Prop} {P : String → TenantId → Prop} {s : State}
  {tenant : TenantId}

/-- The call leaves the tables sound, with the tokens its answer says were issued. -/
abbrev Leaves (I : Issue → Prop) (P : String → TenantId → Prop) (issues : α → List Issue)
    (p : Prog Stmt State ε α) (s : State) : Prop :=
  p.Ends (fun r s' => Sound (fun i => I i ∨ ∃ a, r = .ok a ∧ i ∈ issues a) P s'.db) s

/-- A call that issues nothing. -/
abbrev Stays (I : Issue → Prop) (P : String → TenantId → Prop)
    (p : Prog Stmt State ε α) (s : State) :
    Prop :=
  p.Ends (fun _ s' => Sound I P s'.db) s

theorem Sound.widen {Q : Issue → Prop} {db : Db} (h : Sound I P db) :
    Sound (fun i => I i ∨ Q i) P db :=
  h.mono (fun _ => .inl) fun _ _ => id

theorem Leaves.of_stays {issues : α → List Issue} {p : Prog Stmt State ε α} (h : Stays I P p s) :
    Leaves I P issues p s := h.mono fun _ _ hs => hs.widen

/-- A statement that keeps sound tables sound, whatever else it does. -/
def KeepsSound (I : Issue → Prop) (P : String → TenantId → Prop) (s s' : State) : Prop :=
  Sound I P s.db → Sound I P s'.db

theorem KeepsSound.refl (s : State) : KeepsSound I P s s := id

theorem KeepsSound.trans {s₁ s₂ s₃ : State} (h : KeepsSound I P s₁ s₂) (h' : KeepsSound I P s₂ s₃) :
    KeepsSound I P s₁ s₃ := fun hs => h' (h hs)

/-- A program of such statements. -/
theorem Stays.of_keeps {p : Prog Stmt State ε α} (hp : p.Steps (KeepsSound I P))
    (h : Sound I P s.db) :
    Stays I P p s :=
  hp.run KeepsSound.refl (fun _ _ _ => KeepsSound.trans) s h

/-- A program that changes nothing in front of another. -/
theorem ends_quiet {Q : Except ε β → State → Prop} {p : Prog Stmt State ε α}
    {f : α → Prog Stmt State ε β} (hp : p.Steps Eq) (herr : ∀ e, Q (.error e) s)
    (h : ∀ a, (f a).Ends Q s) : (p.bind f).Ends Q s := by
  refine Prog.Ends.bind_steps Eq.refl (fun _ _ _ => Eq.trans) hp ?_ ?_
  · rintro e _ rfl
    exact herr e
  · rintro a _ rfl
    exact h a

/-! ### Registering -/

theorem signupKeyKnown_quiet (nsec : Option String) (pubkey : PublicKey) :
    (signupKeyKnown nsec pubkey tenant).Steps Eq := by
  unfold signupKeyKnown
  split
  · exact .read Eq.refl _ _
  · trivial

/-- The clean-up of a registration whose password could not be queued. The key is new, so nothing
refers to the row. -/
theorem Fewer.takenBack {db db' : Db} {u : User} {secret : Bytes} (h : Sound I P db)
    (hinsert : db.insertUser u = some db') :
    Fewer db ((((db'.insertPersonalKey ⟨u.pubkey, u.tenantId, secret⟩).deleteUserRow u.pubkey
      u.tenantId).elim (db'.insertPersonalKey ⟨u.pubkey, u.tenantId, secret⟩)
        (·.2)).deletePersonalKey
      u.pubkey u.tenantId) := by
  obtain ⟨rfl, hnew⟩ := Db.insertUser_eq hinsert
  have hexists : Db.userExists (Db.insertPersonalKey { db with users := db.users ++ [u] }
      ⟨u.pubkey, u.tenantId, secret⟩) u.pubkey u.tenantId = true := by
    refine List.any_eq_true.mpr ⟨u, List.mem_append_right _ (List.mem_singleton.mpr rfl), ?_⟩
    simp
  have hfree : Db.referenced (Db.insertPersonalKey { db with users := db.users ++ [u] }
      ⟨u.pubkey, u.tenantId, secret⟩) u.pubkey = false := by
    have hclaims : ∀ t ∈ db.claimTokens, t.userPubkey ≠ u.pubkey := by
      intro t ht heq
      obtain ⟨-, owner, howner, hpub, -⟩ := h.claims t ht
      exact hnew owner howner (hpub.trans heq)
    simpa [Db.referenced, Db.insertPersonalKey, h.members] using hclaims
  have husers : (db.users ++ [u]).filter (fun r => r.pubkey != u.pubkey) = db.users := by
    rw [List.filter_append, List.filter_eq_self.mpr]
    · simp
    · exact fun r hr => by simpa using hnew r hr
  unfold Db.deleteUserRow
  rw [hexists, hfree]
  refine ⟨?_, List.Subset.refl _, List.Subset.refl _, List.Subset.refl _, fun t _ r hr _ => ?_,
    List.Subset.refl _⟩
  · show List.Sublist ((db.users ++ [u]).filter _) db.users
    rw [husers]
  · have hmem : r ∈ (db.users ++ [u]).filter (fun r => r.pubkey != u.pubkey) := by rwa [husers]
    exact hmem

theorem register_leaves (h : Sound I P s.db) {allowed : Bool} {generated : Keys} {token : String}
    {queue : Except BcryptQueueError Unit} {req : RegisterRequest} :
    Leaves I P (fun r => [mailed .verification tenant r.2])
      (register w tenant allowed generated token queue req) s := by
  unfold register
  split
  · exact h.widen
  refine Prog.Ends.ofExcept (fun _ => h.widen) fun keys _ => ?_
  refine ends_quiet (signupKeyKnown_quiet _ _) (fun _ => h.widen) fun known => ?_
  split
  · exact h.widen
  refine Prog.Ends.ofExcept (fun _ => h.widen) fun secret _ => ?_
  refine ends_transact h.widen fun _ db hregister => ?_
  obtain ⟨db₁, hdb, heq⟩ := Option.map_eq_some_iff.mp hregister
  cases heq
  obtain ⟨db₂, hinsert, rfl⟩ := Option.map_eq_some_iff.mp hdb
  cases queue with
  | error e => exact (h.fewer (.takenBack h hinsert)).widen
  | ok =>
    -- the row is new, with the token that is in the mail
    refine (h.widen.insertUser hinsert fun e he => ?_).same ⟨rfl, rfl, rfl, rfl, rfl⟩
    cases he
    refine ⟨(fun hv => nomatch hv), fun v hv => ?_, fun r hr => nomatch hr⟩
    cases hv
    exact .inl (.inr ⟨_, rfl, List.mem_singleton.mpr rfl⟩)

theorem bcryptJob_sound (token password : String) :
    (bcryptJob w token password).Steps (KeepsSound I P) := by
  unfold bcryptJob
  split
  · refine .write _ fun s h => h.updateUsers (fun _ => ⟨rfl, rfl⟩) fun u hu _ => ?_
    exact (h.users u hu).congr rfl rfl rfl rfl rfl
  · trivial

/-- The row of a registration that waits, with the token that is in the mail. -/
theorem Sound.storePending {Q : Issue → Prop} {db db' : Db} {c : OAuthCode} {email token : String}
    (h : Sound I P db) (hemail : c.pendingEmail = some email)
    (htoken : c.pendingEmailVerificationToken = some token)
    (hissued : Q ⟨.verification, token, some email, c.tenantId⟩)
    (hstore : db.storeOAuthCode c = some db') : Sound (fun i => I i ∨ Q i) P db' := by
  refine h.widen.storeOAuthCode (fun e v he hv => ?_) hstore
  rw [hemail] at he
  rw [htoken] at hv
  cases he
  cases hv
  exact .inr hissued

theorem oauthRegister_leaves (h : Sound I P s.db) {allowed : Bool} {drawn : Drawn}
    {req : OAuthRegisterRequest} :
    Leaves I P (fun r => [mailed .verification tenant ⟨r.email, drawn.verificationToken⟩])
      (oauthRegister w tenant allowed drawn req) s := by
  unfold oauthRegister
  split
  · exact h.widen
  refine Prog.Ends.read ?_
  split
  · exact h.widen
  refine Prog.Ends.ofExcept (fun _ => h.widen) fun hash _ => ?_
  refine Prog.Ends.ofExcept (fun _ => h.widen) fun key _ => ?_
  refine Prog.Ends.read ?_
  split
  · exact h.widen
  refine Prog.Ends.read ?_
  split
  · exact h.widen
  refine Prog.Ends.ofExcept (fun _ => h.widen) fun secret _ => ?_
  refine ends_transact h.widen fun _ db hstored => ?_
  obtain ⟨db', hstore, heq⟩ := Option.map_eq_some_iff.mp hstored
  cases heq
  exact h.storePending rfl rfl ⟨_, rfl, List.mem_singleton.mpr rfl⟩ hstore

theorem checkHeadlessScope_quiet (scope : String) :
    (checkHeadlessScope scope).Steps Eq := by
  unfold checkHeadlessScope
  split
  · exact .bind (.ofExcept _) fun _ => .bind (.read Eq.refl _ _) fun _ => .bind (.orErr _ _)
      fun _ => trivial
  · trivial

theorem headlessKeyKnown_quiet (nsec : Option String) (pubkey : PublicKey) :
    (headlessKeyKnown nsec pubkey tenant).Steps Eq := by
  unfold headlessKeyKnown
  split
  · exact .read Eq.refl _ _
  · trivial

theorem headlessRegister_leaves (h : Sound I P s.db) {allowed : Bool} {drawn : Drawn}
    {req : HeadlessRegisterRequest} :
    Leaves I P (fun r => [mailed .verification tenant ⟨r.email, drawn.verificationToken⟩])
      (headlessRegister w tenant allowed drawn req) s := by
  unfold headlessRegister
  split
  · exact h.widen
  refine Prog.Ends.ofExcept (fun _ => h.widen) fun origin _ => ?_
  refine ends_quiet (checkHeadlessScope_quiet _) (fun _ => h.widen) fun _ => ?_
  refine Prog.Ends.ofExcept (fun _ => h.widen) fun keys _ => ?_
  refine ends_quiet (headlessKeyKnown_quiet _ _) (fun _ => h.widen) fun known => ?_
  split
  · exact h.widen
  refine Prog.Ends.read ?_
  split
  · exact h.widen
  refine Prog.Ends.ofExcept (fun _ => h.widen) fun secret _ => ?_
  refine Prog.Ends.ofExcept (fun _ => h.widen) fun hash _ => ?_
  refine ends_transact h.widen fun _ db hstored => ?_
  obtain ⟨db', hstore, heq⟩ := Option.map_eq_some_iff.mp hstored
  cases heq
  exact h.storePending rfl rfl ⟨_, rfl, List.mem_singleton.mpr rfl⟩ hstore

/-! ### Verifying -/

theorem announceCode_sound (pending : OAuthCode) (redis : Redis) (newCode : String) :
    (announceCode pending tenant redis newCode).Steps (KeepsSound I P) := by
  unfold announceCode
  split
  · split
    · exact .write _ KeepsSound.refl
    · refine .bind (.write _ KeepsSound.refl) fun _ =>
        .bind (.write _ fun s h => ?_) fun _ => trivial
      exact h.filterCodes _
  · split
    · exact .write _ KeepsSound.refl
    · trivial

/-- The user of a verified registration has proved the email. -/
theorem ensureVerifiedUser_sound {email : String} (hproved : P email tenant) (pending : OAuthCode)
    (hash token : String) :
    (ensureVerifiedUser pending tenant email hash token).Steps (KeepsSound I P) := by
  unfold ensureVerifiedUser
  refine .bind (.read KeepsSound.refl _ _) fun known => ?_
  split
  · trivial
  extract_lets user
  have huser : ∀ now, SoundUser I P (user now) := fun now =>
    SoundUser.of_proved fun e he => by cases he; exact hproved
  split
  · refine transact_steps KeepsSound.refl _ _ fun s _ db hcreate h => ?_
    obtain ⟨db', hinsert, heq⟩ := Option.map_eq_some_iff.mp hcreate
    cases heq
    exact (h.insertUser hinsert (huser s.now)).same ⟨rfl, rfl, rfl, rfl, rfl⟩
  · refine transact_steps KeepsSound.refl _ _ fun s _ db hcreate h => ?_
    obtain ⟨db', hinsert, heq⟩ := Option.map_eq_some_iff.mp hcreate
    cases heq
    exact h.insertUser hinsert (huser s.now)

/-- The code for the app waits for nothing. -/
theorem storeVerifiedCode_sound (redis : Redis) (newCode token email : String)
    (pending : OAuthCode) :
    (storeVerifiedCode tenant redis newCode token email pending).Steps (KeepsSound I P) := by
  unfold storeVerifiedCode
  split
  · trivial
  refine .bind (transact_steps KeepsSound.refl _ _ fun s _ db hstored h => ?_) fun _ =>
    .bind (announceCode_sound _ _ _) fun _ =>
      .bind (.write _ fun s h => h.filterCodes _) fun _ => trivial
  obtain ⟨db', hstore, heq⟩ := Option.map_eq_some_iff.mp hstored
  cases heq
  exact h.storeOAuthCode (SoundCode.of_none rfl) hstore

/-- What was found by its verification token has the email the token was issued for. -/
theorem verifyRegistration_sound {pending : OAuthCode}
    (hproved : ∀ e, pending.pendingEmail = some e → P e tenant) (redis : Redis)
    (newCode token : String) :
    (verifyRegistration tenant redis newCode token pending).Steps (KeepsSound I P) := by
  unfold verifyRegistration
  cases hemail : pending.pendingEmail with
  | none => trivial
  | some email =>
    simp only [Prog.bind_def, Prog.orErr_some, Prog.ret_bind]
    exact .bind (.orErr _ _) fun hash =>
      .bind (ensureVerifiedUser_sound (hproved email hemail) _ _ _)
      fun _ => storeVerifiedCode_sound _ _ _ _ _

/-- Two rows with one key are the same row. -/
theorem Sound.eq_of_isUser {db : Db} (h : Sound I P db) {user : PublicKey} {u u' : User}
    (hu : u ∈ db.users) (hu' : u' ∈ db.users) (hkey : u.pubkey = user)
    (hkey' : Db.isUser user tenant u' = true) : u' = u := by
  simp only [Db.isUser, Bool.and_eq_true, beq_iff_eq] at hkey'
  exact List.inj_on_of_nodup_map h.unique hu' hu (hkey'.1.trans hkey.symm)

theorem verifyUser_stays (h : Sound I P s.db) {headers : Headers} {token : String}
    (hproved : ∀ e, I ⟨.verification, token, some e, tenant⟩ → P e tenant) :
    Stays I P (verifyUser w tenant headers token) s := by
  unfold verifyUser
  refine Prog.Ends.read ?_
  refine Prog.Ends.orErr h fun user hfound => Prog.Ends.read ?_
  split
  · exact h
  split
  · exact h
  split
  · split
    · exact h
    · exact h
  -- the token is the row's, so it was issued for the row's email unless that is proved already
  have huser := List.mem_of_find?_eq_some hfound
  have htoken := List.find?_some hfound
  simp only [Bool.and_eq_true, beq_iff_eq] at htoken
  have hmarked : Sound I P (s.db.markEmailVerified user.pubkey tenant) := by
    refine h.updateUsers (fun _ => ⟨rfl, rfl⟩) fun u hu hkey => SoundUser.of_proved fun e he => ?_
    obtain rfl := h.eq_of_isUser huser hu rfl hkey
    show P e u.tenantId
    rcases (h.users u hu e he).verification token htoken.1 with hissued | hdone
    · rw [htoken.2] at hissued ⊢
      exact hproved e hissued
    · exact hdone
  refine Prog.Ends.write (Prog.Ends.read ?_)
  refine Prog.Ends.orErr hmarked fun _ _ => Prog.Ends.orErr hmarked fun _ _ => Prog.Ends.read ?_
  refine Prog.Ends.orErr hmarked fun _ _ => Prog.Ends.ofExcept (fun _ => hmarked) fun _ _ => ?_
  refine Prog.Ends.ofExcept (fun _ => hmarked) fun _ _ => Prog.Ends.read ?_
  exact Prog.Ends.ofExcept (fun _ => hmarked) fun _ _ => hmarked

theorem verifyEmail_stays (h : Sound I P s.db) {headers : Headers} {redis : Redis}
    {newCode token : String}
    (hproved : ∀ e, I ⟨.verification, token, some e, tenant⟩ → P e tenant) :
    Stays I P (verifyEmail w tenant headers redis newCode token) s := by
  unfold verifyEmail
  refine Prog.Ends.read ?_
  split
  · next pending hfound =>
    refine Stays.of_keeps (verifyRegistration_sound (fun e he => hproved e ?_) _ _ _) h
    have htoken := List.find?_some hfound
    simp only [Bool.and_eq_true, beq_iff_eq] at htoken
    have hissued := h.codes pending (List.mem_of_find?_eq_some hfound) e token he htoken.1.1
    rwa [htoken.1.2] at hissued
  · exact verifyUser_stays h hproved

/-! ### Mails to an account -/

/-- The account a mail goes to. -/
def HasAddress (db : Db) (user : PublicKey) (tenant : TenantId) (email : String) : Prop :=
  ∃ u ∈ db.users, Db.isUser user tenant u = true ∧ u.email = some email

theorem HasAddress.of_email {db : Db} {user : PublicKey} {email : String}
    (h : db.findPubkeyByEmail email tenant = some user) : HasAddress db user tenant email := by
  obtain ⟨u, hfound, rfl⟩ := Option.map_eq_some_iff.mp h
  have hkey := List.find?_some hfound
  simp only [Bool.and_eq_true, beq_iff_eq] at hkey
  exact ⟨u, List.mem_of_find?_eq_some hfound, by simp [Db.isUser, hkey.2], hkey.1⟩

theorem HasAddress.of_lookup {db : Db} {now : Timestamp} {headers : Headers} {given : Option String}
    {user : PublicKey} {email : String} {more : Bool × Option Timestamp}
    (h : verificationLookup w now tenant headers given db = some (user, email, more)) :
    HasAddress db user tenant email := by
  unfold verificationLookup at h
  split at h
  · obtain ⟨status, hstatus, heq⟩ := Option.map_eq_some_iff.mp h
    cases heq
    obtain ⟨u, hfound, hstatus⟩ := Option.bind_eq_some_iff.mp hstatus
    obtain ⟨e, hemail, heq⟩ := Option.bind_eq_some_iff.mp hstatus
    cases heq
    exact ⟨u, List.mem_of_find?_eq_some hfound, List.find?_some hfound, hemail⟩
  · obtain ⟨status, hstatus, heq⟩ := Option.map_eq_some_iff.mp h
    cases heq
    obtain ⟨u, hfound, rfl⟩ := Option.map_eq_some_iff.mp hstatus
    refine HasAddress.of_email ?_
    rw [Db.findPubkeyByEmail, hfound, Option.map_some]
  · cases h

section Mail

variable {Q : Issue → Prop} {db : Db} {user : PublicKey} {email token : String}

/-- A token is written into the one row it is issued for. -/
theorem Sound.setVerificationToken (h : Sound I P db) (haddress : HasAddress db user tenant email)
    (hissued : Q ⟨.verification, token, some email, tenant⟩) (now expiresAt : Timestamp) :
    Sound (fun i => I i ∨ Q i) P (db.setVerificationToken now user tenant token expiresAt) := by
  obtain ⟨u₀, hu₀, hkey₀, hemail₀⟩ := haddress
  simp only [Db.isUser, Bool.and_eq_true, beq_iff_eq] at hkey₀
  have hwide : Sound (fun i => I i ∨ Q i) P db := h.widen
  refine hwide.updateUsers (fun _ => ⟨rfl, rfl⟩) fun u hu hkey e he => ?_
  obtain rfl := h.eq_of_isUser hu₀ hu hkey₀.1 hkey
  have hold := hwide.users u hu e he
  refine ⟨hold.verified, fun v hv => ?_, hold.reset⟩
  cases hv
  cases hemail₀.symm.trans he
  rw [← hkey₀.2] at hissued
  exact .inl (.inr hissued)

theorem Sound.setPasswordResetToken (h : Sound I P db) (haddress : HasAddress db user tenant email)
    (hissued : Q ⟨.passwordReset, token, some email, tenant⟩) (expiresAt : Timestamp) :
    Sound (fun i => I i ∨ Q i) P (db.setPasswordResetToken user tenant token expiresAt) := by
  obtain ⟨u₀, hu₀, hkey₀, hemail₀⟩ := haddress
  simp only [Db.isUser, Bool.and_eq_true, beq_iff_eq] at hkey₀
  have hwide : Sound (fun i => I i ∨ Q i) P db := h.widen
  refine hwide.updateUsers (fun _ => ⟨rfl, rfl⟩) fun u hu hkey e he => ?_
  obtain rfl := h.eq_of_isUser hu₀ hu hkey₀.1 hkey
  have hold := hwide.users u hu e he
  refine ⟨hold.verified, hold.verification, fun r hr => ?_⟩
  cases hr
  cases hemail₀.symm.trans he
  rw [← hkey₀.2] at hissued
  exact .inl (.inr hissued)

end Mail

theorem resendVerification_leaves (h : Sound I P s.db) {headers : Headers} {allowed : Bool}
    {newToken : String} {email : Option String} :
    Leaves I P (fun r => r.toList.map (mailed .verification tenant))
      (resendVerification w tenant headers allowed newToken email) s := by
  unfold resendVerification
  split
  · exact h.widen
  refine Prog.Ends.read ?_
  split
  · exact h.widen
  · next user address more hfound =>
    have hlookup := (Option.filter_eq_some_iff.mp hfound).1
    exact h.setVerificationToken (.of_lookup hlookup) ⟨_, rfl, List.mem_singleton.mpr rfl⟩ _ _

theorem forgotPassword_leaves (h : Sound I P s.db) {allowed : Bool} {resetToken email : String} :
    Leaves I P (fun r => r.toList.map (mailed .passwordReset tenant))
      (forgotPassword w tenant allowed resetToken email) s := by
  unfold forgotPassword
  split
  · exact h.widen
  refine Prog.Ends.read ?_
  split
  · exact h.widen
  · next user hfound =>
    exact h.setPasswordResetToken (.of_email hfound) ⟨_, rfl, List.mem_singleton.mpr rfl⟩ _

/-! ### Passwords -/

theorem resetPassword_stays (h : Sound I P s.db) {token newPassword : String}
    (hproved : ∀ e, I ⟨.passwordReset, token, some e, tenant⟩ → P e tenant) :
    Stays I P (resetPassword w tenant token newPassword) s := by
  unfold resetPassword
  refine Prog.Ends.orErr h fun _ _ => Prog.Ends.read ?_
  refine Prog.Ends.orErr h fun found hfound => Prog.Ends.read ?_
  split
  · exact h
  refine Prog.Ends.ofExcept (fun _ => h) fun hash _ => Prog.Ends.write ?_
  obtain ⟨u₀, hrow, rfl⟩ := Option.map_eq_some_iff.mp hfound
  have hu₀ := List.mem_of_find?_eq_some hrow
  have htoken := List.find?_some hrow
  simp only [Bool.and_eq_true, beq_iff_eq] at htoken
  refine h.updateUsers (fun _ => ⟨rfl, rfl⟩) fun u hu hkey => SoundUser.of_proved fun e he => ?_
  obtain rfl := h.eq_of_isUser hu₀ hu rfl hkey
  show P e u.tenantId
  rcases (h.users u hu e he).reset token htoken.1 with hissued | hdone
  · rw [htoken.2] at hissued ⊢
    exact hproved e hissued
  · exact hdone

theorem changePassword_sound (headers : Headers) (currentPassword newPassword : String) :
    (changePassword w tenant headers currentPassword newPassword).Steps (KeepsSound I P) := by
  unfold changePassword
  refine .bind (.read KeepsSound.refl _ _) fun now => .bind (.ofExcept _) fun user => ?_
  split
  · trivial
  refine .bind (.read KeepsSound.refl _ _) fun _ => .bind (.ofExcept _) fun _ =>
    .bind (.orErr _ _) fun _ => .bind (.ofExcept _) fun valid => ?_
  split
  · trivial
  refine .bind (.ofExcept _) fun hash => .write _ fun s h => ?_
  refine h.updateUsers (fun _ => ⟨rfl, rfl⟩) fun u hu _ => ?_
  exact (h.users u hu).congr rfl rfl rfl rfl rfl

/-! ### Keys -/

/-- Rekeying moves a proved email to another row. -/
theorem Sound.changeKeyTransaction {db db' : Db} {oldPubkey newPubkey : PublicKey}
    {email hash : String}
    {enc : Bytes} {n : Nat} (h : Sound I P db) (hproved : P email tenant)
    (hchange : db.changeKeyTransaction oldPubkey newPubkey tenant email hash enc = some (n, db')) :
    Sound I P db' := by
  obtain ⟨db₁, hinsert, heq⟩ := Option.map_eq_some_iff.mp hchange
  cases heq
  have horphaned : Sound I P (db.updateUsers (Db.isUser oldPubkey tenant)
      fun u => { u with email := none, passwordHash := none }) :=
    h.updateUsers (fun _ => ⟨rfl, rfl⟩) fun u _ _ => SoundUser.of_none rfl
  have hother : Sound I P { db with
      oauthAuthorizations := db.oauthAuthorizations.filter (·.userPubkey != oldPubkey)
      refreshTokens := db.refreshTokensWithout oldPubkey
      personalKeys := db.personalKeys.filter (·.userPubkey != oldPubkey)
      users := updateWhere (fun u => u.pubkey == oldPubkey && u.tenantId == tenant)
        (fun u => { u with email := none, passwordHash := none }) db.users } :=
    horphaned.same ⟨rfl, rfl, rfl, rfl, rfl⟩
  refine (hother.insertUser hinsert (SoundUser.of_proved fun e he => ?_)).same
    ⟨rfl, rfl, rfl, rfl, rfl⟩
  cases he
  exact hproved

theorem HasAddress.of_credentials {db : Db} {user : PublicKey} {email hash : String}
    (h : db.getCredentials user tenant = .ok (some (email, hash))) :
      HasAddress db user tenant email := by
  unfold Db.getCredentials at h
  split at h
  · cases h
  · next u hfound =>
    split at h
    · next e hash' hemail _ =>
      cases h
      exact ⟨u, List.mem_of_find?_eq_some hfound, List.find?_some hfound, hemail⟩
    · cases h

theorem changeKey_stays (h : Sound I P s.db) {inst : InstanceId} {headers : Headers} {fresh : Keys}
    {req : ChangeKeyRequest}
    (hverified : ∀ user email hash keys, extractUserFromToken w s.now headers tenant = .ok user →
      s.db.getCredentials user tenant = .ok (some (email, hash)) →
      w.bcryptVerify req.password hash = .ok true → newKeysFor w req fresh = .ok keys →
      s.db.userExists (w.publicKey keys) tenant = false →
      ∀ u ∈ s.db.users, Db.isUser user tenant u = true → u.emailVerified = true) :
    Stays I P (changeKey w inst headers tenant fresh req) s := by
  unfold changeKey
  refine Prog.Ends.read ?_
  refine Prog.Ends.ofExcept (fun _ => h) fun user huser => Prog.Ends.read ?_
  refine Prog.Ends.ofExcept (fun _ => h) fun found hfound => ?_
  refine Prog.Ends.orErr h fun credentials hcredentials => ?_
  obtain ⟨email, hash⟩ := credentials
  subst hcredentials
  refine Prog.Ends.ofExcept (fun _ => h) fun valid hvalid => ?_
  split
  · exact h
  next hright =>
  refine Prog.Ends.ofExcept (fun _ => h) fun keys hkeys => Prog.Ends.read ?_
  split
  · exact h
  next hfree =>
  refine Prog.Ends.ofExcept (fun _ => h) fun enc _ => ?_
  refine ends_transact h fun n db hchange => ?_
  have hcredentials : s.db.getCredentials user tenant = .ok (some (email, hash)) :=
    mapError_eq_ok.mp hfound
  have hpassword : w.bcryptVerify req.password hash = .ok true := by
    rw [mapError_eq_ok.mp hvalid]
    simpa using hright
  obtain ⟨u, hu, hkey, hemail⟩ := HasAddress.of_credentials hcredentials
  have hproved : P email u.tenantId :=
    (h.users u hu email hemail).verified
      (hverified user email hash keys huser hcredentials hpassword hkeys
        (by simpa using hfree) u hu hkey)
  simp only [Db.isUser, Bool.and_eq_true, beq_iff_eq] at hkey
  rw [hkey.2] at hproved
  have hnew : Sound I P db := h.changeKeyTransaction hproved hchange
  refine Prog.Ends.write (Prog.Ends.write ?_)
  refine Prog.Ends.orErr hnew fun _ _ => Prog.Ends.read ?_
  exact Prog.Ends.ofExcept (fun _ => hnew) fun _ _ => hnew

/-! ### Claims -/

theorem preloadUser_sound (auth : UcanAuth) (fresh : Keys) (req : PreloadUserRequest) :
    (preloadUser w tenant auth fresh req).Steps (KeepsSound I P) := by
  refine preloadUser_steps KeepsSound.refl tenant auth fresh req fun s enc db hcreate h => ?_
  obtain ⟨db', hinsert, rfl⟩ := Option.map_eq_some_iff.mp hcreate
  exact (h.insertUser hinsert (SoundUser.of_none rfl)).same ⟨rfl, rfl, rfl, rfl, rfl⟩

theorem createClaimToken_leaves (h : Sound I P s.db) {isSupport : Bool} {token vineId : String} :
    Leaves I P (fun _ => [⟨.claim, token, none, tenant⟩])
      (createClaimToken w tenant isSupport token vineId) s := by
  unfold createClaimToken
  split
  · exact h.widen
  refine Prog.Ends.read ?_
  refine Prog.Ends.orErr h.widen fun user huser => Prog.Ends.read ?_
  split
  · exact h.widen
  refine ends_transact h.widen fun _ db hcreated => ?_
  obtain ⟨db', hcreate, heq⟩ := Option.map_eq_some_iff.mp hcreated
  cases heq
  refine h.widen.createClaimToken (.inr ⟨_, rfl, List.mem_singleton.mpr rfl⟩) ?_ hcreate
  obtain ⟨u, hfound, rfl⟩ := Option.map_eq_some_iff.mp huser
  have hkey := List.find?_some hfound
  simp only [Bool.and_eq_true, beq_iff_eq] at hkey
  exact ⟨u, List.mem_of_find?_eq_some hfound, rfl, hkey.2⟩

/-- Whoever claims an account in its tenant gets the email they name. -/
theorem Sound.claimAccount {db db' : Db} {user : PublicKey} {email hash : String} (h : Sound I P db)
    (hproved : P email tenant) (hclaim : db.claimAccount user tenant email hash = .ok db') :
    Sound I P db' := by
  obtain ⟨-, rfl⟩ := Db.claimAccount_rows hclaim
  refine h.updateUsers (fun _ => ⟨rfl, rfl⟩) fun u hu hmine => SoundUser.of_proved fun e he => ?_
  cases he
  simp only [Bool.and_eq_true, beq_iff_eq] at hmine
  show P email u.tenantId
  rw [hmine.1.2]
  exact hproved

theorem claimPost_stays (h : Sound I P s.db) {form : ClaimForm}
    (hproved : I ⟨.claim, form.token, none, tenant⟩ → P (w.toLowercase form.email) tenant) :
    Stays I P (claimPost w tenant form) s := by
  unfold claimPost
  refine Prog.Ends.read ?_
  refine Prog.Ends.orErr h fun t hfound => ?_
  refine Prog.Ends.ofExcept (fun _ => h) fun _ _ => Prog.Ends.read ?_
  split
  · exact h
  refine Prog.Ends.ofExcept (fun _ => h) fun hash _ => ?_
  refine ends_transact h fun _ db hclaimed => ?_
  obtain ⟨db', hdb, heq⟩ := Option.map_eq_some_iff.mp hclaimed
  cases heq
  have hclaim : s.db.claimAccount t.userPubkey tenant (w.toLowercase form.email) hash = .ok db := by
    generalize s.db.claimAccount t.userPubkey tenant (w.toLowercase form.email) hash = result at hdb
    cases result with
    | error e => cases hdb
    | ok db' => cases hdb; rfl
  -- the account is one of this tenant, and so is the token, which names an account of its own
  obtain ⟨hissued, u, hu, hpub, htenant⟩ := h.claims t (List.mem_of_find?_eq_some hfound)
  obtain ⟨⟨r, hr, hkey, hrow, -⟩, -⟩ := claimAccount_users hclaim
  obtain rfl : r = u := List.inj_on_of_nodup_map h.unique hr hu (hkey.trans hpub.symm)
  have htoken := List.find?_some hfound
  simp only [Bool.and_eq_true, beq_iff_eq] at htoken
  rw [htoken.1.1, ← htenant, hrow] at hissued
  have hused : Sound I P (db.markUsed s.now form.token) :=
    (h.claimAccount (hproved hissued) hclaim).markUsed _ _
  refine Prog.Ends.write (Prog.Ends.ofExcept (fun _ => hused) fun _ _ => ?_)
  refine Prog.Ends.ofExcept (fun _ => hused) fun _ _ => Prog.Ends.read ?_
  exact Prog.Ends.ofExcept (fun _ => hused) fun _ _ => hused

/-! ### Sign-in links -/

theorem sendLink_leaves (h : Sound I P s.db) {ipAllowed windowAllowed : Bool}
    {email token page : String}
    {purpose : LinkPurpose} :
    Leaves I P
      (fun r => r.toList.map
        fun mail => mailed .magicLink tenant ⟨mail.address, w.sha256 mail.token⟩)
      (sendLink w tenant ipAllowed windowAllowed email token page purpose) s := by
  unfold sendLink
  split
  · exact h.widen
  refine Prog.Ends.read ?_
  split
  · exact h.widen
  refine Prog.Ends.bind ?_
  unfold Prog.Ends
  rw [Prog.run_attempt, run_transact]
  generalize hcreate : Option.map _ _ = result
  cases result with
  | none => exact h.widen
  | some r =>
    obtain ⟨db, hdb, heq⟩ := Option.map_eq_some_iff.mp hcreate
    subst heq
    exact h.widen.createMagicLink (.inr ⟨_, rfl, List.mem_singleton.mpr rfl⟩) hdb

theorem requestMagicLink_leaves (h : Sound I P s.db) {headers : Headers}
    {ipAllowed windowAllowed : Bool}
    {token : String} {page email purpose : Option String} :
    Leaves I P
      (fun r => r.toList.map
        fun mail => mailed .magicLink tenant ⟨mail.address, w.sha256 mail.token⟩)
      (requestMagicLink w tenant headers ipAllowed windowAllowed token page email purpose) s := by
  unfold requestMagicLink
  split
  · exact h.widen
  refine Prog.Ends.ofExcept (fun _ => h.widen) fun purpose _ => ?_
  refine ends_quiet (linkAddress_reads _ _ _) (fun _ => h.widen) fun address => ?_
  exact Prog.Ends.orErr h.widen fun page _ => sendLink_leaves h

theorem findOrCreateCustomer_sound {email : String} (hproved : P email tenant)
    (localKey : Option Keys)
    (generated : Keys) :
    (findOrCreateCustomer w tenant email localKey generated).Steps (KeepsSound I P) := by
  unfold findOrCreateCustomer
  refine .bind (.read KeepsSound.refl _ _) fun found => ?_
  split
  · trivial
  refine .bind (.ofExcept _) fun secret =>
    transact_steps KeepsSound.refl _ _ fun s user db hcreate h => ?_
  unfold Db.findOrCreatePasswordless at hcreate
  split at hcreate
  · cases hcreate
    exact h
  · obtain ⟨db', hinsert, heq⟩ := Option.map_eq_some_iff.mp hcreate
    cases heq
    refine (h.insertUser hinsert (SoundUser.of_proved fun e he => ?_)).same
      ⟨rfl, rfl, rfl, rfl, rfl⟩
    cases he
    exact hproved

theorem linkSession_sound (user : PublicKey) (email page : String) (isFirstParty : Bool)
    (lifetime : Nat) :
    (linkSession w tenant user email page isFirstParty lifetime).Steps (KeepsSound I P) :=
  .bind (.ofExcept _) fun _ => .bind (.ofExcept _) fun _ =>
    .bind (.read KeepsSound.refl _ _) fun _ =>
    .ofExcept _

/-! ### Grants -/

theorem createAuthorization_sound {ε : Type} {e : ε} {row : Timestamp → OAuthAuthorization} :
    (createAuthorization e row).Steps (KeepsSound I P) := by
  refine transact_steps KeepsSound.refl _ _ fun s _ db hcreated h => ?_
  obtain ⟨db', hinsert, heq⟩ := Option.map_eq_some_iff.mp hcreated
  cases heq
  obtain ⟨rfl, -⟩ := Db.insertOAuth_eq hinsert
  exact h.same ⟨rfl, rfl, rfl, rfl, rfl⟩

theorem createRefreshToken_sound (authorizationId : RowId) (token : String) :
    (createRefreshToken w tenant authorizationId token).Steps (KeepsSound I P) := by
  refine transact_steps KeepsSound.refl _ _ fun s _ db hcreated h => ?_
  obtain ⟨db', hinsert, heq⟩ := Option.map_eq_some_iff.mp hcreated
  cases heq
  obtain ⟨rfl, -⟩ := Db.insertRefreshToken_eq hinsert
  exact h.same ⟨rfl, rfl, rfl, rfl, rfl⟩

theorem issueAccessToken_sound (user : PublicKey) (email origin : String) (bunker : PublicKey)
    (isFirstParty : Bool) :
    (issueAccessToken w tenant user email origin bunker isFirstParty).Steps (KeepsSound I P) :=
  .bind (.ofExcept _) fun _ => .bind (.ofExcept _) fun _ =>
    .bind (.read KeepsSound.refl _ _) fun _ =>
    .ofExcept _

theorem ensurePersonalKey_sound (user : PublicKey) (nsec : Option String) :
    (ensurePersonalKey w tenant user nsec).Steps (KeepsSound I P) := by
  unfold ensurePersonalKey
  refine .bind (.read KeepsSound.refl _ _) fun found => ?_
  split
  · trivial
  refine .bind (.orErr _ _) fun nsec => .bind (.ofExcept _) fun keys => ?_
  split
  · trivial
  refine .bind (.ofExcept _) fun secret => .bind (.write _ fun s h => ?_) fun _ => trivial
  exact h.same ⟨rfl, rfl, rfl, rfl, rfl⟩

theorem revokePrevious_sound (inst : InstanceId) (previous : Option RowId) :
    (revokePrevious inst previous).Steps (KeepsSound I P) := by
  cases previous with
  | none => trivial
  | some old =>
    exact .bind (.write _ fun s h => h.same ⟨rfl, rfl, rfl, rfl, rfl⟩) fun _ =>
      .bind (.write _ fun s h => h.same ⟨rfl, rfl, rfl, rfl, rfl⟩) fun _ => .write _ fun s h => h

theorem createOAuthAuthorization_sound (inst : InstanceId) (drawn : GrantDrawn)
    (p : CreateAuthorizationParams) :
    (createOAuthAuthorization w inst drawn p).Steps (KeepsSound I P) := by
  unfold createOAuthAuthorization
  refine .bind (ensurePersonalKey_sound _ _) fun encrypted => .bind (.ofExcept _) fun origin =>
    .bind (.orErr _ _) fun pair => .bind (.ofExcept _) fun bunker =>
    .bind (issueAccessToken_sound _ _ _ _ _) fun accessToken => ?_
  have htail : ∀ policyId, (Prog.bind (createAuthorization .duplicate
      (newAuthorization drawn.newId p.tenantId p.userPubkey origin p.clientId bunker pair.hash
        (some policyId) (some drawn.handle))) fun _ =>
      (createRefreshToken w p.tenantId drawn.newId drawn.refreshToken).bind fun _ =>
      (revokePrevious inst p.previousAuthId).bind fun _ =>
      (Prog.write .sendUpsert id).bind fun _ => Prog.ret
        { bunker, secret := some pair.secret, accessToken, scope := p.scope,
          authorizationHandle := some drawn.handle, refreshToken := drawn.refreshToken,
          authorizationId := drawn.newId : TokenResponse }).Steps (KeepsSound I P) := by
    intro policyId
    exact .bind createAuthorization_sound fun _ => .bind (createRefreshToken_sound _ _) fun _ =>
      .bind (revokePrevious_sound _ _) fun _ => .bind (.write _ KeepsSound.refl) fun _ => trivial
  extract_lets tail
  split
  · exact htail _
  · unfold resolvePolicyFromScope
    exact .bind (.bind (.ofExcept _) fun _ => .bind (.read KeepsSound.refl _ _) fun _ =>
      .bind (.orErr _ _) fun _ => trivial) fun _ => htail _

theorem signInSession_sound (inst : InstanceId) (drawn : GrantDrawn) (policyId : RowId)
    (user : PublicKey)
    (link : MagicLinkToken) (grant : Option CommerceGrant) :
    (signInSession w inst tenant drawn policyId user link grant).Steps (KeepsSound I P) := by
  cases grant with
  | none => exact .bind (linkSession_sound _ _ _ _ _) fun _ => trivial
  | some grant => exact .bind (createOAuthAuthorization_sound _ _ _).mapErr fun _ => trivial

/-- The link says whose mailbox it was opened in. -/
theorem verifyMagicLink_stays (h : Sound I P s.db) {inst : InstanceId} {drawn : GrantDrawn}
    {generated : Keys} {approved : Option PublicKey} {policyId : RowId}
    {req : VerifyMagicLinkRequest}
    (hproved : ∀ e, I ⟨.magicLink, w.sha256 req.token, some e, tenant⟩ → P e tenant) :
    Stays I P (verifyMagicLink w inst tenant drawn generated approved policyId req) s := by
  unfold verifyMagicLink
  split
  · exact h
  refine Prog.Ends.ofExcept (fun _ => h) fun localKey _ => ?_
  refine Prog.Ends.ofExcept (fun _ => h) fun grant _ => Prog.Ends.stmt ?_
  obtain ⟨hconsumed, hissued⟩ := h.consumeMagicLink s.now (w.sha256 req.token) tenant
  refine Prog.Ends.orErr hconsumed fun link hlink => ?_
  have hemail : P link.email tenant := hproved link.email (hissued link hlink)
  split
  · -- a link that deletes the account creates none
    refine Stays.of_keeps (.bind ?_ fun _ => trivial) hconsumed
    exact .bind (.read KeepsSound.refl _ _) fun _ => .bind (.orErr _ _) fun _ =>
      .bind (linkSession_sound _ _ _ _ _) fun _ => trivial
  · refine Prog.Ends.ofExcept (fun _ => hconsumed) fun _ _ => ?_
    refine Stays.of_keeps ?_ hconsumed
    exact .bind (findOrCreateCustomer_sound hemail _ _) fun _ =>
      .bind (signInSession_sound _ _ _ _ _ _) fun _ => trivial

/-- The token a registration waits for goes with it into the new row. -/
theorem completeRegistration_sound {row : OAuthCode} {email : String} (hrow : SoundCode I row)
    (hemail : row.pendingEmail = some email) (htenant : row.tenantId = tenant)
    (nsec : Option String) :
    (completeRegistration w tenant row nsec email).Steps (KeepsSound I P) := by
  unfold completeRegistration
  refine .bind (.read KeepsSound.refl _ _) fun taken => ?_
  split
  · trivial
  refine .bind (.read KeepsSound.refl _ _) fun known => ?_
  split
  · trivial
  refine .bind (.ofExcept _) fun secret => .bind (.orErr _ _) fun hash => ?_
  cases htoken : row.pendingEmailVerificationToken with
  | none => trivial
  | some token =>
    simp only [Prog.bind_def, Prog.orErr_some, Prog.ret_bind]
    refine .bind (transact_steps KeepsSound.refl _ _ fun s _ db hfinal h => ?_) fun _ => trivial
    obtain ⟨db₁, hdb, heq⟩ := Option.map_eq_some_iff.mp hfinal
    cases heq
    obtain ⟨db₂, hinsert, rfl⟩ := Option.map_eq_some_iff.mp hdb
    have hinserted : Sound I P db₂ := by
      refine h.insertUser hinsert fun e he => ?_
      cases he
      refine ⟨(fun hv => nomatch hv), fun v hv => ?_, fun r hr => nomatch hr⟩
      cases hv
      have hissued := hrow email token hemail htoken
      rw [htenant] at hissued
      exact .inl hissued
    have hkeyed : Sound I P (db₂.insertPersonalKey ⟨row.userPubkey, tenant, secret⟩) :=
      hinserted.same ⟨rfl, rfl, rfl, rfl, rfl⟩
    exact hkeyed.filterCodes _

theorem exchangeForUser_sound (row : OAuthCode) :
    (exchangeForUser tenant row).Steps (KeepsSound I P) :=
  .bind (.write _ fun _ h => h.filterCodes _) fun _ => .bind (.read KeepsSound.refl _ _) fun _ =>
    .bind (.orErr _ _) fun _ => .orErr _ _

theorem handleAuthorizationCodeGrant_stays (h : Sound I P s.db) {inst : InstanceId}
    {drawn : GrantDrawn}
    {req : TokenRequest} : Stays I P (handleAuthorizationCodeGrant w inst tenant drawn req) s := by
  unfold handleAuthorizationCodeGrant
  refine Prog.Ends.orErr h fun code _ => Prog.Ends.orErr h fun redirectUri _ => Prog.Ends.read ?_
  refine Prog.Ends.orErr h fun row hfound => ?_
  split
  · exact h
  refine Prog.Ends.ofExcept (fun _ => h) fun _ _ => ?_
  have hrow := h.codes row (List.mem_of_find?_eq_some hfound)
  have hkey := List.find?_some hfound
  simp only [Bool.and_eq_true, beq_iff_eq] at hkey
  refine Stays.of_keeps ?_ h
  extract_lets nsec tail
  have htail : ∀ email, (tail email).Steps (KeepsSound I P) :=
    fun email => createOAuthAuthorization_sound _ _ _
  split
  · next email hemail => exact .bind (completeRegistration_sound hrow hemail hkey.1.1 _) htail
  · exact .bind (exchangeForUser_sound _) htail

theorem handleRefreshTokenGrant_sound (drawn : GrantDrawn) (req : TokenRequest) :
    (handleRefreshTokenGrant w tenant drawn req).Steps (KeepsSound I P) := by
  unfold handleRefreshTokenGrant
  refine .bind (.orErr _ _) fun token => .bind (fun _ => ⟨?_, trivial⟩) fun record =>
    .bind (.orErr _ _)
    fun record => .bind (.read KeepsSound.refl _ _) fun row => .bind (.orErr _ _) fun row => ?_
  · exact fun h => h.same ⟨rfl, rfl, rfl, rfl, rfl⟩
  split
  · trivial
  exact .bind (.read KeepsSound.refl _ _) fun _ => .bind (.read KeepsSound.refl _ _) fun _ =>
    .bind (.orErr _ _) fun _ => .bind (.ofExcept _) fun _ =>
      .bind (issueAccessToken_sound _ _ _ _ _)
    fun _ => .bind (createRefreshToken_sound _ _) fun _ =>
      .bind (.read KeepsSound.refl _ _) fun _ => trivial

theorem token_stays (h : Sound I P s.db) {inst : InstanceId} {drawn : GrantDrawn}
    {req : TokenRequest} :
    Stays I P (token w inst tenant drawn req) s := by
  unfold token
  extract_lets grantType
  split
  · exact handleAuthorizationCodeGrant_stays h
  split
  · exact Stays.of_keeps (handleRefreshTokenGrant_sound _ _) h
  · exact h

/-! ### Deletions -/

theorem Fewer.deleteAccountIn {db db' : Db} {user : PublicKey} {result : Db.DeleteAccountResult}
    (h : (Db.deleteAccountIn user tenant).run db = (.ok result, db')) : Fewer db db' := by
  obtain ⟨-, hclaims, rfl, -⟩ := Db.run_deleteAccountIn h
  have hbefore : Fewer db ((db.deleteTeamUsersOf user).deleteCodesOf user tenant) :=
    ⟨List.Sublist.refl _, List.filter_subset_self _, List.Subset.refl _, List.Subset.refl _,
      fun _ _ _ hu _ => hu, List.filter_subset_self _⟩
  exact hbefore.trans (.deleteUser hclaims)

theorem Fewer.deletion {now : Timestamp} {db db' : Db} {user : PublicKey}
    {result : Db.DeleteAccountResult}
    (h : deletion w now db user tenant = (.ok result, db')) : Fewer db db' := by
  unfold Http.deletion at h
  split at h
  · have hrun := Db.run_deleteCustomerAccountIn (Prog.transaction_ok.mp h)
    have hlinks : Fewer db ((db.insertNotice now user tenant).deleteLinksOf user tenant) :=
      ⟨List.Sublist.refl _, List.Subset.refl _, List.filter_subset_self _, List.Subset.refl _,
        fun _ _ _ hu _ => hu, List.Subset.refl _⟩
    exact hlinks.trans (.deleteAccountIn hrun)
  · exact .deleteAccountIn (Prog.transaction_ok.mp h)

theorem deleteAccount_sound (inst : InstanceId) (headers : Headers) :
    (deleteAccount w inst headers tenant).Steps (KeepsSound I P) :=
  deleteAccount_steps KeepsSound.refl inst headers tenant
    (fun _ _ _ _ hd h => h.fewer (.deletion hd))
    fun _ _ h => h

theorem Fewer.deleteUsers (db : Db) {users : List PublicKey}
    (h : ∀ user ∈ users, ∀ t ∈ db.claimTokens, t.userPubkey ≠ user) :
    Fewer db (users.foldl Db.deleteUser db) := by
  induction users generalizing db with
  | nil => exact ⟨List.Sublist.refl _, List.Subset.refl _, List.Subset.refl _, List.Subset.refl _,
      fun _ _ _ hu _ => hu, List.Subset.refl _⟩
  | cons user users ih =>
    have hfirst : Fewer db (db.deleteUser user) := .deleteUser (h user List.mem_cons_self)
    exact hfirst.trans (ih _ fun user' hu => h user' (List.mem_cons_of_mem _ hu))

theorem Fewer.deleteStaleSignups (db : Db) (now : Timestamp) :
    Fewer db (db.deleteStaleSignups now) := by
  unfold Db.deleteStaleSignups
  dsimp only
  split
  · exact ⟨List.Sublist.refl _, List.Subset.refl _, List.Subset.refl _, List.Subset.refl _,
      fun _ _ _ hu _ => hu, List.Subset.refl _⟩
  · next hfree =>
    refine .deleteUsers db fun user huser t ht heq => hfree (List.any_eq_true.mpr ⟨user, huser, ?_⟩)
    rw [Db.referenced, Bool.or_eq_true]
    exact .inr (List.any_eq_true.mpr ⟨t, ht, by simpa using heq⟩)

theorem Fewer.cleanup (db : Db) (now : Timestamp) : Fewer db (db.cleanup now) := by
  have hdeleted := Fewer.deleteStaleSignups db now
  exact ⟨hdeleted.users, hdeleted.codes, List.filter_subset_self _, hdeleted.claims,
    hdeleted.owners,
    hdeleted.members⟩

theorem Leaves.served {issues : α → List Issue} {p : Prog Stmt State ε α}
    (h : Leaves I P issues p s) :
    Sound (fun i => I i ∨ i ∈ (served p issues s).1) P (served p issues s).2.db := by
  have hend : Sound (fun i => I i ∨ ∃ a, (p.run s).1 = .ok a ∧ i ∈ issues a) P (p.run s).2.db := h
  unfold Http.served
  generalize p.run s = result at hend
  obtain ⟨e | a, s'⟩ := result
  · refine hend.mono (fun i hi => Or.imp_right ?_ hi) fun _ _ => id
    rintro ⟨a, ha, -⟩
    cases ha
  · refine hend.mono (fun i hi => Or.imp_right ?_ hi) fun _ _ => id
    rintro ⟨b, hb, hmem⟩
    cases hb
    exact hmem

theorem EmailCall.proof_eq {c : EmailCall} {kind : TokenKind} {token e : String}
    {email named : Option String}
    (hc : c.presents w = some (kind, token, tenant, named)) (he : email.or named = some e) :
    c.proof w ⟨kind, token, email, tenant⟩ = some ⟨⟨kind, token, email, tenant⟩, e⟩ := by
  simp [EmailCall.proof, hc, he]

/-- **One call**, with `P` the emails that are proved once it has presented its token. -/
theorem serveEmail_sound {x : EmailWorld} {c : EmailCall} (h : Sound I P x.state.db)
    (hproofs : ∀ i p, I i → c.proof w i = some p → P p.email i.tenant)
    (hverified : RekeysVerified w x c) :
    Sound (fun i => I i ∨ i ∈ (serveEmail w x.state c).1) P (serveEmail w x.state c).2.db := by
  cases c with
  | register => exact (register_leaves h).served
  | bcryptJob => exact (Leaves.of_stays (.of_keeps (bcryptJob_sound _ _) h)).served
  | oauthRegister => exact (oauthRegister_leaves h).served
  | headlessRegister => exact (headlessRegister_leaves h).served
  | verifyEmail tenant headers redis newCode token =>
    refine (Leaves.of_stays (verifyEmail_stays h fun e hi => ?_)).served
    exact hproofs _ _ hi (EmailCall.proof_eq rfl rfl)
  | resendVerification => exact (resendVerification_leaves h).served
  | forgotPassword => exact (forgotPassword_leaves h).served
  | resetPassword tenant token newPassword =>
    refine (Leaves.of_stays (resetPassword_stays h fun e hi => ?_)).served
    exact hproofs _ _ hi (EmailCall.proof_eq rfl rfl)
  | changePassword => exact (Leaves.of_stays (.of_keeps (changePassword_sound _ _ _) h)).served
  | changeKey inst headers tenant fresh req =>
    exact (Leaves.of_stays (changeKey_stays h hverified)).served
  | preloadUser => exact (Leaves.of_stays (.of_keeps (preloadUser_sound _ _ _) h)).served
  | createClaimToken => exact (createClaimToken_leaves h).served
  | claimPost tenant form =>
    refine (Leaves.of_stays (claimPost_stays h fun hi => ?_)).served
    exact hproofs _ _ hi (EmailCall.proof_eq rfl rfl)
  | requestMagicLink => exact (requestMagicLink_leaves h).served
  | verifyMagicLink inst tenant drawn generated approved policyId req =>
    refine (Leaves.of_stays (verifyMagicLink_stays h fun e hi => ?_)).served
    exact hproofs _ _ hi (EmailCall.proof_eq rfl rfl)
  | tokenExchange => exact (Leaves.of_stays (token_stays h)).served
  | deleteAccount => exact (Leaves.of_stays (.of_keeps (deleteAccount_sound _ _) h)).served
  | cleanup => exact (h.fewer (.cleanup _ _)).widen
  | tick => exact h.widen

end Endpoints

/-! ## The result -/

/-- The invariant of a run. -/
def EmailWorld.Sound (x : EmailWorld) : Prop := Http.Sound (· ∈ x.issued) x.Proved x.state.db

theorem EmailWorld.Sound.step {x : EmailWorld} {c : EmailCall} (h : x.Sound)
    (hc : RekeysVerified w x c) :
    (emailStep w x c).Sound := by
  have hbefore : Http.Sound (· ∈ x.issued) (emailStep w x c).Proved x.state.db := by
    refine Http.Sound.mono (fun _ => id) (fun e t hproved => ?_) h
    obtain ⟨p, hp, hpe⟩ := hproved
    exact ⟨p, List.mem_append_left _ hp, hpe⟩
  refine (serveEmail_sound hbefore (fun i p hi hp => ?_) hc).mono
    (fun i hi => List.mem_append.mpr hi)
    fun _ _ => id
  refine ⟨p, List.mem_append_right _ (List.mem_filterMap.mpr ⟨i, hi, hp⟩), rfl, ?_⟩
  -- the proof is of the token it was made with
  obtain ⟨⟨kind, token, tenant, named⟩, -, hp⟩ := Option.bind_eq_some_iff.mp hp
  simp only at hp
  split at hp
  · obtain ⟨e, -, rfl⟩ := Option.map_eq_some_iff.mp hp
    rfl
  · cases hp

theorem NoAccounts.sound {s : State} (h : NoAccounts s.db) : EmailWorld.Sound { state := s } := by
  refine ⟨?_, ?_, ?_, ?_, ?_, h.members⟩
  · rw [PkUnique, h.users]
    exact List.nodup_nil
  · rw [h.users]
    exact fun _ hu => absurd hu List.not_mem_nil
  · rw [h.codes]
    exact fun _ hc => absurd hc List.not_mem_nil
  · rw [h.links]
    exact fun _ hl => absurd hl List.not_mem_nil
  · rw [h.claims]
    exact fun _ ht => absurd ht List.not_mem_nil

/-- **A verified email was proved**, in every state of every run in which `change_key` is only used
by users whose email is verified. -/
theorem verified_email_was_proved {s : State} {calls : List EmailCall} (hstart : NoAccounts s.db)
    (hverified : Along (emailStep w) (RekeysVerified w) { state := s } calls) :
    ∀ pre post, calls = pre ++ post → VerifiedProved (run (emailStep w) { state := s } pre) := by
  rintro pre post rfl u hu e he hflag
  have hsound : (run (emailStep w) { state := s } pre).Sound :=
    run_invariant (fun _ _ h hc => h.step hc) hstart.sound (along_append.mp hverified).1
  exact (hsound.users u hu e he).verified hflag

/-! Somebody registers with a key of their own and an address that is not theirs, and rekeys. -/

def ownUcan : Ucan :=
  ⟨some "pub:sk", some "pub:sk", none,
    [.obj [("tenant_id", .int 1), ("redirect_origin", .str "https://app.example")]]⟩

def signupWeb : Web := .symbolic [("own", ownUcan)] []

def signUp : EmailCall :=
  .register 1 true "unused" "token-a" (.ok ())
    { email := "victim@example.com", password := "password", nsec := some "sk" }

def hashStored : EmailCall := .bcryptJob "token-a" "password"

def rekey : EmailCall :=
  .changeKey 0
    { authorization := some (some "Bearer own"), origin := some (some "https://app.example") } 1
    "new" ⟨"password", none⟩

def openMail : EmailCall := .verifyEmail 1 {} .absent "unused" "token-a"

/-- With the mail opened in between, the new row is verified because the email is. -/
theorem verified_email_was_proved_opened :
    (∃ u ∈ (run (emailStep signupWeb) { state := .boot {} 0 }
        [signUp, hashStored, openMail, rekey]).state.db.users,
      u.pubkey = "pub:new" ∧ u.email = some "victim@example.com" ∧ u.emailVerified = true) ∧
    VerifiedProved
      (run (emailStep signupWeb) { state := .boot {} 0 }
        [signUp, hashStored, openMail, rekey]) := by
  refine ⟨by decide, ?_⟩
  refine verified_email_was_proved (w := signupWeb) (s := .boot {} 0)
    ⟨rfl, rfl, rfl, rfl, rfl⟩ ?_ _ [] rfl
  refine ⟨trivial, trivial, trivial, fun user email hash keys hsession _ _ _ _ => ?_, trivial⟩
  have huser : (extractUserFromToken signupWeb 0
      { authorization := some (some "Bearer own"),
        origin := some (some "https://app.example") } 1).toOption =
      some "pub:sk" := by decide
  have hsame : extractUserFromToken signupWeb 0
      { authorization := some (some "Bearer own"), origin := some (some "https://app.example") }
        1 = .ok user :=
    hsession
  rw [hsame] at huser
  cases huser
  decide

/-- **The address of somebody else, verified without a mail being opened.** -/
theorem rekeyed_email_is_unproved :
    ¬ VerifiedProved
      (run (emailStep signupWeb) { state := .boot {} 0 } [signUp, hashStored, rekey]) := by
  intro hproved
  have hrow : ∃ u ∈ (run (emailStep signupWeb) { state := .boot {} 0 }
      [signUp, hashStored, rekey]).state.db.users,
      u.email = some "victim@example.com" ∧ u.emailVerified = true := by decide
  have hnone :
    (run (emailStep signupWeb) { state := .boot {} 0 } [signUp, hashStored, rekey]).proofs =
      [] := by
    decide
  obtain ⟨u, hu, hemail, hflag⟩ := hrow
  obtain ⟨p, hp, -⟩ := hproved u hu _ hemail hflag
  rw [hnone] at hp
  cases hp

end Keycast.Http
