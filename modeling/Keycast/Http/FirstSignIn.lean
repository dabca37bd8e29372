import Keycast.Http.MagicLink
import Keycast.Lib.Histories
import Keycast.Lib.Within

/-!
# `Http/FirstSignIn.lean` — first sign-ins of one customer

`verify_magic_link` consumes the link, looks for the account of its address, and creates one if
there is none. Two first clicks may both find none. The creation is a transaction of three
statements, and here they are taken one by one: the `INSERT … ON CONFLICT DO NOTHING` waits for a
transaction that has inserted a row with the same address or the same key and not ended; what it
finds when it goes on is decided by what that transaction did. The rows a transaction has inserted
are kept apart from the table until it commits.

Run by itself a request does what the model with one statement for the transaction does.

The invariant has two halves, one for links and one for accounts. A link that a thread has consumed
is spent, and no other thread has consumed it (`LinksSpent`): every `UPDATE` sets the column or
leaves the row alone, so what is spent stays spent (`Spent.consume`).

For accounts the rows of the table and those of all open transactions are taken together
(`SignInState.rows`). Together they meet the constraints, and the account of an address has one key
(`AccountsSound`); the open rows belong to one thread each, and an account that a thread has seen or
has committed is there (`AccountsHeld`). `SignInMove.cases` says what a statement can do to the
rows: nothing, or one of the three of a transaction that creates an account. An insert goes in only
where no other row is in its way, which is where the waiting is used (`AccountsSound.insert`), and
the other two move rows that are there already. So accounts are only added (`AccountsGrow`), and the
one row of an address with its one key does not change any more (`AccountsSound.kept`).

What an answer says is read off the history of its thread (`SignInPost`): a session is for a link
that the thread has consumed, and for the account it has found or committed.
-/

set_option autoImplicit false

namespace Keycast.Http

open Lib

/-! ## Open transactions -/

/-- What a transaction has inserted and not committed. -/
structure OpenAccount where
  user : User
  key : Option PersonalKey := none
  deriving DecidableEq, Repr

structure SignInState where
  base : State
  openAccounts : List OpenAccount := []

namespace SignInState

def db (s : SignInState) : Db := s.base.db

def withBase (s : SignInState) (base : State) : SignInState := { s with base }

@[simp] theorem withBase_base (s : SignInState) (base : State) : (s.withBase base).base = base :=
  rfl
@[simp] theorem withBase_openAccounts (s : SignInState) (base : State) :
    (s.withBase base).openAccounts = s.openAccounts := rfl

/-- The row of a new account. -/
def newAccount (s : SignInState) (pubkey : PublicKey) (tenant : TenantId)
    (email : String) : User where
  pubkey := pubkey
  tenantId := tenant
  email := some email
  emailVerified := true
  createdAt := s.base.now

/-- A row of another transaction is in the way, and will be until that ends. -/
def blocks (s : SignInState) (pubkey : PublicKey) (tenant : TenantId) (email : String) : Bool :=
  (s.db.findPubkeyByEmail email tenant).isNone &&
    s.openAccounts.any fun o => Db.conflicts (s.newAccount pubkey tenant email) o.user

/-- `INSERT INTO users … ON CONFLICT (tenant_id, email) DO NOTHING RETURNING pubkey`, when nothing
blocks it. Only a conflict of the address is passed over. -/
def insertAccount (s : SignInState) (pubkey : PublicKey) (tenant : TenantId) (email : String) :
    Except AuthError (Option PublicKey) × SignInState :=
  if (s.db.findPubkeyByEmail email tenant).isSome then (.ok none, s)
  else if s.db.users.any (Db.conflicts (s.newAccount pubkey tenant email)) then
    (.error (.badRequest "Invalid local_key"), s)
  else (.ok (some pubkey),
    { s with openAccounts := ⟨s.newAccount pubkey tenant email, none⟩ :: s.openAccounts })

section Insert

variable {s : SignInState} {pubkey : PublicKey} {tenant : TenantId} {email : String}

/-- The row goes in. -/
def Inserts (s : SignInState) (pubkey : PublicKey) (tenant : TenantId) (email : String) : Prop :=
  s.db.findPubkeyByEmail email tenant = none ∧
    s.db.users.any (Db.conflicts (s.newAccount pubkey tenant email)) = false

instance : Decidable (s.Inserts pubkey tenant email) := inferInstanceAs (Decidable (_ ∧ _))

theorem insertAccount_of_inserts (h : s.Inserts pubkey tenant email) :
    s.insertAccount pubkey tenant email =
      (.ok (some pubkey),
        { s with openAccounts := ⟨s.newAccount pubkey tenant email, none⟩ :: s.openAccounts }) := by
  unfold insertAccount
  rw [h.1, h.2]
  rfl

/-- What the statement does. -/
theorem insertAccount_cases (s : SignInState) (pubkey : PublicKey) (tenant : TenantId)
    (email : String) :
    (∃ user, s.db.findPubkeyByEmail email tenant = some user ∧
      s.insertAccount pubkey tenant email = (.ok none, s)) ∨
      (s.db.findPubkeyByEmail email tenant = none ∧
        s.db.users.any (Db.conflicts (s.newAccount pubkey tenant email)) = true ∧
        s.insertAccount pubkey tenant email = (.error (.badRequest "Invalid local_key"), s)) ∨
      s.Inserts pubkey tenant email := by
  cases hfound : s.db.findPubkeyByEmail email tenant with
  | some user =>
    refine .inl ⟨user, rfl, ?_⟩
    unfold insertAccount
    rw [hfound]
    rfl
  | none =>
    cases hclash : s.db.users.any (Db.conflicts (s.newAccount pubkey tenant email)) with
    | true =>
      refine .inr (.inl ⟨rfl, rfl, ?_⟩)
      unfold insertAccount
      rw [hfound, hclash]
      rfl
    | false => exact .inr (.inr ⟨hfound, hclash⟩)

end Insert

/-- `INSERT INTO personal_keys`, for the row of the same transaction. -/
def insertAccountKey (s : SignInState) (key : PersonalKey) : SignInState :=
  { s with
    openAccounts :=
      updateWhere (fun o => o.user.pubkey == key.userPubkey) (fun o => { o with key := some key })
      s.openAccounts }

/-- `COMMIT`: the rows become visible. -/
def commitAccount (s : SignInState) (pubkey : PublicKey) : SignInState where
  base := s.base.withDb
    { s.db with
      users := s.db.users ++ (s.openAccounts.filter (·.user.pubkey == pubkey)).map (·.user)
      personalKeys :=
        s.db.personalKeys ++ (s.openAccounts.filter (·.user.pubkey == pubkey)).filterMap (·.key) }
  openAccounts := s.openAccounts.filter (·.user.pubkey != pubkey)

end SignInState

inductive SignInStmt
  | base (l : Stmt)
  | insertAccount (pubkey : PublicKey) (tenant : TenantId) (email : String)
  | insertAccountKey (key : PersonalKey)
  | selectAccount (tenant : TenantId) (email : String)
  | commitAccount (pubkey : PublicKey) (tenant : TenantId) (email : String)
  | commitFound
  deriving DecidableEq, Repr

/-- A program that knows nothing of open transactions. -/
def plain {ε α : Type} (p : Prog Stmt State ε α) : Prog SignInStmt SignInState ε α :=
  p.within .base SignInState.base SignInState.withBase

/-! ## The statements of `find_or_create_passwordless` -/

/-- `UserRepository::find_or_create_passwordless`, with the error `find_or_create_customer` makes of
a duplicate. -/
def findOrCreatePasswordless (pubkey : PublicKey) (tenant : TenantId) (email : String)
    (encryptedSecret : Bytes) :
    Prog SignInStmt SignInState AuthError PublicKey := do
  let created ← .stmt (.insertAccount pubkey tenant email) fun s =>
    s.insertAccount pubkey tenant email
  match ← .ofExcept created with
  | some created =>
    .write (.insertAccountKey ⟨created, tenant, encryptedSecret⟩)
      (·.insertAccountKey ⟨created, tenant, encryptedSecret⟩)
    .write (.commitAccount created tenant email) (·.commitAccount created)
    return created
  | none =>
    let existing ← .read (.selectAccount tenant email) fun s => s.db.findPubkeyByEmail email tenant
    let existing ← .orErr existing .userNotFound
    .write .commitFound id
    return existing

/-- `find_or_create_customer`. -/
def findCustomer (w : Web) (tenant : TenantId) (email : String) (localKey : Option Keys)
    (generated : Keys) :
    Prog SignInStmt SignInState AuthError PublicKey := do
  match ← .read (.base .findPubkeyByEmail) fun s => s.db.findPubkeyByEmail email tenant with
  | some user => return user
  | none =>
    let keys := localKey.getD generated
    let secret ← .ofExcept ((w.kmsEncrypt (w.toSecretBytes keys)).mapError fun e =>
      .internal ("Failed to encrypt key: " ++ e))
    findOrCreatePasswordless (w.publicKey keys) tenant email secret

/-- `verify_magic_link`. -/
def verifyLink (w : Web) (inst : InstanceId) (tenant : TenantId) (drawn : GrantDrawn)
    (generated : Keys)
    (approved : Option PublicKey) (policyId : RowId) (req : VerifyMagicLinkRequest) :
    Prog SignInStmt SignInState AuthError (Option VerifyMagicLinkResponse) := do
  if w.customerTenant ≠ some tenant then return none
  else
    let localKey ← .ofExcept (parseLocalKey w req.localKey)
    let grant ← .ofExcept (parseCommerceGrant w req)
    let link ← .stmt (.base .consumeMagicLink) fun s =>
      ((s.db.consumeMagicLink s.base.now (w.sha256 req.token) tenant).1,
        s.withBase (s.base.withDb (s.db.consumeMagicLink s.base.now (w.sha256 req.token) tenant).2))
    let link ← .orErr link (.badRequest "invalid_or_expired_link")
    if link.purpose = .deleteAccount then
      let response ← plain (deleteSession w tenant link.email link.appOrigin)
      return some response
    else
      let _ ← .ofExcept (grant.elim (.ok none) fun grant =>
        (merchantForGrant w link.appOrigin approved grant).map some)
      let user ← findCustomer w tenant link.email localKey generated
      let response ← plain (signInSession w inst tenant drawn policyId user link grant)
      return some response

/-! ## One request by itself -/

section Alone

variable {w : Web} {tenant : TenantId}

/-- No transaction is open. -/
def atRest (s : State) : SignInState := ⟨s, []⟩

theorem plain_refines {ε α : Type} (p : Prog Stmt State ε α) : Prog.Refines atRest (plain p) p :=
  .within (fun _ => rfl) (fun _ _ => rfl) p

theorem findOrCreatePasswordless_refines (pubkey : PublicKey) (email : String) (secret : Bytes) :
    Prog.Refines atRest (findOrCreatePasswordless pubkey tenant email secret)
      (transact .findOrCreatePasswordless (.badRequest "Invalid local_key") fun s =>
        s.db.findOrCreatePasswordless s.now pubkey tenant email secret) := by
  intro s
  show (Prog.bind (.ofExcept ((atRest s).insertAccount pubkey tenant email).1) _).run
    ((atRest s).insertAccount pubkey tenant email).2 = _
  have hsome : ∀ user db, s.db.findOrCreatePasswordless s.now pubkey tenant email secret =
    some (user, db) →
      (transact .findOrCreatePasswordless (AuthError.badRequest "Invalid local_key") fun s =>
        s.db.findOrCreatePasswordless s.now pubkey tenant email secret).run s = (.ok user,
          s.withDb db) := by
    intro user db hresult
    rw [run_transact, hresult]
  have hfail : s.db.findOrCreatePasswordless s.now pubkey tenant email secret = none →
      (transact .findOrCreatePasswordless (AuthError.badRequest "Invalid local_key") fun s =>
        s.db.findOrCreatePasswordless s.now pubkey tenant email secret).run s =
      (.error (.badRequest "Invalid local_key"), s) := by
    intro hresult
    rw [run_transact, hresult]
  rcases SignInState.insertAccount_cases (atRest s) pubkey tenant email with
    ⟨user, hfound, hinsert⟩ | ⟨hnone, hclash, hinsert⟩ | hinserts
  · have hfound : s.db.findPubkeyByEmail email tenant = some user := hfound
    rw [hinsert, hsome user s.db (by simp [Db.findOrCreatePasswordless, hfound])]
    show (Prog.bind (.orErr (s.db.findPubkeyByEmail email tenant) _) _).run _ = _
    rw [hfound]
    rfl
  · have hnone : s.db.findPubkeyByEmail email tenant = none := hnone
    rw [hinsert, hfail]
    · rfl
    · have hrefused : s.db.insertUser ((atRest s).newAccount pubkey tenant email) = none :=
        if_pos hclash
      simp only [Db.findOrCreatePasswordless, hnone]
      exact congrArg (Option.map _) hrefused
  · have hnone : s.db.findPubkeyByEmail email tenant = none := hinserts.1
    rw [SignInState.insertAccount_of_inserts hinserts,
      hsome pubkey { s.db with
        users := s.db.users ++ [(atRest s).newAccount pubkey tenant email]
        personalKeys := s.db.personalKeys ++ [⟨pubkey, tenant, secret⟩] }]
    · simp [Prog.ofExcept, Prog.bind_def, Prog.bind, Prog.write,
        SignInState.insertAccountKey, updateWhere,
        SignInState.commitAccount, SignInState.newAccount, atRest, SignInState.db, State.withDb]
    · have hinserted : s.db.insertUser ((atRest s).newAccount pubkey tenant email) =
          some { s.db with users := s.db.users ++ [(atRest s).newAccount pubkey tenant email] } :=
        if_neg (by rw [show s.db.users.any _ = false from hinserts.2]; exact Bool.false_ne_true)
      simp only [Db.findOrCreatePasswordless, hnone]
      exact congrArg (Option.map _) hinserted

theorem findCustomer_refines (email : String) (localKey : Option Keys) (generated : Keys) :
    Prog.Refines atRest (findCustomer w tenant email localKey generated)
      (findOrCreateCustomer w tenant email localKey generated) := by
  refine .bind (fun s => rfl) fun found => ?_
  cases found with
  | some user => exact .refl_ret user
  | none => exact .bind (.ofExcept _) fun secret => findOrCreatePasswordless_refines _ _ _

/-- **A request by itself** does what the model with one statement for the transaction does. -/
theorem verifyLink_refines (inst : InstanceId) (drawn : GrantDrawn) (generated : Keys)
    (approved : Option PublicKey)
    (policyId : RowId) (req : VerifyMagicLinkRequest) :
    Prog.Refines atRest (verifyLink w inst tenant drawn generated approved policyId req)
      (verifyMagicLink w inst tenant drawn generated approved policyId req) := by
  unfold verifyLink verifyMagicLink
  split
  · exact .refl_ret none
  refine .bind (.ofExcept _) fun localKey => .bind (.ofExcept _) fun grant =>
    .bind (fun s => rfl) fun link =>
    .bind (.orErr _ _) fun link => ?_
  split
  · exact .bind (plain_refines _) fun response => .refl_ret _
  · exact .bind (.ofExcept _) fun _ => .bind (findCustomer_refines _ _ _) fun user =>
      .bind (plain_refines _) fun response => .refl_ret _

end Alone

/-! ## Many requests -/

/-- A request: the instance that serves it, what it draws, and what the approved list says. -/
structure Visit where
  inst : InstanceId
  tenant : TenantId
  drawn : GrantDrawn
  generated : Keys
  approved : Option PublicKey
  policyId : RowId
  req : VerifyMagicLinkRequest

abbrev SignInThread :=
  Thread Visit SignInStmt SignInState AuthError (Option VerifyMagicLinkResponse)

abbrev SignInConf := Conf Visit SignInStmt SignInState AuthError (Option VerifyMagicLinkResponse)

/-- Any number of requests; the environment lets time pass. -/
def signInSystem (w : Web) :
    System Visit SignInStmt SignInState AuthError (Option VerifyMagicLinkResponse) Nat where
  prog v := verifyLink w v.inst v.tenant v.drawn v.generated v.approved v.policyId v.req
  env d s := s.withBase { s.base with now := s.base.now + d }

/-- The next statement of the thread waits for another transaction. -/
def waits (c : SignInConf) (i : Nat) : Bool :=
  match (c.threads[i]?).bind Thread.next? with
  | some (.insertAccount pubkey tenant email) => c.state.blocks pubkey tenant email
  | _ => false

/-- A thread that waits stays where it is. -/
def signInStep (w : Web) (c : SignInConf) : Ev Visit Nat → SignInConf
  | .spawn v => (signInSystem w).step c (.spawn v)
  | .exec i => if waits c i then c else (signInSystem w).step c (.exec i)
  | .env d => (signInSystem w).step c (.env d)

/-! ## What a request does -/

/-- What the transaction of a thread has inserted so far, read off its last statements. -/
def opened : List (SignInStmt × SignInState) → Option OpenAccount
  | (.insertAccount pubkey tenant email, s) :: _ =>
    if s.Inserts pubkey tenant email then some ⟨s.newAccount pubkey tenant email, none⟩ else none
  | (.insertAccountKey key, _) :: seen => (opened seen).map fun o => { o with key := some key }
  | _ => none

/-- Nothing an account consists of changes, and no link. -/
structure SameAccount (s s' : State) : Prop where
  now : s'.now = s.now
  users : s'.db.users = s.db.users
  personalKeys : s'.db.personalKeys = s.db.personalKeys
  magicLinkTokens : s'.db.magicLinkTokens = s.db.magicLinkTokens

/-- What each statement does, after those its request has executed. -/
def SignInMove (w : Web) (v : Visit) :
    SignInStmt → List (SignInStmt × SignInState) → SignInState → SignInState → Prop
  | .base .consumeMagicLink, seen, s, s' => seen = [] ∧
      s' = s.withBase
        (s.base.withDb (s.db.consumeMagicLink s.base.now (w.sha256 v.req.token) v.tenant).2)
  | .base _, _, s, s' => ∃ base, SameAccount s.base base ∧ s' = s.withBase base
  | .insertAccount pubkey tenant email, _, s, s' => s' = (s.insertAccount pubkey tenant email).2
  | .insertAccountKey key, seen, s, s' =>
    (∃ user, opened seen = some ⟨user, none⟩ ∧ user.pubkey = key.userPubkey) ∧
      s' = s.insertAccountKey key
  | .commitAccount pubkey tenant email, seen, s, s' =>
    (∃ user key, opened seen = some ⟨user, some key⟩ ∧
      user.pubkey = pubkey ∧ user.tenantId = tenant ∧ user.email = some email ∧
      key.userPubkey = pubkey) ∧
      s' = s.commitAccount pubkey
  | .selectAccount .., _, s, s' | .commitFound, _, s, s' => s' = s

/-- The request has consumed a link. -/
def Consumes (w : Web) (v : Visit) (x : SignInStmt × SignInState) (link : MagicLinkToken) : Prop :=
  x.1 = .base .consumeMagicLink ∧
    (x.2.db.consumeMagicLink x.2.base.now (w.sha256 v.req.token) v.tenant).1 = some link

/-- The request has seen the account of the address, or has committed it. -/
def AccountFound (tenant : TenantId) (email : String) (seen : List (SignInStmt × SignInState))
    (user : PublicKey) : Prop :=
  ∃ x ∈ seen, x.2.db.findPubkeyByEmail email tenant = some user ∨
    x.1 = .commitAccount user tenant email

/-- A session the server has signed for the user. -/
def SessionOf (w : Web) (token : String) (user : PublicKey) : Prop :=
  ∃ key now tenant email origin bunker keys isFirstParty lifetime,
    w.publicKeyFromHex user = .ok key ∧
    generateServerSignedUcan w now key tenant email origin bunker keys isFirstParty none
      lifetime = .ok token

/-- An answer with a session is for a consumed link, and the session is for the account of its
address. -/
def SignInPost (w : Web) (v : Visit) (seen : List (SignInStmt × SignInState))
    (r : Except AuthError (Option VerifyMagicLinkResponse)) : Prop :=
  ∀ response, r = .ok (some response) → ∃ x ∈ seen, ∃ link user, Consumes w v x link ∧
    AccountFound v.tenant link.email seen user ∧ SessionOf w response.sessionToken user

theorem SameAccount.refl (s : State) : SameAccount s s := ⟨rfl, rfl, rfl, rfl⟩

theorem AccountFound.mono {tenant : TenantId} {email : String}
    {seen seen' : List (SignInStmt × SignInState)}
    {user : PublicKey} (h : AccountFound tenant email seen user)
    (hsub : seen ⊆ seen') : AccountFound tenant email seen' user := by
  obtain ⟨x, hx, hfound⟩ := h
  exact ⟨x, hsub hx, hfound⟩

section Request

variable {w : Web} {v : Visit} {seen : List (SignInStmt × SignInState)}

/-- A statement after which accounts and links are as before. -/
def QuietMove (l : Stmt) (s s' : State) : Prop := l ≠ .consumeMagicLink ∧ SameAccount s s'

theorem QuietMove.move {l : Stmt} {s : SignInState} {base : State} (h : QuietMove l s.base base) :
    SignInMove w v (.base l) seen s (s.withBase base) := by
  unfold SignInMove
  split
  · next heq => exact absurd (SignInStmt.base.inj heq) h.1
  · exact ⟨base, h.2, rfl⟩
  all_goals next heq => cases heq

def SameKeys (_ : Stmt) (s s' : State) : Prop := s'.db.personalKeys = s.db.personalKeys

/-- A grant that comes with no key of its own stores none. -/
theorem createOAuthAuthorization_keys {inst : InstanceId} {drawn : GrantDrawn}
    {p : CreateAuthorizationParams}
    (hnsec : p.nsecFromVerifier = none) :
    (createOAuthAuthorization w inst drawn p).Does SameKeys := by
  have hkey : (ensurePersonalKey w p.tenantId p.userPubkey p.nsecFromVerifier).Does SameKeys := by
    rw [hnsec]
    refine .bind (.read (fun _ => rfl) _) fun found => ?_
    split
    · trivial
    · trivial
  have hcreated : ∀ {ε : Type} {e : ε} {row : Timestamp → OAuthAuthorization},
    (createAuthorization e row).Does SameKeys := by
    intro ε e row
    refine transact_does (fun _ => rfl) fun s _ db hcreated => ?_
    obtain ⟨db', hinsert, heq⟩ := Option.map_eq_some_iff.mp hcreated
    cases heq
    obtain ⟨rfl, -⟩ := Db.insertOAuth_eq hinsert
    rfl
  have hrefresh : ∀ {id : RowId} {token : String},
    (createRefreshToken w p.tenantId id token).Does SameKeys := by
    intro id token
    refine transact_does (fun _ => rfl) fun s _ db hcreated => ?_
    obtain ⟨db', hinsert, heq⟩ := Option.map_eq_some_iff.mp hcreated
    cases heq
    obtain ⟨rfl, -⟩ := Db.insertRefreshToken_eq hinsert
    rfl
  have hrevoke : ∀ {previous : Option RowId}, (revokePrevious inst previous).Does SameKeys := by
    intro previous
    cases previous with
    | none => trivial
    | some old =>
      exact .bind (.write fun _ => rfl) fun _ => .bind (.write fun _ => rfl) fun _ =>
        .write fun _ => rfl
  unfold createOAuthAuthorization
  refine .bind hkey fun encrypted => .bind (.ofExcept _) fun origin =>
    .bind (.orErr _ _) fun pair =>
    .bind (.ofExcept _) fun bunker => .bind ?_ fun accessToken => ?_
  · exact .bind (.ofExcept _) fun _ => .bind (.ofExcept _) fun _ =>
      .bind (.read (fun _ => rfl) _) fun _ => .ofExcept _
  extract_lets tail
  have htail : ∀ policyId, (tail policyId).Does SameKeys := fun policyId =>
    .bind hcreated fun _ => .bind hrefresh fun _ => .bind hrevoke fun _ =>
      .bind (.write fun _ => rfl) fun _ => trivial
  split
  · exact htail _
  · exact .bind (.bind (.ofExcept _) fun _ => .bind (.read (fun _ => rfl) _) fun _ =>
      .bind (.orErr _ _) fun _ => trivial) fun _ => htail _

theorem GrantMove.quiet {l : Stmt} {s s' : State} (h : GrantMove l s s') (hkeys : SameKeys l s s') :
    QuietMove l s s' := by
  refine ⟨?_, h.2.now, ?_, hkeys, ?_⟩
  · rintro rfl
    cases h.1
  · rw [h.2.db]
  · rw [h.2.db]

theorem linkSession_quiet (user : PublicKey) (email page : String) (isFirstParty : Bool)
    (lifetime : Nat) :
    (linkSession w v.tenant user email page isFirstParty lifetime).Does QuietMove :=
  .bind (.ofExcept _) fun _ => .bind (.ofExcept _) fun _ =>
    .bind (.read (fun s => ⟨nofun, .refl s⟩) _) fun _ =>
    .ofExcept _

theorem signInSession_quiet (user : PublicKey) (link : MagicLinkToken)
    (grant : Option CommerceGrant) :
    (signInSession w v.inst v.tenant v.drawn v.policyId user link grant).Does QuietMove := by
  cases grant with
  | none => exact .bind (linkSession_quiet _ _ _ _ _) fun _ => trivial
  | some grant =>
    refine .bind
      (.mapErr (.mono (fun _ _ _ h => h.1.quiet h.2)
        (.and (createOAuthAuthorization_does _ _ _) ?_)))
      fun _ => trivial
    exact createOAuthAuthorization_keys rfl

theorem linkSession_of {tenant : TenantId} (user : PublicKey) (email page : String)
    (isFirstParty : Bool) (lifetime : Nat) :
    (linkSession w tenant user email page isFirstParty lifetime).Returns (SessionOf w · user) := by
  refine .bind (.ofExcept fun _ h => mapError_eq_ok.mp h) fun key hkey => .bind_right fun keys =>
    .bind_right fun now => .ofExcept fun token htoken => ?_
  exact ⟨key, now, _, _, _, _, keys, _, _, hkey, mapError_eq_ok.mp htoken⟩

theorem createOAuthAuthorization_of (inst : InstanceId) (drawn : GrantDrawn)
    (p : CreateAuthorizationParams) :
    (createOAuthAuthorization w inst drawn p).Returns fun r =>
      SessionOf w r.accessToken p.userPubkey := by
  have htoken : ∀ {origin : String} {bunker : PublicKey},
      (issueAccessToken w p.tenantId p.userPubkey p.email origin bunker p.isHeadless).Returns
        (SessionOf w · p.userPubkey) := by
    intro origin bunker
    refine .bind (.ofExcept fun _ h => mapError_eq_ok.mp h) fun key hkey => .bind_right fun keys =>
      .bind_right fun now => .ofExcept fun token htoken => ?_
    exact ⟨key, now, _, _, _, _, keys, _, _, hkey, mapError_eq_ok.mp htoken⟩
  unfold createOAuthAuthorization
  refine .bind_right fun _ => .bind_right fun _ => .bind_right fun _ => .bind_right fun _ =>
    .bind htoken fun accessToken hsession => ?_
  extract_lets tail
  have htail : ∀ policyId, (tail policyId).Returns fun r =>
    SessionOf w r.accessToken p.userPubkey := fun policyId =>
    .bind_right fun _ => .bind_right fun _ => .bind_right fun _ => .bind_right fun _ => hsession
  split
  · exact htail _
  · exact .bind_right htail

theorem signInSession_of (user : PublicKey) (link : MagicLinkToken) (grant : Option CommerceGrant) :
    (signInSession w v.inst v.tenant v.drawn v.policyId user link grant).Returns
      fun response => SessionOf w response.sessionToken user := by
  cases grant with
  | none => exact .bind (linkSession_of _ _ _ _ _) fun _ h => h
  | some grant => exact .bind (.mapErr (createOAuthAuthorization_of _ _ _)) fun _ h => h

/-- A part of a request that changes neither accounts nor links. -/
theorem plain_meets {α : Type} {P : α → Prop} {p : Prog Stmt State AuthError α}
    (hdoes : p.Does QuietMove)
    (hreturns : p.Returns P) :
    (plain p).Meets (SignInMove w v) (fun seen' r => seen ⊆ seen' ∧ ∀ a, r = .ok a → P a) seen := by
  have hmoves : (plain p).Does fun l s s' => ∀ seen, SignInMove w v l seen s s' :=
    hdoes.within fun l s base h seen => h.move
  have hmeets : (plain p).Meets (SignInMove w v) (fun _ _ => True) seen :=
    hmoves.meets (fun h => h _) fun _ _ _ => trivial
  refine Prog.Meets.mono ?_ ((hmeets.keeps (List.Subset.refl _)).returns hreturns.within)
  intro seen' r h
  exact ⟨h.1.2, h.2⟩

theorem QuietMove.find (s : State) : QuietMove .findPubkeyByEmail s s := ⟨nofun, .refl s⟩

/-- The account is seen, or committed. -/
theorem findCustomer_meets (email : String) (localKey : Option Keys) (generated : Keys) :
    (findCustomer w v.tenant email localKey generated).Meets (SignInMove w v)
      (fun seen' r => seen ⊆ seen' ∧ ∀ user, r = .ok user →
        AccountFound v.tenant email seen' user) seen := by
  unfold findCustomer
  refine .read (fun s => QuietMove.move (.find _)) fun s => ?_
  cases hfound : s.db.findPubkeyByEmail email v.tenant with
  | some user =>
    refine ⟨List.subset_cons_self _ _, fun user' heq => ?_⟩
    cases heq
    exact ⟨_, List.mem_cons_self, .inl hfound⟩
  | none =>
    refine .ofExcept (fun _ => ⟨List.subset_cons_self _ _, nofun⟩) fun secret _ =>
      .stmt fun s₀ => ⟨rfl, ?_⟩
    have hsub : ∀ {x : SignInStmt × SignInState} {before : List (SignInStmt × SignInState)},
      seen ⊆ before →
        seen ⊆ x :: before := fun h => List.subset_cons_of_subset _ h
    rcases SignInState.insertAccount_cases s₀ (w.publicKey (localKey.getD generated))
      v.tenant email with
      ⟨user, -, hinsert⟩ | ⟨-, -, hinsert⟩ | hinserts
    · rw [hinsert]
      refine .read (fun _ => rfl) fun s₁ =>
        .orErr ⟨hsub (hsub (hsub (List.Subset.refl _))), nofun⟩ fun user huser =>
        .write fun s₂ => ⟨rfl, hsub (hsub (hsub (hsub (List.Subset.refl _)))), fun user' heq => ?_⟩
      cases heq
      exact ⟨_, List.mem_cons_of_mem _ List.mem_cons_self, .inl huser⟩
    · rw [hinsert]
      exact ⟨hsub (hsub (List.Subset.refl _)), nofun⟩
    · rw [SignInState.insertAccount_of_inserts hinserts]
      -- the transaction has its row, then its key, then commits
      have hopened : ∀ before,
        opened ((.insertAccount (w.publicKey (localKey.getD generated)) v.tenant email,
          s₀) :: before) =
          some ⟨s₀.newAccount (w.publicKey (localKey.getD generated)) v.tenant email, none⟩ :=
            fun _ => if_pos hinserts
      refine .write fun s₁ => ⟨⟨⟨_, hopened _, rfl⟩, rfl⟩, .write fun s₂ => ⟨⟨?_, rfl⟩, ?_, ?_⟩⟩
      · exact ⟨_, _, congrArg (Option.map _) (hopened _), rfl, rfl, rfl, rfl⟩
      · exact hsub (hsub (hsub (hsub (List.Subset.refl _))))
      · intro user heq
        cases heq
        exact ⟨_, List.mem_cons_self, .inr rfl⟩

theorem deleteSession_meets (email page : String) :
    (plain (deleteSession w v.tenant email page)).Meets (SignInMove w v)
      (fun seen' r => seen ⊆ seen' ∧ ∀ response, r = .ok response →
        ∃ user, AccountFound v.tenant email seen' user ∧
        SessionOf w response.sessionToken user) seen := by
  intro s
  refine ⟨QuietMove.move (.find _), ?_⟩
  show (plain (Prog.bind (.orErr (s.db.findPubkeyByEmail email v.tenant) _) _)).Meets _ _ _
  cases hfound : s.db.findPubkeyByEmail email v.tenant with
  | none => exact ⟨List.subset_cons_self _ _, nofun⟩
  | some user =>
    show (plain (Prog.bind (linkSession w v.tenant user email page true deleteSessionSeconds)
      _)).Meets _ _ _
    refine Prog.Meets.mono ?_
      (plain_meets (P := fun response : VerifyMagicLinkResponse =>
        SessionOf w response.sessionToken user)
      (.bind (linkSession_quiet _ _ _ _ _) fun _ => trivial)
        (.bind (linkSession_of user _ _ _ _) fun _ h => h))
    intro seen' r h
    refine ⟨fun x hx => h.1 (List.mem_cons_of_mem _ hx),
      fun response heq => ⟨user, ?_, h.2 response heq⟩⟩
    exact ⟨_, h.1 List.mem_cons_self, .inl hfound⟩

theorem verifyLink_meets (w : Web) (v : Visit) :
    ((signInSystem w).prog v).Meets (SignInMove w v) (SignInPost w v) [] := by
  show (verifyLink w v.inst v.tenant v.drawn v.generated v.approved v.policyId v.req).Meets _ _ _
  unfold verifyLink
  split
  · exact nofun
  refine .ofExcept (fun _ => nofun) fun localKey _ => .ofExcept (fun _ => nofun) fun grant _ =>
    .stmt fun s => ⟨⟨rfl, rfl⟩, .orErr nofun fun link hlink => ?_⟩
  -- what is left keeps this statement in its history
  have hdone :
    ∀ {seen' : List (SignInStmt × SignInState)} {user : PublicKey}
      {response : VerifyMagicLinkResponse},
      [(SignInStmt.base .consumeMagicLink, s)] ⊆ seen' →
      AccountFound v.tenant link.email seen' user →
      SessionOf w response.sessionToken user → SignInPost w v seen' (.ok (some response)) := by
    intro seen' user response hsub hfound hsession response' heq
    cases heq
    exact ⟨_, hsub List.mem_cons_self, link, user, ⟨rfl, hlink⟩, hfound, hsession⟩
  split
  · refine .bind (Prog.Meets.mono ?_ (deleteSession_meets _ _))
    intro seen' r h
    cases r with
    | error e => exact nofun
    | ok response =>
      obtain ⟨user, hfound, hsession⟩ := h.2 response rfl
      exact hdone h.1 hfound hsession
  · refine .ofExcept (fun _ => nofun) fun _ _ =>
      .bind (Prog.Meets.mono ?_ (findCustomer_meets _ _ _))
    intro seen₁ r h
    cases r with
    | error e => exact nofun
    | ok user =>
      refine .bind
        (Prog.Meets.mono ?_
          (plain_meets (signInSession_quiet user _ _) (signInSession_of user _ _)))
      intro seen₂ r h₂
      cases r with
      | error e => exact nofun
      | ok response =>
        exact hdone (List.Subset.trans h.1 h₂.1) ((h.2 user rfl).mono h₂.1) (h₂.2 response rfl)

end Request

/-! ## Links are consumed once -/

/-- No link with the hash can be consumed any more. -/
def Spent (now : Timestamp) (hash : String) (tenant : TenantId)
    (links : List MagicLinkToken) : Prop :=
  ∀ l ∈ links, l.tokenHash = hash → l.tenantId = tenant → l.consumedAt.isSome = true ∨
    l.expiresAt ≤ now

section Spent

variable {db : Db} {now : Timestamp} {hash : String} {tenant : TenantId}

theorem Spent.later {links : List MagicLinkToken} (h : Spent now hash tenant links) (d : Nat) :
    Spent (now + d) hash tenant links := by
  intro l hl hhash htenant
  rcases h l hl hhash htenant with hconsumed | hexpired
  · exact .inl hconsumed
  · exact .inr (Int.le_trans hexpired (Int.le_add_of_nonneg_right (Int.natCast_nonneg d)))

/-- Another `UPDATE` sets the column, or nothing. -/
theorem Spent.consume {hash' : String} {tenant' : TenantId}
    (h : Spent now hash tenant db.magicLinkTokens) :
    Spent now hash tenant (db.consumeMagicLink now hash' tenant').2.magicLinkTokens := by
  intro l hl hhash htenant
  rcases mem_updateWhere.mp hl with ⟨l₀, -, -, rfl⟩ | ⟨hl, -⟩
  · exact .inl rfl
  · exact h l hl hhash htenant

theorem spent_consume (db : Db) (now : Timestamp) (hash : String) (tenant : TenantId) :
    Spent now hash tenant (db.consumeMagicLink now hash tenant).2.magicLinkTokens := by
  intro l hl hhash htenant
  rcases mem_updateWhere.mp hl with ⟨l₀, -, -, rfl⟩ | ⟨hl, hinvalid⟩
  · exact .inl rfl
  · cases hconsumed : l.consumedAt with
    | some at' => exact .inl rfl
    | none =>
      refine .inr (Int.not_lt.mp fun hlt => ?_)
      simp [hhash, htenant, hconsumed, hlt] at hinvalid

theorem Spent.not_consumed (h : Spent now hash tenant db.magicLinkTokens) :
    (db.consumeMagicLink now hash tenant).1 = none := by
  refine List.find?_eq_none.mpr fun l hl hvalid => ?_
  simp only [Bool.and_eq_true, beq_iff_eq, decide_eq_true_eq] at hvalid
  obtain ⟨⟨⟨hhash, htenant⟩, hnone⟩, hlt⟩ := hvalid
  rcases h l hl hhash htenant with hconsumed | hexpired
  · rw [Option.isNone_iff_eq_none.mp hnone] at hconsumed
    cases hconsumed
  · exact absurd hlt (Int.not_lt.mpr hexpired)

end Spent

section Links

variable {w : Web} {v : Visit} {c : SignInConf}

theorem SignInMove.spent {l : SignInStmt} {seen : List (SignInStmt × SignInState)}
    {s s' : SignInState} {hash : String}
    {tenant : TenantId} (h : SignInMove w v l seen s s')
    (hspent : Spent s.base.now hash tenant s.db.magicLinkTokens) :
    Spent s'.base.now hash tenant s'.db.magicLinkTokens := by
  unfold SignInMove at h
  split at h
  · obtain ⟨-, rfl⟩ := h
    exact hspent.consume
  · obtain ⟨base, hsame, rfl⟩ := h
    show Spent base.now hash tenant base.db.magicLinkTokens
    rw [hsame.now, hsame.magicLinkTokens]
    exact hspent
  · next pubkey tenant' email =>
    subst h
    rcases SignInState.insertAccount_cases s pubkey tenant' email with
      ⟨user, -, hinsert⟩ | ⟨-, -, hinsert⟩ | hinserts
    · rwa [hinsert]
    · rwa [hinsert]
    · rwa [SignInState.insertAccount_of_inserts hinserts]
  · obtain ⟨-, rfl⟩ := h
    exact hspent
  · obtain ⟨-, rfl⟩ := h
    exact hspent
  · subst h
    exact hspent
  · subst h
    exact hspent

/-- A step is one of the system, or the thread waits. -/
theorem signInStep_cases (w : Web) (c : SignInConf) (e : Ev Visit Nat) :
    signInStep w c e = c ∨ signInStep w c e = (signInSystem w).step c e ∧ ∀ i, e = .exec i →
      waits c i = false := by
  cases e with
  | spawn v => exact .inr ⟨rfl, nofun⟩
  | env d => exact .inr ⟨rfl, nofun⟩
  | exec i =>
    cases hwaits : waits c i with
    | true => exact .inl (if_pos hwaits)
    | false =>
      refine .inr ⟨if_neg (by rw [hwaits]; exact nofun), fun j hj => ?_⟩
      rwa [← Ev.exec.inj hj]

/-- What has been consumed cannot be consumed again, and was consumed by one request. -/
structure LinksSpent (w : Web) (c : SignInConf) : Prop where
  meets : System.Meets (SignInMove w) (SignInPost w) c
  first : ∀ t ∈ c.threads, ∀ x ∈ t.seen, x.1 = .base .consumeMagicLink → t.seen.getLast? = some x
  spent : ∀ t ∈ c.threads, ∀ x ∈ t.seen, ∀ link, Consumes w t.req x link →
    Spent c.state.base.now (w.sha256 t.req.req.token) t.req.tenant c.state.db.magicLinkTokens
  once : ∀ (i j : Nat) (ti tj : SignInThread), c.threads[i]? = some ti → c.threads[j]? = some tj →
    ∀ x ∈ ti.seen, ∀ y ∈ tj.seen, ∀ link link',
    Consumes w ti.req x link → Consumes w tj.req y link' →
    w.sha256 ti.req.req.token = w.sha256 tj.req.req.token →
    ti.req.tenant = tj.req.tenant → i = j

theorem LinksSpent.init (w : Web) (s : SignInState) : LinksSpent w (Conf.init s) where
  meets := fun _ ht => nomatch ht
  first := fun _ ht => nomatch ht
  spent := fun _ ht => nomatch ht
  once := fun _ _ _ _ hi => nomatch hi

/-- What is spent stays spent. -/
theorem LinksSpent.state (h : LinksSpent w c) (e : Ev Visit Nat) {hash : String} {tenant : TenantId}
    (hspent : Spent c.state.base.now hash tenant c.state.db.magicLinkTokens) :
    Spent ((signInSystem w).step c e).state.base.now hash tenant
      ((signInSystem w).step c e).state.db.magicLinkTokens := by
  cases e with
  | spawn v => exact hspent
  | env d => exact hspent.later d
  | exec i =>
    rcases h.meets.exec_cases (signInSystem w) i with ⟨hidle, -⟩ | ⟨t, l, -, -, hmove⟩
    · rwa [hidle]
    · exact hmove.spent hspent

theorem LinksSpent.step (h : LinksSpent w c) (e : Ev Visit Nat) :
    LinksSpent w (signInStep w c e) := by
  rcases signInStep_cases w c e with hstay | ⟨hstep, -⟩
  · rwa [hstay]
  rw [hstep]
  have hplace : ∀ {t : SignInThread},
      t ∈ ((signInSystem w).step c e).threads →
        ∃ j, ((signInSystem w).step c e).threads[j]? = some t :=
    fun ht => List.mem_iff_getElem?.mp ht
  -- a request that consumes a link now finds none of a hash that is spent
  have hnew : ∀ {t₀ : SignInThread} {l : SignInStmt} {link : MagicLinkToken},
    Consumes w t₀.req (l, c.state) link →
      ¬ Spent c.state.base.now (w.sha256 t₀.req.req.token) t₀.req.tenant
        c.state.db.magicLinkTokens := by
    intro t₀ l link hlink hspent
    cases hspent.not_consumed.symm.trans hlink.2
  refine ⟨System.meets_step (verifyLink_meets w) e h.meets, ?_, ?_, ?_⟩
  · intro t ht x hx hl
    obtain ⟨j, hj⟩ := hplace ht
    rcases System.getElem?_step _ hj with
      ⟨hold, -⟩ | ⟨r, -, rfl⟩ | ⟨t₀, l, rfl, hj₀, hnext, hreq, hseen⟩
    · exact h.first t (List.mem_of_getElem? hold) x hx hl
    · cases hx
    · rw [hseen] at hx ⊢
      rcases List.mem_cons.mp hx with rfl | hx
      · have hmove := h.meets.exec (signInSystem w) hj₀ hnext
        obtain rfl : l = .base .consumeMagicLink := hl
        rw [hmove.1]
        rfl
      · rw [List.getLast?_cons, h.first t₀ (List.mem_of_getElem? hj₀) x hx hl]
        rfl
  · intro t ht x hx link hlink
    obtain ⟨j, hj⟩ := hplace ht
    obtain ⟨t₀, hj₀, hreq, hx | ⟨rfl, l, hnext, rfl⟩⟩ := System.mem_seen_step _ hj hx
    · rw [← hreq] at hlink ⊢
      exact h.state e (h.spent t₀ (List.mem_of_getElem? hj₀) x hx link hlink)
    · have hmove := h.meets.exec (signInSystem w) hj₀ hnext
      obtain rfl : l = .base .consumeMagicLink := hlink.1
      rw [hmove.2, ← hreq]
      exact spent_consume _ _ _ _
  · intro i j ti tj hi hj x hx y hy link link' hlink hlink' hhash htenant
    obtain ⟨ti₀, hi₀, hreqi, hx⟩ := System.mem_seen_step _ hi hx
    obtain ⟨tj₀, hj₀, hreqj, hy⟩ := System.mem_seen_step _ hj hy
    rw [← hreqi] at hlink hhash htenant
    rw [← hreqj] at hlink' hhash htenant
    rcases hx with hx | ⟨rfl, l, -, rfl⟩
    · rcases hy with hy | ⟨rfl, l, -, rfl⟩
      · exact h.once i j ti₀ tj₀ hi₀ hj₀ x hx y hy link link' hlink hlink' hhash htenant
      · have hspent := h.spent ti₀ (List.mem_of_getElem? hi₀) x hx link hlink
        rw [hhash, htenant] at hspent
        exact absurd hspent (hnew hlink')
    · rcases hy with hy | ⟨heq, -⟩
      · have hspent := h.spent tj₀ (List.mem_of_getElem? hj₀) y hy link' hlink'
        rw [← hhash, ← htenant] at hspent
        exact absurd hspent (hnew hlink)
      · exact Ev.exec.inj heq

end Links

/-! ## Accounts are created once -/

/-- The rows of all accounts, those of open transactions included. -/
def SignInState.rows (s : SignInState) : List User := s.db.users ++ s.openAccounts.map (·.user)

/-- The rows meet the constraints, and the account of the address has one key. -/
structure AccountsSound (tenant : TenantId) (email : String) (s : SignInState) : Prop where
  unique : Db.UsersUnique s.rows
  keys : ∀ k ∈ s.db.personalKeys, ∃ u ∈ s.db.users, u.pubkey = k.userPubkey
  oneKey : ∀ u ∈ s.db.users, u.tenantId = tenant → u.email = some email →
    ∃ key, s.db.personalKeys.filter (·.userPubkey == u.pubkey) = [key]

/-- Rows are added, and no key to an account that was there. -/
structure AccountsGrow (db db' : Db) : Prop where
  users : db.users <+: db'.users
  keys : ∀ u ∈ db.users, db'.personalKeys.filter (·.userPubkey == u.pubkey) =
    db.personalKeys.filter (·.userPubkey == u.pubkey)

theorem AccountsGrow.of_same {db db' : Db} (husers : db'.users = db.users)
    (hkeys : db'.personalKeys = db.personalKeys) :
    AccountsGrow db db' := by
  refine ⟨?_, fun u hu => ?_⟩
  · rw [husers]
  · rw [hkeys]

theorem AccountsGrow.trans {db db' db'' : Db} (h : AccountsGrow db db')
    (h' : AccountsGrow db' db'') :
    AccountsGrow db db'' :=
  ⟨h.users.trans h'.users, fun u hu => (h'.keys u (h.users.subset hu)).trans (h.keys u hu)⟩

section Accounts

variable {tenant : TenantId} {email : String} {s s' : SignInState}

theorem AccountsSound.of_same (h : AccountsSound tenant email s) (husers : s'.db.users = s.db.users)
    (hkeys : s'.db.personalKeys = s.db.personalKeys)
    (hopen : s'.openAccounts.map (·.user) = s.openAccounts.map (·.user)) :
    AccountsSound tenant email s' := by
  refine ⟨?_, ?_, ?_⟩
  · unfold SignInState.rows
    rw [husers, hopen]
    exact h.unique
  · rw [husers, hkeys]
    exact h.keys
  · rw [husers, hkeys]
    exact h.oneKey

/-- An account that is not committed yet is a new one. -/
theorem AccountsSound.new (h : AccountsSound tenant email s) {u : User} (hu : u ∈ s.db.users)
    {o : OpenAccount}
    (ho : o ∈ s.openAccounts) : u.pubkey ≠ o.user.pubkey := by
  intro hkey
  have hno := (List.pairwise_append.mp h.unique).2.2 u hu o.user (List.mem_map_of_mem ho)
  cases (Db.conflicts_of_pubkey hkey).symm.trans hno

/-- A row goes in where no other is in its way. -/
theorem AccountsSound.insert (h : AccountsSound tenant email s) {pubkey : PublicKey}
    {tenant' : TenantId} {email' : String}
    (hinserts : s.Inserts pubkey tenant' email') (hfree : s.blocks pubkey tenant' email' = false) :
    AccountsSound tenant email
      { s with openAccounts := ⟨s.newAccount pubkey tenant' email', none⟩ :: s.openAccounts } := by
  refine ⟨?_, h.keys, h.oneKey⟩
  have hclear : s.rows.any (Db.conflicts (s.newAccount pubkey tenant' email')) = false := by
    unfold SignInState.blocks at hfree
    rw [hinserts.1, Option.isNone_none, Bool.true_and] at hfree
    rw [SignInState.rows, List.any_append, hinserts.2, List.any_map, Bool.false_or]
    exact hfree
  refine (h.unique.insert hclear).perm ?_
  show (s.db.users ++ s.openAccounts.map OpenAccount.user ++ [_]).Perm
    (s.db.users ++ _ :: s.openAccounts.map OpenAccount.user)
  rw [List.append_assoc]
  exact List.Perm.append_left _ (List.perm_append_singleton _ _)

theorem AccountsSound.insertKey (h : AccountsSound tenant email s) (key : PersonalKey) :
    AccountsSound tenant email (s.insertAccountKey key) := by
  refine h.of_same rfl rfl ?_
  exact map_updateWhere (f := fun o : OpenAccount => { o with key := some key }) (fun _ => rfl) _

/-- What a transaction commits is what it has inserted. -/
theorem AccountsSound.committed (h : AccountsSound tenant email s) {user : User} {key : PersonalKey}
    (ho : ⟨user, some key⟩ ∈ s.openAccounts) :
    (s.commitAccount user.pubkey).db.users = s.db.users ++ [user] ∧
      (s.commitAccount user.pubkey).db.personalKeys = s.db.personalKeys ++ [key] := by
  have hopen : Db.UsersUnique (s.openAccounts.map (·.user)) :=
    (List.pairwise_append.mp h.unique).2.1
  have honly : s.openAccounts.filter (·.user.pubkey == user.pubkey) = [⟨user, some key⟩] := by
    refine filter_eq_singleton (List.Nodup.of_map _ hopen.nodup) ho (beq_self_eq_true _)
      fun o' ho' hkey => ?_
    refine List.inj_on_of_nodup_map hopen.nodup ho' ho ?_
    exact hopen.eq_of_pubkey (List.mem_map_of_mem ho') (List.mem_map_of_mem (f := (·.user)) ho)
      (beq_iff_eq.mp hkey)
  constructor
  · show s.db.users ++ (s.openAccounts.filter (·.user.pubkey == user.pubkey)).map (·.user) = _
    rw [honly]
    rfl
  · show s.db.personalKeys ++
      (s.openAccounts.filter (·.user.pubkey == user.pubkey)).filterMap (·.key) = _
    rw [honly]
    rfl

theorem AccountsSound.commit (h : AccountsSound tenant email s) {user : User} {key : PersonalKey}
    (ho : ⟨user, some key⟩ ∈ s.openAccounts) (hkey : key.userPubkey = user.pubkey) :
    AccountsSound tenant email (s.commitAccount user.pubkey) ∧
      AccountsGrow s.db (s.commitAccount user.pubkey).db := by
  obtain ⟨husers, hkeys⟩ := h.committed ho
  -- the new key is the one key of the new account and no other's
  have hold : ∀ u ∈ s.db.users, (s.db.personalKeys ++ [key]).filter (·.userPubkey == u.pubkey) =
      s.db.personalKeys.filter (·.userPubkey == u.pubkey) := by
    intro u hu
    have hne : (key.userPubkey == u.pubkey) = false := by
      rw [hkey]
      exact beq_false_of_ne fun heq => h.new hu ho heq.symm
    rw [List.filter_append, List.filter_singleton, hne]
    exact List.append_nil _
  have hnew : (s.db.personalKeys ++ [key]).filter (·.userPubkey == user.pubkey) = [key] := by
    have hnone : s.db.personalKeys.filter (·.userPubkey == user.pubkey) = [] := by
      refine List.filter_eq_nil_iff.mpr fun k hk hof => ?_
      obtain ⟨u, hu, hof'⟩ := h.keys k hk
      exact h.new hu ho (hof'.trans (beq_iff_eq.mp hof))
    rw [List.filter_append, hnone, List.filter_singleton, beq_iff_eq.mpr hkey]
    rfl
  refine ⟨⟨?_, ?_, ?_⟩, ?_, ?_⟩
  · refine h.unique.perm (List.Perm.symm ?_)
    show ((s.db.users ++ (s.openAccounts.filter (·.user.pubkey == user.pubkey)).map (·.user)) ++
      (s.openAccounts.filter (·.user.pubkey != user.pubkey)).map (·.user)).Perm _
    rw [List.append_assoc, ← List.map_append]
    exact List.Perm.append_left _ ((List.filter_append_perm _ _).map _)
  · rw [husers, hkeys]
    intro k hk
    rcases List.mem_append.mp hk with hk | hk
    · obtain ⟨u, hu, hof⟩ := h.keys k hk
      exact ⟨u, List.mem_append_left _ hu, hof⟩
    · rw [List.mem_singleton.mp hk]
      exact ⟨user, List.mem_append_right _ List.mem_cons_self, hkey.symm⟩
  · rw [husers, hkeys]
    intro u hu htenant hemail
    rcases List.mem_append.mp hu with hu | hu
    · rw [hold u hu]
      exact h.oneKey u hu htenant hemail
    · rw [List.mem_singleton.mp hu]
      exact ⟨key, hnew⟩
  · rw [husers]
    exact List.prefix_append _ _
  · rw [hkeys]
    exact hold

end Accounts

section Held

variable {w : Web} {v : Visit} {tenant : TenantId} {email : String} {c : SignInConf}

/-- **What a statement does to accounts**: nothing, or one of the three of a transaction that
creates one. -/
theorem SignInMove.cases {l : SignInStmt} {seen : List (SignInStmt × SignInState)}
    {s s' : SignInState}
    (h : SignInMove w v l seen s s') :
    (s'.db.users = s.db.users ∧ s'.db.personalKeys = s.db.personalKeys ∧
      s'.openAccounts = s.openAccounts ∧
      opened ((l, s) :: seen) = none ∧
        ∀ pubkey tenant email, l ≠ .commitAccount pubkey tenant email) ∨
    (∃ pubkey tenant email, l = .insertAccount pubkey tenant email ∧ s.Inserts pubkey tenant email ∧
      s' = { s with openAccounts := ⟨s.newAccount pubkey tenant email, none⟩ :: s.openAccounts }) ∨
    (∃ key user, l = .insertAccountKey key ∧ opened seen = some ⟨user, none⟩ ∧
      user.pubkey = key.userPubkey ∧
      s' = s.insertAccountKey key) ∨
    ∃ user email key, l = .commitAccount user.pubkey user.tenantId email ∧ user.email = some email ∧
      opened seen = some ⟨user, some key⟩ ∧ key.userPubkey = user.pubkey ∧
        s' = s.commitAccount user.pubkey := by
  unfold SignInMove at h
  split at h
  · obtain ⟨-, rfl⟩ := h
    exact .inl ⟨rfl, rfl, rfl, rfl, nofun⟩
  · obtain ⟨base, hsame, rfl⟩ := h
    exact .inl ⟨hsame.users, hsame.personalKeys, rfl, rfl, nofun⟩
  · next pubkey tenant email =>
    rcases SignInState.insertAccount_cases s pubkey tenant email with
      ⟨user, hfound, hinsert⟩ | ⟨-, hclash, hinsert⟩ | hinserts
    · rw [hinsert] at h
      subst h
      refine .inl ⟨rfl, rfl, rfl, if_neg fun hinserts => ?_, nofun⟩
      cases hfound.symm.trans hinserts.1
    · rw [hinsert] at h
      subst h
      refine .inl ⟨rfl, rfl, rfl, if_neg fun hinserts => ?_, nofun⟩
      cases hclash.symm.trans hinserts.2
    · rw [SignInState.insertAccount_of_inserts hinserts] at h
      exact .inr (.inl ⟨pubkey, tenant, email, rfl, hinserts, h⟩)
  · obtain ⟨⟨user, hopened, hkey⟩, rfl⟩ := h
    exact .inr (.inr (.inl ⟨_, user, rfl, hopened, hkey, rfl⟩))
  · obtain ⟨⟨user, key, hopened, rfl, rfl, hemail, hkey⟩, rfl⟩ := h
    exact .inr (.inr (.inr ⟨user, _, key, rfl, hemail, hopened, hkey, rfl⟩))
  · subst h
    exact .inl ⟨rfl, rfl, rfl, rfl, nofun⟩
  · subst h
    exact .inl ⟨rfl, rfl, rfl, rfl, nofun⟩

/-- What the threads of a run hold: the open rows are those of one thread each, and an account a
request has seen or committed is there. -/
structure AccountsHeld (w : Web) (tenant : TenantId) (email : String) (c : SignInConf) : Prop where
  meets : System.Meets (SignInMove w) (SignInPost w) c
  sound : AccountsSound tenant email c.state
  owned : ∀ (i : Nat) (t : SignInThread) (o : OpenAccount), c.threads[i]? = some t →
    opened t.seen = some o →
    o ∈ c.state.openAccounts
  apart : ∀ (i j : Nat) (ti tj : SignInThread) (oi oj : OpenAccount), c.threads[i]? = some ti →
    c.threads[j]? = some tj →
    opened ti.seen = some oi → opened tj.seen = some oj → oi.user.pubkey = oj.user.pubkey → i = j
  found : ∀ t ∈ c.threads, ∀ tenant email user, AccountFound tenant email t.seen user →
    ∃ u ∈ c.state.db.users, u.pubkey = user ∧ u.tenantId = tenant ∧ u.email = some email

/-- What one statement of a thread gives, if it does not wait. -/
structure AccountStep (tenant : TenantId) (email : String) (c : SignInConf) (i : Nat)
    (t : SignInThread) (l : SignInStmt)
    (s' : SignInState) : Prop where
  sound : AccountsSound tenant email s'
  grows : AccountsGrow c.state.db s'.db
  mine : ∀ o, opened ((l, c.state) :: t.seen) = some o → o ∈ s'.openAccounts
  others : ∀ (j : Nat) (t' : SignInThread) o, c.threads[j]? = some t' →
    opened t'.seen = some o → j ≠ i →
    o ∈ s'.openAccounts
  apart : ∀ o, opened ((l, c.state) :: t.seen) = some o →
    ∀ (j : Nat) (t' : SignInThread) o', c.threads[j]? = some t' →
    opened t'.seen = some o' → o.user.pubkey = o'.user.pubkey → i = j
  committed : ∀ user tenant email, l = .commitAccount user tenant email →
    ∃ u ∈ s'.db.users, u.pubkey = user ∧ u.tenantId = tenant ∧ u.email = some email

theorem AccountsHeld.exec (h : AccountsHeld w tenant email c) {i : Nat} {t : SignInThread}
    {l : SignInStmt}
    {s' : SignInState} (ht : c.threads[i]? = some t) (hl : t.next? = some l)
    (hwaits : waits c i = false)
    (hmove : SignInMove w t.req l t.seen c.state s') : AccountStep tenant email c i t l s' := by
  rcases hmove.cases with
    ⟨husers, hkeys, hopen, hnone, hcommit⟩ | ⟨pubkey, tenant', email', rfl, hinserts, rfl⟩ |
      ⟨key, user, rfl, hopened, hof, rfl⟩ | ⟨user, email', key, rfl, hemail, hopened, hof, rfl⟩
  · refine ⟨h.sound.of_same husers hkeys (by rw [hopen]), .of_same husers hkeys, ?_, ?_, ?_, ?_⟩
    · intro o ho
      cases hnone.symm.trans ho
    · intro j t' o ht' ho _
      rw [hopen]
      exact h.owned j t' o ht' ho
    · intro o ho
      cases hnone.symm.trans ho
    · exact fun user tenant email heq => absurd heq (hcommit user tenant email)
  · have hfree : c.state.blocks pubkey tenant' email' = false := by
      unfold waits at hwaits
      rw [ht, Option.bind_some, hl] at hwaits
      exact hwaits
    have hopened : opened ((.insertAccount pubkey tenant' email', c.state) :: t.seen) =
        some ⟨c.state.newAccount pubkey tenant' email', none⟩ := if_pos hinserts
    refine ⟨h.sound.insert hinserts hfree, .of_same rfl rfl, ?_, ?_, ?_, nofun⟩
    · intro o ho
      cases hopened.symm.trans ho
      exact List.mem_cons_self
    · intro j t' o ht' ho _
      exact List.mem_cons_of_mem _ (h.owned j t' o ht' ho)
    · -- another transaction with the same key would have made this one wait
      intro o ho j t' o' ht' ho' hkey
      cases hopened.symm.trans ho
      unfold SignInState.blocks at hfree
      rw [hinserts.1, Option.isNone_none, Bool.true_and] at hfree
      exact absurd (Db.conflicts_of_pubkey hkey)
        (List.any_eq_false.mp hfree o' (h.owned j t' o' ht' ho'))
  · have hopened' : opened ((.insertAccountKey key, c.state) :: t.seen) = some ⟨user, some key⟩ :=
      congrArg (Option.map _) hopened
    refine ⟨h.sound.insertKey key, .of_same rfl rfl, ?_, ?_, ?_, nofun⟩
    · intro o ho
      cases hopened'.symm.trans ho
      exact mem_updateWhere.mpr (.inl ⟨_, h.owned i t _ ht hopened, beq_iff_eq.mpr hof, rfl⟩)
    · intro j t' o ht' ho hne
      refine mem_updateWhere.mpr (.inr ⟨h.owned j t' o ht' ho, beq_false_of_ne fun hkey => hne ?_⟩)
      exact h.apart j i t' t o _ ht' ht ho hopened (hkey.trans hof.symm)
    · intro o ho j t' o' ht' ho' hkey
      cases hopened'.symm.trans ho
      exact h.apart i j t t' _ o' ht ht' hopened ho' hkey
  · have hmine := h.owned i t _ ht hopened
    obtain ⟨hsound, hgrows⟩ := h.sound.commit hmine hof
    have hnone :
      opened ((.commitAccount user.pubkey user.tenantId email', c.state) :: t.seen) = none := rfl
    refine ⟨hsound, hgrows, fun o ho => ?_, ?_, fun o ho => ?_, ?_⟩
    · cases hnone.symm.trans ho
    · intro j t' o ht' ho hne
      refine List.mem_filter.mpr ⟨h.owned j t' o ht' ho, bne_iff_ne.mpr fun hkey => hne ?_⟩
      exact h.apart j i t' t o _ ht' ht ho hopened hkey
    · cases hnone.symm.trans ho
    · intro pubkey tenant'' email'' heq
      cases heq
      refine ⟨user, ?_, rfl, rfl, hemail⟩
      rw [(h.sound.committed hmine).1]
      exact List.mem_append_right _ List.mem_cons_self

theorem AccountsHeld.step (h : AccountsHeld w tenant email c) (e : Ev Visit Nat) :
    AccountsHeld w tenant email (signInStep w c e) ∧
      AccountsGrow c.state.db (signInStep w c e).state.db := by
  rcases signInStep_cases w c e with hstay | ⟨hstep, hwaits⟩
  · rw [hstay]
    exact ⟨h, .of_same rfl rfl⟩
  rw [hstep]
  have hmeets := System.meets_step (verifyLink_meets w) e h.meets
  -- a step that changes no account and is no statement of any thread
  have hquiet : ∀ c' : SignInConf, System.Meets (SignInMove w) (SignInPost w) c' →
      c'.state.db.users = c.state.db.users → c'.state.db.personalKeys = c.state.db.personalKeys →
      c'.state.openAccounts = c.state.openAccounts →
      (∀ (j : Nat) (t : SignInThread), c'.threads[j]? = some t → c.threads[j]? = some t ∨
        t.seen = []) →
      AccountsHeld w tenant email c' ∧ AccountsGrow c.state.db c'.state.db := by
    intro c' hmeets' husers hkeys hopen hthreads
    refine ⟨⟨hmeets', h.sound.of_same husers hkeys (by rw [hopen]), ?_, ?_, ?_⟩,
      .of_same husers hkeys⟩
    · intro j t o ht ho
      rw [hopen]
      rcases hthreads j t ht with hold | hnew
      · exact h.owned j t o hold ho
      · rw [hnew] at ho
        cases ho
    · intro i j ti tj oi oj hi hj hoi hoj hkey
      rcases hthreads i ti hi with hi | hnew
      · rcases hthreads j tj hj with hj | hnew
        · exact h.apart i j ti tj oi oj hi hj hoi hoj hkey
        · rw [hnew] at hoj
          cases hoj
      · rw [hnew] at hoi
        cases hoi
    · intro t ht tenant' email' user hfound
      rw [husers]
      obtain ⟨j, hj⟩ := List.mem_iff_getElem?.mp ht
      rcases hthreads j t hj with hold | hnew
      · exact h.found t (List.mem_of_getElem? hold) tenant' email' user hfound
      · obtain ⟨x, hx, -⟩ := hfound
        rw [hnew] at hx
        cases hx
  cases e with
  | spawn r =>
    refine hquiet _ hmeets rfl rfl rfl fun j t ht => ?_
    rcases System.getElem?_step _ ht with ⟨hold, -⟩ | ⟨r, -, rfl⟩ | ⟨t₀, l, he, -⟩
    · exact .inl hold
    · exact .inr rfl
    · cases he
  | env d => exact hquiet _ hmeets rfl rfl rfl fun j t ht => .inl ht
  | exec i =>
    rcases h.meets.exec_cases (signInSystem w) i with ⟨hidle, hnext⟩ | ⟨t, l, hi, hl, hmove⟩
    · refine hquiet _ hmeets (by rw [hidle]) (by rw [hidle]) (by rw [hidle]) fun j t ht => ?_
      rcases System.getElem?_step _ ht with ⟨hold, -⟩ | ⟨r, he, -⟩ | ⟨t₀, l, he, hj, hl, -⟩
      · exact .inl hold
      · cases he
      · cases Ev.exec.inj he
        rw [hj, Option.bind_some, hl] at hnext
        cases hnext
    have hstep := h.exec hi hl (hwaits i rfl) hmove
    -- a thread after the step: the one that moved, or one as it was
    have hthreads : ∀ (j : Nat) (t' : SignInThread),
      ((signInSystem w).step c (.exec i)).threads[j]? = some t' →
        (j ≠ i ∧ c.threads[j]? = some t') ∨ j = i ∧ t'.seen = (l, c.state) :: t.seen := by
      intro j t' ht'
      rcases System.getElem?_step _ ht' with
        ⟨hold, hstay⟩ | ⟨r, he, -⟩ | ⟨t₀, l', he, hj, hl', -, hseen⟩
      · refine .inl ⟨?_, hold⟩
        rintro rfl
        cases hi.symm.trans hold
        cases hl.symm.trans (hstay rfl)
      · cases he
      · cases Ev.exec.inj he
        cases hi.symm.trans hj
        cases hl.symm.trans hl'
        exact .inr ⟨rfl, hseen⟩
    refine ⟨⟨hmeets, hstep.sound, ?_, ?_, ?_⟩, hstep.grows⟩
    · intro j t' o ht' ho
      rcases hthreads j t' ht' with ⟨hne, hold⟩ | ⟨rfl, hseen⟩
      · exact hstep.others j t' o hold ho hne
      · rw [hseen] at ho
        exact hstep.mine o ho
    · intro j k tj tk oj ok hj hk hoj hok hkey
      rcases hthreads j tj hj with ⟨-, hj₀⟩ | ⟨rfl, hseen⟩
      · rcases hthreads k tk hk with ⟨-, hk₀⟩ | ⟨rfl, hseen'⟩
        · exact h.apart j k tj tk oj ok hj₀ hk₀ hoj hok hkey
        · rw [hseen'] at hok
          exact (hstep.apart ok hok j tj oj hj₀ hoj hkey.symm).symm
      · rw [hseen] at hoj
        rcases hthreads k tk hk with ⟨-, hk₀⟩ | ⟨rfl, -⟩
        · exact hstep.apart oj hoj k tk ok hk₀ hok hkey
        · rfl
    · intro t' ht' tenant' email' user hfound
      have hkept : ∀ {u : User}, u ∈ c.state.db.users →
        u ∈ ((signInSystem w).step c (.exec i)).state.db.users :=
        fun hu => hstep.grows.users.subset hu
      obtain ⟨j, hj⟩ := List.mem_iff_getElem?.mp ht'
      rcases hthreads j t' hj with ⟨-, hold⟩ | ⟨-, hseen⟩
      · obtain ⟨u, hu, hrow⟩ := h.found t' (List.mem_of_getElem? hold) tenant' email' user hfound
        exact ⟨u, hkept hu, hrow⟩
      · obtain ⟨x, hx, hsaw⟩ := hfound
        rw [hseen] at hx
        rcases List.mem_cons.mp hx with rfl | hx
        · rcases hsaw with hsaw | hcommit
          · obtain ⟨u, hu, rfl⟩ := Option.map_eq_some_iff.mp hsaw
            have hrow := List.find?_some hu
            simp only [Bool.and_eq_true, beq_iff_eq] at hrow
            exact ⟨u, hkept (List.mem_of_find?_eq_some hu), rfl, hrow.2, hrow.1⟩
          · exact hstep.committed user tenant' email' hcommit
        · obtain ⟨u, hu, hrow⟩ :=
            h.found t (List.mem_of_getElem? hi) tenant' email' user ⟨x, hx, hsaw⟩
          exact ⟨u, hkept hu, hrow⟩

/-- In every run accounts are only added. -/
theorem AccountsHeld.run (h : AccountsHeld w tenant email c) (es : List (Ev Visit Nat)) :
    AccountsHeld w tenant email (Lib.run (signInStep w) c es) ∧
      AccountsGrow c.state.db (Lib.run (signInStep w) c es).state.db := by
  induction es generalizing c with
  | nil => exact ⟨h, .of_same rfl rfl⟩
  | cons e es ih =>
    obtain ⟨hheld, hgrows⟩ := h.step e
    obtain ⟨hend, hrest⟩ := ih hheld
    exact ⟨hend, hgrows.trans hrest⟩

theorem LinksSpent.run (h : LinksSpent w c) (es : List (Ev Visit Nat)) :
    LinksSpent w (Lib.run (signInStep w) c es) := by
  induction es generalizing c with
  | nil => exact h
  | cons e es ih => exact ih (h.step e)

/-- A valid database in which the address has no account. -/
theorem AccountsHeld.init {s : SignInState} (hrest : s.openAccounts = [])
    (hunique : Db.UsersUnique s.db.users)
    (hkeys : ∀ k ∈ s.db.personalKeys, ∃ u ∈ s.db.users, u.pubkey = k.userPubkey)
    (hnone : s.db.findPubkeyByEmail email tenant = none) :
      AccountsHeld w tenant email (Conf.init s) where
  meets := fun _ ht => nomatch ht
  sound := by
    refine ⟨?_, hkeys, fun u hu htenant hemail => ?_⟩
    · show Db.UsersUnique (s.db.users ++ s.openAccounts.map (·.user))
      rw [hrest, List.map_nil, List.append_nil]
      exact hunique
    · have hno := List.find?_eq_none.mp (Option.map_eq_none_iff.mp hnone) u hu
      simp [htenant, hemail] at hno
  owned := fun _ _ _ ht => nomatch ht
  apart := fun _ _ _ _ _ _ ht => nomatch ht
  found := fun _ ht => nomatch ht

/-- The one row of the address and its one key. -/
def OneAccount (tenant : TenantId) (email : String) (db : Db) (u : User)
    (key : PersonalKey) : Prop :=
  (db.users.filter fun u => u.email == some email && u.tenantId == tenant) = [u] ∧
    db.personalKeys.filter (·.userPubkey == u.pubkey) = [key]

instance (tenant : TenantId) (email : String) (db : Db) (u : User) (key : PersonalKey) :
    Decidable (OneAccount tenant email db u key) := inferInstanceAs (Decidable (_ ∧ _))

theorem AccountsSound.oneAccount {s : SignInState} (h : AccountsSound tenant email s) {u : User}
    (hu : u ∈ s.db.users)
    (htenant : u.tenantId = tenant)
    (hemail : u.email = some email) : ∃ key, OneAccount tenant email s.db u key := by
  obtain ⟨key, hkey⟩ := h.oneKey u hu htenant hemail
  have hunique : Db.UsersUnique s.db.users := (List.pairwise_append.mp h.unique).1
  refine ⟨key, filter_eq_singleton hunique.nodup hu (by simp [htenant, hemail])
    fun u' hu' hrow => ?_, hkey⟩
  simp only [Bool.and_eq_true, beq_iff_eq] at hrow
  exact hunique.eq_of_email hu' hu (hrow.2.trans htenant.symm) hrow.1 hemail

/-- The account of an address does not change any more. -/
theorem AccountsSound.kept {s s' : SignInState} (h' : AccountsSound tenant email s')
    (hgrows : AccountsGrow s.db s'.db)
    {u : User} {key : PersonalKey}
    (hone : OneAccount tenant email s.db u key) : OneAccount tenant email s'.db u key := by
  have hmem : u ∈ s.db.users.filter fun u => u.email == some email && u.tenantId == tenant := by
    rw [hone.1]
    exact List.mem_cons_self
  obtain ⟨hu, hrow⟩ := List.mem_filter.mp hmem
  simp only [Bool.and_eq_true, beq_iff_eq] at hrow
  obtain ⟨key', hone'⟩ := h'.oneAccount (hgrows.users.subset hu) hrow.2 hrow.1
  exact ⟨hone'.1, (hgrows.keys u hu).trans hone.2⟩

end Held

/-- **First sign-ins agree.** Whatever requests are made and however their statements interleave: a
link is consumed by one statement of one request; an answer with a session is for a consumed link,
and if the link is of the address, then the address has one row, its key has one `personal_keys`
row, and the session is for that key; and a row and a key that are there stay. -/
theorem first_sign_ins_agree (w : Web) {tenant : TenantId} {email : String} {s : SignInState}
    (hrest : s.openAccounts = [])
    (hunique : Db.UsersUnique s.db.users)
    (hkeys : ∀ k ∈ s.db.personalKeys, ∃ u ∈ s.db.users, u.pubkey = k.userPubkey)
    (hfirst : s.db.findPubkeyByEmail email tenant = none) (es : List (Ev Visit Nat)) :
    (∀ (i j : Nat) (ti tj : SignInThread),
      (run (signInStep w) (Conf.init s) es).threads[i]? = some ti →
      (run (signInStep w) (Conf.init s) es).threads[j]? = some tj →
        ∀ x ∈ ti.seen, ∀ y ∈ tj.seen, ∀ link link',
      Consumes w ti.req x link → Consumes w tj.req y link' →
      w.sha256 ti.req.req.token = w.sha256 tj.req.req.token →
      ti.req.tenant = tj.req.tenant → i = j ∧ x = y) ∧
    (∀ t ∈ (run (signInStep w) (Conf.init s) es).threads, ∀ response,
      t.result? = some (.ok (some response)) →
      ∃ x ∈ t.seen, ∃ link, Consumes w t.req x link ∧ (link.email = email → t.req.tenant = tenant →
        ∃ u key, OneAccount tenant email (run (signInStep w) (Conf.init s) es).state.db u key ∧
          SessionOf w response.sessionToken u.pubkey)) ∧
    ∀ pre post, es = pre ++ post → ∀ u key,
      OneAccount tenant email (run (signInStep w) (Conf.init s) pre).state.db u key →
      OneAccount tenant email (run (signInStep w) (Conf.init s) es).state.db u key := by
  have hheld := AccountsHeld.init (w := w) hrest hunique hkeys hfirst
  have hlinks := (LinksSpent.init w s).run es
  refine ⟨?_, ?_, ?_⟩
  · intro i j ti tj hi hj x hx y hy link link' hlink hlink' hhash htenant
    obtain rfl := hlinks.once i j ti tj hi hj x hx y hy link link' hlink hlink' hhash htenant
    cases hi.symm.trans hj
    have hlast := hlinks.first ti (List.mem_of_getElem? hi) x hx hlink.1
    have hlast' := hlinks.first ti (List.mem_of_getElem? hi) y hy hlink'.1
    exact ⟨rfl, Option.some.inj (hlast.symm.trans hlast')⟩
  · intro t ht response hresult
    have hend := (hheld.run es).1
    obtain ⟨x, hx, link, user, hlink, hfound, hsession⟩ := hend.meets.result ht hresult response rfl
    refine ⟨x, hx, link, hlink, fun hemail htenant => ?_⟩
    obtain ⟨u, hu, rfl, hrow⟩ := hend.found t ht t.req.tenant link.email user hfound
    obtain ⟨key, hone⟩ :=
      hend.sound.oneAccount hu (hrow.1.trans htenant) (hrow.2.trans (congrArg some hemail))
    exact ⟨u, key, hone, hsession⟩
  · rintro pre post rfl u key hone
    have hmiddle := (hheld.run pre).1
    have hend := hmiddle.run post
    rw [run_append]
    exact hend.1.sound.kept hend.2 hone

/-! Two links for a new customer are clicked at once, in two browsers with a key each. Both requests
find no account; the second one's `INSERT` waits for the first one's transaction and then finds its
row. -/

def newcomerWeb : Web := { Web.symbolic [] [] with customerTenant := some 1 }

def newcomerLink (token : String) : MagicLinkToken where
  tenantId := 1
  email := "p@example.com"
  tokenHash := "sha256:" ++ token
  purpose := .signIn
  appOrigin := "https://app.example"
  expiresAt := 900000000
  createdAt := 0

def newcomerRows : Db := { magicLinkTokens := [newcomerLink "one", newcomerLink "two"] }

def newcomerClick (token key : String) : Visit where
  inst := 0
  tenant := 1
  drawn := ⟨none, 1, "h", "r"⟩
  generated := "sk"
  approved := none
  policyId := 0
  req := { token, localKey := some key }

/-- The first request's transaction has committed; the second one's `INSERT` has been tried while it
was open. -/
def firstCommitted : List (Ev Visit Nat) :=
  [.spawn (newcomerClick "one" "k1"), .spawn (newcomerClick "two" "k2"), .exec 0, .exec 1,
    .exec 0, .exec 1,
    .exec 0, .exec 1, .exec 0, .exec 1, .exec 0]

def atOnce : List (Ev Visit Nat) := firstCommitted ++ [.exec 1, .exec 1, .exec 1, .exec 0, .exec 1]

def newcomers : SignInConf :=
  run (signInStep newcomerWeb) (Conf.init (atRest (.boot newcomerRows 0))) atOnce

def newcomer : User where
  pubkey := "pub:k1"
  tenantId := 1
  email := some "p@example.com"
  emailVerified := true
  createdAt := 0

theorem first_sign_ins_agree_at_once :
    (newcomers.threads.map fun t => t.result?.map fun r => r.toOption.join.map (·.sessionToken)) =
      [some (some "ucan of pub:k1 for no bunker from https://app.example"),
        some (some "ucan of pub:k1 for no bunker from https://app.example")] ∧
    OneAccount 1 "p@example.com" newcomers.state.db newcomer ⟨"pub:k1", 1, "k1"⟩ := by
  refine ⟨by decide, ?_⟩
  refine (first_sign_ins_agree newcomerWeb (s := atRest (.boot newcomerRows 0)) rfl (by decide)
    (fun k hk => nomatch hk)
    (by decide) atOnce).2.2 firstCommitted _ rfl newcomer _ ?_
  decide

end Keycast.Http
