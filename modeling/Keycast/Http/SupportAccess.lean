import Keycast.Http.OAuth
import Keycast.Http.Teams

/-!
# `Http/SupportAccess.lean` — a support admin comes into a team

`grant_team_support_access` of `admin.rs` makes a support admin a member of a team, for a session
with an authorization of its own. The membership is a statement by itself, and four steps that can
fail come after it: the pool has no secret, the key of the team does not decrypt or parse, the
authorization is not inserted. The support admin is a member then, is told that the request failed,
and has no session that a release would end.

`grant_clean_iff` says that nothing else goes wrong: a grant is all or nothing unless it has made a
member.
-/

set_option autoImplicit false

namespace Keycast

/-- `StoredKeyRepository::list_by_team`. The query asks for no order; here it is that of the
table. -/
def Db.listStoredKeys (db : Db) (tenant : TenantId) (team : RowId) : List StoredKey :=
  db.storedKeys.filter fun k => k.tenantId == tenant && k.teamId == some team

/-- `PolicyRepository::list_by_team`. -/
def Db.listPolicies (db : Db) (team : RowId) : List Policy :=
  db.policies.filter (·.teamId == some team)

/-- The row can be inserted into `authorizations`. -/
def Db.Insertable (db : Db) (row : Authorization) : Prop :=
  db.authorizations.any (·.id == row.id) = false ∧ db.policies.any (·.id == row.policyId) = true ∧
    db.storedKeys.any (·.id == row.storedKeyId) = true

theorem Db.createAuthorization_ok {db db' : Db} {row : Authorization} :
    db.createAuthorization row = .ok db' ↔
      db.Insertable row ∧ db' = { db with authorizations := db.authorizations ++ [row] } := by
  unfold createAuthorization Insertable
  split
  · next htaken => simp [htaken]
  next hfree =>
  split
  · next hpolicy => simp_all
  next hpolicy =>
  split
  · next hkey => simp_all
  next hkey =>
  simp only [Bool.not_eq_true, Bool.not_eq_false'] at hfree hpolicy hkey
  simp [hfree, hpolicy, hkey, createTeam, eq_comm]

namespace Http

open Lib

/-! ## The endpoint -/

structure GrantSupportAccessRequest where
  policyId : Option RowId := none
  label : Option String := none
  expiresInHours : Option Int := none
  deriving DecidableEq, Repr

/-- The URL is made of the bunker key in the row and the secret. -/
structure GrantSupportAccessResponse where
  teamId : RowId
  storedKeyPubkey : PublicKey
  authorization : Authorization
  secret : String
  deriving DecidableEq, Repr

/-- `DEFAULT_SUPPORT_AUTH_EXPIRY_HOURS`. -/
def defaultSupportAuthExpiryHours : Int := 24

/-- `MAX_SUPPORT_AUTH_EXPIRY_HOURS`. -/
def maxSupportAuthExpiryHours : Int := 24 * 7

/-- `clamp(1, MAX)`. -/
def supportHours (req : GrantSupportAccessRequest) : Int :=
  max 1 (min (req.expiresInHours.getD defaultSupportAuthExpiryHours) maxSupportAuthExpiryHours)

/-- The label of a session. A suffix of nothing but blanks is none. -/
def supportLabel (caller : PublicKey) (label : Option String) : String :=
  match (label.map trimmed).filter (· ≠ []) with
  | some suffix => "support:" ++ caller ++ " (" ++ String.ofList suffix ++ ")"
  | none => "support:" ++ caller

/-- The policy that is asked for, or the team's first. -/
def supportPolicy (team : RowId) (policyId : Option RowId) : Prog Stmt State ApiError RowId :=
  match policyId with
  | some id => do
    let known ← .read .policyExistsForTeam fun s => s.db.policyExistsForTeam team id
    if known then return id else .err (.notFound "Policy not found for this team")
  | none => do
    let policies ← .read .listPolicies fun s => s.db.listPolicies team
    let policy ← .orErr policies.head? (.internal "Team has no policies")
    return policy.id

def joinForSupport (team : RowId) (caller : PublicKey) : Prog Stmt State ApiError Unit := do
  let member ← .read .isMember fun s => s.db.isMember team caller
  if member then return ()
  else
    executing (.addMember team caller)
      (fun e => .internal ("Failed to add support member: " ++ e.toText))
      fun s => s.db.addMember team caller .member

/-- The row that is inserted. -/
def supportAuthorization (tenant : TenantId) (caller : PublicKey) (id : RowId)
    (req : GrantSupportAccessRequest)
    (key : StoredKey) (policyId : RowId) (pair : SecretPair) (bunker : PublicKey)
    (now : Timestamp) : Authorization where
  id
  tenantId := tenant
  storedKeyId := key.id
  bunkerPublicKey := bunker
  secretHash := pair.hash
  policyId
  expiresAt := some (now + hours (supportHours req))
  label := some (supportLabel caller req.label)

def supportBunker (w : Web) (key : StoredKey) (pair : SecretPair) : Except ApiError PublicKey :=
  deriveBunker w (fun e => .internal ("Failed to decrypt stored key: " ++ e))
    (fun e => .internal ("Invalid stored key: " ++ e)) key.secretKey pair.hash

/-- The rest, once the caller is a member. -/
def issueSupport (w : Web) (tenant : TenantId) (caller : PublicKey) (id : RowId)
    (pair : Option SecretPair)
    (req : GrantSupportAccessRequest) (key : StoredKey) (policyId : RowId) :
    Prog Stmt State ApiError (Authorization × String) := do
  let pair ← .orErr pair (.internal "Secret pool exhausted")
  let bunker ← .ofExcept (supportBunker w key pair)
  let now ← .read .clock (·.now)
  let row := supportAuthorization tenant caller id req key policyId pair bunker now
  executing .createAuthorization
    (fun e => .internal ("Failed to create authorization: " ++ e.toText)) fun s =>
    s.db.createAuthorization row
  .write .sendUpsert fun s => s
  return (row, pair.secret)

/-- `grant_team_support_access`. The pair comes from the pool, `id` from the sequence. -/
def grantTeamSupportAccess (w : Web) (tenant : TenantId) (auth : UcanAuth) (listed : Bool)
    (team : RowId)
    (id : RowId) (pair : Option SecretPair) (req : GrantSupportAccessRequest) :
    Prog Stmt State ApiError GrantSupportAccessResponse := do
  if !isSupportAdmin w auth listed then .err (.forbidden "Support admin access required")
  else
    let row ← .read .findTeam fun s => s.db.findTeam tenant team
    let _ ← .orErr row (.notFound "Team not found")
    let keys ← .read .listStoredKeys fun s => s.db.listStoredKeys tenant team
    let key ← .orErr keys.head? (.badRequest
      "team has no stored key — the agent who created it must finish provisioning first")
    let policyId ← supportPolicy team req.policyId
    joinForSupport team auth.pubkey
    let (authorization, secret) ← issueSupport w tenant auth.pubkey id pair req key policyId
    return ⟨team, key.pubkey, authorization, secret⟩

/-! ## Faults of the database -/

inductive GrantFault
  | team
  | keys
  | policy
  | policies
  | membership
  | member
  | authorization
  deriving DecidableEq, Repr

def GrantFault.fails (text : String) : GrantFault → Stmt → Option ApiError
  | team, .findTeam => some (.notFound "Team not found")
  | keys, .listStoredKeys => some (.internal ("Failed to load stored keys: " ++ text))
  | policy, .policyExistsForTeam => some (.internal ("Failed to verify policy: " ++ text))
  | policies, .listPolicies => some (.internal ("Failed to load policies: " ++ text))
  | membership, .isMember => some (.internal ("Failed to check membership: " ++ text))
  | member, .addMember .. => some (.internal ("Failed to add support member: " ++ text))
  | authorization, .createAuthorization =>
    some (.internal ("Failed to create authorization: " ++ text))
  | _, _ => none

/-- A request, with the fault that meets it. -/
structure GrantCall where
  tenant : TenantId
  auth : UcanAuth
  listed : Bool
  team : RowId
  id : RowId
  pair : Option SecretPair
  req : GrantSupportAccessRequest
  fault : Option GrantFault
  text : String

def GrantCall.fails (r : GrantCall) (l : Stmt) : Option ApiError :=
  r.fault.bind fun f => f.fails r.text l

def GrantCall.prog (w : Web) (r : GrantCall) :
    Prog Stmt State ApiError GrantSupportAccessResponse :=
  (grantTeamSupportAccess w r.tenant r.auth r.listed r.team r.id r.pair r.req).failing r.fails

/-! ## The property -/

/-- **A grant is all or nothing.** -/
structure CleanGrant (w : Web) (r : GrantCall) (s : State) : Prop where
  refused : ∀ e s', (r.prog w).run s = (.error e, s') →
    s'.db.teamUsers = s.db.teamUsers ∧ s'.db.authorizations = s.db.authorizations
  granted : ∀ response s', (r.prog w).run s = (.ok response, s') →
    s'.db.isMember r.team r.auth.pubkey = true ∧
      s'.db.authorizations = s.db.authorizations ++ [response.authorization] ∧
      response.authorization.label = some (supportLabel r.auth.pubkey r.req.label)

/-- What the handler has in its hands when the caller becomes a member, and the database then. -/
structure SupportGrant where
  key : StoredKey
  policyId : RowId
  db : Db

/-- The policy of the request, and the statement that looks for it. -/
def GrantCall.policy? (r : GrantCall) (db : Db) : Option RowId :=
  match r.req.policyId with
  | some id => if db.policyExistsForTeam r.team id then some id else none
  | none => (db.listPolicies r.team).head?.map (·.id)

def GrantCall.policyStmt (r : GrantCall) : Stmt :=
  match r.req.policyId with
  | some _ => .policyExistsForTeam
  | none => .listPolicies

/-- No check fails, and the caller becomes a member. -/
structure GrantCall.Joins (w : Web) (r : GrantCall) (s : State) (g : SupportGrant) : Prop where
  admitted : isSupportAdmin w r.auth r.listed = true
  team : r.fails .findTeam = none ∧ (s.db.findTeam r.tenant r.team).isSome = true
  key : r.fails .listStoredKeys = none ∧ (s.db.listStoredKeys r.tenant r.team).head? = some g.key
  policy : r.fails r.policyStmt = none ∧ r.policy? s.db = some g.policyId
  stranger : r.fails .isMember = none ∧ s.db.isMember r.team r.auth.pubkey = false
  joined : r.fails (.addMember r.team r.auth.pubkey) = none ∧
    s.db.addMember r.team r.auth.pubkey .member = .ok g.db

/-- The rest goes well: there is a secret, the key decrypts and parses, and the row is inserted. -/
def GrantCall.Completes (w : Web) (r : GrantCall) (s : State) (key : StoredKey)
    (policyId : RowId) : Prop :=
  ∃ pair bunker db, r.pair = some pair ∧ supportBunker w key pair = .ok bunker ∧
    r.fails .createAuthorization = none ∧
    s.db.createAuthorization
      (supportAuthorization r.tenant r.auth.pubkey r.id r.req key policyId pair bunker s.now) =
        .ok db

section Grant

variable {w : Web} {r : GrantCall} {s : State} {g g' : SupportGrant} {key : StoredKey}
  {policyId : RowId}

theorem GrantCall.Joins.unique (h : r.Joins w s g) (h' : r.Joins w s g') : g = g' := by
  obtain ⟨key, policyId, db⟩ := g
  obtain ⟨key', policyId', db'⟩ := g'
  cases h.key.2.symm.trans h'.key.2
  cases h.policy.2.symm.trans h'.policy.2
  cases h.joined.2.symm.trans h'.joined.2
  rfl

/-- Whoever is a member joins no more. -/
theorem GrantCall.not_joins_of_member (h : s.db.isMember r.team r.auth.pubkey = true)
    (g : SupportGrant) :
    ¬ r.Joins w s g := by
  intro hg
  cases h.symm.trans hg.stranger.2

/-! ## The parts -/

theorem GrantCall.fails_clock (r : GrantCall) : r.fails .clock = none := by
  unfold GrantCall.fails
  cases r.fault with
  | none => rfl
  | some f => cases f <;> rfl

theorem GrantCall.fails_sendUpsert (r : GrantCall) : r.fails .sendUpsert = none := by
  unfold GrantCall.fails
  cases r.fault with
  | none => rfl
  | some f => cases f <;> rfl

/-- A statement of `executing` that may fail. -/
theorem failing_executing_ends {α : Type} {fails : Stmt → Option ApiError} {l : Stmt}
    {toError : RepositoryError → ApiError} {f : State → Except RepositoryError Db}
    {Q : Except ApiError α → State → Prop} {k : Unit → Prog Stmt State ApiError α}
    (hfail : ∀ e, fails l = some e → Q (.error e) s)
    (herr : ∀ e, f s = .error e → Q (.error (toError e)) s)
    (hok : fails l = none → ∀ db, f s = .ok db → (k ()).Ends Q (s.withDb db)) :
    (((executing l toError f).failing fails).bind k).Ends Q s := by
  unfold executing Prog.tryStmt
  refine .bind (.failing_atom hfail fun hl => ?_)
  cases hf : f s with
  | error e => simpa [Prog.Ends, hf, Except.map, Except.mapError] using herr e hf
  | ok db => simpa [Prog.Ends, hf, Except.map, Except.mapError] using hok hl db hf

theorem supportPolicy_ends {α : Type} {Q : Except ApiError α → State → Prop}
    {k : RowId → Prog Stmt State ApiError α}
    (hrefused : (∀ policyId, ¬ (r.fails r.policyStmt = none ∧ r.policy? s.db = some policyId)) →
      ∀ e, Q (.error e) s)
    (hok : ∀ policyId, r.fails r.policyStmt = none → r.policy? s.db = some policyId →
      (k policyId).Ends Q s) :
    (((supportPolicy r.team r.req.policyId).failing r.fails).bind k).Ends Q s := by
  unfold supportPolicy
  unfold GrantCall.policyStmt GrantCall.policy? at hrefused hok
  cases hpolicy : r.req.policyId with
  | some id =>
    rw [hpolicy] at hrefused hok
    dsimp only at hrefused hok ⊢
    simp only [Prog.bind_def, Prog.failing_bind, Prog.bind_assoc]
    refine .failing_read (fun e he => hrefused (fun policyId h => ?_) e) fun hl => ?_
    · cases he.symm.trans h.1
    split
    · next hknown => exact hok id hl (if_pos hknown)
    · next hunknown =>
      refine hrefused (fun policyId h => ?_) _
      rw [if_neg hunknown] at h
      cases h.2
  | none =>
    rw [hpolicy] at hrefused hok
    dsimp only at hrefused hok ⊢
    simp only [Prog.bind_def, Prog.failing_bind, Prog.bind_assoc, Prog.failing_orErr]
    refine .failing_read (fun e he => hrefused (fun policyId h => ?_) e) fun hl => ?_
    · cases he.symm.trans h.1
    refine .orErr_cases (fun hnone => hrefused (fun policyId h => ?_) _) fun policy hsome => ?_
    · rw [hnone] at h
      cases h.2
    · exact hok policy.id hl (by rw [hsome]; rfl)

/-- The rest of the grant, in a state whose keys, policies and authorizations are those of the
start. -/
theorem issueSupport_ends {α : Type} {Q : Except ApiError α → State → Prop} {s₁ : State}
    (hnow : s₁.now = s.now)
    (hkeys : s₁.db.storedKeys = s.db.storedKeys) (hpolicies : s₁.db.policies = s.db.policies)
    (hauthorizations : s₁.db.authorizations = s.db.authorizations)
    {k : Authorization × String → Prog Stmt State ApiError α}
    (hrefused : ¬ r.Completes w s key policyId → ∀ e, Q (.error e) s₁)
    (hok : r.Completes w s key policyId →
      ∀ row secret, row.label = some (supportLabel r.auth.pubkey r.req.label) →
      (k (row, secret)).Ends Q
        (s₁.withDb { s₁.db with authorizations := s₁.db.authorizations ++ [row] })) :
    (((issueSupport w r.tenant r.auth.pubkey r.id r.pair r.req key policyId).failing r.fails).bind
      k).Ends Q s₁ := by
  unfold issueSupport
  simp only [Prog.bind_def, Prog.failing_bind, Prog.bind_assoc, Prog.failing_orErr,
    Prog.failing_ofExcept]
  refine .orErr_cases (fun hnone => hrefused (fun ⟨pair, bunker, db, hpair, _⟩ => ?_) _)
    fun pair hpair => ?_
  · cases hnone.symm.trans hpair
  refine .ofExcept_cases
    (fun e he => hrefused (fun ⟨pair', bunker, db, hpair', hbunker, _⟩ => ?_) e)
    fun bunker hbunker => ?_
  · cases hpair.symm.trans hpair'
    cases he.symm.trans hbunker
  refine .failing_read (fun e he => ?_) fun _ => ?_
  · cases r.fails_clock.symm.trans he
  rw [hnow]
  have hiff : ∀ row : Authorization, s₁.db.Insertable row ↔ s.db.Insertable row := by
    intro row
    unfold Db.Insertable
    rw [hkeys, hpolicies, hauthorizations]
  refine failing_executing_ends (fun e he => hrefused (fun ⟨_, _, _, _, _, hl, _⟩ => ?_) e)
    (fun e he => ?_)
    fun hl db hdb => ?_
  · cases he.symm.trans hl
  · refine hrefused (fun ⟨pair', bunker', db, hpair', hbunker', _, hdb⟩ => ?_) _
    cases hpair.symm.trans hpair'
    cases hbunker.symm.trans hbunker'
    have hinserted :=
      Db.createAuthorization_ok.mpr ⟨(hiff _).mpr (Db.createAuthorization_ok.mp hdb).1, rfl⟩
    cases he.symm.trans hinserted
  · obtain ⟨hrow, rfl⟩ := Db.createAuthorization_ok.mp hdb
    refine .failing_write (fun e he => ?_) fun _ => hok ⟨pair, bunker, _, hpair, hbunker, hl,
      Db.createAuthorization_ok.mpr ⟨(hiff _).mp hrow, rfl⟩⟩ _ _ rfl
    cases r.fails_sendUpsert.symm.trans he

/-! ## The result -/

/-- **How a grant goes**: nobody has joined, the caller has joined and the rest fails, or all of it
is done. -/
theorem grant_ends (w : Web) (r : GrantCall) (s : State) :
    (r.prog w).Ends (fun x s' =>
      (∃ e, x = .error e ∧ s' = s ∧ ∀ g, ¬ r.Joins w s g) ∨
        (∃ e g, x = .error e ∧ r.Joins w s g ∧ ¬ r.Completes w s g.key g.policyId ∧
          s' = s.withDb g.db) ∨
          ∃ response, x = .ok response ∧ (∀ g, r.Joins w s g → r.Completes w s g.key g.policyId) ∧
            s'.db.isMember r.team r.auth.pubkey = true ∧
            s'.db.authorizations = s.db.authorizations ++ [response.authorization] ∧
            response.authorization.label = some (supportLabel r.auth.pubkey r.req.label)) s := by
  unfold GrantCall.prog grantTeamSupportAccess
  split
  · next hrefused =>
    refine .inl ⟨_, rfl, rfl, fun g hg => ?_⟩
    simp [hg.admitted] at hrefused
  next hadmitted =>
  have hadmitted : isSupportAdmin w r.auth r.listed = true := by simpa using hadmitted
  simp only [Prog.bind_def, Prog.failing_bind, Prog.failing_orErr]
  refine .failing_read (fun e he => .inl ⟨e, rfl, rfl, fun g hg => ?_⟩) fun hteam => ?_
  · cases he.symm.trans hg.team.1
  refine .orErr_cases (fun hnone => .inl ⟨_, rfl, rfl, fun g hg => ?_⟩) fun row hrow => ?_
  · have hsome := hg.team.2
    rw [hnone] at hsome
    cases hsome
  refine .failing_read (fun e he => .inl ⟨e, rfl, rfl, fun g hg => ?_⟩) fun hkeys => ?_
  · cases he.symm.trans hg.key.1
  refine .orErr_cases (fun hnone => .inl ⟨_, rfl, rfl, fun g hg => ?_⟩) fun key hkey => ?_
  · cases hnone.symm.trans hg.key.2
  refine supportPolicy_ends (fun hno e => .inl ⟨e, rfl, rfl, fun g hg => hno _ hg.policy⟩)
    fun policyId hpolicyStmt hpolicy => ?_
  unfold joinForSupport
  simp only [Prog.bind_def, Prog.failing_bind, Prog.bind_assoc]
  refine .failing_read (fun e he => .inl ⟨e, rfl, rfl, fun g hg => ?_⟩) fun hmembership => ?_
  · cases he.symm.trans hg.stranger.1
  split
  · -- a member joins no more, and whatever fails from here on has changed nothing
    next hmember =>
    refine issueSupport_ends rfl rfl rfl rfl
      (fun _ e => .inl ⟨e, rfl, rfl, GrantCall.not_joins_of_member hmember⟩)
        fun _ row secret hlabel => ?_
    exact .inr
      (.inr ⟨_, rfl, fun g hg => absurd hg (GrantCall.not_joins_of_member hmember g),
        hmember, rfl, hlabel⟩)
  next hstranger =>
  rw [Bool.not_eq_true] at hstranger
  refine failing_executing_ends (fun e he => .inl ⟨e, rfl, rfl, fun g hg => ?_⟩)
    (fun e he => .inl ⟨_, rfl, rfl, fun g hg => ?_⟩) fun hmemberStmt db hdb => ?_
  · cases he.symm.trans hg.joined.1
  · cases he.symm.trans hg.joined.2
  have hjoins : r.Joins w s ⟨key, policyId, db⟩ :=
    ⟨hadmitted, ⟨hteam, by rw [hrow]; rfl⟩, ⟨hkeys, hkey⟩, ⟨hpolicyStmt, hpolicy⟩,
      ⟨hmembership, hstranger⟩,
      ⟨hmemberStmt, hdb⟩⟩
  obtain ⟨-, -, -, rfl⟩ := Db.addMember_ok.mp hdb
  refine issueSupport_ends (s := s) ?_ ?_ ?_ ?_
    (fun hno e => .inr (.inl ⟨e, _, rfl, hjoins, hno, rfl⟩))
    fun hcompletes row secret hlabel => ?_
  · rfl
  · rfl
  · rfl
  · rfl
  refine .inr (.inr ⟨_, rfl, fun g hg => ?_, ?_, rfl, hlabel⟩)
  · rw [hg.unique hjoins]
    exact hcompletes
  · simp [Db.isMember, Db.isMembership]

theorem grant_cases (w : Web) (r : GrantCall) (s : State) :
    (∃ e, (r.prog w).run s = (.error e, s) ∧ ∀ g, ¬ r.Joins w s g) ∨
      (∃ e g, (r.prog w).run s = (.error e, s.withDb g.db) ∧ r.Joins w s g ∧
        ¬ r.Completes w s g.key g.policyId) ∨
      ∃ response s', (r.prog w).run s = (.ok response, s') ∧
        (∀ g, r.Joins w s g → r.Completes w s g.key g.policyId) ∧
        s'.db.isMember r.team r.auth.pubkey = true ∧
          s'.db.authorizations = s.db.authorizations ++ [response.authorization] ∧
          response.authorization.label = some (supportLabel r.auth.pubkey r.req.label) := by
  rcases grant_ends w r s with ⟨e, hx, hs, hno⟩ | ⟨e, g, hx, hjoins, hno, hs⟩ | ⟨response, hx, h⟩
  · exact .inl ⟨e, Prod.ext hx hs, hno⟩
  · exact .inr (.inl ⟨e, g, Prod.ext hx hs, hjoins, hno⟩)
  · exact .inr (.inr ⟨response, _, Prod.ext hx rfl, h⟩)

/-- **A grant is all or nothing unless it makes a member and goes no further**: for want of a
secret, of a key that decrypts and parses, or of a place for the authorization. -/
theorem grant_clean_iff (w : Web) (r : GrantCall) (s : State) :
    CleanGrant w r s ↔ ∀ g, r.Joins w s g → r.Completes w s g.key g.policyId := by
  constructor
  · intro hclean g hg
    rcases grant_cases w r s with ⟨e, -, hno⟩ | ⟨e, g', hrun, hg', -⟩ | ⟨response, s', -, hall, -⟩
    · exact absurd hg (hno g)
    · have hmembers := (hclean.refused e _ hrun).1
      obtain ⟨-, -, -, hdb⟩ := Db.addMember_ok.mp hg'.joined.2
      rw [State.withDb_db, hdb] at hmembers
      exact absurd hmembers (by simp)
    · exact hall g hg
  · intro hall
    rcases grant_cases w r s with
      ⟨e, hrun, -⟩ | ⟨e, g, -, hg, hno⟩ | ⟨response, s', hrun, -, hgranted⟩
    · refine ⟨fun e' s' h => ?_, fun response s' h => ?_⟩
      · cases hrun.symm.trans h
        exact ⟨rfl, rfl⟩
      · cases hrun.symm.trans h
    · exact absurd (hall g hg) hno
    · refine ⟨fun e' s'' h => ?_, fun response' s'' h => ?_⟩
      · cases hrun.symm.trans h
      · cases hrun.symm.trans h
        exact hgranted

/-! A team with a key and a policy, and a support admin who meets a pool without secrets. -/

def provisionedTeam : State := .boot
  { users := [{ pubkey := "helper", tenantId := 1 }]
    teams := [⟨7, 1⟩]
    policies := [{ id := 3, slug := none, teamId := some 7 }]
    storedKeys :=
      [{ id := 5, tenantId := 1, secretKey := "sk", teamId := some 7, pubkey := "restaurant" }] } 0

def supportCall (pair : Option SecretPair) : GrantCall where
  tenant := 1
  auth := ⟨"helper", some "support"⟩
  listed := false
  team := 7
  id := 11
  pair
  req := {}
  fault := none
  text := ""

/-- **The caller is a member and the request is refused**: there is no secret. -/
theorem grant_unclean : ¬ CleanGrant (.symbolic [] []) (supportCall none) provisionedTeam := by
  intro hclean
  have hsame := hclean.refused (.internal "Secret pool exhausted")
    (((supportCall none).prog (.symbolic [] [])).run provisionedTeam).2 (Prod.ext (by decide) rfl)
  exact absurd hsame.1 (by decide)

end Grant

end Http

end Keycast
