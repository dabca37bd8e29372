import Keycast.Http.OAuth
import Keycast.Lib.Ledger

/-!
# `Http/TokenServer.lean` — concurrent requests to the token endpoint

Any number of `POST /oauth/token` requests, statement by statement, beside everything else that
revokes, deletes or cleans up. `token_meets` is the one walk over both grants: for each statement it
says what the statement does to codes, users and refresh tokens, and what its request has done
before it. The two grants guard their credential in different ways. A refresh token is consumed by
an `UPDATE` that looks at the row and marks it in one statement; a code is looked up first, and
deleted later by a `DELETE` that does not say whether there was anything to delete.
-/

set_option autoImplicit false

namespace Keycast.Http

open Lib

/-! ## The system -/

structure TokenCall where
  inst : InstanceId
  tenant : TenantId
  drawn : GrantDrawn
  req : TokenRequest
  deriving DecidableEq, Repr

/-- What happens beside the requests. `others` is any change to the tables that hold neither codes
nor users nor refresh tokens, and `deleteAuthorizationsOf` what cascades from a deletion of
authorizations. -/
inductive TokenEnv
  | tick (d : Nat)
  | revokeForAuthorization (id : RowId)
  | cleanupOldTokens (daysOld : Int)
  | deleteAuthorizationsOf (user : PublicKey)
  | others (db : Db)
  deriving DecidableEq, Repr

def tokenEnv : TokenEnv → State → State
  | .tick d, s => { s with now := s.now + d }
  | .revokeForAuthorization id, s => s.withDb (s.db.revokeRefreshTokens s.now id)
  | .cleanupOldTokens daysOld, s => s.withDb (s.db.cleanupOldTokens s.now daysOld)
  | .deleteAuthorizationsOf user, s =>
    s.withDb { s.db with refreshTokens := s.db.refreshTokensWithout user }
  | .others db, s => s.withDb
      { db with
        oauthCodes := s.db.oauthCodes, users := s.db.users, refreshTokens := s.db.refreshTokens }

def tokenSystem (w : Web) : System TokenCall Stmt State OAuthError TokenResponse TokenEnv where
  prog r := token w r.inst r.tenant r.drawn r.req
  env := tokenEnv

abbrev TokenServer := Conf TokenCall Stmt State OAuthError TokenResponse

/-- The grant a request asks for. -/
def TokenCall.grantType (r : TokenCall) : String := r.req.grantType.getD "authorization_code"

/-- The request presents the code. -/
def TokenCall.Presents (r : TokenCall) (code : String) : Prop :=
  r.grantType = "authorization_code" ∧ r.req.code = some code

instance TokenCall.Presents.decidable (r : TokenCall) (code : String) :
    Decidable (r.Presents code) :=
  inferInstanceAs (Decidable (_ ∧ _))

/-! ## What a statement does -/

/-- The tables of codes, users and refresh tokens are left alone. -/
structure Untouched (s s' : State) : Prop where
  now : s'.now = s.now
  codes : s'.db.oauthCodes = s.db.oauthCodes
  users : s'.db.users = s.db.users
  tokens : s'.db.refreshTokens = s.db.refreshTokens

theorem Untouched.refl (s : State) : Untouched s s := ⟨rfl, rfl, rfl, rfl⟩

/-- The row that completing a registration would insert, as far as it can clash with another. -/
def registered (tenant : TenantId) (user : PublicKey) (email : String) : User :=
  { pubkey := user, tenantId := tenant, email := some email }

/-- The row that `RefreshTokenRepository::create` inserts. -/
def newToken (hash : String) (authorization : RowId) (tenant : TenantId) (now : Timestamp) :
    RefreshToken :=
  { tokenHash := hash, authorizationId := authorization, tenantId := tenant,
    expiresAt := now + hours (refreshTokenExpiryDays * 24) }

def TokenEffect : Stmt → State → State → Prop
  | .deleteCode tenant code, s, s' => s' = s.withDb (s.db.deleteCode tenant code)
  | .finalizeRegistration tenant code user email, s, s' =>
    (s' = s ∧ s.db.users.any (Db.conflicts (registered tenant user email)) = true) ∨
      (s.db.users.any (Db.conflicts (registered tenant user email)) = false ∧
        ∃ (row : User) (key : PersonalKey), row.pubkey = user ∧
          s' = s.withDb
            ((Db.insertPersonalKey { s.db with users := s.db.users ++ [row] } key).deleteCode
            tenant code))
  | .createRefreshToken hash authorization, s, s' =>
    ∃ tenant, (s.db.insertRefreshToken (newToken hash authorization tenant s.now) = none ∧
        Untouched s s') ∨
      ∃ db, s.db.insertRefreshToken (newToken hash authorization tenant s.now) = some db ∧
        s' = s.withDb db
  | .consumeRefreshToken hash, s, s' => s' = s.withDb (s.db.consumeRefreshToken s.now hash).2
  | .revokeRefreshTokens authorization, s, s' =>
    s' = s.withDb (s.db.revokeRefreshTokens s.now authorization)
  | _, s, s' => Untouched s s'

/-- The statements that are not said more of: they neither use a credential up nor issue one. -/
def Stmt.neutral : Stmt → Bool
  | .deleteCode .. | .finalizeRegistration .. | .createOAuth | .createRefreshToken ..
  | .consumeRefreshToken _ => false
  | _ => true

def Neutral (l : Stmt) (s s' : State) : Prop := l.neutral = true ∧ TokenEffect l s s'

/-! ## What a request has done before -/

/-- How often a statement takes the code out of use, were it stored: the `DELETE`, and a
registration that is completed. -/
def usesUp (code : String) : Stmt → State → Nat
  | .deleteCode _ c, _ => if c = code then 1 else 0
  | .finalizeRegistration tenant c user email, s =>
    if c = code ∧ s.db.users.any (Db.conflicts (registered tenant user email)) = false then 1 else 0
  | _, _ => 0

/-- How often it would insert a refresh token with the hash. -/
def inserts (hash : String) : Stmt → State → Nat
  | .createRefreshToken h _, _ => if h = hash then 1 else 0
  | _, _ => 0

def Stmt.isCreateRefreshToken : Stmt → Bool
  | .createRefreshToken .. => true
  | _ => false

/-- The statements among those executed that create a refresh token. -/
def creations (seen : List (Stmt × State)) : List (Stmt × State) :=
  seen.filter (·.1.isCreateRefreshToken)

/-- The row the request has found for a code. -/
def Found (r : TokenCall) (code : String) (row : OAuthCode) (seen : List (Stmt × State)) : Prop :=
  ∃ s, (.findValidCode code, s) ∈ seen ∧ s.db.findValidCode s.now r.tenant code = some row

/-- The record the request has consumed. -/
def Consumed (w : Web) (r : TokenCall) (record : RefreshToken)
    (seen : List (Stmt × State)) : Prop :=
  ∃ token s, r.req.refreshToken = some token ∧ (.consumeRefreshToken (w.sha256 token), s) ∈ seen ∧
    (s.db.consumeRefreshToken s.now (w.sha256 token)).1 = some record

/-- What holds when a statement of the request is executed. -/
def Before (w : Web) (r : TokenCall) (seen : List (Stmt × State)) : Stmt → Prop
  | .deleteCode tenant code => tenant = r.tenant ∧ r.Presents code ∧
      ∃ row, Found r code row seen ∧ row.pendingEmail = none
  | .finalizeRegistration tenant code user email => tenant = r.tenant ∧ r.Presents code ∧
      ∃ row, Found r code row seen ∧ row.userPubkey = user ∧ row.pendingEmail = some email
  | .createOAuth => ∀ code, r.Presents code → 1 ≤ tally (usesUp code) seen
  | .createRefreshToken hash authorization => hash = w.sha256 r.drawn.refreshToken ∧
      creations seen = [] ∧ (r.grantType = "refresh_token" →
        ∃ record, Consumed w r record seen ∧ record.authorizationId = authorization)
  | .consumeRefreshToken hash => r.grantType = "refresh_token" ∧
      ∃ token, r.req.refreshToken = some token ∧ hash = w.sha256 token
  | _ => True

/-- **What a statement of a token request may do.** -/
def TokenStep (w : Web) (r : TokenCall) (l : Stmt) (seen : List (Stmt × State))
    (s s' : State) : Prop :=
  TokenEffect l s s' ∧ Before w r seen l

/-- The one refresh token that a successful grant creates: that it returns, for the authorization in
its answer. -/
def CreatedOne (w : Web) (r : TokenCall) (seen : List (Stmt × State))
    (response : TokenResponse) : Prop :=
  ∃ s, creations seen =
      [(.createRefreshToken (w.sha256 response.refreshToken) response.authorizationId, s)] ∧
    (s.db.insertRefreshToken (newToken (w.sha256 response.refreshToken) response.authorizationId
      r.tenant s.now)).isSome = true

/-- What a request that succeeds has done. -/
def TokenPost (w : Web) (r : TokenCall) (seen : List (Stmt × State)) :
    Except OAuthError TokenResponse → Prop
  | .error _ => True
  | .ok response => (∀ code, r.Presents code → 1 ≤ tally (usesUp code) seen) ∧
      CreatedOne w r seen response ∧
      (r.grantType = "refresh_token" →
        ∃ record, Consumed w r record seen ∧ record.authorizationId = response.authorizationId)

/-! ## The walk -/

section Walk

variable {w : Web} {r : TokenCall} {seen news : List (Stmt × State)} {id : RowId} {α : Type}

abbrev Keep (w : Web) (r : TokenCall) (p : Prog Stmt State OAuthError TokenResponse)
    (seen : List (Stmt × State)) : Prop :=
  p.Meets (TokenStep w r) (TokenPost w r) seen

theorem Neutral.counts {l : Stmt} {s s' : State} (h : Neutral l s s') (code : String) :
    usesUp code l s = 0 ∧ l.isCreateRefreshToken = false := by
  obtain ⟨hl, -⟩ := h
  cases l <;> first | exact ⟨rfl, rfl⟩ | cases hl

theorem Neutral.step {l : Stmt} {s s' : State} (h : Neutral l s s') :
    TokenStep w r l seen s s' := by
  obtain ⟨hl, heffect⟩ := h
  refine ⟨heffect, ?_⟩
  cases l <;> trivial

theorem creations_append (xs ys : List (Stmt × State)) :
    creations (xs ++ ys) = creations xs ++ creations ys := List.filter_append ..

theorem creations_neutral (h : ∀ x ∈ news, ∃ s', Neutral x.1 x.2 s') : creations news = [] := by
  refine List.filter_eq_nil_iff.mpr fun x hx => ?_
  obtain ⟨s', hn⟩ := h x hx
  rw [(hn.counts "").2]
  decide

theorem Consumed.mono {record : RefreshToken} (hsub : ∀ x ∈ seen, x ∈ news)
    (h : Consumed w r record seen) :
    Consumed w r record news := by
  obtain ⟨token, s, htoken, hmem, hrecord⟩ := h
  exact ⟨token, s, htoken, hsub _ hmem, hrecord⟩

/-- The request has used its credential up, for the authorization `id`, and has created nothing
yet. -/
structure Ready (w : Web) (r : TokenCall) (id : RowId) (seen : List (Stmt × State)) : Prop where
  used : ∀ code, r.Presents code → 1 ≤ tally (usesUp code) seen
  created : creations seen = []
  consumed : r.grantType = "refresh_token" →
    ∃ record, Consumed w r record seen ∧ record.authorizationId = id

theorem Ready.append (h : Ready w r id seen) (news : List (Stmt × State))
    (hnews : creations news = []) :
    Ready w r id (news ++ seen) := by
  refine ⟨fun code hcode => ?_, ?_, fun hgrant => ?_⟩
  · rw [tally_append]
    exact Nat.le_add_left_of_le (h.used code hcode)
  · rw [creations_append, hnews, h.created, List.append_nil]
  · obtain ⟨record, hrecord, hid⟩ := h.consumed hgrant
    exact ⟨record, hrecord.mono fun x hx => List.mem_append_right _ hx, hid⟩

/-- And now it has created its refresh token. -/
theorem Ready.done {response : TokenResponse} (h : Ready w r id seen) {s : State}
    (news : List (Stmt × State))
    (htoken : response.refreshToken = r.drawn.refreshToken) (hid : response.authorizationId = id)
    (hnews : creations news = [])
    (hinserted : (s.db.insertRefreshToken
      (newToken (w.sha256 r.drawn.refreshToken) id r.tenant s.now)).isSome = true) :
    TokenPost w r (news ++ (.createRefreshToken (w.sha256 r.drawn.refreshToken) id, s) :: seen)
      (.ok response) := by
  refine ⟨fun code hcode => ?_, ⟨s, ?_, ?_⟩, fun hgrant => ?_⟩
  · rw [tally_append, tally_cons]
    have := h.used code hcode
    omega
  · have hcreated :
      creations ((.createRefreshToken (w.sha256 r.drawn.refreshToken) id, s) :: seen) =
        _ :: creations seen := rfl
    rw [creations_append, hnews, hcreated, h.created, List.nil_append, htoken, hid]
  · rw [htoken, hid]
    exact hinserted
  · obtain ⟨record, hrecord, hauthorization⟩ := h.consumed hgrant
    refine ⟨record, hrecord.mono fun x hx => ?_, hauthorization.trans hid.symm⟩
    exact List.mem_append_right _ (List.mem_cons_of_mem _ hx)

/-- A part of the request that is not said more of. -/
theorem keep_neutral {p : Prog Stmt State OAuthError α}
    {g : α → Prog Stmt State OAuthError TokenResponse}
    (hp : p.Does Neutral) (h : ∀ news a, creations news = [] → Keep w r (g a) (news ++ seen)) :
    Keep w r (p.bind g) seen := by
  refine Prog.Meets.bind (hp.meets Neutral.step fun news x hnews => ?_)
  cases x with
  | error e => trivial
  | ok a => exact h news a (creations_neutral hnews)

theorem keep_read {l : Stmt} (hl : l.neutral = true) (hread : ∀ s, TokenEffect l s s)
    {f : State → α}
    {g : α → Prog Stmt State OAuthError TokenResponse}
    (h : ∀ s, Keep w r (g (f s)) ((l, s) :: seen)) : Keep w r ((Prog.read l f).bind g) seen :=
  Prog.Meets.read (fun s => Neutral.step ⟨hl, hread s⟩) h

/-! The parts that are. -/

theorem Untouched.withDb {s : State} {db : Db} (hcodes : db.oauthCodes = s.db.oauthCodes)
    (husers : db.users = s.db.users) (htokens : db.refreshTokens = s.db.refreshTokens) :
    Untouched s (s.withDb db) := ⟨rfl, hcodes, husers, htokens⟩

theorem ensurePersonalKey_neutral (tenant : TenantId) (user : PublicKey) (nsec : Option String) :
    (ensurePersonalKey w tenant user nsec).Does Neutral := by
  refine .bind (.read (fun s => ⟨rfl, .refl s⟩) _) fun key => ?_
  cases key with
  | some key => trivial
  | none =>
    refine .bind (.orErr _ _) fun nsec => .bind (.ofExcept _) fun keys => ?_
    split
    · trivial
    · refine .bind (.ofExcept _) fun secret => .bind (.write fun s => ⟨rfl, ?_⟩) fun _ => trivial
      exact Untouched.withDb rfl rfl rfl

theorem issueAccessToken_neutral (tenant : TenantId) (user : PublicKey) (email origin : String)
    (bunker : PublicKey) (isFirstParty : Bool) :
    (issueAccessToken w tenant user email origin bunker isFirstParty).Does Neutral :=
  .bind (.ofExcept _) fun _ => .bind (.ofExcept _) fun _ =>
    .bind (.read (fun s => ⟨rfl, .refl s⟩) _) fun _ => .ofExcept _

theorem resolvePolicyFromScope_neutral (scope : String) :
    (resolvePolicyFromScope scope).Does Neutral :=
  .bind (.ofExcept _) fun _ => .bind (.read (fun s => ⟨rfl, .refl s⟩) _) fun _ =>
    .bind (.orErr _ _) fun _ => trivial

theorem revokePrevious_neutral (inst : InstanceId) (previous : Option RowId) :
    (revokePrevious inst previous).Does Neutral := by
  cases previous with
  | none => trivial
  | some old =>
    refine .bind (.write fun s => ⟨rfl, rfl⟩) fun _ => .bind (.write fun s => ⟨rfl, ?_⟩) fun _ =>
      .write fun s => ⟨rfl, ?_⟩
    · exact Untouched.withDb rfl rfl rfl
    · exact ⟨rfl, rfl, rfl, rfl⟩

/-! The parts that use the credential up, and what both grants end with. -/

theorem keep_createRefreshToken (h : Ready w r id seen)
    {g : Unit → Prog Stmt State OAuthError TokenResponse}
    (hg : ∀ s, (s.db.insertRefreshToken
        (newToken (w.sha256 r.drawn.refreshToken) id r.tenant s.now)).isSome = true →
      Keep w r (g ()) ((.createRefreshToken (w.sha256 r.drawn.refreshToken) id, s) :: seen)) :
    Keep w r ((createRefreshToken w r.tenant id r.drawn.refreshToken).bind g) seen := by
  have hbefore : Before w r seen (.createRefreshToken (w.sha256 r.drawn.refreshToken) id) :=
    ⟨rfl, h.created, h.consumed⟩
  refine meets_transact (fun s hnone => ?_) fun s _ db hinsert => ?_
  · exact ⟨⟨⟨r.tenant, .inl ⟨Option.map_eq_none_iff.mp hnone, .refl s⟩⟩, hbefore⟩, trivial⟩
  · obtain ⟨db', hdb, heq⟩ := Option.map_eq_some_iff.mp hinsert
    cases heq
    refine ⟨⟨⟨r.tenant, .inr ⟨_, hdb, rfl⟩⟩, hbefore⟩, hg s (Option.isSome_iff_exists.mpr ⟨_, hdb⟩)⟩

theorem keep_createAuthorization (h : ∀ code, r.Presents code → 1 ≤ tally (usesUp code) seen)
    {e : OAuthError} {row : Timestamp → OAuthAuthorization}
    {g : Unit → Prog Stmt State OAuthError TokenResponse}
    (hg : ∀ s, Keep w r (g ()) ((.createOAuth, s) :: seen)) :
    Keep w r ((createAuthorization e row).bind g) seen := by
  refine meets_transact (fun s _ => ⟨⟨Untouched.refl s, h⟩, trivial⟩) fun s _ db hinsert => ?_
  obtain ⟨db', hdb, heq⟩ := Option.map_eq_some_iff.mp hinsert
  cases heq
  obtain ⟨rfl, -⟩ := Db.insertOAuth_eq hdb
  exact ⟨⟨Untouched.withDb rfl rfl rfl, h⟩, hg s⟩

/-- The tail of the code grant. -/
theorem createOAuthAuthorization_keep {p : CreateAuthorizationParams}
    (htenant : p.tenantId = r.tenant)
    (h : Ready w r r.drawn.newId seen) :
    Keep w r (createOAuthAuthorization w r.inst r.drawn p) seen := by
  refine keep_neutral (ensurePersonalKey_neutral _ _ _) fun news₁ _ h₁ => ?_
  refine Prog.Meets.ofExcept (fun _ => trivial) fun origin _ => ?_
  refine Prog.Meets.orErr trivial fun pair _ => ?_
  refine Prog.Meets.ofExcept (fun _ => trivial) fun bunker _ => ?_
  refine keep_neutral (issueAccessToken_neutral _ _ _ _ _ _) fun news₂ accessToken h₂ => ?_
  have hready := (h.append news₁ h₁).append news₂ h₂
  extract_lets tail
  have htail : ∀ news₃ policyId, creations news₃ = [] →
      Keep w r (tail policyId) (news₃ ++ (news₂ ++ (news₁ ++ seen))) := by
    intro news₃ policyId h₃
    have hready₃ := hready.append news₃ h₃
    refine keep_createAuthorization hready₃.used fun s₄ => ?_
    have hauthorized : Ready w r r.drawn.newId
        ((.createOAuth, s₄) :: (news₃ ++ (news₂ ++ (news₁ ++ seen)))) :=
      hready₃.append [(.createOAuth, s₄)] rfl
    rw [htenant]
    refine keep_createRefreshToken hauthorized fun s₅ hinserted => ?_
    refine keep_neutral (revokePrevious_neutral _ _) fun news₆ _ h₆ => ?_
    refine Prog.Meets.write fun s₇ => ⟨Neutral.step ⟨rfl, Untouched.refl s₇⟩, ?_⟩
    exact hauthorized.done ((.sendUpsert, s₇) :: news₆) rfl rfl h₆ hinserted
  split
  · exact htail [] _ rfl
  · exact keep_neutral (resolvePolicyFromScope_neutral _) htail

theorem Found.mono {code : String} {row : OAuthCode} (hsub : ∀ x ∈ seen, x ∈ news)
    (h : Found r code row seen) : Found r code row news := by
  obtain ⟨s, hmem, hrow⟩ := h
  exact ⟨s, hsub _ hmem, hrow⟩

/-- A registration is completed by inserting its user, which only one request can do. -/
theorem keep_completeRegistration {row : OAuthCode} {nsec : Option String} {email : String}
    (hpresents : r.Presents row.code) (hfound : Found r row.code row seen)
    (hemail : row.pendingEmail = some email) (hcreated : creations seen = [])
    {g : String → Prog Stmt State OAuthError TokenResponse}
    (hg : ∀ {seen}, 1 ≤ tally (usesUp row.code) seen → creations seen = [] →
      Keep w r (g email) seen) :
    Keep w r ((completeRegistration w r.tenant row nsec email).bind g) seen := by
  rw [completeRegistration, Prog.bind_def, Prog.bind_assoc]
  refine keep_read (l := .findPubkeyByEmail) rfl Untouched.refl fun s₁ => ?_
  split
  · trivial
  · rw [Prog.bind_def, Prog.bind_assoc]
    refine keep_read (l := .userExists) rfl Untouched.refl fun s₂ => ?_
    split
    · trivial
    · simp only [Prog.bind_def, Prog.bind_assoc]
      refine Prog.Meets.ofExcept (fun _ => trivial) fun secret _ => ?_
      refine Prog.Meets.orErr trivial fun hash _ => ?_
      refine Prog.Meets.orErr trivial fun token _ => ?_
      have hbefore : Before w r ((.userExists, s₂) :: (.findPubkeyByEmail, s₁) :: seen)
          (.finalizeRegistration r.tenant row.code row.userPubkey email) := by
        refine ⟨rfl, hpresents, row, hfound.mono fun x hx => ?_, rfl, hemail⟩
        exact List.mem_cons_of_mem _ (List.mem_cons_of_mem _ hx)
      refine meets_transact (fun s₃ hnone => ⟨⟨.inl ⟨rfl, ?_⟩, hbefore⟩, trivial⟩)
        fun s₃ _ db hsome => ?_
      · simp only [Db.finalizeOAuthRegistration, Option.map_eq_none_iff] at hnone
        have hclash := Db.insertUser_eq_none hnone
        exact hclash
      · simp only [Db.finalizeOAuthRegistration, Option.map_map, Option.map_eq_some_iff] at hsome
        obtain ⟨db', hinsert, heq⟩ := hsome
        cases heq
        obtain ⟨hfree, rfl⟩ := Db.insertUser_eq_some hinsert
        refine ⟨⟨.inr ⟨hfree, _, _, rfl, rfl⟩, hbefore⟩, hg ?_ hcreated⟩
        have hone :
          usesUp row.code (.finalizeRegistration r.tenant row.code row.userPubkey email) s₃ =
            1 := by
          exact if_pos ⟨rfl, hfree⟩
        rw [tally_cons, hone]
        exact Nat.le_add_right 1 _

/-- Everyone else deletes the code, whether or not it is there. -/
theorem keep_exchangeForUser {row : OAuthCode} (hpresents : r.Presents row.code)
    (hfound : Found r row.code row seen) (hemail : row.pendingEmail = none)
    (hcreated : creations seen = [])
    {g : String → Prog Stmt State OAuthError TokenResponse}
    (hg : ∀ {seen email}, 1 ≤ tally (usesUp row.code) seen → creations seen = [] →
      Keep w r (g email) seen) :
    Keep w r ((exchangeForUser r.tenant row).bind g) seen := by
  rw [exchangeForUser]
  simp only [Prog.bind_def, Prog.bind_assoc]
  refine Prog.Meets.write fun s₁ => ⟨⟨rfl, rfl, hpresents, row, hfound, hemail⟩, ?_⟩
  refine keep_read (l := .getEmail) rfl Untouched.refl fun s₂ => ?_
  refine Prog.Meets.orErr trivial fun email _ => ?_
  refine Prog.Meets.orErr trivial fun email _ => hg ?_ hcreated
  simp [usesUp]

theorem handleAuthorizationCodeGrant_keep (hgrant : r.grantType = "authorization_code") :
    Keep w r (handleAuthorizationCodeGrant w r.inst r.tenant r.drawn r.req) [] := by
  refine Prog.Meets.orErr trivial fun code hcode => ?_
  refine Prog.Meets.orErr trivial fun redirectUri _ => ?_
  refine keep_read (l := .findValidCode code) rfl Untouched.refl fun s₁ => ?_
  refine Prog.Meets.orErr trivial fun row hrow => ?_
  have hpresents : r.Presents row.code := by
    have hp := List.find?_some hrow
    simp only [Bool.and_eq_true, beq_iff_eq] at hp
    exact ⟨hgrant, hcode.trans (congrArg some hp.1.2.symm)⟩
  have hfound : Found r row.code row [(.findValidCode code, s₁)] := by
    obtain rfl : code = row.code := by
      have := hpresents.2
      rw [hcode] at this
      exact Option.some.inj this
    exact ⟨s₁, List.mem_singleton.mpr rfl, hrow⟩
  have hnot : r.grantType ≠ "refresh_token" := by
    rw [hgrant]
    decide
  -- a request presents one code, so using that one up is using up every code it presents
  have hready : ∀ {seen}, 1 ≤ tally (usesUp row.code) seen → creations seen = [] →
      Ready w r r.drawn.newId seen := by
    intro seen hused hcreated
    refine ⟨fun code' hcode' => ?_, hcreated, fun h => absurd h hnot⟩
    obtain rfl : row.code = code' := Option.some.inj (hpresents.2.symm.trans hcode'.2)
    exact hused
  split
  · trivial
  · refine Prog.Meets.ofExcept (fun _ => trivial) fun _ _ => ?_
    extract_lets nsec tail
    split
    · next email hemail =>
      refine keep_completeRegistration hpresents hfound hemail rfl fun hused hcreated => ?_
      exact createOAuthAuthorization_keep rfl (hready hused hcreated)
    · next hemail =>
      refine keep_exchangeForUser hpresents hfound hemail rfl fun hused hcreated => ?_
      exact createOAuthAuthorization_keep rfl (hready hused hcreated)

theorem handleRefreshTokenGrant_keep (hgrant : r.grantType = "refresh_token") :
    Keep w r (handleRefreshTokenGrant w r.tenant r.drawn r.req) [] := by
  have hnot : ∀ code, ¬ r.Presents code := by
    intro code hcode
    exact absurd (hgrant.symm.trans hcode.1) (by decide)
  refine Prog.Meets.orErr trivial fun token htoken => ?_
  refine Prog.Meets.stmt fun s₁ => ⟨⟨rfl, hgrant, token, htoken, rfl⟩, ?_⟩
  refine Prog.Meets.orErr trivial fun record hrecord => ?_
  refine keep_read (l := .findOAuth) rfl Untouched.refl fun s₂ => ?_
  refine Prog.Meets.orErr trivial fun row hrow => ?_
  have hid : record.authorizationId = row.id := by
    have hp := List.find?_some hrow
    simp only [Bool.and_eq_true, beq_iff_eq] at hp
    exact hp.2.symm
  split
  · trivial
  · refine keep_read (l := .getEmail) rfl Untouched.refl fun s₃ => ?_
    refine keep_read (l := .findEncryptedKey) rfl Untouched.refl fun s₄ => ?_
    refine Prog.Meets.orErr trivial fun encrypted _ => ?_
    refine Prog.Meets.ofExcept (fun _ => trivial) fun bunker _ => ?_
    refine keep_neutral (issueAccessToken_neutral _ _ _ _ _ _) fun news accessToken hnews => ?_
    have hready :
      Ready w r row.id (news ++ [(.findEncryptedKey, s₄), (.getEmail, s₃), (.findOAuth, s₂),
        (.consumeRefreshToken (w.sha256 token), s₁)]) := by
      refine Ready.append ⟨fun code hcode => absurd hcode (hnot code), rfl, fun _ => ?_⟩ _ hnews
      exact ⟨record, ⟨token, s₁, htoken, by simp, hrecord⟩, hid⟩
    refine keep_createRefreshToken hready fun s₅ hinserted => ?_
    refine keep_read (l := .findPolicy) rfl Untouched.refl fun s₆ => ?_
    exact hready.done [(.findPolicy, s₆)] rfl rfl rfl hinserted

/-- **The walk.** -/
theorem token_meets (w : Web) (r : TokenCall) :
    ((tokenSystem w).prog r).Meets (TokenStep w r) (TokenPost w r) [] := by
  show Keep w r (token w r.inst r.tenant r.drawn r.req) []
  unfold token
  extract_lets grantType
  split
  · next hgrant => exact handleAuthorizationCodeGrant_keep hgrant
  · split
    · next hgrant => exact handleRefreshTokenGrant_keep hgrant
    · trivial

end Walk

end Keycast.Http
