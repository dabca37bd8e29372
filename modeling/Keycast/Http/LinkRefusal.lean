import Keycast.Http.Exchange
import Keycast.Http.OldLinks

/-!
# `Http/LinkRefusal.lean` — what a refused link leaves behind

`verify_magic_link` checks what it can before it consumes the link, and the grant before it creates
the account. Two things can only be checked against the link, when it has been consumed: whether the
grant is for its app, and whether the key that the browser brings is free. And the account is
created before its session is made and its app is authorized, which can fail.

`refused_cleanly_iff` says exactly when a refused link leaves nothing behind and can be used again.
It looks at every place where the handler itself refuses, from the state before: what is wrong with
the request (`OwnFault`), what is wrong with it but seen only when the link is used
(`RefusedTooLate`), and what fails when rows are already written (`LeftBehind`). The statements of
the handler are taken to run: one that fails by itself, the insert of the refresh token or a
statement of the merchant's policy, leaves the rows written before it as the refusals after them do.
What the approved list says about the link's page and the policy for that merchant are arguments,
for every value, where the handler looks them up between these statements.
-/

set_option autoImplicit false

namespace Keycast.Http

open Lib

/-- No account, no key and no authorization is created. -/
structure LeavesNothing (s s' : State) : Prop where
  users : s'.db.users = s.db.users
  personalKeys : s'.db.personalKeys = s.db.personalKeys
  authorizations : s'.db.oauthAuthorizations = s.db.oauthAuthorizations

/-! ## Grants that fail late -/

section Grant

variable {w : Web} {inst : InstanceId} {drawn : GrantDrawn} {p : CreateAuthorizationParams}
  {s s' : State}

/-- The authorization can be created. -/
def Authorizes (w : Web) (now : Timestamp) (db : Db) (drawn : GrantDrawn)
    (p : CreateAuthorizationParams) : Prop :=
  ∃ g, Grantable w now db drawn p g ∧ chosenPolicy g.db p = some g.policyId

/-- The authorization is inserted, and then its refresh token is not: there is one with its hash. -/
def FailsLate (w : Web) (now : Timestamp) (db : Db) (drawn : GrantDrawn)
    (p : CreateAuthorizationParams) : Prop :=
  ∃ (key : Bytes) (origin : String) (pair : SecretPair) (bunker : PublicKey) (accessToken : String)
      (policyId : RowId),
    db.encryptedKeyForTenant p.userPubkey p.tenantId = some key ∧
    extractOrigin w p.redirectUri = .ok origin ∧
      drawn.pair = some pair ∧ bunkerOf w key pair.hash = some bunker ∧
      accessTokenOf w now p.tenantId p.userPubkey p.email origin bunker p.isHeadless =
        some accessToken ∧
      chosenPolicy db p = some policyId ∧
      db.AcceptsOAuth
        (newAuthorization drawn.newId p.tenantId p.userPubkey origin p.clientId bunker pair.hash
        (some policyId) (some drawn.handle) now) ∧
      ∃ t ∈ db.refreshTokens, t.tokenHash = w.sha256 drawn.refreshToken

theorem createOAuthAuthorization_authorizes {response : TokenResponse}
    (h : (createOAuthAuthorization w inst drawn p).run s = (.ok response, s')) :
      Authorizes w s.now s.db drawn p := by
  obtain ⟨g, hg, -⟩ := createOAuthAuthorization_ok_iff.mp h
  exact ⟨g, hg⟩

theorem createOAuthAuthorization_refuses {e : OAuthError}
    (h : (createOAuthAuthorization w inst drawn p).run s = (.error e, s')) :
      ¬ Authorizes w s.now s.db drawn p := by
  rintro ⟨g, hg⟩
  have hok : ∃ response,
    (createOAuthAuthorization w inst drawn p).run s = (.ok response, g.after w inst drawn p s) :=
    ⟨_, createOAuthAuthorization_ok_iff.mpr ⟨g, hg, rfl, rfl⟩⟩
  rw [h] at hok
  obtain ⟨_, hok⟩ := hok
  cases hok

variable {origin accessToken : String} {pair : SecretPair} {bunker : PublicKey} {policyId : RowId}

/-- The row that is inserted. -/
def grantRow (drawn : GrantDrawn) (p : CreateAuthorizationParams) (origin : String)
    (pair : SecretPair)
    (bunker : PublicKey) (policyId : RowId) (now : Timestamp) : OAuthAuthorization :=
  newAuthorization drawn.newId p.tenantId p.userPubkey origin p.clientId bunker pair.hash
    (some policyId)
    (some drawn.handle) now

/-- Where the insertions can fail. -/
theorem insertGrant_error {e : OAuthError}
    (h : (insertGrant w inst drawn p origin pair bunker accessToken policyId).run s =
      (.error e, s')) :
    s' = s ∨ s.db.AcceptsOAuth (grantRow drawn p origin pair bunker policyId s.now) ∧
      ∃ t ∈ s.db.refreshTokens, t.tokenHash = w.sha256 drawn.refreshToken := by
  cases hrow : s.db.insertOAuth (grantRow drawn p origin pair bunker policyId s.now) with
  | none =>
    unfold insertGrant createAuthorization at h
    rw [grantRow] at hrow
    rw [Prog.run_bind, run_transact] at h
    simp only [hrow, Option.map_none, Prod.mk.injEq] at h
    exact .inl h.2.symm
  | some db =>
    obtain ⟨haccepts, -⟩ := Db.insertOAuth_eq_some.mp hrow
    refine .inr ⟨haccepts, ?_⟩
    by_contra hfresh
    -- nothing else can fail
    have hok : ∃ response s',
      (insertGrant w inst drawn p origin pair bunker accessToken policyId).run s =
        (.ok response, s') :=
      ⟨_, _, (insertGrant_ok
        (g := ⟨default, s.db, origin, pair, bunker, accessToken, policyId⟩)).mpr
        ⟨⟨haccepts, fun t ht heq => hfresh ⟨t, ht, heq⟩⟩, rfl, rfl⟩⟩
    obtain ⟨_, _, hok⟩ := hok
    cases h.symm.trans hok

theorem insertRefreshToken_eq_none {db : Db} {row : RefreshToken}
    (h : ∃ t ∈ db.refreshTokens, t.tokenHash = row.tokenHash) :
      db.insertRefreshToken row = none := by
  obtain ⟨t, ht, heq⟩ := h
  unfold Db.insertRefreshToken
  rw [if_pos]
  rw [Bool.or_eq_true]
  exact .inl (List.any_eq_true.mpr ⟨t, ht, beq_iff_eq.mpr heq⟩)

theorem insertGrant_late
    (hrow : s.db.AcceptsOAuth (grantRow drawn p origin pair bunker policyId s.now))
    (hold : ∃ t ∈ s.db.refreshTokens, t.tokenHash = w.sha256 drawn.refreshToken) :
    ∃ e s', (insertGrant w inst drawn p origin pair bunker accessToken policyId).run s =
      (.error e, s') ∧
      s'.db.oauthAuthorizations = s.db.oauthAuthorizations ++
        [grantRow drawn p origin pair bunker policyId s.now] := by
  have hinsert := Db.insertOAuth_eq_some.mpr ⟨hrow, rfl⟩
  unfold insertGrant createAuthorization createRefreshToken
  rw [Prog.run_bind, run_transact]
  rw [grantRow] at hinsert
  simp only [hinsert, Option.map_some]
  rw [Prog.run_bind, run_transact]
  rw [insertRefreshToken_eq_none (by exact hold)]
  exact ⟨_, _, rfl, rfl⟩

theorem ensurePersonalKey_none {tenant : TenantId} {user : PublicKey} (s : State) :
    (ensurePersonalKey w tenant user none).run s =
      match s.db.encryptedKeyForTenant user tenant with
      | some key => (.ok key, s)
      | none => (.error
        (.invalidRequest "Missing nsec in code_verifier. BYOK flow requires nsec to be embedded."),
          s) := by
  unfold ensurePersonalKey
  rw [Prog.bind_def, Prog.read_bind, Prog.run_atom]
  cases s.db.encryptedKeyForTenant user tenant with
  | some | none => rfl

theorem issueAccessToken_reads {tenant : TenantId} {user : PublicKey} {email origin : String}
    {isFirstParty : Bool}
    (s : State) :
      ((issueAccessToken w tenant user email origin bunker isFirstParty).run s).2 = s := by
  have hsteps : (issueAccessToken w tenant user email origin bunker isFirstParty).Steps Eq :=
    .bind (.ofExcept _) fun _ => .bind (.ofExcept _) fun _ =>
      .bind (.read Eq.refl _ _) fun _ => .ofExcept _
  exact (hsteps.run Eq.refl (fun _ _ _ => Eq.trans) s).symm

/-- A grant that fails has inserted nothing, unless it fails late. -/
theorem createOAuthAuthorization_error (hnsec : p.nsecFromVerifier = none)
    (hpolicy : p.policyId = some policyId)
    {e : OAuthError} (h : (createOAuthAuthorization w inst drawn p).run s = (.error e, s')) :
    s' = s ∨ FailsLate w s.now s.db drawn p := by
  rw [createOAuthAuthorization_eq, hnsec, Prog.run_bind, ensurePersonalKey_none] at h
  cases hkey : s.db.encryptedKeyForTenant p.userPubkey p.tenantId with
  | none =>
    rw [hkey] at h
    exact .inl (Prod.mk.inj h).2.symm
  | some key =>
  simp only [hkey] at h
  cases horigin : extractOrigin w p.redirectUri with
  | error e' =>
    rw [horigin] at h
    exact .inl (Prod.mk.inj h).2.symm
  | ok origin =>
  cases hpair : drawn.pair with
  | none =>
    rw [horigin, hpair] at h
    exact .inl (Prod.mk.inj h).2.symm
  | some pair =>
  simp only [horigin, hpair, Prog.ofExcept_ok, Prog.orErr_some, Prog.ret_bind] at h
  generalize hderive : deriveBunker w _ _ key pair.hash = derived at h
  cases derived with
  | error e' => exact .inl (Prod.mk.inj h).2.symm
  | ok bunker =>
  rw [Prog.ofExcept_ok, Prog.ret_bind, Prog.run_bind] at h
  have hreads :
    ((issueAccessToken w p.tenantId p.userPubkey p.email origin bunker p.isHeadless).run s).2 = s :=
    issueAccessToken_reads s
  rcases hissue :
    (issueAccessToken w p.tenantId p.userPubkey p.email origin bunker p.isHeadless).run
      s with ⟨r, s₁⟩
  rw [hissue] at h hreads
  obtain rfl : s₁ = s := hreads
  cases r with
  | error e' => exact .inl (Prod.mk.inj h).2.symm
  | ok accessToken =>
  simp only [choosePolicy, hpolicy, Prog.ret_bind] at h
  rcases insertGrant_error h with hsame | ⟨hrow, hold⟩
  · exact .inl hsame
  · exact .inr ⟨key, origin, pair, bunker, accessToken, policyId, hkey, horigin, hpair,
      deriveBunker_ok.mp hderive,
      (issueAccessToken_ok.mp hissue).1, by rw [chosenPolicy, hpolicy]; rfl, hrow, hold⟩

variable (inst) in
theorem FailsLate.inserts (hlate : FailsLate w s.now s.db drawn p) :
    ∃ e s', (createOAuthAuthorization w inst drawn p).run s = (.error e, s') ∧
      s'.db.oauthAuthorizations ≠ s.db.oauthAuthorizations := by
  obtain ⟨key, origin, pair, bunker, accessToken, policyId, hkey, horigin, hpair, hbunker, htoken,
    hpolicy, hrow,
    hold⟩ := hlate
  obtain ⟨e, s', hrun, hinserted⟩ :
      ∃ e s', (insertGrant w inst drawn p origin pair bunker accessToken policyId).run s =
        (.error e, s') ∧
        s'.db.oauthAuthorizations = s.db.oauthAuthorizations ++
          [grantRow drawn p origin pair bunker policyId s.now] :=
    insertGrant_late hrow hold
  refine ⟨e, s', ?_, fun hsame => ?_⟩
  · have hgrant : grantKey w s.db p.tenantId p.userPubkey p.nsecFromVerifier =
      some (key, s.db) := by
      unfold grantKey
      rw [hkey]
    have hrunKey : (ensurePersonalKey w p.tenantId p.userPubkey p.nsecFromVerifier).run s =
      (.ok key, s) :=
      ensurePersonalKey_ok.mpr ⟨s.db, hgrant, rfl⟩
    rw [createOAuthAuthorization_eq, Prog.run_bind, hrunKey]
    simp only [horigin, hpair, Prog.ofExcept_ok, Prog.orErr_some, Prog.ret_bind,
      deriveBunker_ok.mpr hbunker]
    rw [Prog.run_bind, issueAccessToken_ok.mpr ⟨htoken, rfl⟩]
    dsimp only
    rw [Prog.run_bind, choosePolicy_ok.mpr ⟨hpolicy, rfl⟩]
    exact hrun
  · rw [hsame] at hinserted
    exact absurd (congrArg List.length hinserted) (by simp)

end Grant

/-! ## What is refused, and when -/

section Refusal

variable (w : Web) (tenant : TenantId) (drawn : GrantDrawn) (generated : Keys)
  (approved : Option PublicKey)
  (policyId : RowId) (req : VerifyMagicLinkRequest) (s : State)

/-- The link that the request consumes, and the state when it has. -/
def usedLink : Option MagicLinkToken := (s.db.consumeMagicLink s.now (w.sha256 req.token) tenant).1

def afterConsume : State := s.withDb (s.db.consumeMagicLink s.now (w.sha256 req.token) tenant).2

/-- The request has consumed a link that signs in. -/
structure ComesIn (link : MagicLinkToken) (localKey : Option Keys)
    (grant : Option CommerceGrant) : Prop where
  customer : w.customerTenant = some tenant
  key : parseLocalKey w req.localKey = .ok localKey
  parsed : parseCommerceGrant w req = .ok grant
  used : usedLink w tenant req s = some link
  purpose : link.purpose = .signIn

/-- The grant is not for the app of the link. -/
def Mismatched (page : String) (grant : CommerceGrant) : Prop :=
  w.sameOrigin grant.redirectUri page = false ∨
    ∃ merchant ∈ approved, grant.merchantPubkey.all (· == merchant) = false

/-- There is no account yet, and the key that the browser brings is that of another. -/
def ForeignKey (link : MagicLinkToken) (localKey : Option Keys) : Prop :=
  s.db.findPubkeyByEmail link.email tenant = none ∧ ∃ keys ∈ localKey,
    (∃ secret, w.kmsEncrypt (w.toSecretBytes keys) = .ok secret) ∧
      ∃ u ∈ s.db.users, u.pubkey = w.publicKey keys

/-- What is wrong with the request shows when the link has been consumed. -/
def RefusedTooLate : Prop :=
  ∃ link localKey grant, ComesIn w tenant req s link localKey grant ∧
    ((∃ g ∈ grant, Mismatched w approved link.appOrigin g) ∨
      (∀ g ∈ grant, ∃ merchant, merchantForGrant w link.appOrigin approved g = .ok merchant) ∧
        ForeignKey w tenant s link localKey)

/-- The request's own fields are wrong. -/
def OwnFault : Prop :=
  (∃ e, parseLocalKey w req.localKey = .error e) ∨ (∃ e, parseCommerceGrant w req = .error e) ∨
    RefusedTooLate w tenant approved req s

def linkParams (link : MagicLinkToken) (user : PublicKey) (grant : CommerceGrant) :
    CreateAuthorizationParams where
  tenantId := tenant
  userPubkey := user
  email := link.email
  clientId := grant.clientId
  scope := commerceScope
  redirectUri := grant.redirectUri
  nsecFromVerifier := none
  previousAuthId := none
  isHeadless := false
  policyId := some policyId

/-- The session can be made, and the app authorized. -/
def SessionMade (link : MagicLinkToken) (user : PublicKey) (db : Db) : Option CommerceGrant → Prop
  | some grant => Authorizes w s.now db drawn (linkParams tenant policyId link user grant)
  | none =>
    ∃ key serverKeys token, w.publicKeyFromHex user = .ok key ∧ w.getServerKeys = .ok serverKeys ∧
      generateServerSignedUcan w s.now key tenant link.email link.appOrigin none
        serverKeys false none
        w.tokenExpirySeconds = .ok token

/-- An account is created, or an authorization inserted, and then the request fails. -/
def LeftBehind : Prop :=
  ∃ link localKey grant, ComesIn w tenant req s link localKey grant ∧
    (∀ g ∈ grant, ∃ merchant, merchantForGrant w link.appOrigin approved g = .ok merchant) ∧
    ((∃ user, s.db.findPubkeyByEmail link.email tenant = some user ∧ ∃ g ∈ grant,
        FailsLate w s.now (afterConsume w tenant req s).db drawn
          (linkParams tenant policyId link user g)) ∨
      ∃ secret user db, s.db.findPubkeyByEmail link.email tenant = none ∧
        w.kmsEncrypt (w.toSecretBytes (localKey.getD generated)) = .ok secret ∧
        (afterConsume w tenant req s).db.findOrCreatePasswordless s.now
          (w.publicKey (localKey.getD generated)) tenant
          link.email secret = some (user, db) ∧
        ¬ SessionMade w tenant drawn policyId s link user db grant)

/-- An error leaves nothing behind, and the link can be used again where the request is to blame. -/
def RefusedCleanly {α : Type} (r : Except AuthError α) (s' : State) : Prop :=
  ∀ e, r = .error e → LeavesNothing s s' ∧
    (OwnFault w tenant approved req s → s'.db.magicLinkTokens = s.db.magicLinkTokens)

end Refusal

section Run

variable {w : Web} {inst : InstanceId} {tenant : TenantId} {drawn : GrantDrawn} {generated : Keys}
  {approved : Option PublicKey} {policyId : RowId} {req : VerifyMagicLinkRequest} {s s' : State}
  {link : MagicLinkToken} {localKey : Option Keys} {grant : Option CommerceGrant}

theorem Mismatched.refused {page : String} {g : CommerceGrant} {merchant : PublicKey}
    (h : Mismatched w approved page g) : merchantForGrant w page approved g ≠ .ok merchant := by
  intro hok
  unfold merchantForGrant at hok
  split at hok
  · cases hok
  next hsame =>
  cases happroved : approved with
  | none => rw [happroved] at hok; cases hok
  | some m =>
    rw [happroved] at hok
    rcases h with h | ⟨m', hm', hother⟩
    · rw [h] at hsame
      exact hsame rfl
    · rw [happroved] at hm'
      cases hm'
      simp only [hother] at hok
      cases hok

/-- Consuming a link changes it. -/
theorem afterConsume_ne (h : usedLink w tenant req s = some link) :
    (afterConsume w tenant req s).db.magicLinkTokens ≠ s.db.magicLinkTokens := by
  intro hsame
  have hvalid := List.find?_some h
  have hunused : link.consumedAt = some s.now := by
    have hrow := updateWhere_eq_self_iff.mp hsame link (List.mem_of_find?_eq_some h) hvalid
    rw [← hrow]
  simp only [Bool.and_eq_true] at hvalid
  rw [hunused] at hvalid
  exact absurd hvalid.1.2 (by simp)

theorem ComesIn.unique (h : ComesIn w tenant req s link localKey grant) {link' : MagicLinkToken}
    {localKey' : Option Keys} {grant' : Option CommerceGrant}
    (h' : ComesIn w tenant req s link' localKey' grant') :
    link' = link ∧ localKey' = localKey ∧ grant' = grant :=
  ⟨Option.some.inj (h'.used.symm.trans h.used), Except.ok.inj (h'.key.symm.trans h.key),
    Except.ok.inj (h'.parsed.symm.trans h.parsed)⟩

variable (inst drawn policyId link grant) in
theorem signInSession_keeps (user : PublicKey) (s₁ : State) :
    ((signInSession w inst tenant drawn policyId user link grant).run s₁).2.db.users = s₁.db.users ∧
      ((signInSession w inst tenant drawn policyId user link grant).run s₁).2.db.magicLinkTokens =
        s₁.db.magicLinkTokens := by
  have hdoes : (signInSession w inst tenant drawn policyId user link grant).Steps fun s s' =>
      s'.db.users = s.db.users ∧ s'.db.magicLinkTokens = s.db.magicLinkTokens := by
    cases grant with
    | none =>
      exact .bind (.bind (.ofExcept _) fun _ => .bind (.ofExcept _) fun _ =>
        .bind (.read (fun s => ⟨rfl, rfl⟩) _ _) fun _ => .ofExcept _) fun _ => trivial
    | some grant =>
      refine .bind (.mapErr ((createOAuthAuthorization_does _ _ _).steps fun _ s s' h => ?_))
        fun _ => trivial
      rw [h.2.db]
      exact ⟨rfl, rfl⟩
  exact Prog.Steps.run
    (G := fun s s' : State => s'.db.users = s.db.users ∧
      s'.db.magicLinkTokens = s.db.magicLinkTokens)
    (fun _ => ⟨rfl, rfl⟩) (fun _ _ _ h h' => ⟨h'.1.trans h.1, h'.2.trans h.2⟩) hdoes s₁

theorem linkSession_run (user : PublicKey) (email page : String) (s₁ : State) :
    (linkSession w tenant user email page false w.tokenExpirySeconds).run s₁ =
      (((w.publicKeyFromHex user).mapError
        fun e => AuthError.internal ("Invalid pubkey: " ++ e)).bind fun key =>
        (w.getServerKeys.mapError AuthError.internal).bind fun serverKeys =>
          (generateServerSignedUcan w s₁.now key tenant email page none serverKeys false none
            w.tokenExpirySeconds).mapError AuthError.internal, s₁) := by
  unfold linkSession
  cases w.publicKeyFromHex user with
  | error => rfl
  | ok key =>
    cases w.getServerKeys with
    | error => rfl
    | ok serverKeys =>
      simp only [Except.mapError, Prog.bind_def, Prog.ofExcept_ok, Prog.ret_bind, Prog.read_bind,
        Prog.run_atom, id_eq,
        Except.bind]
      cases generateServerSignedUcan w s₁.now key tenant email page none serverKeys false none
        w.tokenExpirySeconds with
      | error | ok => rfl

theorem run_mapErr {ε ε' α : Type} (f : ε → ε') (p : Prog Stmt State ε α) (s₁ : State) :
    (p.mapErr f).run s₁ = ((p.run s₁).1.mapError f, (p.run s₁).2) := by
  induction p generalizing s₁ with
  | ret | err => rfl
  | atom l upd k ih => exact ih s₁ (upd s₁)

variable (inst drawn policyId link) in
/-- With a grant the session is its access token. -/
theorem signInSession_some (user : PublicKey) (g : CommerceGrant) (s₁ : State) :
    (∃ response s',
      (createOAuthAuthorization w inst drawn (linkParams tenant policyId link user g)).run s₁ =
        (.ok response, s') ∧ ∃ answer,
      (signInSession w inst tenant drawn policyId user link (some g)).run s₁ = (.ok answer, s')) ∨
    ∃ e s', (createOAuthAuthorization w inst drawn (linkParams tenant policyId link user g)).run
      s₁ = (.error e, s') ∧
      ∃ e', (signInSession w inst tenant drawn policyId user link (some g)).run s₁ =
        (.error e', s') := by
  rw [show (signInSession w inst tenant drawn policyId user link (some g)).run s₁ =
    _ from Prog.run_bind _ _ s₁,
    run_mapErr]
  simp only [linkParams]
  rcases (createOAuthAuthorization w inst drawn _).run s₁ with ⟨e | response, s'⟩
  · exact .inr ⟨e, s', rfl, _, rfl⟩
  · exact .inl ⟨response, s', rfl, _, rfl⟩

variable (inst drawn policyId link grant) in
theorem signInSession_ok_iff (user : PublicKey) (s₁ : State) :
    (∃ answer s', (signInSession w inst tenant drawn policyId user link grant).run s₁ =
      (.ok answer, s')) ↔
      SessionMade w tenant drawn policyId s₁ link user s₁.db grant := by
  cases grant with
  | none =>
    rw [show (signInSession w inst tenant drawn policyId user link none).run s₁ =
      _ from Prog.run_bind _ _ s₁,
      linkSession_run]
    constructor
    · rintro ⟨answer, s', hok⟩
      cases hkey : w.publicKeyFromHex user with
      | error => rw [hkey] at hok; cases hok
      | ok key =>
      cases hkeys : w.getServerKeys with
      | error => rw [hkey, hkeys] at hok; cases hok
      | ok serverKeys =>
      rw [hkey, hkeys] at hok
      simp only [Except.mapError, Except.bind] at hok
      generalize htoken : generateServerSignedUcan w s₁.now key tenant link.email link.appOrigin
        none serverKeys false
        none w.tokenExpirySeconds = token at hok
      cases token with
      | error => cases hok
      | ok token => exact ⟨key, serverKeys, token, hkey, hkeys, htoken⟩
    · rintro ⟨key, serverKeys, token, hkey, hkeys, htoken⟩
      rw [hkey, hkeys]
      simp only [Except.mapError, Except.bind, htoken]
      exact ⟨_, _, rfl⟩
  | some g =>
    constructor
    · rintro ⟨answer, s', hok⟩
      rcases signInSession_some inst drawn policyId link user g s₁ with
        ⟨response, s₂, hcreated, -⟩ | ⟨_, _, -, _, herr⟩
      · exact createOAuthAuthorization_authorizes hcreated
      · cases hok.symm.trans herr
    · intro hmade
      rcases signInSession_some inst drawn policyId link user g s₁ with
        ⟨_, s₂, -, answer, hok⟩ | ⟨_, _, hrefused, -⟩
      · exact ⟨answer, s₂, hok⟩
      · exact absurd hmade (createOAuthAuthorization_refuses hrefused)

/-- What comes out fits the condition. -/
def Tells (w : Web) (tenant : TenantId) (drawn : GrantDrawn) (generated : Keys)
    (approved : Option PublicKey)
    (policyId : RowId) (req : VerifyMagicLinkRequest) (s : State) {α : Type}
    (r : Except AuthError α) (s' : State) :
    Prop :=
  RefusedCleanly w tenant approved req s r s' ↔
    ¬ RefusedTooLate w tenant approved req s ∧
      ¬ LeftBehind w tenant drawn generated approved policyId req s

variable {α : Type} {r : Except AuthError α}

/-- Nobody has come in. -/
theorem Tells.outside (hclean : RefusedCleanly w tenant approved req s r s')
    (hout : ∀ link localKey grant, ¬ ComesIn w tenant req s link localKey grant) :
    Tells w tenant drawn generated approved policyId req s r s' :=
  iff_of_true hclean ⟨fun ⟨_, _, _, hin, _⟩ => hout _ _ _ hin,
    fun ⟨_, _, _, hin, _⟩ => hout _ _ _ hin⟩

theorem RefusedCleanly.same : RefusedCleanly w tenant approved req s r s :=
  fun _ _ => ⟨⟨rfl, rfl, rfl⟩, fun _ => rfl⟩

theorem RefusedCleanly.answered (a : α) : RefusedCleanly w tenant approved req s (.ok a) s' :=
  fun _ h => nomatch h

/-- The fault is not in the fields themselves. -/
theorem OwnFault.late (h : OwnFault w tenant approved req s)
    (hkey : parseLocalKey w req.localKey = .ok localKey)
    (hparsed : parseCommerceGrant w req = .ok grant) : RefusedTooLate w tenant approved req s := by
  rcases h with ⟨_, herr⟩ | ⟨_, herr⟩ | hlate
  · cases herr.symm.trans hkey
  · cases herr.symm.trans hparsed
  · exact hlate

theorem RefusedCleanly.consumed (hkey : parseLocalKey w req.localKey = .ok localKey)
    (hparsed : parseCommerceGrant w req = .ok grant)
    (hlate : ¬ RefusedTooLate w tenant approved req s) :
    RefusedCleanly w tenant approved req s r (afterConsume w tenant req s) :=
  fun _ _ => ⟨⟨rfl, rfl, rfl⟩, fun hown => absurd (hown.late hkey hparsed) hlate⟩

theorem ComesIn.late_iff (h : ComesIn w tenant req s link localKey grant) :
    RefusedTooLate w tenant approved req s ↔ (∃ g ∈ grant, Mismatched w approved link.appOrigin g) ∨
      (∀ g ∈ grant, ∃ merchant, merchantForGrant w link.appOrigin approved g = .ok merchant) ∧
        ForeignKey w tenant s link localKey := by
  constructor
  · rintro ⟨link', localKey', grant', hin, hwrong⟩
    obtain ⟨rfl, rfl, rfl⟩ := h.unique hin
    exact hwrong
  · exact fun hwrong => ⟨link, localKey, grant, h, hwrong⟩

/-- A request that has only used up the link was refused too late, or was not to blame. -/
theorem Tells.refused {e : AuthError} (h : ComesIn w tenant req s link localKey grant)
    (hnothing : ¬ LeftBehind w tenant drawn generated approved policyId req s) :
    Tells w tenant drawn generated approved policyId req s (.error e : Except AuthError α)
      (afterConsume w tenant req s) := by
  by_cases hlate : RefusedTooLate w tenant approved req s
  · have hused := afterConsume_ne h.used
    exact iff_of_false (fun hclean => hused ((hclean e rfl).2 (.inr (.inr hlate))))
      fun hnot => hnot.1 hlate
  · exact iff_of_true (.consumed h.key h.parsed hlate) ⟨hlate, hnothing⟩

/-- An account that cannot be inserted has a key that is taken. -/
theorem findOrCreatePasswordless_none (db : Db) {now : Timestamp} {pubkey : PublicKey}
    {email : String}
    {secret : Bytes} (hnew : db.findPubkeyByEmail email tenant = none) :
    db.findOrCreatePasswordless now pubkey tenant email secret = none ↔
      ∃ u ∈ db.users, u.pubkey = pubkey := by
  unfold Db.findOrCreatePasswordless
  rw [hnew, Option.map_eq_none_iff]
  constructor
  · intro hnone
    obtain ⟨u, hu, hconflict⟩ := List.any_eq_true.mp (Db.insertUser_eq_none hnone)
    refine ⟨u, hu, ?_⟩
    by_contra hother
    have hfree := List.find?_eq_none.mp (Option.map_eq_none_iff.mp hnew) u hu
    simp only [Db.conflicts, Bool.or_eq_true, Bool.and_eq_true, beq_iff_eq] at hconflict hfree
    rcases hconflict with hsame | ⟨htenant, (⟨-, hemail⟩ | ⟨hnot, -⟩) | ⟨hnot, -⟩⟩
    · exact hother hsame.symm
    · exact hfree ⟨hemail.symm, htenant.symm⟩
    · cases hnot
    · cases hnot
  · rintro ⟨u, hu, rfl⟩
    unfold Db.insertUser
    rw [if_pos]
    exact List.any_eq_true.mpr ⟨u, hu, by simp [Db.conflicts]⟩

variable (inst) in
theorem signInSession_late {user : PublicKey} {g : CommerceGrant} {s₁ : State}
    (hlate : FailsLate w s₁.now s₁.db drawn (linkParams tenant policyId link user g)) :
    ∃ e s₂, (signInSession w inst tenant drawn policyId user link (some g)).run s₁ =
      (.error e, s₂) ∧
      s₂.db.oauthAuthorizations ≠ s₁.db.oauthAuthorizations := by
  obtain ⟨e, s₂, hfails, hinserted⟩ := hlate.inserts inst
  rcases signInSession_some inst drawn policyId link user g s₁ with
    ⟨_, _, hcreated, -⟩ | ⟨_, _, hrefused, e', herr⟩
  · cases hfails.symm.trans hcreated
  · cases hfails.symm.trans hrefused
    exact ⟨e', s₂, herr, hinserted⟩

theorem signInSession_error {user : PublicKey} {s₁ s₂ : State} {e : AuthError}
    (h : (signInSession w inst tenant drawn policyId user link grant).run s₁ = (.error e, s₂)) :
    s₂ = s₁ ∨
      ∃ g ∈ grant, FailsLate w s₁.now s₁.db drawn (linkParams tenant policyId link user g) := by
  cases grant with
  | none =>
    rw [show (signInSession w inst tenant drawn policyId user link none).run s₁ =
      _ from Prog.run_bind _ _ s₁,
      linkSession_run] at h
    split at h
    · cases h
    next heq =>
    cases h
    exact .inl (Prod.mk.inj heq).2.symm
  | some g =>
    rcases signInSession_some inst drawn policyId link user g s₁ with
      ⟨_, _, -, _, hok⟩ | ⟨_, s', hrefused, _, herr⟩
    · cases h.symm.trans hok
    · cases h.symm.trans herr
      exact (createOAuthAuthorization_error rfl rfl hrefused).imp_right fun hlate => ⟨g, rfl, hlate⟩

/-- Once the grant is good, only a foreign key is refused too late. -/
theorem ComesIn.late_foreign (h : ComesIn w tenant req s link localKey grant)
    (hgranted : ∀ g ∈ grant, ∃ merchant,
      merchantForGrant w link.appOrigin approved g = .ok merchant) :
    RefusedTooLate w tenant approved req s ↔ ForeignKey w tenant s link localKey := by
  rw [h.late_iff]
  constructor
  · rintro (⟨g, hg, hwrong⟩ | ⟨-, hforeign⟩)
    · obtain ⟨merchant, hok⟩ := hgranted g hg
      exact absurd hok hwrong.refused
    · exact hforeign
  · exact fun hforeign => .inr ⟨hgranted, hforeign⟩

theorem ComesIn.left_iff (h : ComesIn w tenant req s link localKey grant)
    (hgranted : ∀ g ∈ grant, ∃ merchant,
      merchantForGrant w link.appOrigin approved g = .ok merchant) :
    LeftBehind w tenant drawn generated approved policyId req s ↔
      (∃ user, s.db.findPubkeyByEmail link.email tenant = some user ∧ ∃ g ∈ grant,
        FailsLate w s.now (afterConsume w tenant req s).db drawn
          (linkParams tenant policyId link user g)) ∨
      ∃ secret user db, s.db.findPubkeyByEmail link.email tenant = none ∧
        w.kmsEncrypt (w.toSecretBytes (localKey.getD generated)) = .ok secret ∧
        (afterConsume w tenant req s).db.findOrCreatePasswordless s.now
          (w.publicKey (localKey.getD generated)) tenant
          link.email secret = some (user, db) ∧
        ¬ SessionMade w tenant drawn policyId s link user db grant := by
  constructor
  · rintro ⟨link', localKey', grant', hin, -, hleft⟩
    obtain ⟨rfl, rfl, rfl⟩ := h.unique hin
    exact hleft
  · exact fun hleft => ⟨link, localKey, grant, h, hgranted, hleft⟩

/-- The customer has an account. -/
theorem knownCustomer_tells {user : PublicKey} (h : ComesIn w tenant req s link localKey grant)
    (hgranted : ∀ g ∈ grant, ∃ merchant,
      merchantForGrant w link.appOrigin approved g = .ok merchant)
    (hfound : s.db.findPubkeyByEmail link.email tenant = some user) :
    (signInSession w inst tenant drawn policyId user link grant).Ends
      (Tells w tenant drawn generated approved policyId req s) (afterConsume w tenant req s) := by
  have hintime : ¬ RefusedTooLate w tenant approved req s := fun hlate => by
    have hforeign := (h.late_foreign hgranted).mp hlate
    cases hforeign.1.symm.trans hfound
  -- with an account, only a grant that fails late leaves something behind
  have hleft : ∀ {r s₂},
      (signInSession w inst tenant drawn policyId user link grant).run
        (afterConsume w tenant req s) = (r, s₂) →
      LeftBehind w tenant drawn generated approved policyId req s →
        (∃ e, r = .error e) ∧ s₂.db.oauthAuthorizations ≠ s.db.oauthAuthorizations := by
    intro r s₂ hrun hleft
    rcases (h.left_iff hgranted).mp hleft with ⟨user', hfound', g, hg, hlate⟩ | ⟨_, _, _, hnew, -⟩
    · cases hfound.symm.trans hfound'
      cases hg
      obtain ⟨e, s', herr, hinserted⟩ := signInSession_late inst hlate
      cases hrun.symm.trans herr
      exact ⟨⟨e, rfl⟩, hinserted⟩
    · cases hnew.symm.trans hfound
  unfold Prog.Ends
  rcases hrun : (signInSession w inst tenant drawn policyId user link grant).run
    (afterConsume w tenant req s) with
    ⟨e | answer, s₂⟩
  · rcases signInSession_error hrun with rfl | ⟨g, hg, hlate⟩
    · exact Tells.refused h fun hbehind => (hleft hrun hbehind).2 rfl
    · have hbehind : LeftBehind w tenant drawn generated approved policyId req s :=
        (h.left_iff hgranted).mpr (.inl ⟨user, hfound, g, hg, hlate⟩)
      exact iff_of_false (fun hclean => (hleft hrun hbehind).2 (hclean e rfl).1.authorizations)
        fun hnot => hnot.2 hbehind
  · refine iff_of_true (.answered answer) ⟨hintime, fun hbehind => ?_⟩
    obtain ⟨⟨_, herr⟩, -⟩ := hleft hrun hbehind
    cases herr

/-- The account has just been created. -/
theorem newCustomer_tells {user : PublicKey} {secret : Bytes} {db : Db}
    (h : ComesIn w tenant req s link localKey grant)
    (hgranted : ∀ g ∈ grant, ∃ merchant,
      merchantForGrant w link.appOrigin approved g = .ok merchant)
    (hnew : s.db.findPubkeyByEmail link.email tenant = none)
    (hsecret : w.kmsEncrypt (w.toSecretBytes (localKey.getD generated)) = .ok secret)
    (hcreated : (afterConsume w tenant req s).db.findOrCreatePasswordless s.now
      (w.publicKey (localKey.getD generated)) tenant link.email secret = some (user, db)) :
    (signInSession w inst tenant drawn policyId user link grant).Ends
      (Tells w tenant drawn generated approved policyId req s)
        ((afterConsume w tenant req s).withDb db) := by
  have hmade : (∃ answer s', (signInSession w inst tenant drawn policyId user link grant).run
      ((afterConsume w tenant req s).withDb db) = (.ok answer, s')) ↔
        SessionMade w tenant drawn policyId s link user db grant :=
    signInSession_ok_iff inst drawn policyId link grant user
      ((afterConsume w tenant req s).withDb db)
  obtain ⟨hfound, -⟩ | ⟨-, -, hfree, hdb⟩ := Db.findOrCreatePasswordless_eq hcreated
  · cases hfound.symm.trans hnew
  have hinserted : db.users.length = s.db.users.length + 1 := by
    rw [hdb]
    exact List.length_append
  have hintime : ¬ RefusedTooLate w tenant approved req s := fun hlate => by
    obtain ⟨-, keys, hkeys, -, u, hu, htaken⟩ := (h.late_foreign hgranted).mp hlate
    cases hkeys
    exact hfree u hu htaken
  unfold Prog.Ends
  rcases hrun : (signInSession w inst tenant drawn policyId user link grant).run
    ((afterConsume w tenant req s).withDb db) with ⟨e | answer, s₂⟩
  · have hbehind : LeftBehind w tenant drawn generated approved policyId req s := by
      refine (h.left_iff hgranted).mpr
        (.inr ⟨secret, user, db, hnew, hsecret, hcreated, fun hmade' => ?_⟩)
      obtain ⟨_, _, hok⟩ := hmade.mpr hmade'
      cases hrun.symm.trans hok
    refine iff_of_false (fun hclean => ?_) fun hnot => hnot.2 hbehind
    have husers : ((signInSession w inst tenant drawn policyId user link grant).run
        ((afterConsume w tenant req s).withDb db)).2.db.users = db.users :=
      (signInSession_keeps inst drawn policyId link grant user
        ((afterConsume w tenant req s).withDb db)).1
    rw [hrun] at husers
    have hsame : s.db.users.length = db.users.length :=
      congrArg List.length ((hclean e rfl).1.users.symm.trans husers)
    rw [hinserted] at hsame
    exact Nat.succ_ne_self _ hsame.symm
  · refine iff_of_true (.answered answer) ⟨hintime, fun hbehind => ?_⟩
    rcases (h.left_iff hgranted).mp hbehind with
      ⟨_, hfound, -⟩ | ⟨secret', user', db', -, hsecret', hcreated', hnot⟩
    · cases hfound.symm.trans hnew
    · cases hsecret.symm.trans hsecret'
      cases hcreated.symm.trans hcreated'
      exact hnot (hmade.mp ⟨answer, s₂, hrun⟩)

/-- The value of an answer does not matter. -/
theorem Tells.bind_ret {β : Type} {f : α → β} {p : Prog Stmt State AuthError α} {s₁ : State}
    (h : p.Ends (Tells w tenant drawn generated approved policyId req s) s₁) :
    (p.bind fun a => .ret (f a)).Ends
      (Tells w tenant drawn generated approved policyId req s) s₁ := by
  refine Prog.Ends.bind (Prog.Ends.mono (fun r s' hr => ?_) h)
  cases r with
  | ok a => exact (iff_of_true (.answered (f a)) (hr.mp (.answered a)) : Tells _ _ _ _ _ _ _ _ _ _)
  | error e =>
    refine Iff.trans ⟨fun hclean e' he => ?_, fun hclean e' he => ?_⟩ hr
    · cases he
      exact hclean e rfl
    · cases he
      exact hclean e rfl

/-- What follows once the grant is good. -/
theorem customer_tells (h : ComesIn w tenant req s link localKey grant)
    (hgranted : ∀ g ∈ grant, ∃ merchant,
      merchantForGrant w link.appOrigin approved g = .ok merchant) :
    ((findOrCreateCustomer w tenant link.email localKey generated).bind fun user =>
      (signInSession w inst tenant drawn policyId user link grant).bind fun response =>
        .ret (some response)).Ends
      (Tells w tenant drawn generated approved policyId req s) (afterConsume w tenant req s) := by
  refine Prog.Ends.bind ?_
  unfold findOrCreateCustomer
  refine Prog.Ends.read ?_
  cases hfound : s.db.findPubkeyByEmail link.email tenant with
  | some user =>
    rw [show (afterConsume w tenant req s).db.findPubkeyByEmail link.email tenant =
      some user from hfound]
    exact Tells.bind_ret (knownCustomer_tells h hgranted hfound)
  | none =>
  rw [show (afterConsume w tenant req s).db.findPubkeyByEmail link.email tenant = none from hfound]
  refine Prog.Ends.ofExcept_mapError (fun e herr => ?_) fun secret hsecret => ?_
  · -- nothing is encrypted, so nothing is created
    refine Tells.refused h fun hbehind => ?_
    rcases (h.left_iff hgranted).mp hbehind with ⟨_, hfound', -⟩ | ⟨_, _, _, -, hsecret, -⟩
    · cases hfound.symm.trans hfound'
    · cases herr.symm.trans hsecret
  · unfold Prog.Ends
    rw [run_transact]
    cases hcreated : (afterConsume w tenant req s).db.findOrCreatePasswordless
      (afterConsume w tenant req s).now
      (w.publicKey (localKey.getD generated)) tenant link.email secret with
    | some created => exact Tells.bind_ret (newCustomer_tells h hgranted hfound hsecret hcreated)
    | none =>
    have htaken : ∃ u ∈ s.db.users, u.pubkey = w.publicKey (localKey.getD generated) :=
      (findOrCreatePasswordless_none (afterConsume w tenant req s).db hfound).mp hcreated
    refine Tells.refused h fun hbehind => ?_
    rcases (h.left_iff hgranted).mp hbehind with
      ⟨_, hfound', -⟩ | ⟨_, _, _, -, hsecret', hcreated', -⟩
    · cases hfound.symm.trans hfound'
    · cases hsecret.symm.trans hsecret'
      cases hcreated.symm.trans hcreated'

theorem ends_of_reads {p : Prog Stmt State AuthError α}
    {Q : Except AuthError α → State → Prop} {s₁ : State}
    (hp : p.Steps Eq) (h : ∀ r, Q r s₁) : p.Ends Q s₁ := by
  have hsame := hp.run Eq.refl (fun _ _ _ => Eq.trans) s₁
  unfold Prog.Ends
  rw [← hsame]
  exact h _

/-- **A refused link leaves nothing behind** and can be used again, unless what is wrong shows only
when it has been consumed, or the session fails after the account or the authorization. -/
theorem refused_cleanly_iff (w : Web) (inst : InstanceId) (tenant : TenantId) (drawn : GrantDrawn)
    (generated : Keys)
    (approved : Option PublicKey) (policyId : RowId) (req : VerifyMagicLinkRequest) (s : State) :
    RefusedCleanly w tenant approved req s
      ((verifyMagicLink w inst tenant drawn generated approved policyId req).run s).1
      ((verifyMagicLink w inst tenant drawn generated approved policyId req).run s).2 ↔
    ¬ RefusedTooLate w tenant approved req s ∧
      ¬ LeftBehind w tenant drawn generated approved policyId req s := by
  suffices (verifyMagicLink w inst tenant drawn generated approved policyId req).Ends
    (Tells w tenant drawn generated approved policyId req s) s from this
  unfold verifyMagicLink
  split
  next hother => exact Tells.outside (.answered none) fun _ _ _ hin => hother hin.customer
  next hcustomer =>
  rw [ne_eq, not_not] at hcustomer
  refine Prog.Ends.ofExcept_cases (fun e herr => ?_) fun localKey hkey => ?_
  · exact Tells.outside .same fun _ _ _ hin => nomatch herr.symm.trans hin.key
  refine Prog.Ends.ofExcept_cases (fun e herr => ?_) fun grant hparsed => Prog.Ends.stmt ?_
  · exact Tells.outside .same fun _ _ _ hin => nomatch herr.symm.trans hin.parsed
  have houtside : (∀ link, usedLink w tenant req s = some link → link.purpose ≠ .signIn) →
      ∀ link localKey grant, ¬ ComesIn w tenant req s link localKey grant :=
    fun hnone link _ _ hin => hnone link hin.used hin.purpose
  refine Prog.Ends.orErr_cases (fun hnone => ?_) fun link hlink => ?_
  · have hout := houtside fun link hlink => nomatch hnone.symm.trans hlink
    exact Tells.outside (.consumed hkey hparsed fun ⟨_, _, _, hin, _⟩ => hout _ _ _ hin) hout
  split
  next hdelete =>
    have hout := houtside fun link' hlink' hsign => by
      cases hlink.symm.trans hlink'
      cases hdelete.symm.trans hsign
    refine ends_of_reads ?_ fun r =>
      Tells.outside (.consumed hkey hparsed fun ⟨_, _, _, hin, _⟩ => hout _ _ _ hin) hout
    exact .bind (.bind (.read Eq.refl _ _) fun _ => .bind (.orErr _ _) fun _ => .bind
      (.bind (.ofExcept _) fun _ => .bind (.ofExcept _) fun _ => .bind (.read Eq.refl _ _)
        fun _ => .ofExcept _)
      fun _ => trivial) fun _ => trivial
  next hpurpose =>
  have hin : ComesIn w tenant req s link localKey grant :=
    ⟨hcustomer, hkey, hparsed, hlink, by cases h : link.purpose <;> simp_all⟩
  refine Prog.Ends.ofExcept_cases (fun e herr => ?_) fun merchant hok => customer_tells hin ?_
  · refine Tells.refused hin ?_
    rintro ⟨link', localKey', grant', hin', hgranted, -⟩
    obtain ⟨rfl, -, rfl⟩ := hin'.unique hin
    cases grant with
    | none => cases herr
    | some g =>
      obtain ⟨merchant, hok⟩ := hgranted g rfl
      rw [Option.elim_some, hok] at herr
      cases herr
  · rintro g rfl
    rw [Option.elim_some] at hok
    cases hmerchant : merchantForGrant w link.appOrigin approved g with
    | error e =>
      rw [hmerchant] at hok
      cases hok
    | ok merchant => exact ⟨merchant, rfl⟩

end Run

/-! The customer of `linkRows` asks for a grant of another page, and is refused, but the link is
used up. Without an account there is one afterwards, though the secret pool was empty. -/

def strayGrant : VerifyMagicLinkRequest where
  token := "old"
  clientId := some "shop"
  redirectUri := some "https://other.example"
  scope := some commerceScope

def ownGrant : VerifyMagicLinkRequest :=
  { strayGrant with redirectUri := some "https://app.example" }

def nobodyYet : Db := { linkRows with users := [] }

def emptyPool : GrantDrawn := ⟨none, 1, "h", "r"⟩

theorem strayGrant_late : RefusedTooLate linkWeb 1 (some "m") strayGrant (.boot linkRows 0) :=
  ⟨{ tenantId := 1, email := "p@example.com", tokenHash := "sha256:old", purpose := .signIn,
     appOrigin := "https://app.example", expiresAt := 900000000, createdAt := 0 }, none,
    some ⟨"shop", "https://other.example", none⟩, ⟨rfl, by decide, by decide, by decide, rfl⟩,
    .inl ⟨_, rfl, .inl (by decide)⟩⟩

theorem refused_not_cleanly :
    ¬ RefusedCleanly linkWeb 1 (some "m") strayGrant (.boot linkRows 0)
        ((verifyMagicLink linkWeb 0 1 emptyPool "sk" (some "m") 7 strayGrant).run
          (.boot linkRows 0)).1
        ((verifyMagicLink linkWeb 0 1 emptyPool "sk" (some "m") 7 strayGrant).run
          (.boot linkRows 0)).2 ∧
      ¬ RefusedCleanly linkWeb 1 (some "m") ownGrant (.boot nobodyYet 0)
        ((verifyMagicLink linkWeb 0 1 emptyPool "sk" (some "m") 7 ownGrant).run
          (.boot nobodyYet 0)).1
        ((verifyMagicLink linkWeb 0 1 emptyPool "sk" (some "m") 7 ownGrant).run
          (.boot nobodyYet 0)).2 := by
  constructor
  · intro hclean
    exact absurd ((hclean (.badRequest "redirect_uri does not match the link") (by decide)).2
      (.inr (.inr strayGrant_late))) (by decide)
  · intro hclean
    cases hanswer :
      ((verifyMagicLink linkWeb 0 1 emptyPool "sk" (some "m") 7 ownGrant).run
        (.boot nobodyYet 0)).1 with
    | ok _ =>
      have hfails : ((verifyMagicLink linkWeb 0 1 emptyPool "sk" (some "m") 7 ownGrant).run
        (.boot nobodyYet 0)).1.toOption.isNone = true := by decide
      rw [hanswer] at hfails
      cases hfails
    | error e => exact absurd (hclean e hanswer).1.users (by decide)

end Keycast.Http
