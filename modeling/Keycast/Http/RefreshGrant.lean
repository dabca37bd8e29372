import Keycast.Http.Exchange
import Keycast.Lib.Faults

/-!
# `Http/RefreshGrant.lean` — what a refused refresh costs

`handle_refresh_token_grant` consumes the token it is given in its first statement, and then looks
for the authorization, the key and the rest. From then on every error leaves the client without a
token, and the expiry of the authorization is not looked at. `refresh_careful_iff` says which
requests are answered as they should be; the database may fail at any statement whose failure the
handler passes on.
-/

set_option autoImplicit false

namespace Keycast.Http

open Lib

/-! ## Faults of the database -/

/-- The statements that fail with an error of the database: the handler takes an email or a policy
that cannot be read for a missing one. -/
inductive RefreshFault
  | consume
  | authorization
  | key
  | store
  deriving DecidableEq, Repr

def RefreshFault.fails (text : String) : RefreshFault → Stmt → Option OAuthError
  | consume, .consumeRefreshToken _ => some (.invalidRequest ("Database error: " ++ text))
  | authorization, .findOAuth => some (.invalidGrant ("Authorization not found: " ++ text))
  | key, .findEncryptedKey => some (.invalidRequest ("Database error: " ++ text))
  | store, .createRefreshToken .. => some (.invalidRequest ("Database error: " ++ text))
  | _, _ => none

/-- A request, with the fault that meets it. -/
structure RefreshCall where
  tenant : TenantId
  drawn : GrantDrawn
  req : TokenRequest
  fault : Option RefreshFault
  text : String
  deriving DecidableEq, Repr

def RefreshCall.fails (r : RefreshCall) (l : Stmt) : Option OAuthError :=
  r.fault.bind fun f => f.fails r.text l

def RefreshCall.prog (w : Web) (r : RefreshCall) : Prog Stmt State OAuthError TokenResponse :=
  (handleRefreshTokenGrant w r.tenant r.drawn r.req).failing r.fails

/-! ## The property -/

/-- The rows are told apart by their keys. -/
structure RefreshKeys (db : Db) : Prop where
  tokens : (db.refreshTokens.map (·.tokenHash)).Nodup
  authorizations : (db.oauthAuthorizations.map (·.id)).Nodup

/-- **A refresh is granted only on a live authorization, and a refusal costs nothing.** -/
structure CarefulRefresh (w : Web) (r : RefreshCall) (s : State) : Prop where
  live : ∀ response s', (r.prog w).run s = (.ok response, s') →
    ∃ token, r.req.refreshToken = some token ∧
    (∃ t ∈ s.db.refreshTokens, t.tokenHash = w.sha256 token) ∧
    ∀ t ∈ s.db.refreshTokens, t.tokenHash = w.sha256 token →
      (∃ a ∈ s.db.oauthAuthorizations, a.id = t.authorizationId) ∧
      ∀ a ∈ s.db.oauthAuthorizations, a.id = t.authorizationId → a.tenantId = r.tenant ∧
        a.live s.now = true
  refused : ∀ e s', (r.prog w).run s = (.error e, s') → s'.db.refreshTokens = s.db.refreshTokens

/-- The token of the request is valid, and it is consumed. -/
def RefreshCall.Consumes (w : Web) (r : RefreshCall) (s : State) (record : RefreshToken) : Prop :=
  r.fault ≠ some .consume ∧ ∃ token, r.req.refreshToken = some token ∧
    (s.db.consumeRefreshToken s.now (w.sha256 token)).1 = some record

/-- Everything the handler looks at afterwards is in order, for the authorization `row`. -/
structure Refreshable (w : Web) (now : Timestamp) (db : Db) (tenant : TenantId) (drawn : GrantDrawn)
    (row : OAuthAuthorization) : Prop where
  unrevoked : row.revokedAt = none
  session : ∃ encrypted bunker accessToken,
    db.encryptedKeyForTenant row.userPubkey tenant = some encrypted ∧
    bunkerOf w encrypted row.secretHash = some bunker ∧
    accessTokenOf w now tenant row.userPubkey
      (((db.getEmail row.userPubkey tenant).bind id).getD "")
      row.redirectOrigin bunker false = some accessToken
  fresh : ∀ t ∈ db.refreshTokens, t.tokenHash ≠ w.sha256 drawn.refreshToken

section Refresh

variable {w : Web} {s s' : State} {r : RefreshCall}

/-- What follows the consumption. -/
def refreshFrom (w : Web) (tenant : TenantId) (drawn : GrantDrawn) (record : RefreshToken) :
    Prog Stmt State OAuthError TokenResponse :=
  (Prog.read .findOAuth fun s => s.db.oauthFind tenant record.authorizationId).bind fun row =>
  (Prog.orErr row (.invalidGrant "Authorization not found: no rows returned")).bind fun row =>
  if row.revokedAt.isSome then .err (.invalidGrant "Authorization has been revoked")
  else
    (Prog.read .getEmail fun s => s.db.getEmail row.userPubkey tenant).bind fun email =>
    (Prog.read .findEncryptedKey fun s => s.db.encryptedKeyForTenant row.userPubkey tenant).bind
      fun encrypted =>
    (Prog.orErr encrypted (.invalidGrant "User keys not found")).bind fun encrypted =>
    (Prog.ofExcept (deriveBunker w (fun e => .encryption ("Failed to decrypt user key: " ++ e))
      (fun e => .invalidRequest ("Invalid secret key: " ++ e)) encrypted
        row.secretHash)).bind fun bunker =>
    (issueAccessToken w tenant row.userPubkey ((email.bind id).getD "") row.redirectOrigin
      bunker false).bind
      fun accessToken =>
    (createRefreshToken w tenant row.id drawn.refreshToken).bind fun _ =>
    (Prog.read .findPolicy fun s => policyScope s.db row.policyId).bind fun scope =>
    .ret { bunker, secret := none, accessToken, scope,
           authorizationHandle := row.authorizationHandle,
           refreshToken := drawn.refreshToken, authorizationId := row.id }

theorem handleRefreshTokenGrant_eq (tenant : TenantId) (drawn : GrantDrawn) (req : TokenRequest) :
    handleRefreshTokenGrant w tenant drawn req =
      (Prog.orErr req.refreshToken
        (.invalidRequest "Missing 'refresh_token' parameter for refresh_token grant")).bind
          fun token =>
      (Prog.stmt (.consumeRefreshToken (w.sha256 token)) fun s =>
        ((s.db.consumeRefreshToken s.now (w.sha256 token)).1,
          s.withDb (s.db.consumeRefreshToken s.now (w.sha256 token)).2)).bind fun record =>
      (Prog.orErr record (.invalidGrant "Invalid or expired refresh token")).bind fun record =>
      refreshFrom w tenant drawn record := rfl

/-! ## What consumption does -/

/-- The state after the first statement. -/
def consumed (w : Web) (s : State) (token : String) : State :=
  s.withDb (s.db.consumeRefreshToken s.now (w.sha256 token)).2

theorem consumed_hashes (w : Web) (s : State) (token : String) :
    (consumed w s token).db.refreshTokens.map (·.tokenHash) =
      s.db.refreshTokens.map (·.tokenHash) :=
  map_updateWhere (f := fun t : RefreshToken => { t with consumedAt := some s.now })
    (fun _ => rfl) _

theorem consumed_of_none {token : String}
    (h : (s.db.consumeRefreshToken s.now (w.sha256 token)).1 = none) :
    (consumed w s token).db.refreshTokens = s.db.refreshTokens :=
  updateWhere_eq_self fun t ht => by simpa using List.find?_eq_none.mp h t ht

theorem consume_eq_some {now : Timestamp} {db : Db} {hash : String} {record : RefreshToken}
    (h : (db.consumeRefreshToken now hash).1 = some record) :
    record ∈ db.refreshTokens ∧ record.tokenHash = hash ∧ record.consumedAt = none ∧
      now < record.expiresAt := by
  have hvalid := List.find?_some h
  simp only [Bool.and_eq_true, beq_iff_eq, Option.isNone_iff_eq_none, decide_eq_true_eq] at hvalid
  exact ⟨List.mem_of_find?_eq_some h, hvalid.1.1, hvalid.1.2, hvalid.2⟩

theorem consumed_ne {token : String} {record : RefreshToken}
    (h : (s.db.consumeRefreshToken s.now (w.sha256 token)).1 = some record) :
    (consumed w s token).db.refreshTokens ≠ s.db.refreshTokens := by
  intro hsame
  obtain ⟨hmem, hhash, hunconsumed, hlive⟩ := consume_eq_some h
  have hmarked : { record with consumedAt := some s.now } = record :=
    updateWhere_eq_self_iff.mp hsame record hmem (by simp [hhash, hunconsumed, hlive])
  have hnone : (some s.now : Option Timestamp) = none :=
    (congrArg RefreshToken.consumedAt hmarked).trans hunconsumed
  cases hnone

/-! ## What follows it -/

theorem issueAccessToken_failing {tenant : TenantId} {user : PublicKey} {email origin : String}
    {bunker : PublicKey}
    {isFirstParty : Bool} :
    (issueAccessToken w tenant user email origin bunker isFirstParty).failing r.fails =
      issueAccessToken w tenant user email origin bunker isFirstParty := by
  refine Prog.failing_eq_self (.bind (.ofExcept _) fun _ => .bind (.ofExcept _) fun _ =>
    .bind (.read ?_ _) fun _ => .ofExcept _)
  unfold RefreshCall.fails
  cases r.fault with
  | none => rfl
  | some f => cases f <;> rfl

/-- The faults that can still occur. -/
theorem fault_eq_none (hconsume : r.fault ≠ some .consume)
    (hauthorization : r.fails .findOAuth = none)
    (hkey : r.fails .findEncryptedKey = none) {hash : String} {id : RowId}
    (hstore : r.fails (.createRefreshToken hash id) = none) : r.fault = none := by
  unfold RefreshCall.fails at hauthorization hkey hstore
  cases hfault : r.fault with
  | none => rfl
  | some f =>
    rw [hfault] at hconsume hauthorization hkey hstore
    cases f with
    | consume => exact absurd rfl hconsume
    | authorization => cases hauthorization
    | key => cases hkey
    | store => cases hstore

theorem createRefreshToken_failing_ok {tenant : TenantId} {id : RowId} {token : String} {u : Unit} :
    ((createRefreshToken w tenant id token).failing r.fails).run s = (.ok u, s') ↔
      r.fails (.createRefreshToken (w.sha256 token) id) = none ∧
        (createRefreshToken w tenant id token).run s = (.ok u, s') := by
  unfold createRefreshToken transact
  rw [Prog.bind_def, Prog.failing_bind, Prog.stmt, Prog.failing]
  cases hfails : r.fails (.createRefreshToken (w.sha256 token) id) with
  | some e => simp
  | none =>
    simp only [true_and, Prog.failing_ret, Prog.failing_orErr]

theorem refreshFrom_ok (hfault : r.fault ≠ some .consume) {record : RefreshToken}
    {response : TokenResponse}
    (h : ((refreshFrom w r.tenant r.drawn record).failing r.fails).run s = (.ok response, s')) :
    r.fault = none ∧ ∃ row, s.db.oauthFind r.tenant record.authorizationId = some row ∧
      Refreshable w s.now s.db r.tenant r.drawn row := by
  unfold refreshFrom at h
  simp only [Prog.failing_bind, Prog.failing_orErr, Prog.run_bind_ok, Prog.failing_read_ok,
    Prog.run_orErr_ok] at h
  obtain ⟨_, _, ⟨hauthorization, rfl, rfl⟩, row, _, ⟨hrow, rfl⟩, h⟩ := h
  split at h
  · cases h
  next hunrevoked =>
  simp only [Prog.failing_bind, Prog.failing_orErr, Prog.failing_ofExcept, issueAccessToken_failing,
    Prog.run_bind_ok,
    Prog.failing_read_ok, Prog.run_orErr_ok, Prog.run_ofExcept_ok, deriveBunker_ok,
      issueAccessToken_ok,
    createRefreshToken_failing_ok] at h
  obtain ⟨_, _, ⟨-, rfl, rfl⟩, _, _, ⟨hkey, rfl, rfl⟩, encrypted, _, ⟨hencrypted, rfl⟩, bunker, _,
    ⟨hbunker, rfl⟩,
    accessToken, _, ⟨htoken, rfl⟩, _, _, ⟨hstore, hcreated⟩, -⟩ := h
  unfold createRefreshToken at hcreated
  simp only [transact_insert_ok, Db.insertRefreshToken_eq_some] at hcreated
  obtain ⟨_, ⟨⟨hfresh, -⟩, -⟩, -⟩ := hcreated
  refine ⟨fault_eq_none hfault hauthorization hkey hstore, row, hrow, ?_,
    ⟨encrypted, bunker, accessToken, ?_⟩, hfresh⟩
  · simpa using hunrevoked
  · exact ⟨hencrypted, hbunker, htoken⟩

theorem refreshFrom_succeeds {record : RefreshToken} {row : OAuthAuthorization}
    (hrow : s.db.oauthFind r.tenant record.authorizationId = some row)
    (h : Refreshable w s.now s.db r.tenant r.drawn row) :
    ∃ response s', (refreshFrom w r.tenant r.drawn record).run s = (.ok response, s') := by
  obtain ⟨encrypted, bunker, accessToken, hencrypted, hbunker, htoken⟩ := h.session
  unfold refreshFrom
  simp only [Prog.run_bind_ok, Prog.run_read_ok, Prog.run_orErr_ok]
  apply Exists.intro
  apply Exists.intro
  refine ⟨_, s, ⟨rfl, rfl⟩, row, s, ⟨hrow, rfl⟩, ?_⟩
  rw [if_neg (by simp [h.unrevoked])]
  simp only [Prog.run_bind_ok, Prog.run_read_ok, Prog.run_orErr_ok, Prog.run_ofExcept_ok,
    deriveBunker_ok,
    issueAccessToken_ok, createRefreshToken, transact_insert_ok, Db.insertRefreshToken_eq_some,
      Prog.run_ret_ok]
  have hthere : ∃ a ∈ s.db.oauthAuthorizations, a.id = row.id := by
    exact ⟨row, List.mem_of_find?_eq_some hrow, rfl⟩
  exact ⟨_, s, ⟨rfl, rfl⟩, _, s, ⟨rfl, rfl⟩, encrypted, s, ⟨hencrypted, rfl⟩, bunker, s,
    ⟨hbunker, rfl⟩, accessToken, s,
    ⟨htoken, rfl⟩, (), _, ⟨_, ⟨⟨h.fresh, hthere⟩, rfl⟩, rfl⟩, _, _, ⟨rfl, rfl⟩, rfl, rfl⟩

/-- The whole of it, for a token that is consumed. -/
theorem prog_run_consumes {record : RefreshToken} (h : r.Consumes w s record) :
    ∃ token, r.req.refreshToken = some token ∧
      (s.db.consumeRefreshToken s.now (w.sha256 token)).1 = some record ∧
      (r.prog w).run s =
        ((refreshFrom w r.tenant r.drawn record).failing r.fails).run (consumed w s token) := by
  obtain ⟨hconsume, token, htoken, hrecord⟩ := h
  refine ⟨token, htoken, hrecord, ?_⟩
  have hfails : r.fails (.consumeRefreshToken (w.sha256 token)) = none := by
    unfold RefreshCall.fails
    cases hfault : r.fault with
    | none => rfl
    | some f =>
      rw [hfault] at hconsume
      cases f with
      | consume => exact absurd rfl hconsume
      | authorization | key | store => rfl
  unfold RefreshCall.prog
  rw [handleRefreshTokenGrant_eq, htoken]
  simp only [Prog.orErr_some, Prog.ret_bind, Prog.stmt_bind]
  rw [Prog.failing_atom_run, hfails, hrecord]
  rfl

/-- And for every other. -/
theorem prog_run_refused (h : ∀ record, ¬ r.Consumes w s record) :
    ∃ e s', (r.prog w).run s = (.error e, s') ∧ s'.db.refreshTokens = s.db.refreshTokens := by
  unfold RefreshCall.prog
  rw [handleRefreshTokenGrant_eq]
  cases htoken : r.req.refreshToken with
  | none => exact ⟨_, s, rfl, rfl⟩
  | some token =>
    simp only [Prog.orErr_some, Prog.ret_bind, Prog.stmt_bind]
    rw [Prog.failing_atom_run]
    cases hfails : r.fails (.consumeRefreshToken (w.sha256 token)) with
    | some e => exact ⟨e, s, rfl, rfl⟩
    | none =>
      cases hrecord : (s.db.consumeRefreshToken s.now (w.sha256 token)).1 with
      | none => exact ⟨_, consumed w s token, rfl, consumed_of_none hrecord⟩
      | some record =>
        refine absurd ⟨fun hconsume => ?_, token, htoken, hrecord⟩ (h record)
        rw [RefreshCall.fails, hconsume] at hfails
        cases hfails

theorem fails_findPolicy : r.fails .findPolicy = none := by
  unfold RefreshCall.fails
  cases r.fault with
  | none => rfl
  | some f => cases f <;> rfl

theorem issueAccessToken_always {tenant : TenantId} {user : PublicKey} {email origin : String}
    {bunker : PublicKey}
    {isFirstParty : Bool} {Q : Except OAuthError String → State → Prop} (h : ∀ x, Q x s) :
    (issueAccessToken w tenant user email origin bunker isFirstParty).Ends Q s := by
  unfold issueAccessToken
  refine .ofExcept (fun _ => h _) fun _ _ => .ofExcept (fun _ => h _) fun _ _ => .read ?_
  cases generateServerSignedUcan w s.now _ tenant email origin _ _ isFirstParty none
    w.tokenExpirySeconds with
  | error | ok => exact h _

theorem createRefreshToken_failing_ends {tenant : TenantId} {id : RowId} {token : String}
    {Q : Except OAuthError Unit → State → Prop} (herr : ∀ e, Q (.error e) s)
    (hok : ∀ s', Q (.ok ()) s') :
    ((createRefreshToken w tenant id token).failing r.fails).Ends Q s := by
  unfold createRefreshToken transact Prog.Ends
  rw [Prog.bind_def, Prog.stmt_bind, Prog.failing_atom_run]
  cases r.fails (.createRefreshToken (w.sha256 token) id) with
  | some e => exact herr e
  | none =>
    dsimp only
    cases s.db.insertRefreshToken _ with
    | none => exact herr _
    | some db => exact hok _

/-- After the consumption an error leaves everything as it is. -/
theorem refreshFrom_error {record : RefreshToken} {e : OAuthError}
    (h : ((refreshFrom w r.tenant r.drawn record).failing r.fails).run s = (.error e, s')) : s' =
      s := by
  have hends : ((refreshFrom w r.tenant r.drawn record).failing r.fails).Ends
      (fun x s' => ∀ e, x = .error e → s' = s) s := by
    unfold refreshFrom
    simp only [Prog.failing_bind, Prog.failing_orErr]
    refine .failing_read (fun _ _ _ _ => rfl) fun _ => .orErr (fun _ _ => rfl) fun row _ => ?_
    split
    · exact fun _ _ => rfl
    simp only [Prog.failing_bind, Prog.failing_orErr, Prog.failing_ofExcept,
      issueAccessToken_failing]
    refine .failing_read (fun _ _ _ _ => rfl) fun _ => .failing_read (fun _ _ _ _ => rfl) fun _ =>
      .orErr (fun _ _ => rfl) fun encrypted _ =>
        .ofExcept (fun _ _ _ => rfl) fun bunker _ => .bind ?_
    refine issueAccessToken_always fun x => ?_
    cases x with
    | error e => exact fun _ _ => rfl
    | ok accessToken =>
      refine .bind (createRefreshToken_failing_ends (fun _ _ _ => rfl) fun s' => ?_)
      refine .failing_read (fun e he => ?_) fun _ e he => ?_
      · rw [fails_findPolicy] at he
        cases he
      · cases he
  rw [Prog.Ends, h] at hends
  exact hends e rfl

/-- Consumption changes nothing that the rest of the grant looks at. -/
theorem refreshable_consumed {token : String} {row : OAuthAuthorization} :
    Refreshable w (consumed w s token).now (consumed w s token).db r.tenant r.drawn row ↔
      Refreshable w s.now s.db r.tenant r.drawn row := by
  have hfresh : ∀ db : Db, (∀ t ∈ db.refreshTokens, t.tokenHash ≠ w.sha256 r.drawn.refreshToken) ↔
      w.sha256 r.drawn.refreshToken ∉ db.refreshTokens.map (·.tokenHash) := by
    intro db
    simp
  constructor
  · rintro ⟨hunrevoked, hsession, hfresh'⟩
    refine ⟨hunrevoked, hsession, ?_⟩
    rw [hfresh, ← consumed_hashes w s token, ← hfresh]
    exact hfresh'
  · rintro ⟨hunrevoked, hsession, hfresh'⟩
    refine ⟨hunrevoked, hsession, ?_⟩
    rw [hfresh, consumed_hashes, ← hfresh]
    exact hfresh'

/-- **When a refresh is careful**: unless it consumes a token and then meets a fault, finds
something missing, or finds an authorization that has expired. -/
theorem refresh_careful_iff (hkeys : RefreshKeys s.db) :
    CarefulRefresh w r s ↔ ∀ record, r.Consumes w s record →
      r.fault = none ∧ ∃ row, s.db.oauthFind r.tenant record.authorizationId = some row ∧
        Refreshable w s.now s.db r.tenant r.drawn row ∧ unexpired s.now row.expiresAt = true := by
  constructor
  · intro hcareful record hconsumes
    obtain ⟨token, htoken, hrecord, hrun⟩ := prog_run_consumes hconsumes
    obtain ⟨hmem, hhash, -, -⟩ := consume_eq_some hrecord
    rcases hresult : ((refreshFrom w r.tenant r.drawn record).failing r.fails).run
      (consumed w s token) with
      ⟨e | response, s'⟩
    · -- the token is gone, and nothing brings it back
      obtain rfl := refreshFrom_error hresult
      exact absurd (hcareful.refused e _ (hrun.trans hresult)) (consumed_ne hrecord)
    · obtain ⟨hfault, row, hrow, hrefreshable⟩ := refreshFrom_ok hconsumes.1 hresult
      refine ⟨hfault, row, hrow, refreshable_consumed.mp hrefreshable, ?_⟩
      obtain ⟨token', htoken', -, hlive⟩ := hcareful.live response s' (hrun.trans hresult)
      obtain rfl : token = token' := Option.some.inj (htoken.symm.trans htoken')
      have hfound := List.find?_some hrow
      simp only [Bool.and_eq_true, beq_iff_eq] at hfound
      have hrowLive := ((hlive record hmem hhash).2 row (List.mem_of_find?_eq_some hrow) hfound.2).2
      exact (Bool.and_eq_true_iff.mp hrowLive).2
  · intro hcond
    by_cases hconsumes : ∃ record, r.Consumes w s record
    · obtain ⟨record, hconsumes⟩ := hconsumes
      obtain ⟨hfault, row, hrow, hrefreshable, hunexpired⟩ := hcond record hconsumes
      obtain ⟨token, htoken, hrecord, hrun⟩ := prog_run_consumes hconsumes
      obtain ⟨hmem, hhash, -, -⟩ := consume_eq_some hrecord
      have hnofault : (refreshFrom w r.tenant r.drawn record).failing r.fails =
          refreshFrom w r.tenant r.drawn record := by
        rw [show r.fails = fun _ =>
          none from funext fun l => by rw [RefreshCall.fails, hfault]; rfl, Prog.failing_none]
      rw [hnofault] at hrun
      obtain ⟨response, s', hsuccess⟩ := refreshFrom_succeeds (s := consumed w s token) hrow
        (refreshable_consumed.mpr hrefreshable)
      have hfound := List.find?_some hrow
      simp only [Bool.and_eq_true, beq_iff_eq] at hfound
      refine ⟨fun _ _ _ => ⟨token, htoken, ⟨record, hmem, hhash⟩, fun t ht heq => ?_⟩,
        fun e s'' herror => ?_⟩
      · obtain rfl : t = record :=
          List.inj_on_of_nodup_map hkeys.tokens ht hmem (heq.trans hhash.symm)
        refine ⟨⟨row, List.mem_of_find?_eq_some hrow, hfound.2⟩, fun a ha hid => ?_⟩
        obtain rfl : a = row :=
          List.inj_on_of_nodup_map hkeys.authorizations ha (List.mem_of_find?_eq_some hrow)
            (hid.trans hfound.2.symm)
        refine ⟨hfound.1, ?_⟩
        rw [OAuthAuthorization.live, hrefreshable.unrevoked, hunexpired]
        rfl
      · cases (hrun.trans hsuccess).symm.trans herror
    · obtain ⟨e, s', hrun, hsame⟩ := prog_run_refused (not_exists.mp hconsumes)
      refine ⟨fun response s'' h => ?_, fun e' s'' h => ?_⟩
      · cases hrun.symm.trans h
      · cases hrun.symm.trans h
        exact hsame

end Refresh

/-! The token of one tenant, presented in another; and one whose authorization has expired. -/

def refreshing (tenant : TenantId) : RefreshCall where
  tenant := tenant
  drawn := ⟨none, 0, "handle", "refresh-1"⟩
  req := { grantType := some "refresh_token", clientId := "app", refreshToken := some "refresh-0" }
  fault := none
  text := ""

def expiredState : State := .boot
  { refreshState.db with
    oauthAuthorizations :=
      [{ id := 1, tenantId := 1, userPubkey := "user", bunkerPublicKey := "pub:bunker",
                              redirectOrigin := "https://app.example", secretHash :=
                                "h", expiresAt := some 50 }] } 100

theorem refresh_careless :
    ¬ CarefulRefresh codeWeb (refreshing 2) refreshState ∧
      ¬ CarefulRefresh codeWeb (refreshing 1) expiredState := by
  constructor
  · intro hcareful
    have hsame := hcareful.refused (.invalidGrant "Authorization not found: no rows returned")
      (((refreshing 2).prog codeWeb).run refreshState).2 (Prod.ext (by decide) rfl)
    exact absurd hsame (by decide)
  · intro hcareful
    obtain ⟨token, htoken, -, hlive⟩ := hcareful.live
      ⟨"pub:sk/keycast-bunker-nip46-v1-h", none,
        "ucan of user for pub:sk/keycast-bunker-nip46-v1-h from https://app.example", "policy:full",
          none, "refresh-1",
        1⟩
      (((refreshing 1).prog codeWeb).run expiredState).2 (Prod.ext (by decide) rfl)
    obtain rfl : "refresh-0" = token := Option.some.inj htoken
    have hrow :=
      (hlive _ (List.mem_singleton.mpr rfl) (by decide)).2 _ (List.mem_singleton.mpr rfl) rfl
    exact absurd hrow.2 (by decide)

theorem refresh_careful_own : CarefulRefresh codeWeb (refreshing 1) refreshState := by
  refine (refresh_careful_iff ⟨by decide, by decide⟩).mpr fun record hconsumes => ?_
  obtain ⟨-, token, -, hrecord⟩ := hconsumes
  rw [List.mem_singleton.mp (consume_eq_some hrecord).1]
  refine ⟨rfl, _, rfl, ⟨rfl, ⟨"sk", "pub:sk/keycast-bunker-nip46-v1-h",
    "ucan of user for pub:sk/keycast-bunker-nip46-v1-h from https://app.example", ?_, ?_,
      ?_⟩, ?_⟩, rfl⟩
  · decide
  · decide
  · decide
  · decide

end Keycast.Http
