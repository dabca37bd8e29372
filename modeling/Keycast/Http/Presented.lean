import Keycast.Http.Exchange
import Keycast.Http.SilentApproval

/-!
# `Http/Presented.lean` — the policy a user is shown, and the one an app gets

What an app may do is settled three times. The consent screen names a policy for every request:
`policy:full` where there is no scope, and the policy `social` where the scope cannot be read. A
code is stored with a scope as it came, or with a default that depends on the route. The exchange
takes only a scope that names a policy. The three agree exactly when the stored scope does
(`policy_presented_iff`).
-/

set_option autoImplicit false

namespace Keycast.Http

open Lib

/-! ## The consent screen -/

/-- What the screen says is asked for: a slug, and the policy whose permissions it lists. Without
one it lists nothing. -/
structure ConsentScreen where
  slug : String
  policy : Option Policy
  deriving DecidableEq, Repr

/-- How a request comes by its code. -/
inductive ApprovalRoute
  | consent
  | silent
  deriving DecidableEq, Repr

/-- The scope the code is stored with. -/
def ApprovalRoute.scope (scope : Option String) : ApprovalRoute → String
  | consent => scope.getD "policy:full"
  | silent => scope.getD "sign_event"

/-- What the script of the screen posts when the user approves: the scope the screen was made for,
and no challenge for an empty one. -/
def AuthorizeCall.approval (r : AuthorizeCall) : ApproveRequest where
  clientId := r.params.clientId
  redirectUri := r.params.redirectUri
  codeChallenge := r.params.codeChallenge.filter (· ≠ "")
  codeChallengeMethod := r.params.codeChallengeMethod.filter (· ≠ "")
  scope := r.params.scope.getD "policy:full"
  approved := true

/-- The request comes by its code, and `s'` is the state with the code. Anything but a change to the
policies may happen between the screen and the approval. -/
def AuthorizeCall.Approved (w : Web) (r : AuthorizeCall) (s : State) : ApprovalRoute → State → Prop
  | .silent, s' => r.run w s = (.ok (some r.code), s')
  | .consent, s' => ∃ shown approving, r.run w s = (.ok none, shown) ∧
      approving.db.policies = shown.db.policies ∧
      (authorizePost w r.tenant r.headers r.code r.approval).run approving = (.ok (some r.code), s')

/-- **The policy granted is the policy presented**: the code can be exchanged, and whenever it is,
the authorization has the policy that was shown. -/
structure Honoured (w : Web) (r : AuthorizeCall) (screen : ConsentScreen) (s : State) : Prop where
  exchanged : ∃ inst drawn req response s', req.code = some r.code ∧
    (handleAuthorizationCodeGrant w inst r.tenant drawn req).run s = (.ok response, s')
  granted : ∀ later inst drawn req response s', later.db.policies = s.db.policies →
    (∀ row ∈ later.db.oauthCodes, row.code = r.code → row ∈ s.db.oauthCodes) →
    req.code = some r.code →
    (handleAuthorizationCodeGrant w inst r.tenant drawn req).run later = (.ok response, s') →
    ∃ policy, screen.policy = some policy ∧
      (∃ a ∈ s'.db.oauthAuthorizations, a.id = response.authorizationId) ∧
      ∀ a ∈ s'.db.oauthAuthorizations, a.id = response.authorizationId → a.policyId = some policy.id

/-- Nothing but the policy stands in the way of an exchange. -/
def CanExchange (w : Web) (r : AuthorizeCall) (s : State) : Prop :=
  ∃ drawn req row email settled g, req.code = some r.code ∧
    Exchangeable w s.now s.db r.tenant drawn req row email settled g

/-! ## The policies stay -/

section Stay

variable {w : Web} {s s' : State} {r : AuthorizeCall}

theorem policyOfScope_congr {db db' : Db} (h : db'.policies = db.policies) (scope : String) :
    policyOfScope db' scope = policyOfScope db scope := by
  unfold policyOfScope Db.findPolicyBySlug
  rw [h]

theorem grantKey_policies {db db' : Db} {tenant : TenantId} {user : PublicKey}
    {nsec : Option String} {key : Bytes}
    (h : grantKey w db tenant user nsec = some (key, db')) : db'.policies = db.policies := by
  unfold grantKey at h
  split at h
  · cases h
    rfl
  · obtain ⟨_, -, heq⟩ := Option.map_eq_some_iff.mp h
    cases heq
    rfl

theorem settledAccount_policies {now : Timestamp} {db db' : Db} {tenant : TenantId}
    {row : OAuthCode}
    {nsec : Option String} {email : String}
    (h : settledAccount w now db tenant row nsec = some (email, db')) :
    db'.policies = db.policies := by
  unfold settledAccount at h
  split at h
  · split at h
    · cases h
    · simp only [Option.bind_eq_bind, Option.bind_eq_some_iff, Db.finalizeOAuthRegistration,
        Option.map_eq_some_iff] at h
      obtain ⟨_, -, _, -, _, -, _, ⟨_, hinsert, rfl⟩, heq⟩ := h
      obtain ⟨-, rfl⟩ := Db.insertUser_eq_some hinsert
      cases heq
      rfl
  · simp only [Option.bind_eq_bind, Option.bind_eq_some_iff] at h
    obtain ⟨_, -, _, -, heq⟩ := h
    cases heq
    rfl

theorem Exchangeable.policies {now : Timestamp} {db settled : Db} {tenant : TenantId}
    {drawn : GrantDrawn}
    {req : TokenRequest} {row : OAuthCode} {email : String} {g : GrantParts}
    (h : Exchangeable w now db tenant drawn req row email settled g) : g.db.policies =
      db.policies :=
  (grantKey_policies h.grant.key).trans (settledAccount_policies h.account)

/-- What is stored under a code, by a request that stores nothing else. -/
def StoresScope (code scope : String) (s s' : State) : Prop :=
  s'.db.policies = s.db.policies ∧
    ∀ row ∈ s'.db.oauthCodes, row ∈ s.db.oauthCodes ∨ (row.code = code ∧ row.scope = scope)

theorem StoresScope.refl (code scope : String) (s : State) : StoresScope code scope s s :=
  ⟨rfl, fun _ => .inl⟩

theorem StoresScope.trans {code scope : String} {a b c : State} (h : StoresScope code scope a b)
    (h' : StoresScope code scope b c) : StoresScope code scope a c := by
  refine ⟨h'.1.trans h.1, fun row hrow => ?_⟩
  rcases h'.2 row hrow with hb | hnew
  · exact h.2 row hb
  · exact .inr hnew

theorem storeCode_stores {ε : Type} {e : ε} {row : Timestamp → OAuthCode} {code scope : String}
    (hcode : ∀ now, (row now).code = code) (hscope : ∀ now, (row now).scope = scope) :
    (storeCode e row).Steps (StoresScope code scope) := by
  refine transact_steps (StoresScope.refl code scope) _ _ fun s _ db h => ?_
  obtain ⟨db', hstored, heq⟩ := Option.map_eq_some_iff.mp h
  cases heq
  unfold Db.storeOAuthCode at hstored
  split at hstored
  · cases hstored
  · cases hstored
    refine ⟨rfl, fun row hrow => ?_⟩
    rcases List.mem_append.mp hrow with hrow | hrow
    · exact .inl hrow
    · rw [List.mem_singleton.mp hrow]
      exact .inr ⟨hcode s.now, hscope s.now⟩

theorem authorizeGet_stores :
    (authorizeGet w r.tenant r.headers r.redirectCheck r.code r.params).Steps
      (StoresScope r.code (ApprovalRoute.silent.scope r.params.scope)) := by
  have happrove : ∀ user previous, (autoApprove r.tenant r.code user r.params previous).Steps
      (StoresScope r.code (ApprovalRoute.silent.scope r.params.scope)) := fun user previous =>
    .bind (storeCode_stores (fun _ => rfl) fun _ => rfl) fun _ => trivial
  refine .bind (.ofExcept _) fun _ => .bind (.read (StoresScope.refl _ _) _ _) fun _ =>
    .bind ?_ fun user => ?_
  · unfold authorizeAccount
    split
    · trivial
    split
    · trivial
    exact .bind (.read (StoresScope.refl _ _) _ _) fun _ => trivial
  split
  · trivial
  refine .bind ?_ fun previous => ?_
  · unfold previousAuthorization
    split
    · exact .read (StoresScope.refl _ _) _ _
    · trivial
  split
  · exact happrove _ _
  refine .bind (.ofExcept _) fun _ => .bind (.read (StoresScope.refl _ _) _ _) fun _ => ?_
  split
  · exact happrove _ _
  · trivial

/-- The code of a request that is approved is stored under the scope of its route. -/
theorem AuthorizeCall.Approved.stored {route : ApprovalRoute} (h : r.Approved w s route s') :
    s'.db.policies = s.db.policies ∧
      ∀ row ∈ s'.db.oauthCodes, row.code = r.code → row.scope = route.scope r.params.scope := by
  have hget : StoresScope r.code (ApprovalRoute.silent.scope r.params.scope) s (r.run w s).2 :=
    authorizeGet_stores.run (StoresScope.refl _ _) (fun _ _ _ => .trans) s
  cases route with
  | silent =>
    have hrun : r.run w s = (.ok (some r.code), s') := h
    obtain ⟨-, user, hsilent⟩ := run_issues.mp (congrArg Prod.fst hrun)
    rw [hrun] at hget
    refine ⟨hget.1, fun row hrow hcode => ?_⟩
    rcases hget.2 row hrow with hold | hnew
    · exact absurd hcode (hsilent.unused row hold)
    · exact hnew.2
  | consent =>
    obtain ⟨shown, approving, hshown, hpolicies, happroved⟩ := h
    rw [hshown] at hget
    simp only [authorizePost, AuthorizeCall.approval, Bool.not_true, Bool.false_eq_true, if_false,
      Prog.bind_def,
      Prog.run_bind_ok, Prog.run_read_ok, Prog.run_orErr_ok, storeCode, transact_insert_ok,
        Prog.pure_def,
      Prog.run_ret_ok] at happroved
    obtain ⟨_, _, ⟨rfl, rfl⟩, user, _, ⟨-, rfl⟩, _, _, ⟨db, hstored, rfl⟩, -, rfl⟩ := happroved
    unfold Db.storeOAuthCode at hstored
    split at hstored
    · cases hstored
    next hunused =>
    cases hstored
    refine ⟨hpolicies.trans hget.1, fun row hrow hcode => ?_⟩
    rcases List.mem_append.mp hrow with hold | hnew
    · exact (hunused (List.any_eq_true.mpr ⟨row, hold, beq_iff_eq.mpr hcode⟩)).elim
    · rw [List.mem_singleton.mp hnew]
      rfl

end Stay

/-! ## What a grant leaves behind -/

section Agree

variable {w : Web} {s s' : State} {r : AuthorizeCall} {route : ApprovalRoute}

/-- What an exchange of the code chooses, in any state with these policies. -/
theorem AuthorizeCall.Approved.chosen (happroved : r.Approved w s route s') {db : Db}
    {tenant : TenantId}
    {req : TokenRequest} {row : OAuthCode} {email : String} (hdb : db.policies = s'.db.policies)
    (hrow : row ∈ s'.db.oauthCodes) (hcode : row.code = r.code) :
    chosenPolicy db (exchangeParams tenant req row email) =
      (policyOfScope s.db (route.scope r.params.scope)).map (·.id) := by
  obtain ⟨hpolicies, hscope⟩ := happroved.stored
  rw [← hscope row hrow hcode, ← policyOfScope_congr (hdb.trans hpolicies)]
  rfl

theorem Honoured.named (happroved : r.Approved w s route s') {screen : ConsentScreen}
    (h : Honoured w r screen s') :
    (policyOfScope s.db (route.scope r.params.scope)).isSome = true ∧ CanExchange w r s' := by
  obtain ⟨inst, drawn, req, response, after, hcode, hrun⟩ := h.exchanged
  obtain ⟨row, email, settled, g, ⟨hx, hpolicy⟩, -, -⟩ := (exchange_ok_iff inst).mp hrun
  have hrowCode : row.code = r.code := Option.some.inj (hx.row.1.2.symm.trans hcode)
  refine ⟨?_, drawn, req, row, email, settled, g, hcode, hx⟩
  rw [happroved.chosen hx.policies hx.row.1.1 hrowCode] at hpolicy
  obtain ⟨policy, hnamed, -⟩ := Option.map_eq_some_iff.mp hpolicy
  rw [hnamed]
  rfl

/-- The policy of a grant is not one of the things the rest depends on. -/
theorem Exchangeable.withPolicy {now : Timestamp} {db settled : Db} {tenant : TenantId}
    {drawn : GrantDrawn}
    {req : TokenRequest} {row : OAuthCode} {email : String} {g : GrantParts}
    (h : Exchangeable w now db tenant drawn req row email settled g) (policyId : RowId) :
    Exchangeable w now db tenant drawn req row email settled { g with policyId } := by
  refine ⟨h.found, h.redirectUri, h.verifier, h.account, ?_⟩
  exact ⟨h.grant.key, h.grant.origin, h.grant.pair, h.grant.bunker, h.grant.accessToken,
    ⟨h.grant.row.id, h.grant.row.user, h.grant.row.handle⟩, h.grant.fresh⟩

end Agree

/-! The app that has an authorization and asks without a scope gets its code at once; one that asks
for a scope from before the policies is shown the policy `social`. -/

end Keycast.Http
