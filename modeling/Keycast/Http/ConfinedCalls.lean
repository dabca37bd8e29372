import Keycast.Http.Confined

/-!
# `Http/ConfinedCalls.lean` — how the calls of an attacker end

One lemma for each endpoint, from the invariant before it: how it ends (`Kept`), for what the
attacker holds with the answer. The endpoints that hand out more than they are asked with have the
condition under which they do not as a hypothesis.
-/

set_option autoImplicit false

namespace Keycast.Http

open Lib

/-- How a call may end: what is held afterwards is harmless, every row it brings is within the
bound, a token in the answer is a third-party one, and nothing was deleted. -/
structure Kept (w : Web) (A : PublicKey → Operation → Prop) (held : Held) (db : Db)
    (answer : Option Answer) (s' : State) : Prop where
  confined : Confined w A (held.learn answer) s'.db
  rows : ∀ a ∈ s'.db.oauthAuthorizations,
    (∃ b ∈ db.oauthAuthorizations, b.id = a.id) ∨ Bounded w A s'.db a.policyId
  team : ∀ a ∈ s'.db.authorizations,
    (∃ b ∈ db.authorizations, b.id = a.id) ∨ Bounded w A s'.db (some a.policyId)
  token : ∀ token, answer.bind Answer.accessToken = some token → ThirdParty w token
  issued : ∀ r, answer = some (.token r) → ∀ a ∈ s'.db.oauthAuthorizations,
    a.id = r.authorizationId → Bounded w A s'.db a.policyId
  deleted : ∀ user, answer ≠ some (.deleted user)

/-- The program keeps to that, started where the tables are as given. -/
abbrev Keeps {ε α : Type} (w : Web) (A : PublicKey → Operation → Prop) (held : Held) (db : Db)
    (f : α → Answer) (p : Prog Stmt State ε α) (s : State) : Prop :=
  p.Ends (fun r s' => Kept w A held db (r.toOption.map f) s') s

section Endpoints

variable {w : Web} {A : PublicKey → Operation → Prop} {held : Held} {s : State} {db : Db}
  {ε α : Type} {f : α → Answer}

theorem Safe.kept {answer : Option Answer} {s' : State}
    (h : Safe w A (held.learn answer) db s'.db)
    (htoken : ∀ token, answer.bind Answer.accessToken = some token → ThirdParty w token)
    (hissued : ∀ r, answer = some (.token r) → ∀ a ∈ s'.db.oauthAuthorizations,
      a.id = r.authorizationId → Bounded w A s'.db a.policyId)
    (hdeleted : ∀ user, answer ≠ some (.deleted user)) : Kept w A held db answer s' := by
  refine ⟨h.confined, fun a ha => ?_, fun a ha => .inl (h.team a ha), htoken, hissued, hdeleted⟩
  rcases h.rows a ha with ⟨b, hb, hid, -⟩ | hcapped
  · exact .inl ⟨b, hb, hid⟩
  · exact .inr hcapped.bounded

theorem Kept.none {s' : State} (h : Safe w A held db s'.db) : Kept w A held db none s' :=
  h.kept nofun nofun nofun

theorem Kept.page {s' : State} (h : Safe w A held db s'.db) : Kept w A held db (some .page) s' :=
  h.kept nofun nofun nofun

/-- A third-party token without an authorization. -/
theorem Kept.session {s' : State} {token : String} (htoken : ThirdParty w token)
    (h : Safe w A held db s'.db) : Kept w A held db (some (.session token)) s' := by
  refine Safe.kept (h.holding htoken) (fun t ht => ?_) nofun nofun
  cases ht
  exact htoken

/-- The end of both grants. -/
theorem Kept.granted {r : TokenResponse} {s' : State} (htoken : ThirdParty w r.accessToken)
    (h : Safe w A { held with refreshTokens := r.refreshToken :: held.refreshTokens } db s'.db)
    (hrows : ∀ a ∈ s'.db.oauthAuthorizations, a.id = r.authorizationId →
      Bounded w A s'.db a.policyId) : Kept w A held db (some (.token r)) s' := by
  refine Safe.kept (h.holding htoken) (fun t ht => ?_) (fun r' hr => ?_) nofun
  · cases ht
    exact htoken
  · cases hr
    exact hrows

variable {tenant : TenantId} {auth : UcanAuth} {team : RowId}

/-- The tables that no code, token or authorization is in. -/
theorem Safe.elsewhere (h : Confined w A held db) (users : List User)
    (personalKeys : List PersonalKey) (claimTokens : List ClaimToken)
    (storedKeys : List StoredKey) (teams : List Team) (teamUsers : List TeamUser)
    (teamInvitations : List TeamInvitation) :
    Safe w A held db { db with
      users, personalKeys, claimTokens, storedKeys, teams, teamUsers, teamInvitations } :=
  .of_same h (.of_same h.tables rfl rfl rfl) rfl rfl rfl (List.Subset.refl _)

end Endpoints

end Keycast.Http
