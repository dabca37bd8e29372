import Keycast.Core.Schema
import Keycast.Http.OAuth
import Keycast.Http.Policy
import Keycast.Http.Teams

/-!
# `Http/PolicyCreation.lean` — what becomes of a restriction that is asked for

Two requests ask for a restricted authorization. `add_policy` makes a policy from a list of
permissions, and leaves out those whose identifier is not in `AVAILABLE_PERMISSIONS`, with a warning
in its log. `create_bunker` names a policy by its slug. What is written down is enforced: a
permission that was kept and whose config does not read refuses everything, and a slug that was
found is the policy of the new authorization. What is left out is not: a policy of which nothing is
left allows everything.
-/

set_option autoImplicit false

namespace Keycast

open Lib

/-! ## The rows of a new policy -/

section Rows

variable {db db' : Db} {team policy : RowId} {rows : List PermissionRow}

/-- A new policy has the rows it was made with: no link can name a policy that was not there, and no
row has the id of a new one. -/
theorem permissionRows_created
    (hlinks : References (fun l => some l.policyId) Policy.id db.policyPermissions db.policies)
    (h : db.createPolicyWithPermissions team policy rows = .ok db') :
      db'.permissionRows policy = rows := by
  obtain ⟨hfree, rfl⟩ := Db.createPolicyWithPermissions_ok h
  simp only [Db.policyIdsFree, Bool.and_eq_true, Bool.not_eq_true', List.any_eq_false,
    decide_eq_true_eq,
    beq_iff_eq] at hfree
  obtain ⟨⟨hperms, hnodup⟩, hpolicy⟩ := hfree
  have hold : db.policyPermissions.filter (·.policyId == policy) = [] := by
    rw [List.filter_eq_nil_iff]
    intro l hl heq
    obtain ⟨p, hp, hid⟩ := hlinks l hl l.policyId rfl
    exact hpolicy p hp (hid.trans (beq_iff_eq.mp heq))
  have hnew :
    (rows.map fun r => (⟨policy, r.id⟩ : PolicyPermission)).filter (·.policyId == policy) =
      rows.map fun r => ⟨policy, r.id⟩ := by
    rw [List.filter_eq_self]
    intro l hl
    obtain ⟨r, -, rfl⟩ := List.mem_map.mp hl
    exact beq_self_eq_true policy
  have hone : ∀ r ∈ rows, (db.permissions ++ rows).filter (·.id == r.id) = [r] := by
    intro r hr
    have hold : db.permissions.filter (·.id == r.id) = [] := by
      rw [List.filter_eq_nil_iff]
      intro p hp heq
      exact hperms r hr (List.any_eq_true.mpr ⟨p, hp, heq⟩)
    have hnew : rows.filter (·.id == r.id) = [r] :=
      filter_eq_singleton (.of_map _ hnodup) hr (beq_self_eq_true _) fun r' hr' heq =>
        List.inj_on_of_nodup_map hnodup hr' hr (beq_iff_eq.mp heq)
    rw [List.filter_append, hold, hnew, List.nil_append]
  simp only [Db.permissionRows]
  rw [List.filter_append, hold, List.nil_append, hnew, List.flatMap_map, List.flatMap_congr hone,
    List.flatMap_singleton']

end Rows

namespace Http

variable {w : Web}

/-- A permission of the request, as the row it would be. -/
def askedPermission (p : RowId × String × Json) : Permission := ⟨p.1, p.2.1, p.2.2⟩

/-- The permissions of the request that `add_policy` keeps. -/
def keptPermissions (permissions : List (RowId × String × Json)) : List (RowId × String × Json) :=
  permissions.filter fun p => availablePermissions.contains p.2.1

theorem mapM_eq_some_map {α β γ : Type} {f : α → Option β} {g : γ → α} {k : γ → β} {xs : List γ}
    (h : ∀ x ∈ xs, f (g x) = some (k x)) : (xs.map g).mapM f = some (xs.map k) := by
  induction xs with
  | nil => rfl
  | cons x xs ih =>
    rw [List.map_cons, List.mapM_cons, h x List.mem_cons_self,
      ih fun y hy => h y (List.mem_cons_of_mem _ hy)]
    rfl

theorem verifyAdmin_run {pubkey : PublicKey} {team : RowId} {s s' : State}
    (h : (verifyAdmin w pubkey team).run s = (.ok (), s')) : s = s' := by
  have hsteps : (verifyAdmin w pubkey team).Steps fun s s' => s = s' := by
    unfold verifyAdmin
    split
    · trivial
    · refine .bind (.ofExcept _) fun key => .bind (.read (fun _ => rfl) _ _) fun admin => ?_
      split
      · trivial
      · trivial
  have hmoved := hsteps.run (fun _ => rfl) (fun _ _ _ => Eq.trans) s
  rwa [h] at hmoved

/-- The policy that `add_policy` makes has the permissions it keeps. -/
theorem addPolicy_run {auth : UcanAuth} {team id : RowId}
    {permissions : List (RowId × String × Json)} {s s' : State}
    (hlinks : References (fun l => some l.policyId) Policy.id s.db.policyPermissions s.db.policies)
    (hjson : ∀ p ∈ permissions, w.parseJson (w.renderJson p.2.2) = some p.2.2)
    (hrun : (addPolicy w auth team id permissions).run s = (.ok (), s')) :
    s'.db.getPermissions w.toExternal id =
      some ((keptPermissions permissions).map askedPermission) := by
  obtain ⟨⟨⟩, s₁, hadmin, hrun⟩ := Prog.run_bind_ok.mp hrun
  obtain rfl := verifyAdmin_run hadmin
  have hcreate : (s.db.createPolicyWithPermissions team id ((keptPermissions permissions).map
      fun p => ⟨p.1, p.2.1, w.renderJson p.2.2⟩)).map (fun db => ((),
        s.withDb db)) = .ok ((), s') :=
    mapError_eq_ok.mp (Prog.run_tryStmt_ok.mp hrun)
  cases hdb : s.db.createPolicyWithPermissions team id ((keptPermissions permissions).map
      fun p => ⟨p.1, p.2.1, w.renderJson p.2.2⟩) with
  | error e =>
    rw [hdb] at hcreate
    cases hcreate
  | ok db' =>
    rw [hdb] at hcreate
    cases hcreate
    have hrows := permissionRows_created hlinks hdb
    show (db'.permissionRows id).mapM _ = _
    rw [hrows]
    refine mapM_eq_some_map fun p hp => ?_
    rw [hjson p (List.mem_filter.mp hp).1]
    rfl

/-- The authorization of a new bunker has the policy its slug was looked up to. -/
theorem createBunker_run {tenant : TenantId} {headers : Headers} {pair : Option SecretPair}
    {newId : RowId}
    {req : CreateBunkerRequest} {s s' : State} {response : BunkerResponse}
    (hrun : (createBunker w tenant headers pair newId req).run s = (.ok response, s')) :
    response.authorizationId = newId ∧ (∀ a ∈ s.db.oauthAuthorizations, a.id ≠ newId) ∧
      ∃ row ∈ s'.db.oauthAuthorizations, row.id = newId ∧
        row.policyId = bunkerPolicy s.db req.policySlug := by
  obtain ⟨now, _, h₁, hrun⟩ := Prog.run_bind_ok.mp hrun
  obtain ⟨-, rfl⟩ := Prog.run_read_ok.mp h₁
  obtain ⟨user, _, h₂, hrun⟩ := Prog.run_bind_ok.mp hrun
  obtain ⟨-, rfl⟩ := Prog.run_ofExcept_ok.mp h₂
  obtain ⟨⟨⟩, _, h₃, hrun⟩ := Prog.run_bind_ok.mp hrun
  obtain ⟨-, rfl⟩ := Prog.run_ofExcept_ok.mp h₃
  obtain ⟨_, _, h₄, hrun⟩ := Prog.run_bind_ok.mp hrun
  obtain ⟨-, rfl⟩ := Prog.run_read_ok.mp h₄
  obtain ⟨encrypted, _, h₅, hrun⟩ := Prog.run_bind_ok.mp hrun
  obtain ⟨-, rfl⟩ := Prog.run_orErr_ok.mp h₅
  obtain ⟨secrets, _, h₆, hrun⟩ := Prog.run_bind_ok.mp hrun
  obtain ⟨-, rfl⟩ := Prog.run_orErr_ok.mp h₆
  obtain ⟨policyId, _, h₇, hrun⟩ := Prog.run_bind_ok.mp hrun
  obtain ⟨hpolicy, rfl⟩ := Prog.run_read_ok.mp h₇
  obtain ⟨bunker, _, h₈, hrun⟩ := Prog.run_bind_ok.mp hrun
  obtain ⟨-, rfl⟩ := Prog.run_ofExcept_ok.mp h₈
  obtain ⟨⟨⟩, _, h₉, hrun⟩ := Prog.run_bind_ok.mp hrun
  obtain ⟨db', hinsert, rfl⟩ := run_transact_ok h₉
  obtain ⟨⟨⟩, _, h₁₀, hrun⟩ := Prog.run_bind_ok.mp hrun
  have hsame := Prog.run_write_ok.mp h₁₀
  obtain ⟨rfl, rfl⟩ := Prog.run_ret_ok.mp hrun
  obtain ⟨db₂, hdb₂, heq⟩ := Option.map_eq_some_iff.mp hinsert
  cases heq
  obtain ⟨rfl, hnew⟩ := Db.insertOAuth_eq hdb₂
  subst hsame
  exact ⟨rfl, hnew, _, List.mem_append_right _ (List.mem_singleton.mpr rfl), rfl, hpolicy.symm⟩

/-! ## The result -/

/-- **What is kept is enforced.** An authorization with the policy that `add_policy` made lets an
operation through exactly when every permission of the request with an identifier in
`AVAILABLE_PERMISSIONS` has a config that reads and allows the operation. And the authorization of a
new bunker has the policy with the slug of the request, if there is one. -/
theorem kept_restrictions_enforced (w : Web) :
    (∀ (auth : UcanAuth) (team id : RowId) (permissions : List (RowId × String × Json))
        (s s' : State)
        (signer : Signer.State) (n : Signer.Nip46Handler) (op : Operation),
      References (fun l => some l.policyId) Policy.id s.db.policyPermissions s.db.policies →
      (∀ p ∈ permissions, w.parseJson (w.renderJson p.2.2) = some p.2.2) →
      (addPolicy w auth team id permissions).run s = (.ok (), s') →
      SamePermissions s'.db signer.db →
      HasPolicy n signer.db id →
      (((n.validateOperation w.toExternal op).run signer).1 = .ok () ↔
        ∀ p ∈ permissions, p.2.1 ∈ availablePermissions →
          ∃ c, (askedPermission p).toCustomPermission w.toExternal = .ok c ∧
          c.allows w.toExternal (w.publicKey n.userKeys) op = true)) ∧
      ∀ (tenant : TenantId) (headers : Headers) (pair : Option SecretPair) (newId : RowId)
        (req : CreateBunkerRequest)
        (slug : String) (policy : Policy) (s s' : State)
        (response : BunkerResponse), req.policySlug = some slug →
      s.db.findPolicyBySlug slug = some policy →
      (createBunker w tenant headers pair newId req).run s = (.ok response, s') →
      policy.slug = some slug ∧ (∀ a ∈ s.db.oauthAuthorizations, a.id ≠ response.authorizationId) ∧
        ∃ row ∈ s'.db.oauthAuthorizations, row.id = response.authorizationId ∧
          row.policyId = some policy.id := by
  constructor
  · intro auth team id permissions s s' signer n op hlinks hjson hrun hsame hpolicy
    have hrows := addPolicy_run hlinks hjson hrun
    rw [← hsame.getPermissions] at hrows
    rw [Signer.validateOperation_run, hpolicy.policyPermissions_run hrows]
    have hlets : ∀ self,
      Path.Lets w.toExternal ((keptPermissions permissions).map askedPermission) self op .nip46 ↔
        ∀ p ∈ permissions, p.2.1 ∈ availablePermissions →
          (askedPermission p).Lets w.toExternal self op .nip46 := by
      intro self
      rw [Path.lets_iff, List.forall_mem_map]
      simp only [keptPermissions, List.mem_filter, List.contains_iff_mem, and_imp]
    exact hlets (w.publicKey n.userKeys)
  · intro tenant headers pair newId req slug policy s s' response hslug hfound hrun
    obtain ⟨rfl, hnew, row, hrow, hid, hpolicy⟩ := createBunker_run hrun
    rw [bunkerPolicy, hslug, Option.bind_some, hfound] at hpolicy
    exact ⟨by simpa using List.find?_some hfound, hnew, row, hrow, hid, hpolicy⟩

/-! A team's admin asks for a policy for kind 1, and misspells the permission. -/

section Sample

def kindOne : Json := .obj [("allowed_kinds", .arr [.int 1])]

def kitchenWeb : Web :=
  .symbolic [("session", ⟨some "pub:server", some "pub:sk", none,
    [.obj [("redirect_origin", .str "https://app"), ("tenant_id", .int 1)]]⟩)] [("response",
      kindOne)]

def kitchen : Db where
  users := [{ pubkey := "pub:sk", tenantId := 1 }]
  personalKeys := [⟨"pub:sk", 1, "sk"⟩]
  teams := [⟨7, 1⟩]
  teamUsers := [⟨7, "pub:sk", .admin⟩]
  policies := [{ id := 1, slug := some "readonly" }]

/-- The tables after `add_policy` with one permission of this identifier. -/
def withPolicy (identifier : String) : State :=
  ((addPolicy kitchenWeb ⟨"pub:sk", none⟩ 7 9 [(5, identifier, kindOne)]).run (.boot kitchen 0)).2

/-- An authorization with that policy. -/
def withAuthorization (identifier : String) : Signer.State where
  db :=
    { (withPolicy identifier).db with
      authorizations :=
        [{ id := 1, tenantId := 1, storedKeyId := 1, bunkerPublicKey := "bunker", secretHash := "h",
                           policyId := 9 }] }
  now := 0
  handlers := .empty

def kitchenHandler : Signer.Nip46Handler where
  bunkerKeys := "bunker-sk"
  userKeys := "chef-sk"
  secretHash := "h"
  authorizationId := 1
  tenantId := 1
  isOauth := false

/-- A direct message. -/
def message : Operation := .sign ⟨"pub:chef-sk", 0, 4, [], "hi"⟩

theorem withPolicy_run (identifier : String)
    (h : identifier = "allowed_kinds" ∨ identifier = "allowed_kind") :
    (addPolicy kitchenWeb ⟨"pub:sk", none⟩ 7 9 [(5, identifier, kindOne)]).run (.boot kitchen 0) =
      (.ok (), withPolicy identifier) := by
  rcases h with rfl | rfl
  · rfl
  · rfl

theorem kept_restrictions_enforced_kitchen :
    (((kitchenHandler.validateOperation kitchenWeb.toExternal message).run
      (withAuthorization "allowed_kinds")).1 = .ok () ↔
        ∀ p ∈ [((5 : RowId), "allowed_kinds", kindOne)], p.2.1 ∈ availablePermissions →
          ∃ c, (askedPermission p).toCustomPermission kitchenWeb.toExternal = .ok c ∧
            c.allows kitchenWeb.toExternal "pub:chef-sk" message = true) ∧
      ∃ row ∈ ((createBunker kitchenWeb 1 { authorization := some (some "Bearer session") }
          (some ⟨"s", "h"⟩) 3
        ⟨"app", none, some "readonly"⟩).run (.boot kitchen 0)).2.db.oauthAuthorizations,
          row.policyId = some 1 := by
  obtain ⟨hpolicy, hbunker⟩ := kept_restrictions_enforced kitchenWeb
  constructor
  · refine hpolicy ⟨"pub:sk", none⟩ 7 9 _ (.boot kitchen 0) _ _ kitchenHandler message
      (fun _ hl => nomatch hl) ?_
      (withPolicy_run "allowed_kinds" (.inl rfl)) ⟨rfl, rfl⟩ ⟨_, rfl, rfl⟩
    intro p hp
    rw [List.mem_singleton] at hp
    subst hp
    rfl
  · obtain ⟨-, -, row, hrow, -, hid⟩ :=
      hbunker 1 { authorization := some (some "Bearer session") } (some ⟨"s", "h"⟩) 3
      ⟨"app", none, some "readonly"⟩ "readonly" { id := 1, slug := some "readonly" }
        (.boot kitchen 0) _
      ⟨"pub:sk/keycast-bunker-nip46-v1-h", "s", 3⟩ rfl rfl (Prod.ext (by decide) rfl)
    exact ⟨row, hrow, hid⟩

/-- **A misspelled restriction is none.** The policy that was asked for has one permission, the one
that was made has none, and an authorization with it signs direct messages. -/
theorem unknown_permission_skipped :
    ¬ ∀ (w : Web) (auth : UcanAuth) (team id : RowId) (permissions : List (RowId × String × Json))
        (s s' : State)
        (signer : Signer.State) (n : Signer.Nip46Handler) (op : Operation),
      References (fun l => some l.policyId) Policy.id s.db.policyPermissions s.db.policies →
      (∀ p ∈ permissions, w.parseJson (w.renderJson p.2.2) = some p.2.2) →
      (addPolicy w auth team id permissions).run s = (.ok (), s') →
      SamePermissions s'.db signer.db →
      HasPolicy n signer.db id → ((n.validateOperation w.toExternal op).run signer).1 = .ok () →
      ∀ p ∈ permissions, ∃ c, (askedPermission p).toCustomPermission w.toExternal = .ok c ∧
        c.allows w.toExternal (w.publicKey n.userKeys) op = true := by
  intro h
  obtain ⟨c, hc, -⟩ :=
    h kitchenWeb ⟨"pub:sk", none⟩ 7 9 [(5, "allowed_kind", kindOne)] (.boot kitchen 0) _
    (withAuthorization "allowed_kind") kitchenHandler message (fun _ hl => nomatch hl)
    (fun p hp => by rw [List.mem_singleton.mp hp]; rfl)
      (withPolicy_run "allowed_kind" (.inr rfl)) ⟨rfl, rfl⟩
    ⟨_, rfl, rfl⟩ (by decide) (5, "allowed_kind", kindOne) List.mem_cons_self
  have hunknown :
    (askedPermission (5, "allowed_kind", kindOne)).toCustomPermission kitchenWeb.toExternal =
      .error (.unknownPermission "allowed_kind") := by decide
  cases hunknown.symm.trans hc

end Sample

end Http

end Keycast
