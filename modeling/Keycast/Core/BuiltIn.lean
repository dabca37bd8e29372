import Keycast.Core.OAuthCodes
import Keycast.Core.Teams
import Mathlib.Data.List.Find

/-!
# `Core/BuiltIn.lean` — the policies that belong to no team

The policies that a scope or a bunker request names are rows of `policies` with a slug and without
a team. Nothing makes or changes such a row while the service runs. A team's policies come with
their permissions, when they are added or with the team itself, and go with the team.

`KeepsBuiltIn` says what a change of the tables leaves as it is: the policies without a team, the
slugs, and the permissions these policies are made of. Rows that are added have new ids, and no link
is left without its permission, so that no link of an old policy leads to a new row. A deletion
would take a permission that a built-in policy shares with the team's own; then the foreign key of
`policy_permissions` refuses the whole of it.
-/

set_option autoImplicit false

namespace Keycast

open Lib

namespace Db

/-- What the schema and the migrations promise of the tables of policies. -/
structure PolicyTables (db : Db) : Prop where
  ids : (db.policies.map (·.id)).Nodup
  slugs : ∀ p ∈ db.policies, p.slug.isSome = true → p.teamId = none
  links : References (fun l => some l.permissionId) PermissionRow.id db.policyPermissions
    db.permissions

/-- A policy without a team. -/
def BuiltIn (db : Db) (id : RowId) : Prop := ∃ p ∈ db.policies, p.id = id ∧ p.teamId = none

theorem PolicyTables.builtIn_of_slug {db : Db} (h : db.PolicyTables) {slug : String}
    {policy : Policy}
    (hfound : db.findPolicyBySlug slug = some policy) : db.BuiltIn policy.id := by
  have hslug : policy.slug = some slug := by simpa using List.find?_some hfound
  have hmem := List.mem_of_find?_eq_some hfound
  exact ⟨policy, hmem, rfl, h.slugs policy hmem (by rw [hslug]; rfl)⟩

/-- The policies without a team are as they were. -/
structure KeepsBuiltIn (db db' : Db) : Prop where
  tables : db'.PolicyTables
  builtIn : ∀ id, db.BuiltIn id → db'.BuiltIn id
  slugs : ∀ slug, db'.findPolicyBySlug slug = db.findPolicyBySlug slug
  rows : ∀ id, db.BuiltIn id → db'.permissionRows id = db.permissionRows id

section KeepsBuiltIn

variable {db db' db'' : Db}

theorem KeepsBuiltIn.of_same (h : db.PolicyTables) (hpolicies : db'.policies = db.policies)
    (hperms : db'.permissions = db.permissions)
    (hlinks : db'.policyPermissions = db.policyPermissions) : KeepsBuiltIn db db' where
  tables := by
    constructor
    · rw [hpolicies]; exact h.ids
    · rw [hpolicies]; exact h.slugs
    · rw [hperms, hlinks]; exact h.links
  builtIn id hid := by
    unfold BuiltIn
    rw [hpolicies]
    exact hid
  slugs slug := by
    unfold findPolicyBySlug
    rw [hpolicies]
  rows id _ := by
    unfold permissionRows
    rw [hperms, hlinks]

theorem KeepsBuiltIn.refl (h : db.PolicyTables) : KeepsBuiltIn db db := .of_same h rfl rfl rfl

theorem KeepsBuiltIn.trans (h : KeepsBuiltIn db db') (h' : KeepsBuiltIn db' db'') :
    KeepsBuiltIn db db'' where
  tables := h'.tables
  builtIn id hid := h'.builtIn id (h.builtIn id hid)
  slugs slug := (h'.slugs slug).trans (h.slugs slug)
  rows id hid := (h'.rows id (h.builtIn id hid)).trans (h.rows id hid)

theorem KeepsBuiltIn.getPermissions (h : KeepsBuiltIn db db') (ext : External) {id : RowId}
    (hid : db.BuiltIn id) : db'.getPermissions ext id = db.getPermissions ext id := by
  unfold Db.getPermissions
  rw [h.rows id hid]

/-! ## A new policy -/

section Created

variable {team policy : RowId} {rows : List PermissionRow}

/-- The rows that `create_with_permissions` adds. -/
theorem KeepsBuiltIn.created (h : db.PolicyTables) (hfree : db.policyIdsFree policy rows = true) :
    KeepsBuiltIn db { db with
      permissions := db.permissions ++ rows
      policies := db.policies ++ [{ id := policy, slug := none, teamId := some team }]
      policyPermissions := db.policyPermissions ++ rows.map fun r => ⟨policy, r.id⟩ } := by
  simp only [policyIdsFree, Bool.and_eq_true, Bool.not_eq_true', List.any_eq_false, beq_iff_eq,
    decide_eq_true_eq] at hfree
  obtain ⟨⟨hperms, -⟩, hpolicy⟩ := hfree
  refine ⟨⟨?_, ?_, ?_⟩, ?_, ?_, ?_⟩
  · -- the id of the policy is new
    rw [List.map_append, List.nodup_append]
    refine ⟨h.ids, List.nodup_singleton _, fun id hid id' hid' => ?_⟩
    obtain ⟨p, hp, rfl⟩ := List.mem_map.mp hid
    rw [List.mem_singleton.mp hid']
    exact hpolicy p hp
  · intro p hp hslug
    rcases List.mem_append.mp hp with hp | hp
    · exact h.slugs p hp hslug
    · rw [List.mem_singleton.mp hp] at hslug
      cases hslug
  · intro l hl id hid
    rcases List.mem_append.mp hl with hl | hl
    · obtain ⟨p, hp, heq⟩ := h.links l hl id hid
      exact ⟨p, List.mem_append_left _ hp, heq⟩
    · obtain ⟨r, hr, rfl⟩ := List.mem_map.mp hl
      exact ⟨r, List.mem_append_right _ hr, Option.some.inj hid⟩
  · rintro id ⟨p, hp, hid, hteam⟩
    exact ⟨p, List.mem_append_left _ hp, hid, hteam⟩
  · intro slug
    unfold findPolicyBySlug
    rw [List.find?_append]
    simp
  · rintro id ⟨p, hp, rfl, -⟩
    have hne : policy ≠ p.id := fun heq => hpolicy p hp heq.symm
    have hnew : (rows.map fun r => (⟨policy, r.id⟩ : PolicyPermission)).filter
        (·.policyId == p.id) = [] := by
      rw [List.filter_eq_nil_iff]
      intro l hl
      obtain ⟨r, -, rfl⟩ := List.mem_map.mp hl
      simpa using hne
    unfold permissionRows
    rw [List.filter_append, hnew, List.append_nil]
    refine List.flatMap_congr fun l hl => ?_
    rw [List.filter_append, List.append_right_eq_self, List.filter_eq_nil_iff]
    -- the link is an old one, so its permission is old as well
    intro r hr heq
    obtain ⟨q, hq, hid⟩ := h.links l (List.mem_filter.mp hl).1 _ rfl
    exact hperms r hr
      (List.any_eq_true.mpr ⟨q, hq, beq_iff_eq.mpr (hid.trans (beq_iff_eq.mp heq).symm)⟩)

end Created

/-! ## The deletion of a team -/

end KeepsBuiltIn

end Db

end Keycast
