import Mathlib.Data.List.Nodup
import Keycast.Core.Teams

/-!
# `Core/SharedPermissions.lean` — what a deleted team takes with it

Policies share permissions through `policy_permissions`. `TeamRepository::delete` looks for the
permissions that no other team uses, and there the built-in policies, which have no team, are not
looked at: `NULL != $1` is not true. What keeps their permissions is the foreign key. The deletion
of a shared permission is refused, and with it the whole transaction.
-/

set_option autoImplicit false

namespace Keycast.Db

open Lib

variable {db : Db} {tenant : TenantId} {team : RowId}

/-- **What the deletion of a team may do to permissions.** -/
structure KeepsForeignPermissions (db db' : Db) (team : RowId) : Prop where
  removed : ∀ p ∈ db.permissions, p ∉ db'.permissions →
    ∀ policy ∈ db.policies, policy.teamId ≠ some team →
    ∀ l ∈ db.policyPermissions, l.policyId = policy.id → l.permissionId ≠ p.id
  others : ∀ policy ∈ db.policies, policy.teamId ≠ some team →
    policy ∈ db'.policies ∧ db'.permissionRows policy.id = db.permissionRows policy.id

theorem KeepsForeignPermissions.refl (db : Db) (team : RowId) :
    KeepsForeignPermissions db db team :=
  ⟨fun _ hp hgone => absurd hp hgone, fun _ hpolicy _ => ⟨hpolicy, rfl⟩⟩

/-- Ids of policies say whose they are. -/
theorem not_mem_policyIdsOf (hids : (db.policies.map (·.id)).Nodup) {policy : Policy}
    (hpolicy : policy ∈ db.policies)
    (hteam : policy.teamId ≠ some team) : (db.policyIdsOf team).contains policy.id = false := by
  rw [← Bool.not_eq_true, List.contains_iff_mem]
  intro hmem
  obtain ⟨other, hother, hid⟩ := List.mem_map.mp hmem
  rw [List.mem_filter] at hother
  obtain rfl : other = policy := List.inj_on_of_nodup_map hids hother.1 hpolicy hid
  exact hteam (beq_iff_eq.mp hother.2)

/-- A deletion that goes through has removed no permission that is linked to from elsewhere. -/
theorem not_orphaned_of_free (hfree : db.deletionBlocked tenant team = false) {l : PolicyPermission}
    (hl : l ∈ db.policyPermissions) (hpolicy : (db.policyIdsOf team).contains l.policyId = false) :
    (db.orphanedPermissions team).contains l.permissionId = false := by
  simp only [deletionBlocked, Bool.or_eq_false_iff] at hfree
  have hlinks := List.any_eq_false.mp hfree.1.1.2 l hl
  rw [hpolicy] at hlinks
  simpa using hlinks

theorem withoutTeam_keepsForeign (hids : (db.policies.map (·.id)).Nodup)
    (hfree : db.deletionBlocked tenant team = false) :
    KeepsForeignPermissions db (db.withoutTeam tenant team) team := by
  refine ⟨fun p hp hgone policy hpolicy hteam l hl hlinked heq => ?_,
    fun policy hpolicy hteam => ⟨?_, ?_⟩⟩
  · have hforeign := not_mem_policyIdsOf hids hpolicy hteam
    have hkept := not_orphaned_of_free hfree hl (by rw [hlinked]; exact hforeign)
    refine hgone (List.mem_filter.mpr ⟨hp, ?_⟩)
    rw [← heq, hkept]
    rfl
  · refine List.mem_filter.mpr ⟨hpolicy, ?_⟩
    rw [bne_iff_ne]
    exact hteam
  · have hforeign := not_mem_policyIdsOf hids hpolicy hteam
    -- neither the links of the policy nor what they lead to is touched
    have hlinks :
      ((db.policyPermissions.filter fun l => !(db.policyIdsOf team).contains l.policyId).filter
        (·.policyId == policy.id)) = db.policyPermissions.filter (·.policyId == policy.id) := by
      refine filter_filter_eq.mpr fun l _ hl => ?_
      rw [beq_iff_eq.mp hl, hforeign]
      rfl
    show ((db.policyPermissions.filter _).filter _).flatMap _ = _
    rw [hlinks]
    unfold permissionRows
    refine List.flatMap_congr fun l hl => ?_
    rw [List.mem_filter, beq_iff_eq] at hl
    have hkept := not_orphaned_of_free hfree hl.1 (by rw [hl.2]; exact hforeign)
    refine filter_filter_eq.mpr fun p _ hp => ?_
    rw [beq_iff_eq.mp hp, hkept]
    rfl

/-- **Deleting a team touches only its own permissions**, whoever shares what with whom. -/
theorem team_deletion_keeps_foreign_permissions (hids : (db.policies.map (·.id)).Nodup)
    (tenant : TenantId)
    (team : RowId) : KeepsForeignPermissions db (db.deleteTeamWithRows tenant team).2 team := by
  have heq := db.deleteTeamWithRows_eq tenant team
  split at heq
  · obtain ⟨e, he⟩ := heq
    rw [he]
    exact .refl db team
  · next hfree =>
    rw [heq]
    exact withoutTeam_keepsForeign hids (Bool.eq_false_iff.mpr hfree)

/-! Two teams that share a permission, and one that shares its own with a built-in policy. -/

def sharing : Db where
  teams := [{ id := 1, tenantId := 1 }, { id := 2, tenantId := 1 }, { id := 3, tenantId := 1 }]
  policies := [{ id := 10, slug := some "social" }, { id := 11, slug := none, teamId := some 1 },
    { id := 12, slug := none, teamId := some 2 }, { id := 13, slug := none, teamId := some 3 }]
  permissions :=
    [⟨20, "allowed_kinds", "{}"⟩, ⟨21, "allowed_kinds", "{}"⟩, ⟨22, "content_filter", "{}"⟩]
  policyPermissions := [⟨10, 20⟩, ⟨11, 21⟩, ⟨11, 22⟩, ⟨12, 21⟩, ⟨13, 20⟩]

/-- The first team goes with what is its own; the third cannot go. -/
theorem sharing_kept :
    (sharing.deleteTeamWithRows 1 1).2.permissions.map (·.id) = [20, 21] ∧
      (sharing.deleteTeamWithRows 1 3).1 ≠ .ok () ∧
      KeepsForeignPermissions sharing (sharing.deleteTeamWithRows 1 1).2 1 ∧
      KeepsForeignPermissions sharing (sharing.deleteTeamWithRows 1 3).2 3 :=
  ⟨by decide, by decide, team_deletion_keeps_foreign_permissions (by decide) 1 1,
    team_deletion_keeps_foreign_permissions (by decide) 1 3⟩

end Keycast.Db
