import Keycast.Core.Teams

/-!
# `Core/Reinvitation.lean` — inviting an address again

"Pending" is written twice. `find_pending_by_email` counts an invitation that is neither accepted
nor revoked and has not expired; the index `uq_pending_invite` counts it when it is neither accepted
nor revoked, for an index cannot ask what time it is. Seven days after an invitation that nobody
answered the query finds nothing, and the insert is refused as a duplicate until somebody revokes
the old one.
-/

set_option autoImplicit false

namespace Keycast.Db

variable {db : Db} {now : Timestamp} {team : RowId} {tenant : TenantId} {email token : String}
  {role : TeamUserRole} {caller : PublicKey}

theorem findPendingInvitation_eq_none :
    db.findPendingInvitation now team email = none ↔
      ∀ i ∈ db.teamInvitations, i.teamId = team → i.email = email → i.pending now = false := by
  unfold findPendingInvitation
  simp only [List.find?_eq_none, Bool.and_eq_true, beq_iff_eq]
  refine forall₂_congr fun i _ => ?_
  rw [← Bool.not_eq_true]
  exact ⟨fun h h₁ h₂ hp => h ⟨⟨h₁, h₂⟩, hp⟩, fun h hp => h hp.1.1 hp.1.2 hp.2⟩

theorem createInvitation_isOk :
    (∃ db', db.createInvitation now team tenant email role token caller = .ok db') ↔
      db.invitationFree team email token = true ∧ db.teams.any (·.id == team) = true := by
  constructor
  · rintro ⟨db', h⟩
    refine ⟨(createInvitation_ok h).1, ?_⟩
    unfold createInvitation at h
    split at h
    · cases h
    split at h
    · cases h
    split at h
    · cases h
    · next hteam => simpa using hteam
  · rintro ⟨hfree, hteam⟩
    cases h : db.createInvitation now team tenant email role token caller with
    | ok db' => exact ⟨db', rfl⟩
    | error e =>
      rcases createInvitation_error h with hno | hno
      · cases hfree.symm.trans hno
      · cases hteam.symm.trans hno

/-- **An address for which no invitation is pending can be invited**, with a token that is new,
exactly if it fits its column and none of its unanswered invitations to the team has expired. -/
theorem invitable_again_iff (hteam : ∃ t ∈ db.teams, t.id = team)
    (htoken : ∀ i ∈ db.teamInvitations, i.token ≠ token)
    (hnone : db.findPendingInvitation now team email = none) :
    (∃ db', db.createInvitation now team tenant email role token caller = .ok db') ↔
      email.length ≤ 255 ∧
        ∀ i ∈ db.teamInvitations, i.teamId = team → i.email = email → i.unanswered = true →
          now < i.expiresAt := by
  have hpending := findPendingInvitation_eq_none.mp hnone
  have hthere : db.teams.any (·.id == team) = true := by
    obtain ⟨t, ht, hid⟩ := hteam
    exact List.any_eq_true.mpr ⟨t, ht, beq_iff_eq.mpr hid⟩
  rw [createInvitation_isOk, and_iff_left hthere]
  simp only [invitationFree, Bool.and_eq_true, Bool.not_eq_true',
    decide_eq_false_iff_not, Nat.not_lt,
    List.any_eq_false, Bool.or_eq_true, beq_iff_eq, not_or]
  refine and_congr_right fun _ => ⟨fun h i hi hi₁ hi₂ hopen => ?_, fun h i hi => ⟨htoken i hi, ?_⟩⟩
  · exact absurd ⟨⟨hi₁, hi₂⟩, hopen⟩ (h i hi).2
  · -- one that has not expired would be pending
    rintro ⟨⟨hi₁, hi₂⟩, hopen⟩
    have hno := hpending i hi hi₁ hi₂
    have hlive := h i hi hi₁ hi₂ hopen
    simp [TeamInvitation.pending, hopen, hlive] at hno

/-! A team that invites an address, and does so again. -/

def inviting : Db where
  teams := [{ id := 1, tenantId := 1 }]

/-- The first invitation, open or revoked. -/
def invited (revokedAt : Option Timestamp) : Db where
  teams := [{ id := 1, tenantId := 1 }]
  teamInvitations :=
    [{ id := 1, teamId := 1, tenantId := 1, email := "new@example.com", role := .member,
                        token := "first", invitedBy := "admin", expiresAt := hours 168, revokedAt }]

example :
    inviting.createInvitation 0 1 1 "new@example.com" .member "first" "admin" =
      .ok (invited none) := by decide

theorem revoked_invitable_again :
    ∃ db', (invited (some 60)).createInvitation (hours 24) 1 1 "new@example.com" .member "second"
      "admin" = .ok db' :=
  (invitable_again_iff (by decide) (by decide) (by decide)).mpr (by decide)

/-- **A week later nothing is pending, and nothing can be created.** -/
theorem expired_not_invitable :
    (invited none).findPendingInvitation (hours 168) 1 "new@example.com" = none ∧
      ¬ ∃ db', (invited none).createInvitation (hours 168) 1 1 "new@example.com" .member "second"
        "admin" = .ok db' := by
  refine ⟨by decide, fun h => ?_⟩
  have hfree := (createInvitation_isOk.mp h).1
  exact absurd hfree (by decide)

end Keycast.Db
