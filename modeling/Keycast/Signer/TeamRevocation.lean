import Keycast.Signer.System

/-!
# `Signer/TeamRevocation.lean` — when a dead team bunker stays silent

Team authorizations have no client gate. What stops a request to a revoked or expired team bunker
is the status of the handler alone, and the status is set in three places that know different
things: the on-demand loader reads `expires_at` but not `revoked_at`, an `Upsert` reads
`revoked_at` but not `expires_at`, and a `Remove` marks a handler that happens to be cached. The
comment on `Remove` says that an uncached handler "will load from DB as revoked" on the next
request. It will not: the loader's query does not even select the column.

So a dead team bunker answers in every state but two: a tombstone is in the cache, or nothing is
and the row has expired. `team_result_only_while_live` says that those two suffice along a whole
run; the runs at the end go wrong in the three ways that remain.
-/

set_option autoImplicit false

namespace Keycast.Signer

open Lib

/-- A call to a team bunker gets no sensitive result while the bunker's row is dead. -/
def TeamSafe (ext : External) (s : State) (c : Call) : Prop :=
  ∀ k ∈ c.bunker?, s.db.oauthByBunker k = none → ∀ a ∈ s.db.teamByBunker k,
    c.succeeds ext s = true → a.live s.now = true

instance (ext : External) (s : State) (c : Call) : Decidable (TeamSafe ext s c) :=
  inferInstanceAs (Decidable (∀ k ∈ c.bunker?, s.db.oauthByBunker k = none →
    ∀ a ∈ s.db.teamByBunker k, c.succeeds ext s = true → a.live s.now = true))

/-- The daemon can tell that the bunker is dead: its handler is cached and is a tombstone, or is
not cached and the row has expired. -/
def DeathKnown (s : State) (k : PublicKey) (a : Authorization) : Prop :=
  match s.handlers.get k with
  | some h => h.status ≠ .active
  | none => unexpired s.now a.expiresAt = false

instance (s : State) (k : PublicKey) (a : Authorization) : Decidable (DeathKnown s k a) :=
  match h : s.handlers.get k with
  | some hd => decidable_of_iff (hd.status ≠ .active) (by simp [DeathKnown, h])
  | none => decidable_of_iff (unexpired s.now a.expiresAt = false) (by simp [DeathKnown, h])

/-- The condition on a call: if it is to a team bunker whose row is dead, the daemon can tell. -/
def DeathKnownAt (s : State) (c : Call) : Prop :=
  ∀ k ∈ c.bunker?, ∀ a ∈ s.db.teamByBunker k, a.live s.now = false → DeathKnown s k a

instance (s : State) (c : Call) : Decidable (DeathKnownAt s c) :=
  inferInstanceAs (Decidable (∀ k ∈ c.bunker?, ∀ a ∈ s.db.teamByBunker k,
    a.live s.now = false → DeathKnown s k a))

variable {ext : External}

/-- A tombstone answers no request with a result. -/
theorem handleWith_tombstone {h : Nip46Handler} (hs : h.status ≠ .active) (event : Nip46Event)
    (nonce : Nat) :
    (handleWith ext h event nonce).Returns (fun o => o.sensitiveResult = false) := by
  refine .bind_right fun d => .bind_right fun request => .bind_right fun method => ?_
  cases hm : h.tombstoneErrorMessage with
  | none => exact absurd (Nip46Handler.tombstoneErrorMessage_eq_none.mp hm) hs
  | some message => exact .bind_right fun _ => .bind_right fun _ => rfl

theorem getHandler_run_cached {s : State} {k : PublicKey} {h : Nip46Handler}
    (hg : s.handlers.get k = some h) : (getHandler ext k).run s = (.ok (some h), s) := by
  simp [getHandler, hg]

theorem computeStatusFromTeam_expired {now : Timestamp} {a : Authorization}
    (h : unexpired now a.expiresAt = false) :
    (Nip46Handler.computeStatusFromTeam now a).1 = .expired := by
  unfold Nip46Handler.computeStatusFromTeam
  cases he : a.expiresAt with
  | none => simp [unexpired, he] at h
  | some t =>
    have hle : t ≤ now := by simpa [unexpired, he] using h
    simp [hle]

/-- What is loaded for an expired team row is a tombstone. -/
theorem getHandler_run_expired {s s' : State} {k : PublicKey} {h : Nip46Handler}
    {a : Authorization} (hg : s.handlers.get k = none) (ho : s.db.oauthByBunker k = none)
    (ha : s.db.teamByBunker k = some a) (hexp : unexpired s.now a.expiresAt = false)
    (hrun : (getHandler ext k).run s = (.ok (some h), s')) : h.status = .expired := by
  have hst := computeStatusFromTeam_expired hexp
  simp only [getHandler, loadOnDemand, Prog.bind_def, Prog.read_bind, Prog.run_atom, hg, ho, ha,
    id] at hrun
  cases henc : s.db.storedKey a.storedKeyId a.tenantId with
  | none => simp [henc] at hrun
  | some enc =>
    rw [henc, Prog.orErr_some, Prog.ret_bind, Prog.run_bind] at hrun
    split at hrun
    · simp only [Prog.write_bind, Prog.run_atom, Prog.pure_def, Prog.run_ret, Prod.mk.injEq,
        Except.ok.injEq, Option.some.injEq] at hrun
      rw [← hrun.1]
      exact hst
    · exact absurd hrun (by simp)

/-- One call: where the daemon can tell that the bunker is dead, it does not answer. -/
theorem teamSafe_of_deathKnownAt {s : State} {c : Call} (h : DeathKnownAt s c) :
    TeamSafe ext s c := by
  intro k hk ho a ha hsucc
  by_contra hlive
  have hknown := h k hk a ha (by simpa using hlive)
  cases c with
  | env e => simp [Call.succeeds] at hsucc
  | work w =>
    cases w with
    | command c => simp [Call.bunker?] at hk
    | cleanup => simp [Call.bunker?] at hk
    | request event owned nonce =>
      have hb : event.bunkerPubkey = some k := hk
      simp only [Call.succeeds, perform, handleNip46Request, hb, Prog.bind_def, Prog.orErr_some,
        Prog.ret_bind] at hsucc
      cases owned with
      | false => simp [Outcome.sensitiveResult] at hsucc
      | true =>
        simp only [if_true, Prog.run_bind] at hsucc
        cases hrun : (getHandler ext k).run s with
        | mk r s' =>
          rw [hrun] at hsucc
          rcases r with e | (_ | hd)
          · simp at hsucc
          · simp [Outcome.sensitiveResult] at hsucc
          · -- the handler the request works with is a tombstone, cached or just loaded
            have hdead : hd.status ≠ .active := by
              unfold DeathKnown at hknown
              cases hg : s.handlers.get k with
              | some h' =>
                rw [hg] at hknown
                rw [getHandler_run_cached hg] at hrun
                cases hrun
                exact hknown
              | none =>
                rw [hg] at hknown
                rw [getHandler_run_expired hg ho ha hknown hrun]
                exact fun h => nomatch h
            have hret : (handleWith ext hd event nonce).Returns _ :=
              handleWith_tombstone hdead event nonce
            cases hw : (handleWith ext hd event nonce).run s' with
            | mk r' s'' =>
              simp only [hw] at hsucc
              cases r' with
              | error e => simp at hsucc
              | ok o => simp [hret.run hw] at hsucc

/-- **Team bunkers, along a run.** If at every request to a dead team bunker the daemon can tell
that it is dead, no request of the run gets a sensitive result from a dead team bunker. -/
theorem team_result_only_while_live {db : Db} {now : Timestamp} {es : List Call}
    (h : Along (callStep ext) DeathKnownAt (.boot db now) es) :
    Along (callStep ext) (TeamSafe ext) (.boot db now) es :=
  h.mono fun _ _ => teamSafe_of_deathKnownAt

/-! A team bunker with one authorization that expires after 100 hours, and a client that asks it to
encrypt. -/

def teamBunker : PublicKey := "pub:team-sk/keycast-bunker-nip46-v1-h"

def teamExternal : External :=
  .symbolic [("c1", "req")]
    [("req", .obj [("id", .str "1"), ("method", .str "nip44_encrypt"),
      ("params", .arr [.str "bob", .str "hi"])])]

def teamDb : Db where
  storedKeys := [{ id := 7, tenantId := 1, secretKey := "team-sk" }]
  authorizations :=
    [{ id := 1, tenantId := 1, storedKeyId := 7, bunkerPublicKey := teamBunker, secretHash := "h",
       expiresAt := some (hours 100) }]

def teamRequest : Call := .work (.request ⟨"e1", "client", [["p", teamBunker]], "c1"⟩ true 0)

/-- Served, revoked, marked by `Remove`, asked again: the tombstone answers. -/
def markedRun : List Call :=
  [teamRequest, .env (.revokeTeam 1 1 none), .work (.command (.remove teamBunker)), teamRequest]

theorem team_result_only_while_live_marked :
    Along (callStep teamExternal) (TeamSafe teamExternal) (.boot teamDb 0) markedRun :=
  team_result_only_while_live (by decide)

/-- Revoked and marked while nothing was cached; the loader does not see the revocation. -/
def coldRun : List Call :=
  [.env (.revokeTeam 1 1 none), .work (.command (.remove teamBunker)), teamRequest]

/-- Cached while alive; nothing looks at the clock again. -/
def expiryRun : List Call := [teamRequest, .env (.tick (hours 101).toNat), teamRequest]

/-- The tombstone is cleaned up after a day, and the revoked row loaded as a live one. -/
def cleanupRun : List Call :=
  markedRun ++ [.env (.tick (hours 25).toNat), .work .cleanup, teamRequest]

/-- **The three ways a dead team bunker answers.** -/
theorem dead_team_bunker_answers :
    ¬ Along (callStep teamExternal) (TeamSafe teamExternal) (.boot teamDb 0) coldRun ∧
    ¬ Along (callStep teamExternal) (TeamSafe teamExternal) (.boot teamDb 0) expiryRun ∧
    ¬ Along (callStep teamExternal) (TeamSafe teamExternal) (.boot teamDb 0) cleanupRun := by
  decide

end Keycast.Signer
