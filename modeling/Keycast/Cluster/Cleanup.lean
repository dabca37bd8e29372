import Keycast.Cluster.Coordinator

/-!
# `Cluster/Cleanup.lean` — which instances a cleanup removes

`get_active_instances` and `cleanup_stale` of `registry.rs`. The registry is a sorted set: an
instance with the time of its last heartbeat as its score. Each function reads the clock for itself
and computes a cutoff from it; the query takes what lies at the cutoff or above, and the cleanup
removes what lies at the cutoff or below. At the same millisecond the two ranges have the cutoff in
common: `cleanup_harmless_iff` says that this is the only thing that goes wrong.

How the store keeps a number is a parameter (Redis has doubles). All that is needed of it is that a
greater number is not kept as a smaller one.
-/

set_option autoImplicit false

namespace Keycast.Cluster

variable {σ : Type} [LinearOrder σ]

/-! ## The two functions -/

/-- The instances with their scores, in the order of the store. -/
abbrev InstanceScores (σ : Type) := List (String × σ)

/-- `ZRANGEBYSCORE key min +inf`. -/
def zrangeByScore (instances : InstanceScores σ) (min : σ) : List String :=
  (instances.filter fun e => min ≤ e.2).map (·.1)

/-- `ZREMRANGEBYSCORE key -inf max`: the number of members removed, and the rest. -/
def zremRangeByScore (instances : InstanceScores σ) (max : σ) : Nat × InstanceScores σ :=
  (instances.countP fun e => e.2 ≤ max, instances.filter fun e => !decide (e.2 ≤ max))

/-- `STALE_THRESHOLD_SECS`. -/
def staleThresholdSecs : UInt64 := 30

/-- The subtraction wraps, as a release build's does. -/
def cutoff (now : UInt64) : UInt64 := now - staleThresholdSecs * 1000

def getActiveInstances (score : UInt64 → σ) (now : UInt64) (instances : InstanceScores σ) :
    List String :=
  zrangeByScore instances (score (cutoff now))

def cleanupStale (score : UInt64 → σ) (now : UInt64) (instances : InstanceScores σ) :
    Nat × InstanceScores σ :=
  zremRangeByScore instances (score (cutoff now))

/-- What `refresh` fetches when it cleans up at one time and asks at another. -/
def fetchedByRefresh (score : UInt64 → σ) (cleaned asked : UInt64) (instances : InstanceScores σ) :
    List String :=
  getActiveInstances score asked (cleanupStale score cleaned instances).2

/-! ## The property -/

/-- A cleanup changes no answer from then on, and a refresh that begins with it leaves out no
instance that the query alone would have kept. -/
structure CleanupHarmless (score : UInt64 → σ) (t : UInt64)
    (instances : InstanceScores σ) : Prop where
  query : ∀ t', t ≤ t' →
    getActiveInstances score t' (cleanupStale score t instances).2 =
      getActiveInstances score t' instances
  refresh : ∀ t', t ≤ t' →
    ∀ myInstanceId order (s : Coordinator), ∀ id ∈ getActiveInstances score t' instances,
    id ∈ (callStep myInstanceId order s
      (.refresh (.ok ()) (.ok (fetchedByRefresh score t t' instances)))).members

/-- A greater number is not kept as a smaller one. -/
def KeepsOrder (score : UInt64 → σ) : Prop := ∀ {a b : UInt64}, a ≤ b → score a ≤ score b

/-- The score of the cutoff itself. In the first seconds of 1970 the cutoff has wrapped to the end
of the range. -/
def OnBoundary (score : UInt64 → σ) (t : UInt64) (x : σ) : Prop :=
  if 30000 ≤ t then x = score (t - 30000) else score 0 ≤ x ∧ x ≤ score (t - 30000)

section Cleanup

variable {score : UInt64 → σ} {t t' : UInt64} {instances : InstanceScores σ}

theorem cutoff_eq (t : UInt64) : cutoff t = t - 30000 := rfl

/-- Once the clock has passed the threshold, later cutoffs are later. -/
theorem cutoff_mono (hpast : 30000 ≤ t) (h : t ≤ t') : t - 30000 ≤ t' - 30000 := by
  rw [UInt64.le_iff_toNat_le] at hpast h ⊢
  rw [UInt64.toNat_sub_of_le _ _ (UInt64.le_iff_toNat_le.mpr hpast),
    UInt64.toNat_sub_of_le _ _ (UInt64.le_iff_toNat_le.mpr (hpast.trans h))]
  omega

/-- The scores that are removed now and would be seen at some time from now on. -/
theorem onBoundary_iff (hmono : KeepsOrder score) {x : σ} :
    OnBoundary score t x ↔ x ≤ score (cutoff t) ∧ ∃ t', t ≤ t' ∧ score (cutoff t') ≤ x := by
  simp only [cutoff_eq]
  unfold OnBoundary
  split
  · next hpast =>
    constructor
    · rintro rfl
      exact ⟨le_refl _, t, UInt64.le_refl t, le_refl _⟩
    · rintro ⟨hremoved, t', ht', hseen⟩
      exact le_antisymm hremoved ((hmono (cutoff_mono hpast ht')).trans hseen)
  · next hearly =>
    constructor
    · rintro ⟨hlow, hhigh⟩
      have hnow : t ≤ 30000 := (UInt64.le_total t 30000).resolve_right hearly
      exact ⟨hhigh, 30000, hnow, hlow⟩
    · rintro ⟨hremoved, t', -, hseen⟩
      exact ⟨(hmono (UInt64.le_iff_toNat_le.mpr (Nat.zero_le _))).trans hseen, hremoved⟩

/-- A filter goes unnoticed by another when it keeps all that the other keeps. -/
theorem map_filter_filter_iff {α β : Type} {p q : α → Bool} {f : α → β} {l : List α} :
    ((l.filter p).filter q).map f = (l.filter q).map f ↔ ∀ a ∈ l, q a = true → p a = true := by
  constructor
  · intro heq a ha hq
    have hsub : ((l.filter p).filter q).Sublist (l.filter q) := List.filter_sublist.filter q
    have hsame : (l.filter p).filter q = l.filter q :=
      hsub.eq_of_length (by simpa using congrArg List.length heq)
    have hmem : a ∈ (l.filter p).filter q := hsame ▸ List.mem_filter.mpr ⟨ha, hq⟩
    exact (List.mem_filter.mp (List.mem_filter.mp hmem).1).2
  · intro h
    rw [List.filter_filter]
    refine congrArg (List.map f) (List.filter_congr fun a ha => ?_)
    cases hq : q a with
    | false => rfl
    | true => simp [h a ha hq]

/-- One query: the cleanup must not have removed anything that lies in its range. -/
theorem query_same_iff : getActiveInstances score t' (cleanupStale score t instances).2 =
      getActiveInstances score t' instances ↔
    ∀ e ∈ instances, score (cutoff t') ≤ e.2 → ¬ e.2 ≤ score (cutoff t) := by
  unfold getActiveInstances zrangeByScore cleanupStale zremRangeByScore
  rw [map_filter_filter_iff]
  simp

/-- **A cleanup is harmless unless an instance has the cutoff for its score.** -/
theorem cleanup_harmless_iff (hmono : KeepsOrder score) (t : UInt64)
    (instances : InstanceScores σ) :
    CleanupHarmless score t instances ↔ ∀ e ∈ instances, ¬ OnBoundary score t e.2 := by
  constructor
  · intro h e he hboundary
    obtain ⟨hremoved, t', ht', hseen⟩ := (onBoundary_iff hmono).mp hboundary
    exact query_same_iff.mp (h.query t' ht') e he hseen hremoved
  · intro h
    have hquery : ∀ t', t ≤ t' →
        getActiveInstances score t' (cleanupStale score t instances).2 =
          getActiveInstances score t' instances := by
      intro t' ht'
      refine query_same_iff.mpr fun e he hseen hremoved => h e he ?_
      exact (onBoundary_iff hmono).mpr ⟨hremoved, t', ht', hseen⟩
    refine ⟨hquery, fun t' ht' myInstanceId order s id hid => ?_⟩
    rw [callStep_refresh_ok, fetchedByRefresh, hquery t' ht', Coordinator.members,
      HashRing.rebuild_currentInstances]
    exact List.mem_toFinset.mpr hid

end Cleanup

/-! Two instances, at half a minute after one and less after the other. -/

theorem cleanup_harmless_late :
    CleanupHarmless UInt64.toNat 1760000030001 [("a", 1760000000000), ("b", 1760000029000)] := by
  refine (cleanup_harmless_iff (fun h => UInt64.le_iff_toNat_le.mp h) _ _).mpr fun e he => ?_
  unfold OnBoundary
  rcases List.mem_pair.mp he with rfl | rfl
  · decide
  · decide

/-- **The cleanup removes an instance that the query at the same millisecond still has.** -/
theorem cleanup_removes_active :
    ¬ CleanupHarmless UInt64.toNat 1760000030000 [("a", 1760000000000), ("b", 1760000029000)] := by
  intro h
  exact absurd (h.query 1760000030000 (UInt64.le_refl _)) (by decide)

end Keycast.Cluster
