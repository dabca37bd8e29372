import Keycast.Http.System

/-!
# `Http/Revocation.lean` — what is left of a revoked authorization in the caches

A revocation sets `revoked_at` and then drops the authorization's handlers from the cache of the
instance that serves it. A handler that is loaded afterwards carries the revocation and is refused.
So a request that starts afterwards can be served in two ways only: by a handler that another
instance's cache still holds, or by one that was read from the database before the revocation and
put into the cache after the invalidation.

The invariant is `Quiet`: the row is revoked and the cache of the instance holds no handler for it.
Every statement of every thread keeps it, except the insert of a thread that is `loading`, and no
thread begins to load once the row is revoked.
-/

set_option autoImplicit false

namespace Keycast.Http

open Lib

variable {w : Web} {k : PublicKey} {j : InstanceId}

/-! ## The revoked authorization -/

/-- The handler is one of the authorization with this bunker key. -/
def OfBunker (w : Web) (k : PublicKey) (h : HttpRpcHandler) : Prop :=
  h.isOauth = true ∧ w.parseCacheKey k = .ok h.bunkerPubkey

instance (w : Web) (k : PublicKey) (h : HttpRpcHandler) : Decidable (OfBunker w k h) :=
  inferInstanceAs (Decidable (_ ∧ _))

/-- The two keys are the same 32 bytes. -/
def sameKey (w : Web) (a b : PublicKey) : Bool :=
  match w.parseCacheKey a, w.parseCacheKey b with
  | .ok x, .ok y => x == y
  | _, _ => false

theorem sameKey_eq {a b : PublicKey} {x : CacheKey} (ha : w.parseCacheKey a = .ok x)
    (hb : w.parseCacheKey b = .ok x) : sameKey w a b = true := by
  simp [sameKey, ha, hb]

/-- Every row with this bunker key is revoked. -/
def RevokedIn (w : Web) (k : PublicKey) (db : Db) : Prop :=
  ∀ a ∈ db.oauthAuthorizations, sameKey w k a.bunkerPublicKey = true → a.revokedAt.isSome = true

structure Quiet (w : Web) (k : PublicKey) (j : InstanceId) (s : State) : Prop where
  revoked : RevokedIn w k s.db
  cache : (s.caches j).All fun _ h => ¬ OfBunker w k h

/-- The environment creates no authorization with this bunker key. -/
def CreatesNo (w : Web) (k : PublicKey) : EnvEvent → State → Prop
  | .createOAuth row, s => ∀ keys ∈ s.db.bunkerKeys w.toExternal row,
      sameKey w k (w.publicKey keys) = false
  | _, _ => True

instance (w : Web) (k : PublicKey) : ∀ e s, Decidable (CreatesNo w k e s)
  | .createOAuth row, s => inferInstanceAs (Decidable (∀ keys ∈ s.db.bunkerKeys w.toExternal row,
      sameKey w k (w.publicKey keys) = false))
  | .tick _, _ | .evict .., _ | .revokeOAuth _, _ | .revokeOAuthByOrigin .., _ | .deleteUser _, _
  | .setPolicies .., _ => .isTrue trivial

/-- The `SELECT` of a load that sees the row while it is not revoked. -/
def staleLoad (w : Web) (k : PublicKey) : Stmt × State → Bool
  | (.findByBunkerPubkey b, s) => sameKey w k b && (s.db.oauthByBunker b).any (·.revokedAt.isNone)
  | _ => false

def isInsert : Stmt × State → Bool
  | (.cacheInsert .., _) => true
  | _ => false

/-- The thread has read the row while it was not revoked, and has not inserted its handler. -/
def loading (w : Web) (k : PublicKey) (seen : List (Stmt × State)) : Bool :=
  seen.any (staleLoad w k) && !seen.any isInsert

/-! ## The database part -/

theorem RevokedIn.updateOAuth {db : Db} (h : RevokedIn w k db) {p : OAuthAuthorization → Bool}
    {f : OAuthAuthorization → OAuthAuthorization}
    (hf : ∀ a, (f a).bunkerPublicKey = a.bunkerPublicKey ∧ (f a).revokedAt.isSome = true) :
    RevokedIn w k (db.updateOAuth p f) := by
  intro a ha hk
  rw [Db.updateOAuth, mem_updateWhere] at ha
  rcases ha with ⟨a₀, -, -, rfl⟩ | ⟨ha, -⟩
  · exact (hf a₀).2
  · exact h a ha hk

theorem RevokedIn.envStep {s : State} {e : EnvEvent} (hno : CreatesNo w k e s)
    (h : RevokedIn w k s.db) : RevokedIn w k (envStep w e s).db := by
  cases e with
  | tick | evict | setPolicies => exact h
  | revokeOAuth | revokeOAuthByOrigin => exact h.updateOAuth fun _ => ⟨rfl, rfl⟩
  | deleteUser u => exact fun a ha hk => h a (List.mem_filter.mp ha).1 hk
  | createOAuth row =>
    intro a ha hk
    rcases Db.mem_createOAuth ha with ha | ⟨keys, hkeys, -, -, -, hb⟩
    · exact h a ha hk
    · rw [hb, hno keys hkeys] at hk
      cases hk

/-- A `SELECT` on a database in which the row is revoked is no stale one. -/
theorem staleLoad_of_revokedIn {l : Stmt} {s : State} (h : RevokedIn w k s.db) :
    staleLoad w k (l, s) = false := by
  cases l with
  | findByBunkerPubkey b =>
    simp only [staleLoad]
    by_cases hb : sameKey w k b = true
    · cases hrow : s.db.oauthByBunker b with
      | none => simp
      | some row =>
        have hmem := List.mem_of_find?_eq_some hrow
        have hkey : row.bunkerPublicKey = b := by simpa using List.find?_some hrow
        have hrev := h row hmem (by rw [hkey]; exact hb)
        rw [Option.isSome_iff_exists] at hrev
        obtain ⟨t, ht⟩ := hrev
        simp [ht]
    · simp [hb]
  | _ => rfl

/-! ## The cache part -/

theorem Quiet.updateCache {s : State} (h : Quiet w k j s) {i : InstanceId}
    {f : Cache CacheKey HttpRpcHandler → Cache CacheKey HttpRpcHandler}
    (hf : i = j → (f (s.caches j)).All fun _ h => ¬ OfBunker w k h) :
    Quiet w k j (s.updateCache i f) := by
  refine ⟨h.revoked, ?_⟩
  by_cases hij : i = j
  · subst hij
    rw [State.updateCache_self]
    exact hf rfl
  · rw [State.updateCache_of_ne s (Ne.symm hij)]
    exact h.cache

theorem Quiet.invalidate {s : State} (h : Quiet w k j s) (i : InstanceId) (key : CacheKey) :
    Quiet w k j (s.updateCache i (·.invalidate key)) :=
  h.updateCache fun _ => h.cache.invalidate key

theorem Quiet.invalidateHandlersForBunker {s : State} (h : Quiet w k j s) (i : InstanceId)
    (b : PublicKey) : Quiet w k j (s.invalidateHandlersForBunker w i b) := by
  refine h.updateCache fun _ => ?_
  split <;> exact h.cache.invalidateEntriesIf _

/-- What the invalidation is for: it leaves no handler of the authorization behind. -/
theorem Quiet.of_invalidation {s : State} (h : RevokedIn w k s.db) (i : InstanceId) :
    Quiet w k i (s.invalidateHandlersForBunker w i k) := by
  refine ⟨h, ?_⟩
  rintro key hd hget ⟨-, hkey⟩
  rw [State.invalidateHandlersForBunker, State.updateCache_self, hkey] at hget
  simp only [Cache.get_invalidateEntriesIf, Option.filter_eq_some_iff] at hget
  simp at hget

theorem Quiet.envStep {s : State} {e : EnvEvent} (hno : CreatesNo w k e s) (h : Quiet w k j s) :
    Quiet w k j (envStep w e s) := by
  have hrev := RevokedIn.envStep hno h.revoked
  cases e with
  | evict inst key => exact h.invalidate inst key
  | tick | revokeOAuth | revokeOAuthByOrigin | deleteUser | createOAuth | setPolicies =>
    exact ⟨hrev, h.cache⟩

/-! ## What the threads guarantee -/

/-- The two statements of a revocation do what their labels say. -/
def Effect (w : Web) : Stmt → State → State → Prop
  | .revokeByBunkerPubkey b user tenant, s, s' =>
    s' = s.withDb (s.db.revokeOAuthByBunker s.now b user tenant)
  | .invalidateHandlers i b, s, s' => s' = s.invalidateHandlersForBunker w i b
  | _, _, _ => True

/-- Only a thread of the instance that is loading can disturb `Quiet`. -/
def Guarantee (w : Web) (k : PublicKey) (j : InstanceId) (r : Work) (l : Stmt)
    (seen : List (Stmt × State)) (s s' : State) : Prop :=
  Effect w l s s' ∧ ((r.inst = j → loading w k seen = false) → Quiet w k j s → Quiet w k j s')

/-- Where the handler a thread works with comes from: its own load, or a cache it looked into. -/
def Sourced (w : Web) (k : PublicKey) (inst : InstanceId) (h : HttpRpcHandler)
    (seen : List (Stmt × State)) : Prop :=
  OfBunker w k h → seen.any (staleLoad w k) = true ∨
    ∃ key, ∃ x ∈ seen, (x.2.caches inst).get key = some h

def Served (w : Web) (k : PublicKey) (r : Work) (seen : List (Stmt × State)) :
    Except RpcError Outcome → Prop
  | .ok (.rpc h _) => Sourced w k r.inst h seen
  | _ => True

/-- The thread has gone on without inserting anything. -/
structure Grows (seen seen' : List (Stmt × State)) : Prop where
  subset : seen ⊆ seen'
  inserts : seen'.any isInsert = seen.any isInsert

theorem Grows.refl (seen : List (Stmt × State)) : Grows seen seen := ⟨List.Subset.refl _, rfl⟩

theorem Grows.cons {seen seen' : List (Stmt × State)} {x : Stmt × State} (h : Grows seen seen')
    (hx : isInsert x = false) : Grows seen (x :: seen') := by
  refine ⟨List.subset_cons_of_subset _ h.subset, ?_⟩
  rw [List.any_cons, hx, Bool.false_or, h.inserts]

theorem Grows.trans {a b c : List (Stmt × State)} (h : Grows a b) (h' : Grows b c) : Grows a c :=
  ⟨List.Subset.trans h.subset h'.subset, h'.inserts.trans h.inserts⟩

theorem any_of_mem {x : Stmt × State} {seen : List (Stmt × State)} (hx : x ∈ seen)
    (h : staleLoad w k x = true) : seen.any (staleLoad w k) = true :=
  List.any_eq_true.mpr ⟨x, hx, h⟩

theorem Sourced.mono {inst : InstanceId} {h : HttpRpcHandler} {seen seen' : List (Stmt × State)}
    (hs : Sourced w k inst h seen) (hsub : seen ⊆ seen') : Sourced w k inst h seen' := by
  intro hof
  rcases hs hof with hl | ⟨key, x, hx, hget⟩
  · obtain ⟨x, hx, hst⟩ := List.any_eq_true.mp hl
    exact .inl (any_of_mem (hsub hx) hst)
  · exact .inr ⟨key, x, hsub hx, hget⟩

section Walk

variable {r : Work}

theorem dispatch_meets (h : HttpRpcHandler) (nonce : Nat) (req : NostrRpcRequest)
    (seen : List (Stmt × State)) :
    (dispatch w h nonce req).Meets (Guarantee w k j r) (fun seen' _ => Grows seen seen') seen := by
  have hop : ∀ (op : Timestamp → Except HandlerError String) (f : String → Json),
      ((withClock op).bind fun out => Prog.ret (f out)).Meets (Guarantee w k j r)
        (fun seen' _ => Grows seen seen') seen := by
    intro op f
    refine .bind (.read (fun _ => ⟨trivial, fun _ h => h⟩) fun s => ?_)
    cases op s.now with
    | error e => exact (Grows.refl seen).cons rfl
    | ok out => exact (Grows.refl seen).cons rfl
  unfold dispatch
  split
  · exact .refl seen
  · repeat' split
    all_goals first
      | exact .ofExcept (fun _ => .refl seen) fun _ _ => hop _ _
      | exact .refl seen

theorem loadPermissions_meets (row : OAuthAuthorization) (seen : List (Stmt × State)) :
    (loadPermissions w row).Meets (Guarantee w k j r) (fun seen' _ => Grows seen seen') seen := by
  unfold loadPermissions
  split
  · refine .read (fun _ => ⟨trivial, fun _ h => h⟩) fun s => .orErr ?_ fun rows _ => ?_
    · exact (Grows.refl seen).cons rfl
    · exact (Grows.refl seen).cons rfl
  · exact .refl seen

/-- A load inserts nothing, and a handler it returns unrevoked comes from an unrevoked row. -/
theorem loadForToken_meets (authHeader : String) (tenant : TenantId) (seen : List (Stmt × State)) :
    (loadForToken w authHeader tenant).Meets (Guarantee w k j r)
      (fun seen' res => Grows seen seen' ∧ ∀ h, res = .ok h → OfBunker w k h →
        h.revokedAt = none → seen'.any (staleLoad w k) = true) seen := by
  refine .read (fun _ => ⟨trivial, fun _ h => h⟩) fun s₁ => ?_
  have hg₁ : Grows seen ((.clock, s₁) :: seen) := (Grows.refl seen).cons rfl
  split
  · exact ⟨hg₁, fun _ h => nomatch h⟩
  · next bunker _ _ =>
    refine .read (fun _ => ⟨trivial, fun _ h => h⟩) fun s₂ => ?_
    have hg₂ := hg₁.cons (x := (.findByBunkerPubkey bunker, s₂)) rfl
    refine .orErr ⟨hg₂, fun _ h => nomatch h⟩ fun row hrow => ?_
    split
    · exact ⟨hg₂, fun _ h => nomatch h⟩
    refine .bind (.mono ?_ (loadPermissions_meets row _))
    rintro seen₃ (e | permissions) hperm
    · exact ⟨hg₂.trans hperm, fun _ h => nomatch h⟩
    refine .read (fun _ => ⟨trivial, fun _ h => h⟩) fun s₃ => ?_
    have hg₃ := (hg₂.trans hperm).cons (x := (.findEncryptedKey, s₃)) rfl
    refine .orErr ⟨hg₃, fun _ h => nomatch h⟩ fun enc _ =>
      .ofExcept (fun _ => ⟨hg₃, fun _ h => nomatch h⟩) fun keys _ =>
      .ofExcept (fun _ => ⟨hg₃, fun _ h => nomatch h⟩) fun bunkerKey hkey =>
      .ofExcept (fun _ => ⟨hg₃, fun _ h => nomatch h⟩) fun handle _ => ⟨hg₃, ?_⟩
    rintro h ⟨⟩ ⟨-, hk⟩ hrev
    -- the row's own revocation is what the handler carries
    have hb : w.parseCacheKey bunker = .ok bunkerKey := by
      cases hb : w.parseCacheKey bunker with
      | error e => simp [hb, Except.mapError] at hkey
      | ok b => simpa [hb, Except.mapError] using hkey
    have hsel : staleLoad w k (.findByBunkerPubkey bunker, s₂) = true := by
      have hnone : row.revokedAt = none := hrev
      simp [staleLoad, sameKey_eq hk hb, hrow, hnone]
    exact any_of_mem (List.mem_cons_of_mem _ (hperm.subset List.mem_cons_self)) hsel
  · split
    · refine .read (fun _ => ⟨trivial, fun _ h => h⟩) fun s₂ => ?_
      have hg₂ := hg₁.cons (x := (.isUnclaimed, s₂)) rfl
      split
      · exact ⟨hg₂, fun _ h => nomatch h⟩
      refine .read (fun _ => ⟨trivial, fun _ h => h⟩) fun s₃ => ?_
      have hg₃ := hg₂.cons (x := (.findEncryptedKey, s₃)) rfl
      refine .orErr ⟨hg₃, fun _ h => nomatch h⟩ fun enc _ =>
        .ofExcept (fun _ => ⟨hg₃, fun _ h => nomatch h⟩) fun keys _ =>
        .ofExcept (fun _ => ⟨hg₃, fun _ h => nomatch h⟩) fun key _ => ⟨hg₃, ?_⟩
      -- a preloaded user's handler is no OAuth handler
      rintro h ⟨⟩ ⟨hoauth, -⟩
      cases hoauth
    · exact ⟨hg₁, fun _ h => nomatch h⟩

theorem getHandler_meets (authHeader : String) (tenant : TenantId) :
    (getHandler w r.inst authHeader tenant).Meets (Guarantee w k j r)
      (fun seen res => ∀ h, res = .ok h → Sourced w k r.inst h seen) [] := by
  refine .orErr (fun _ h => nomatch h) fun key _ => ?_
  refine .read (fun _ => ⟨trivial, fun _ h => h⟩) fun s₁ => ?_
  split
  · next hd hget =>
    refine .read (fun _ => ⟨trivial, fun _ h => h⟩) fun s₂ => ?_
    split
    · rintro h ⟨⟩ -
      exact .inr ⟨key, _, List.mem_cons_of_mem _ List.mem_cons_self, hget⟩
    · exact fun s => ⟨⟨trivial, fun _ hq => hq.invalidate _ _⟩, fun _ h => nomatch h⟩
  · refine .bind (.mono ?_ (loadForToken_meets authHeader tenant _))
    rintro seen₂ (e | hd) ⟨hgrow, hload⟩
    · exact fun _ h => nomatch h
    refine .read (fun _ => ⟨trivial, fun _ h => h⟩) fun s₃ => ?_
    split
    · next hvalid =>
      have hrev : hd.revokedAt = none := by
        cases hr : hd.revokedAt with
        | none => rfl
        | some t => simp [HttpRpcHandler.isValid, hr] at hvalid
      intro s₄
      refine ⟨⟨trivial, fun hnl hq => hq.updateCache fun hij => hq.cache.insert fun hof => ?_⟩, ?_⟩
      · -- the insert of a handler for the authorization is one by a thread that is loading
        have hstale := hload hd rfl hof hrev
        have hins : seen₂.any isInsert = false := hgrow.inserts
        have hno := hnl hij
        simp [loading, hstale, hins, staleLoad, isInsert] at hno
      · rintro h ⟨⟩ hof
        have hstale := hload hd rfl hof hrev
        exact .inl (by simp [hstale])
    · exact fun _ h => nomatch h

theorem perform_meets (r : Work) :
    (perform w r).Meets (Guarantee w k j r) (Served w k r) [] := by
  cases r with
  | rpc inst headers tenant nonce req =>
    refine .bind (.orErr trivial fun authHeader _ => .bind (.mono ?_
      (getHandler_meets authHeader tenant)))
    rintro seen (e | hd) hsrc
    · exact trivial
    refine .bind (.mono ?_ (dispatch_meets hd nonce req seen))
    rintro seen' (e | result) hgrow
    · exact trivial
    · exact (hsrc hd rfl).mono hgrow.subset
  | revokeSession inst headers tenant bunker =>
    refine .bind (.read (fun _ => ⟨trivial, fun _ h => h⟩) fun s₁ => .ofExcept (fun _ => trivial)
      fun user _ => .read (fun _ => ⟨trivial, fun _ h => h⟩) fun s₂ => ?_)
    split
    · exact trivial
    · intro s₃
      refine ⟨⟨rfl, fun _ hq => ⟨hq.revoked.updateOAuth fun _ => ⟨rfl, rfl⟩, hq.cache⟩⟩, ?_⟩
      intro s₄
      refine ⟨⟨rfl, fun _ hq => hq.invalidateHandlersForBunker _ _⟩, ?_⟩
      exact fun s₅ => ⟨⟨trivial, fun _ hq => hq⟩, trivial⟩

end Walk

/-! ## Runs -/

/-- What is known of a thread once the instance is quiet. -/
def Settled (w : Web) (k : PublicKey) (j : InstanceId) (r : Work) (p : RpcM Outcome)
    (seen : List (Stmt × State)) (_ : State) : Prop :=
  p.Meets (Guarantee w k j r) (Served w k r) seen ∧
    (r.inst = j → ∀ l upd rest, p = .atom l upd rest → loading w k seen = false)

theorem loading_cons {l : Stmt} {s : State} {seen : List (Stmt × State)}
    (hrev : RevokedIn w k s.db) (h : loading w k seen = false) :
    loading w k ((l, s) :: seen) = false := by
  simp only [loading, List.any_cons, staleLoad_of_revokedIn hrev, Bool.false_or] at h ⊢
  cases hst : seen.any (staleLoad w k) with
  | false => simp
  | true => simp_all

/-- From a quiet state on, with nothing loading, the instance stays quiet. -/
theorem preserves_quiet : (system w).Preserves (System.Allowed (fun _ _ => True) (CreatesNo w k))
    (Quiet w k j) (fun _ _ => True) (Settled w k j) where
  stable _ h := h
  spawn _ _ := ⟨perform_meets _, fun _ _ _ _ _ => rfl⟩
  exec {c i t l upd rest} _ ht hrest hc := by
    obtain ⟨hmeets, hidle⟩ := hc.threads t (List.mem_of_getElem? ht)
    rw [hrest] at hmeets
    obtain ⟨hguar, hmeets'⟩ := hmeets c.state
    refine ⟨hguar.2 (fun hj => hidle hj l upd rest hrest) hc.state, trivial, hmeets', ?_⟩
    intro hj _ _ _ _
    exact loading_cons hc.state.revoked (hidle hj l upd rest hrest)
  env hok hc := ⟨hc.state.envStep hok, trivial⟩

theorem meets_runFrom (db : Db) (now : Timestamp) (es : List Event) :
    System.Meets (Guarantee w k j) (Served w k) (runFrom w db now es) :=
  System.meets_run (fun r => perform_meets r) fun t ht => absurd ht (by simp [Conf.init])

/-- The rows with this bunker key are the user's own, or revoked already: what
`exists_active_for_bunker` asks before the `UPDATE`, for a key that no other row has. -/
def Owned (w : Web) (k user : PublicKey) (tenant : TenantId) (db : Db) : Prop :=
  ∀ a ∈ db.oauthAuthorizations, sameKey w k a.bunkerPublicKey = true →
    a.revokedAt.isSome = true ∨
      (a.bunkerPublicKey = k ∧ a.userPubkey = user ∧ db.userIn user tenant = true)

instance (w : Web) (k user : PublicKey) (tenant : TenantId) (db : Db) :
    Decidable (Owned w k user tenant db) :=
  inferInstanceAs (Decidable (∀ a ∈ db.oauthAuthorizations, sameKey w k a.bunkerPublicKey = true →
    a.revokedAt.isSome = true ∨
      (a.bunkerPublicKey = k ∧ a.userPubkey = user ∧ db.userIn user tenant = true)))

theorem Owned.revoke {user : PublicKey} {tenant : TenantId} {db : Db}
    (h : Owned w k user tenant db) (now : Timestamp) :
    RevokedIn w k (db.revokeOAuthByBunker now k user tenant) := by
  intro a ha hk
  rw [Db.revokeOAuthByBunker, Db.updateOAuth, mem_updateWhere] at ha
  rcases ha with ⟨a₀, -, -, rfl⟩ | ⟨ha, hp⟩
  · rfl
  · rcases h a ha hk with hrev | ⟨hb, hu, hin⟩
    · exact hrev
    · -- the `UPDATE` passed the row over, so it was revoked before
      simpa [hb, hu, hin, ← Option.not_isSome] using hp

/-- Once the row is revoked and no other is created with its key, that stays so. -/
theorem revokedIn_run {db : Db} {now : Timestamp} {pre post : List Event}
    (hrev : RevokedIn w k (runFrom w db now pre).state.db)
    (hno : Along (system w).step (System.Allowed (fun _ _ => True) (CreatesNo w k))
      (runFrom w db now pre) post) :
    RevokedIn w k (run (system w).step (runFrom w db now pre) post).state.db := by
  have hprog : ∀ r, ((system w).prog r).Steps
      (fun s s' => RevokedIn w k s.db → RevokedIn w k s'.db) := by
    intro r
    exact perform_steps (fun _ h => h) r (fun _ _ h => h)
      fun _ _ _ _ h => h.updateOAuth fun _ => ⟨rfl, rfl⟩
  exact System.state_invariant (J := fun s => RevokedIn w k s.db) hprog
    (fun _ _ => RevokedIn.envStep)
    (System.steps_run hprog (fun _ h => h) (Conf.steps_init _)) hrev hno

/-- A thread that a quiet instance has served since it became quiet was not served by the revoked
authorization. -/
theorem not_ofBunker_of_quiet {c : Pool} {post : List Event} {i : Nat}
    {t : Thread Work Stmt State RpcError Outcome}
    (hgood : System.Good (Quiet w k j) (Settled w k j) c)
    (hcreates : Along (system w).step (System.Allowed (fun _ _ => True) (CreatesNo w k)) c post)
    (hi : c.threads.length ≤ i) (ht : (run (system w).step c post).threads[i]? = some t)
    (hj : t.req.inst = j) {h : HttpRpcHandler} {v : Json}
    (hres : t.result? = some (.ok (.rpc h v))) : ¬ OfBunker w k h := by
  intro hof
  have hquiet : ∀ x ∈ t.seen, Quiet w k j x.2 := by
    intro x hx
    obtain ⟨es, fs, rfl, hstate⟩ := System.seen_reached _ hi ht hx
    rw [← hstate]
    exact (preserves_quiet.run hgood (along_append.mp hcreates).1).state
  have hmeets : System.Meets (Guarantee w k j) (Served w k) (run (system w).step c post) :=
    fun t ht => ((preserves_quiet.run hgood hcreates).threads t ht).1
  have hserved : Sourced w k t.req.inst h t.seen := hmeets.result (List.mem_of_getElem? ht) hres
  rcases hserved hof with hl | ⟨key, x, hx, hget⟩
  · obtain ⟨x, hx, hst⟩ := List.any_eq_true.mp hl
    rw [staleLoad_of_revokedIn (hquiet x hx).revoked] at hst
    cases hst
  · rw [hj] at hget
    exact (hquiet x hx).cache key h hget hof

/-- **Revocation on the instance that serves it.** A revocation makes its `UPDATE` and later its
invalidation, on instance `inst`, with anything in between and around it. Take an instance `j`:
`inst`, or another one whose cache holds no handler of the authorization by then. If at the
invalidation no `get_handler` call on `j` has read the row before it was revoked and not yet
inserted what it built, then no request that starts on `j` after the invalidation succeeds with
the revoked authorization. -/
theorem revoked_not_served_on_its_instance {db : Db} {now : Timestamp} {pre mid post : List Event}
    {n i : Nat} {inst : InstanceId} {user : PublicKey} {tenant : TenantId}
    {t₁ t₂ t : Thread Work Stmt State RpcError Outcome}
    (ht₁ : (runFrom w db now pre).threads[n]? = some t₁)
    (hupdate : t₁.next? = some (.revokeByBunkerPubkey k user tenant))
    (howned : Owned w k user tenant (runFrom w db now pre).state.db)
    (ht₂ : (runFrom w db now (pre ++ .exec n :: mid)).threads[n]? = some t₂)
    (hinvalidate : t₂.next? = some (.invalidateHandlers inst k))
    (hother : j ≠ inst → ((runFrom w db now (pre ++ .exec n :: mid)).state.caches j).All
      fun _ h => ¬ OfBunker w k h)
    (hidle : ∀ t ∈ (runFrom w db now (pre ++ .exec n :: mid)).threads,
      t.req.inst = j → t.result? = none → loading w k t.seen = false)
    (hcreates : Along (system w).step (System.Allowed (fun _ _ => True) (CreatesNo w k))
      (runFrom w db now pre) (.exec n :: mid ++ .exec n :: post))
    (hi : (runFrom w db now (pre ++ .exec n :: mid)).threads.length ≤ i)
    (ht : (runFrom w db now (pre ++ .exec n :: mid ++ .exec n :: post)).threads[i]? = some t)
    (hj : t.req.inst = j) {h : HttpRpcHandler} {v : Json}
    (hres : t.result? = some (.ok (.rpc h v))) : ¬ OfBunker w k h := by
  have hmeets := meets_runFrom (w := w) (k := k) (j := j) db now
  obtain ⟨hcreates₁, hcreates₂⟩ := along_append.mp hcreates
  -- the row is revoked by the `UPDATE`, and still is at the invalidation
  have hrev₁ : RevokedIn w k (runFrom w db now (pre ++ [.exec n])).state.db := by
    have heffect : Effect w _ _ _ := ((hmeets pre).exec (system w) ht₁ hupdate).1
    rw [runFrom_append, run_cons, run_nil, heffect]
    exact howned.revoke _
  have hrev₂ : RevokedIn w k (runFrom w db now (pre ++ .exec n :: mid)).state.db := by
    have hmid : Along (system w).step (System.Allowed (fun _ _ => True) (CreatesNo w k))
        (runFrom w db now (pre ++ [.exec n])) mid := by
      rw [runFrom_append]
      exact hcreates₁.2
    have hrun := revokedIn_run hrev₁ hmid
    rw [← runFrom_append] at hrun
    simpa using hrun
  generalize hc₂ : runFrom w db now (pre ++ .exec n :: mid) = c₂ at ht₂ hother hidle hi hrev₂
  have hmeets₂ : System.Meets (Guarantee w k j) (Served w k) c₂ := hc₂ ▸ hmeets _
  have heffect : Effect w _ _ _ := (hmeets₂.exec (system w) ht₂ hinvalidate).1
  have hquiet : Quiet w k j ((system w).step c₂ (.exec n)).state := by
    rw [heffect]
    by_cases hji : j = inst
    · subst hji
      exact .of_invalidation hrev₂ j
    · exact Quiet.invalidateHandlersForBunker ⟨hrev₂, hother hji⟩ inst k
  -- nobody is loading, not even the thread that has just made the invalidation
  have hgood : System.Good (Quiet w k j) (Settled w k j) ((system w).step c₂ (.exec n)) := by
    refine ⟨hquiet, fun t ht => ⟨System.meets_step perform_meets _ hmeets₂ t ht, ?_⟩⟩
    intro hj l upd rest hrest
    simp only [System.step, ht₂] at ht
    rcases List.mem_or_eq_of_mem_set ht with hmem | rfl
    · exact hidle t hmem hj (by simp [Thread.result?, hrest])
    · cases hrest₂ : t₂.rest with
      | ret | err => simp [Thread.next?, hrest₂] at hinvalidate
      | atom l₂ upd₂ rest₂ =>
        simp only [Thread.step, hrest₂] at hj ⊢
        exact loading_cons hrev₂ (hidle t₂ (List.mem_of_getElem? ht₂) hj
          (by simp [Thread.result?, hrest₂]))
  have hcreates₃ : Along (system w).step (System.Allowed (fun _ _ => True) (CreatesNo w k))
      ((system w).step c₂ (.exec n)) post := by
    rw [← hc₂, runFrom_append]
    exact hcreates₂.2
  rw [runFrom_append, hc₂, run_cons] at ht
  refine not_ofBunker_of_quiet hgood hcreates₃ ?_ ht hj hres
  simpa [System.step, ht₂] using hi

/-! Two authorizations of one user, bound to two apps. -/

def appToken (bunker : PublicKey) : Ucan where
  issuer := some "pub:server"
  audience := some "alice"
  exp := none
  facts := [.obj [("redirect_origin", .str "https://app"), ("bunker_pubkey", .str bunker),
    ("tenant_id", .int 1)]]

def sessionToken : Ucan where
  issuer := some "alice"
  audience := some "alice"
  exp := none
  facts := [.obj [("redirect_origin", .str "https://keycast"), ("tenant_id", .int 1)]]

def twoAppsWeb : Web :=
  .symbolic [("A", appToken "bunkerA"), ("B", appToken "bunkerB"), ("S", sessionToken)] []

def twoAppsDb : Db where
  users := [{ pubkey := "alice", tenantId := 1 }]
  personalKeys := [⟨"alice", 1, "sk"⟩]
  oauthAuthorizations :=
    [{ id := 1, tenantId := 1, userPubkey := "alice", bunkerPublicKey := "bunkerA",
       secretHash := "h1" },
     { id := 2, tenantId := 1, userPubkey := "alice", bunkerPublicKey := "bunkerB",
       secretHash := "h2" }]

def rpcOn (inst : InstanceId) (header : String) : Event :=
  .spawn (.rpc inst { authorization := some (some header) } 1 0 { method := "get_public_key" })

def revokeOn (inst : InstanceId) (bunker : PublicKey) : Event :=
  .spawn (.revokeSession inst { cookie := some (some "keycast_session=S") } 1 bunker)

/-- App A is served on instance 0 and then revoked there; thread 1 is about to make the `UPDATE`. -/
def beforeUpdate : List Event :=
  rpcOn 0 "Bearer A" :: List.replicate 6 (.exec 0) ++ [revokeOn 0 "bunkerA", .exec 1, .exec 1]

/-- After the revocation both apps try again. -/
def afterInvalidation : List Event :=
  [rpcOn 0 "Bearer A", rpcOn 0 "Bearer B"] ++ List.replicate 6 (.exec 2) ++
    List.replicate 6 (.exec 3)

def isServed (t : Thread Work Stmt State RpcError Outcome) : Bool :=
  match t.result? with
  | some (.ok (.rpc _ _)) => true
  | _ => false

theorem isServed_iff {t : Thread Work Stmt State RpcError Outcome} :
    isServed t = true ↔ ∃ h v, t.result? = some (.ok (.rpc h v)) := by
  unfold isServed
  rcases t.result? with _ | (e | (⟨h, v⟩ | _)) <;> simp

theorem revoked_not_served_on_its_instance_two_apps :
    ∃ t h v, (runFrom twoAppsWeb twoAppsDb 0
        (beforeUpdate ++ .exec 1 :: [] ++ .exec 1 :: afterInvalidation)).threads[3]? = some t ∧
      t.result? = some (.ok (.rpc h v)) ∧ ¬ OfBunker twoAppsWeb "bunkerA" h := by
  obtain ⟨t₁, ht₁, hupdate⟩ := Conf.exists_thread (c := runFrom twoAppsWeb twoAppsDb 0 beforeUpdate)
    (i := 1) (p := fun t => t.next? == some (.revokeByBunkerPubkey "bunkerA" "alice" 1))
    (by decide)
  obtain ⟨t₂, ht₂, hinvalidate⟩ := Conf.exists_thread
    (c := runFrom twoAppsWeb twoAppsDb 0 (beforeUpdate ++ .exec 1 :: []))
    (i := 1) (p := fun t => t.next? == some (.invalidateHandlers 0 "bunkerA")) (by decide)
  obtain ⟨t, ht, hserved⟩ := Conf.exists_thread (c := runFrom twoAppsWeb twoAppsDb 0
      (beforeUpdate ++ .exec 1 :: [] ++ .exec 1 :: afterInvalidation))
    (i := 3) (p := fun t => isServed t && t.req.inst == 0) (by decide)
  rw [Bool.and_eq_true, beq_iff_eq] at hserved
  obtain ⟨h, v, hres⟩ := isServed_iff.mp hserved.1
  refine ⟨t, h, v, ht, hres, ?_⟩
  exact revoked_not_served_on_its_instance ht₁ (beq_iff_eq.mp hupdate) (by decide) ht₂
    (beq_iff_eq.mp hinvalidate) (fun h => absurd rfl h) (by decide) (by decide)
    (by decide) ht hserved.2 hres

/-- No request of the run that starts after a revocation has completed, on whatever instance, is
served by the revoked authorization. -/
def InvalidationWins (w : Web) (db : Db) (now : Timestamp) (es : List Event) : Prop :=
  ∀ pre post, es = pre ++ post →
    ∀ (n : Nat) (t₁ : Thread Work Stmt State RpcError Outcome) inst headers tenant k response,
      (runFrom w db now pre).threads[n]? = some t₁ → t₁.req = .revokeSession inst headers tenant k →
      t₁.result? = some (.ok (.revoked response)) →
    ∀ (i : Nat) (t : Thread Work Stmt State RpcError Outcome) h v,
      (runFrom w db now pre).threads.length ≤ i → (runFrom w db now es).threads[i]? = some t →
      t.result? = some (.ok (.rpc h v)) →
      ¬ OfBunker w k h

/-- App A is served on instance 1, then revoked on instance 0. -/
def revokedElsewhere : List Event :=
  rpcOn 1 "Bearer A" :: List.replicate 6 (.exec 0) ++
    revokeOn 0 "bunkerA" :: List.replicate 5 (.exec 1)

def revoked (bunker : PublicKey) (t : Thread Work Stmt State RpcError Outcome) : Bool :=
  match t.req, t.result? with
  | .revokeSession _ _ _ k, some (.ok (.revoked _)) => k == bunker
  | _, _ => false

def servedFor (w : Web) (bunker : PublicKey) (t : Thread Work Stmt State RpcError Outcome) : Bool :=
  match t.result? with
  | some (.ok (.rpc h _)) => decide (OfBunker w bunker h)
  | _ => false

/-- Each instance has its own cache, and a revocation reaches one of them. -/
theorem other_instance_serves_revoked : ¬ InvalidationWins twoAppsWeb twoAppsDb 0
    (revokedElsewhere ++ [rpcOn 1 "Bearer A", .exec 2, .exec 2]) := by
  intro hwins
  obtain ⟨t₁, ht₁, hdone⟩ := Conf.exists_thread
    (c := runFrom twoAppsWeb twoAppsDb 0 revokedElsewhere) (i := 1)
    (p := revoked "bunkerA") (by decide)
  obtain ⟨t, ht, hserved⟩ := Conf.exists_thread
    (c := runFrom twoAppsWeb twoAppsDb 0
      (revokedElsewhere ++ [rpcOn 1 "Bearer A", .exec 2, .exec 2])) (i := 2)
    (p := servedFor twoAppsWeb "bunkerA") (by decide)
  unfold revoked at hdone
  unfold servedFor at hserved
  split at hdone
  · next inst headers tenant k response hreq hres =>
    split at hserved
    · next h v hrpc =>
      refine hwins _ _ rfl 1 t₁ inst headers tenant k response ht₁ hreq hres 2 t h v
        (by decide) ht hrpc ?_
      rw [beq_iff_eq.mp hdone]
      exact of_decide_eq_true hserved
    · cases hserved
  · cases hdone

end Keycast.Http
