import Keycast.Http.System

/-!
# `Http/FastPath.lean` — what a cache hit stands for

A hit on the token cache skips everything: the token is not decoded, the database not asked. The
handler it returns is what the slow path built when the entry was made, and only two of its fields
are looked at again. So the question what a hit agrees with has the answer: the slow path *then*.
`hit_is_earlier_load` says that, for every run of requests, and how far it carries over to *now*:
as far as the database has not changed, and the token has not run out.

Calls are not interrupted here. The cache is that of any one instance of the deployment.
-/

set_option autoImplicit false

namespace Keycast.Http

open Lib

variable {w : Web}

/-! ## Runs of whole calls -/

inductive Call
  | work (r : Work)
  | env (e : EnvEvent)

def callStep (w : Web) (s : State) : Call → State
  | .work r => ((perform w r).run s).2
  | .env e => envStep w e s

/-- The state a list of calls leads to. -/
def stateAfter (w : Web) (db : Db) (now : Timestamp) (calls : List Call) : State :=
  run (callStep w) (.boot db now) calls

/-! ## The slow path as a function of clock and database -/

theorem loadPermissions_reads (row : OAuthAuthorization) :
    (loadPermissions w row).Reads State.db := by
  unfold loadPermissions
  split
  · exact .bind (.read fun _ _ hs => by rw [hs]) fun _ => .bind (.orErr _ _) fun _ => trivial
  · trivial

theorem loadHandlerOnDemand_reads (bunker user : PublicKey) (tenant : TenantId) :
    (loadHandlerOnDemand w bunker user tenant).Reads State.db := by
  refine .bind (.read fun _ _ hs => by rw [hs]) fun row => .bind (.orErr _ _) fun row => ?_
  split
  · trivial
  · exact .bind (loadPermissions_reads row) fun _ => .bind (.read fun _ _ hs => by rw [hs])
      fun _ => .bind (.orErr _ _) fun _ => .bind (.ofExcept _) fun _ => .bind (.ofExcept _)
      fun _ => .bind (.ofExcept _) fun _ => trivial

theorem loadPreloadedUserHandler_reads (user : PublicKey) (tenant : TenantId) :
    (loadPreloadedUserHandler w user tenant).Reads State.db := by
  refine .bind (.read fun _ _ hs => by rw [hs]) fun unclaimed => ?_
  split
  · trivial
  · exact .bind (.read fun _ _ hs => by rw [hs]) fun _ => .bind (.orErr _ _) fun _ =>
      .bind (.ofExcept _) fun _ => .bind (.ofExcept _) fun _ => trivial

/-- The part of the slow path that follows the validation of the token. -/
def loadValidated (w : Web) (tenant : TenantId) :
    PublicKey × String × Option PublicKey × Ucan → RpcM HttpRpcHandler
  | (user, _, some bunker, _) => loadHandlerOnDemand w bunker user tenant
  | (user, _, none, ucan) =>
    if isServerSigned w ucan then loadPreloadedUserHandler w user tenant
    else .err (.auth .invalidToken)

theorem loadValidated_reads (tenant : TenantId)
    (v : PublicKey × String × Option PublicKey × Ucan) :
    (loadValidated w tenant v).Reads State.db := by
  unfold loadValidated
  split
  · exact loadHandlerOnDemand_reads _ _ _
  · split
    · exact loadPreloadedUserHandler_reads _ _
    · trivial

/-- The slow path in its two parts. -/
theorem loadForToken_eq (authHeader : String) (tenant : TenantId) :
    loadForToken w authHeader tenant = (Prog.read .clock (·.now)).bind fun now =>
      (Prog.ofExcept ((validateUcanToken w now authHeader tenant).mapError fun _ =>
        RpcError.auth .invalidToken)).bind (loadValidated w tenant) := by
  unfold loadForToken
  refine congrArg (Prog.bind _) (funext fun now => ?_)
  cases validateUcanToken w now authHeader tenant with
  | error e => rfl
  | ok v =>
    obtain ⟨user, origin, _ | bunker, ucan⟩ := v
    · rfl
    · rfl

theorem loadForToken_run (authHeader : String) (tenant : TenantId) (s : State) :
    (loadForToken w authHeader tenant).run s =
      match validateUcanToken w s.now authHeader tenant with
      | .error _ => (.error (.auth .invalidToken), s)
      | .ok v => (loadValidated w tenant v).run s := by
  rw [loadForToken_eq, Prog.read_bind, Prog.run_atom]
  cases validateUcanToken w s.now authHeader tenant with
  | error e => rfl
  | ok v => rfl

theorem loadForToken_state (authHeader : String) (tenant : TenantId) (s : State) :
    ((loadForToken w authHeader tenant).run s).2 = s := by
  rw [loadForToken_run]
  split
  · rfl
  · exact (loadValidated_reads tenant _).run_state s

/-! ## Tokens over time -/

/-- The header's token has run out. -/
def tokenExpired (w : Web) (now : Timestamp) (authHeader : String) : Bool :=
  ((stripBearer authHeader).bind w.decodeToken).any (·.isExpired now)

/-- Of the checks on a token only the expiry depends on the time. -/
theorem validateUcanToken_later {now now' : Timestamp} {authHeader : String} {tenant : TenantId}
    {v : PublicKey × String × Option PublicKey × Ucan}
    (h : validateUcanToken w now authHeader tenant = .ok v)
    (hexp : tokenExpired w now' authHeader = false) :
    validateUcanToken w now' authHeader tenant = .ok v := by
  unfold validateUcanToken at h ⊢
  unfold tokenExpired at hexp
  cases htok : stripBearer authHeader with
  | none => simp [htok, bind, Except.bind] at h
  | some token =>
    cases hdec : w.decodeToken token with
    | none => simp [htok, hdec, bind, Except.bind] at h
    | some ucan =>
      rw [htok, Option.bind_some, hdec, Option.any_some] at hexp
      simp only [htok, hdec, Option.elim_some, bind, Except.bind, hexp] at h ⊢
      split at h
      · cases h
      · next hsig =>
        split at h
        · cases h
        · rw [if_neg hsig]
          exact h

/-- A load that succeeded succeeds again on the same database while the token lives. -/
theorem loadForToken_later {authHeader : String} {tenant : TenantId} {s s' : State}
    {h : HttpRpcHandler} (hrun : ((loadForToken w authHeader tenant).run s).1 = .ok h)
    (hdb : s.db = s'.db) (hexp : tokenExpired w s'.now authHeader = false) :
    ((loadForToken w authHeader tenant).run s').1 = .ok h := by
  rw [loadForToken_run] at hrun ⊢
  cases hv : validateUcanToken w s.now authHeader tenant with
  | error e => simp [hv] at hrun
  | ok v =>
    simp only [hv, validateUcanToken_later hv hexp] at hrun ⊢
    rw [← hrun]
    exact (loadValidated_reads tenant v).run_congr hdb

/-! ## Where a cached handler comes from -/

/-- **`get_handler` as one call.** -/
theorem getHandler_run (inst : InstanceId) (authHeader : String) (tenant : TenantId) (s : State) :
    (getHandler w inst authHeader tenant).run s =
      match computeTokenCacheKey w authHeader tenant with
      | none => (.error (.auth .invalidToken), s)
      | some key =>
        match (s.caches inst).get key with
        | some h =>
          if h.isValid s.now then (.ok h, s)
          else (.error (.auth .invalidToken), s.updateCache inst (·.invalidate key))
        | none =>
          match ((loadForToken w authHeader tenant).run s).1 with
          | .error e => (.error e, s)
          | .ok h =>
            if h.isValid s.now then (.ok h, s.updateCache inst (·.insert key h))
            else (.error (.auth .invalidToken), s) := by
  unfold getHandler
  cases computeTokenCacheKey w authHeader tenant with
  | none => rfl
  | some key =>
    simp only [Prog.bind_def, Prog.orErr_some, Prog.ret_bind, Prog.read_bind, Prog.run_atom, id]
    cases (s.caches inst).get key with
    | some h =>
      by_cases hvalid : h.isValid s.now = true
      · simp [hvalid]
      · simp [hvalid]
    | none =>
      have hstate := loadForToken_state (w := w) authHeader tenant s
      rw [Prog.run_bind]
      cases hrun : (loadForToken w authHeader tenant).run s with
      | mk res s' =>
        rw [hrun] at hstate
        subst hstate
        cases res with
        | error e => rfl
        | ok h =>
          by_cases hvalid : h.isValid s'.now = true
          · simp [hvalid]
          · simp [hvalid]

theorem dispatch_state (h : HttpRpcHandler) (nonce : Nat) (req : NostrRpcRequest) (s : State) :
    ((dispatch w h nonce req).run s).2 = s :=
  ((dispatch_steps (G := fun s s' => s = s') (fun _ => rfl) h nonce req).run (fun _ => rfl)
    (fun _ _ _ => Eq.trans) s).symm

theorem nostrRpc_state (inst : InstanceId) (headers : Headers) (tenant : TenantId) (nonce : Nat)
    (req : NostrRpcRequest) (s : State) :
    ((nostrRpc w inst headers tenant nonce req).run s).2 =
      match headers.authorization with
      | some (some authHeader) => ((getHandler w inst authHeader tenant).run s).2
      | _ => s := by
  unfold nostrRpc
  rcases headers.authorization with _ | (_ | authHeader)
  · rfl
  · rfl
  · show (((getHandler w inst authHeader tenant).bind _).run s).2 = _
    refine Prog.run_bind_state (fun h s' => ?_) s
    exact (Prog.run_bind_state (fun _ _ => rfl) s').trans (dispatch_state h nonce req s')

/-- The request asks for the handler of this cache key, on this instance. -/
def Work.AsksFor (w : Web) (j : InstanceId) (key : CacheKey) (authHeader : String)
    (tenant : TenantId) : Work → Prop
  | .rpc inst headers tenant' _ _ => inst = j ∧ headers.authorization = some (some authHeader) ∧
      tenant' = tenant ∧ computeTokenCacheKey w authHeader tenant = some key
  | .revokeSession .. => False

/-- Every cached entry was cached before. -/
def Shrinks (s s' : State) : Prop :=
  ∀ j key h, (s'.caches j).get key = some h → (s.caches j).get key = some h

theorem Shrinks.updateCache {s : State} {inst : InstanceId}
    {f : Cache CacheKey HttpRpcHandler → Cache CacheKey HttpRpcHandler}
    (hf : ∀ key h, (f (s.caches inst)).get key = some h → (s.caches inst).get key = some h) :
    Shrinks s (s.updateCache inst f) := by
  intro j key h hget
  by_cases hj : j = inst
  · subst hj
    rw [State.updateCache_self] at hget
    exact hf key h hget
  · rwa [State.updateCache_of_ne s hj] at hget

theorem Shrinks.invalidate (s : State) (inst : InstanceId) (key : CacheKey) :
    Shrinks s (s.updateCache inst (·.invalidate key)) := by
  refine .updateCache fun key' h hget => ?_
  rw [Cache.get_invalidate] at hget
  split at hget
  · cases hget
  · exact hget

theorem Shrinks.invalidateHandlersForBunker (s : State) (inst : InstanceId) (b : PublicKey) :
    Shrinks s (s.invalidateHandlersForBunker w inst b) := by
  refine .updateCache fun key h hget => ?_
  split at hget <;>
  · rw [Cache.get_invalidateEntriesIf, Option.filter_eq_some_iff] at hget
    exact hget.1

theorem Shrinks.envStep (e : EnvEvent) (s : State) : Shrinks s (envStep w e s) := by
  cases e with
  | evict inst key => exact .invalidate s inst key
  | tick | revokeOAuth | revokeOAuthByOrigin | deleteUser | createOAuth | setPolicies =>
    exact fun _ _ _ h => h

theorem Shrinks.revokeSession (inst : InstanceId) (headers : Headers) (tenant : TenantId)
    (bunker : PublicKey) (s : State) :
    Shrinks s ((revokeSession w inst headers tenant bunker).run s).2 := by
  refine (revokeSession_steps (G := Shrinks) (fun _ _ _ _ h => h) (fun s b => ?_)
    (fun _ _ _ _ _ _ _ h => h) headers tenant bunker).run (fun _ _ _ _ h => h) ?_ s
  · exact .invalidateHandlersForBunker s inst b
  · exact fun a b c hab hbc j key h hget => hab j key h (hbc j key h hget)

/-- What `get_handler` leaves in a cache was there before, or it has just loaded it. -/
theorem getHandler_get {inst j : InstanceId} {authHeader : String} {tenant : TenantId} {s : State}
    {key : CacheKey} {h : HttpRpcHandler}
    (hget : (((getHandler w inst authHeader tenant).run s).2.caches j).get key = some h) :
    (s.caches j).get key = some h ∨
      inst = j ∧ computeTokenCacheKey w authHeader tenant = some key ∧
        ((loadForToken w authHeader tenant).run s).1 = .ok h := by
  rw [getHandler_run] at hget
  cases hkey : computeTokenCacheKey w authHeader tenant with
  | none => rw [hkey] at hget; exact .inl hget
  | some key' =>
    simp only [hkey] at hget
    cases hc : (s.caches inst).get key' with
    | some h' =>
      simp only [hc] at hget
      split at hget
      · exact .inl hget
      · exact .inl (Shrinks.invalidate s inst key' j key h hget)
    | none =>
      simp only [hc] at hget
      cases hload : ((loadForToken w authHeader tenant).run s).1 with
      | error e => simp only [hload] at hget; exact .inl hget
      | ok h' =>
        simp only [hload] at hget
        split at hget
        · -- the one statement that adds an entry
          by_cases hj : j = inst
          · subst hj
            rw [State.updateCache_self, Cache.get_insert] at hget
            split at hget
            · next hk => subst hk; cases hget; exact .inr ⟨rfl, rfl, rfl⟩
            · exact .inl hget
          · rw [State.updateCache_of_ne s hj] at hget
            exact .inl hget
        · exact .inl hget

/-- The same for a whole request. -/
theorem perform_get {r : Work} {s : State} {j : InstanceId} {key : CacheKey} {h : HttpRpcHandler}
    (hget : (((perform w r).run s).2.caches j).get key = some h) :
    (s.caches j).get key = some h ∨ ∃ authHeader tenant, r.AsksFor w j key authHeader tenant ∧
      ((loadForToken w authHeader tenant).run s).1 = .ok h := by
  cases r with
  | rpc inst headers tenant nonce req =>
    have hstate : ((perform w (.rpc inst headers tenant nonce req)).run s).2 =
        ((nostrRpc w inst headers tenant nonce req).run s).2 :=
      Prog.run_bind_state (fun _ _ => rfl) s
    rw [hstate, nostrRpc_state] at hget
    split at hget
    · next authHeader hauth =>
      rcases getHandler_get hget with hold | ⟨rfl, hkey, hload⟩
      · exact .inl hold
      · exact .inr ⟨authHeader, tenant, ⟨rfl, hauth, rfl, hkey⟩, hload⟩
    · exact .inl hget
  | revokeSession inst headers tenant bunker =>
    have hstate : ((perform w (.revokeSession inst headers tenant bunker)).run s).2 =
        ((revokeSession w inst headers tenant bunker).run s).2 :=
      Prog.run_bind_state (fun _ _ => rfl) s
    rw [hstate] at hget
    exact .inl (Shrinks.revokeSession inst headers tenant bunker s j key h hget)

/-- The call is a revocation of the handler's authorization, served by this instance. -/
def Call.Revokes (w : Web) (j : InstanceId) (h : HttpRpcHandler) (s : State) : Call → Prop
  | .work (.revokeSession inst headers tenant b) => inst = j ∧
      w.parseCacheKey b = .ok h.bunkerPubkey ∧
      ∃ response, ((revokeSession w inst headers tenant b).run s).1 = .ok response
  | _ => False

/-- A revocation leaves no handler of the authorization in the cache. -/
theorem revokeSession_not_cached {inst : InstanceId} {headers : Headers} {tenant : TenantId}
    {b : PublicKey} {h : HttpRpcHandler} {s s' : State} {response : RevokeSessionResponse}
    (hb : w.parseCacheKey b = .ok h.bunkerPubkey)
    (hrun : (revokeSession w inst headers tenant b).run s = (.ok response, s')) (key : CacheKey) :
    (s'.caches inst).get key ≠ some h := by
  unfold revokeSession at hrun
  obtain ⟨now, _, _, hrun⟩ := Prog.run_bind_ok.mp hrun
  obtain ⟨user, _, _, hrun⟩ := Prog.run_bind_ok.mp hrun
  obtain ⟨active, _, _, hrun⟩ := Prog.run_bind_ok.mp hrun
  split at hrun
  · cases hrun
  · obtain ⟨_, s₁, _, hrun⟩ := Prog.run_bind_ok.mp hrun
    obtain ⟨_, s₂, hinv, hrun⟩ := Prog.run_bind_ok.mp hrun
    obtain ⟨_, s₃, hsend, hrun⟩ := Prog.run_bind_ok.mp hrun
    obtain ⟨-, rfl⟩ := Prog.run_ret_ok.mp hrun
    rw [← Prog.run_write_ok.mp hsend, ← Prog.run_write_ok.mp hinv, id,
      State.invalidateHandlersForBunker, State.updateCache_self, hb]
    simp [Cache.get_invalidateEntriesIf, Option.filter_eq_some_iff]

theorem Call.Revokes.not_cached {j : InstanceId} {h : HttpRpcHandler} {s : State} {c : Call}
    (hr : c.Revokes w j h s) (key : CacheKey) : ((callStep w s c).caches j).get key ≠ some h := by
  cases c with
  | env e => exact hr.elim
  | work r =>
    cases r with
    | rpc => exact hr.elim
    | revokeSession inst headers tenant b =>
      obtain ⟨rfl, hb, response, hok⟩ := hr
      have hstate : callStep w s (.work (.revokeSession inst headers tenant b)) =
          ((revokeSession w inst headers tenant b).run s).2 :=
        Prog.run_bind_state (fun _ _ => rfl) s
      rw [hstate]
      exact revokeSession_not_cached hb (Prod.ext hok rfl) key

/-- A request of the run asked for this entry and loaded it, at the moment of that request, and no
revocation of it has been served by the instance since. -/
def LoadedDuring (w : Web) (db : Db) (now : Timestamp) (calls : List Call) (j : InstanceId)
    (key : CacheKey) (h : HttpRpcHandler) : Prop :=
  ∃ pre r post authHeader tenant, calls = pre ++ .work r :: post ∧
    r.AsksFor w j key authHeader tenant ∧
    ((loadForToken w authHeader tenant).run (stateAfter w db now pre)).1 = .ok h ∧
    Along (callStep w) (fun s c => ¬ c.Revokes w j h s)
      (stateAfter w db now (pre ++ [.work r])) post

theorem LoadedDuring.snoc {db : Db} {now : Timestamp} {calls : List Call} {j : InstanceId}
    {key : CacheKey} {h : HttpRpcHandler} (hl : LoadedDuring w db now calls j key h) {c : Call}
    (hc : ¬ c.Revokes w j h (stateAfter w db now calls)) :
    LoadedDuring w db now (calls ++ [c]) j key h := by
  obtain ⟨pre, r, post, authHeader, tenant, rfl, hasks, hload, hno⟩ := hl
  refine ⟨pre, r, post ++ [c], authHeader, tenant, by simp, hasks, hload, ?_⟩
  refine along_append.mpr ⟨hno, along_singleton.mpr ?_⟩
  rw [stateAfter, ← run_append, List.append_assoc]
  exact hc

/-- **Every entry is an earlier load.** -/
theorem cached_is_loaded {db : Db} {now : Timestamp} {calls : List Call} {j : InstanceId}
    {key : CacheKey} {h : HttpRpcHandler}
    (hget : ((stateAfter w db now calls).caches j).get key = some h) :
    LoadedDuring w db now calls j key h := by
  induction calls using List.reverseRecOn with
  | nil => simp [stateAfter, State.boot] at hget
  | append_singleton calls c ih =>
    rw [stateAfter, run_append, run_cons, run_nil] at hget
    have hno : ¬ c.Revokes w j h (stateAfter w db now calls) := fun hr => hr.not_cached key hget
    cases c with
    | env e => exact (ih (Shrinks.envStep e _ j key h hget)).snoc hno
    | work r =>
      rcases perform_get hget with hold | ⟨authHeader, tenant, hasks, hload⟩
      · exact (ih hold).snoc hno
      · exact ⟨calls, r, [], authHeader, tenant, rfl, hasks, hload, trivial⟩

/-! ## The result -/

/-- The token shares its hash with no other token, or tenant, of the run. -/
def NoCollision (w : Web) (calls : List Call) (authHeader : String) (tenant : TenantId) : Prop :=
  ∀ inst headers tenant' nonce req header,
    .work (.rpc inst headers tenant' nonce req) ∈ calls →
    headers.authorization = some (some header) →
    computeTokenCacheKey w header tenant' = computeTokenCacheKey w authHeader tenant →
    header = authHeader ∧ tenant' = tenant

/-- **A hit is an earlier load of the same token.** When `get_handler` succeeds by a hit, then at
some moment of the run before, validating this token for this tenant and loading what it names
succeeded and gave exactly the handler that is returned now. It was not revoked then, nor has its
revocation been served by the instance since, and the expiry it copied then has not passed now. On
the database as it was at that moment the slow path gives the same handler now, unless the token
has expired meanwhile. -/
theorem hit_is_earlier_load {db : Db} {now : Timestamp} {calls : List Call} {inst : InstanceId}
    {authHeader : String} {tenant : TenantId} {key : CacheKey} {h h' : HttpRpcHandler}
    (hcoll : NoCollision w calls authHeader tenant)
    (hkey : computeTokenCacheKey w authHeader tenant = some key)
    (hhit : ((stateAfter w db now calls).caches inst).get key = some h)
    (hok : ((getHandler w inst authHeader tenant).run (stateAfter w db now calls)).1 = .ok h') :
    ∃ pre r post, calls = pre ++ r :: post ∧
      ((loadForToken w authHeader tenant).run (stateAfter w db now pre)).1 = .ok h' ∧
      Along (callStep w) (fun s c => ¬ c.Revokes w inst h' s)
        (stateAfter w db now (pre ++ [r])) post ∧
      h'.revokedAt = none ∧ (∀ t ∈ h'.expiresAt, (stateAfter w db now calls).now ≤ t) ∧
      ∀ s : State, s.now = (stateAfter w db now calls).now → s.db = (stateAfter w db now pre).db →
        tokenExpired w s.now authHeader = false →
        ((loadForToken w authHeader tenant).run s).1 = .ok h' := by
  -- the hit returns the entry, which passed `is_valid`
  rw [getHandler_run, hkey] at hok
  simp only [hhit] at hok
  split at hok
  · next hvalid =>
    cases hok
    obtain ⟨pre, r, post, header, tenant', hcalls, hasks, hload, hno⟩ := cached_is_loaded hhit
    obtain ⟨rfl, rfl⟩ : header = authHeader ∧ tenant' = tenant := by
      cases r with
      | revokeSession => exact hasks.elim
      | rpc inst' headers tenant'' nonce req =>
        obtain ⟨-, hauth, rfl, hkey'⟩ := hasks
        exact hcoll inst' headers tenant'' nonce req header (by simp [hcalls]) hauth
          (hkey'.trans hkey.symm)
    refine ⟨pre, .work r, post, hcalls, hload, hno, ?_, ?_, ?_⟩
    · cases hr : h.revokedAt with
      | none => rfl
      | some t => simp [HttpRpcHandler.isValid, hr] at hvalid
    · intro t ht
      rw [Option.mem_def] at ht
      cases hr : h.revokedAt with
      | none => simpa [HttpRpcHandler.isValid, hr, ht] using hvalid
      | some t => simp [HttpRpcHandler.isValid, hr] at hvalid
    · intro s _ hdb hexp
      exact loadForToken_later hload hdb.symm hexp
  · cases hok

/-! One app whose policy allows kind 1, and an owner who takes that back. -/

def policyToken : Ucan where
  issuer := some "pub:server"
  audience := some "alice"
  exp := some 60
  facts := [.obj [("redirect_origin", .str "https://app"), ("bunker_pubkey", .str "bunkerA"),
    ("tenant_id", .int 1)]]

def policyWeb : Web :=
  .symbolic [("A", policyToken)]
    [("kind 1", .obj [("allowed_kinds", .arr [.int 1])]),
      ("none", .obj [("allowed_kinds", .arr [])])]

def policyDb : Db where
  users := [{ pubkey := "alice", tenantId := 1 }]
  personalKeys := [⟨"alice", 1, "sk"⟩]
  permissions := [⟨1, "allowed_kinds", "kind 1"⟩]
  policyPermissions := [⟨7, 1⟩]
  oauthAuthorizations :=
    [{ id := 1, tenantId := 1, userPubkey := "alice", bunkerPublicKey := "bunkerA",
       secretHash := "h", policyId := some 7 }]

/-- The handler of app A with these permissions. -/
def policyHandler (permissions : List CustomPermission) : HttpRpcHandler where
  keys := "sk"
  authorizationId := 1
  userPubkey := "pub:sk"
  expiresAt := none
  revokedAt := none
  permissions := permissions
  isOauth := true
  bunkerPubkey := "bunkerA"
  authorizationHandle := "bunkerA"

def policyCall : Call :=
  .work (.rpc 0 { authorization := some (some "Bearer A") } 1 0 { method := "get_public_key" })

theorem policyCall_noCollision (e : EnvEvent) :
    NoCollision policyWeb [policyCall, .env e] "Bearer A" 1 := by
  intro inst headers tenant nonce req header hmem hauth _
  simp only [policyCall, List.mem_cons, Call.work.injEq, Work.rpc.injEq, reduceCtorEq,
    List.not_mem_nil, or_false] at hmem
  obtain ⟨-, rfl, rfl, -⟩ := hmem
  simp only [Option.some.injEq] at hauth
  exact ⟨hauth.symm, rfl⟩

theorem hit_is_earlier_load_again :
    ∃ pre r post, [policyCall, .env (.tick 1000000)] = pre ++ r :: post ∧
      ((loadForToken policyWeb "Bearer A" 1).run (stateAfter policyWeb policyDb 0 pre)).1 =
        .ok (policyHandler [.allowedKinds (some [1])]) := by
  have hhit : ((stateAfter policyWeb policyDb 0 [policyCall, .env (.tick 1000000)]).caches 0).get
      "1:A" = some (policyHandler [.allowedKinds (some [1])]) := by decide +kernel
  have hok : ((getHandler policyWeb 0 "Bearer A" 1).run
      (stateAfter policyWeb policyDb 0 [policyCall, .env (.tick 1000000)])).1 =
      .ok (policyHandler [.allowedKinds (some [1])]) := by decide +kernel
  obtain ⟨pre, r, post, hcalls, hload, -⟩ :=
    hit_is_earlier_load (policyCall_noCollision (.tick 1000000)) rfl hhit hok
  exact ⟨pre, r, post, hcalls, hload⟩

/-- When a hit serves the token now, the slow path would serve it now with the same keys and the
same permissions. -/
def FastPathAgrees (w : Web) (inst : InstanceId) (authHeader : String) (tenant : TenantId)
    (s : State) : Prop :=
  ∀ key h h', computeTokenCacheKey w authHeader tenant = some key →
    (s.caches inst).get key = some h → ((getHandler w inst authHeader tenant).run s).1 = .ok h' →
    ∃ h'', ((loadForToken w authHeader tenant).run s).1 = .ok h'' ∧
      h''.userPubkey = h'.userPubkey ∧ h''.keys = h'.keys ∧ h''.permissions = h'.permissions

/-- All operations after the first use the policy as it was at the first. -/
theorem old_policy_served : ¬ FastPathAgrees policyWeb 0 "Bearer A" 1
    (stateAfter policyWeb policyDb 0
      [policyCall, .env (.setPolicies [⟨1, "allowed_kinds", "none"⟩] [⟨7, 1⟩])]) := by
  intro hagrees
  obtain ⟨h'', hload, -, -, hperm⟩ := hagrees "1:A" (policyHandler [.allowedKinds (some [1])])
    (policyHandler [.allowedKinds (some [1])]) rfl (by decide +kernel) (by decide +kernel)
  have hnow : ((loadForToken policyWeb "Bearer A" 1).run (stateAfter policyWeb policyDb 0
      [policyCall, .env (.setPolicies [⟨1, "allowed_kinds", "none"⟩] [⟨7, 1⟩])])).1 =
      .ok (policyHandler [.allowedKinds (some [])]) := by decide +kernel
  rw [hnow, Except.ok.injEq] at hload
  subst hload
  simp [policyHandler] at hperm

end Keycast.Http
