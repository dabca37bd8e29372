import Keycast.Http.Rpc

/-!
# `Http/System.lean` — the web server and its environment

Any number of instances over one database. Requests to `/api/nostr` and revocations are the
threads, each on the instance that serves it; the environment lets time pass, lets a cache drop an
entry (its capacity and its idle timeout), and changes the tables behind the authorizations.

`perform_steps` is the one walk over the code that looks at every statement: a thread changes the
shared state by an operation on one cache, or by the `UPDATE` of a revocation, and in no other way.
-/

set_option autoImplicit false

namespace Keycast.Http

open Lib

/-! ## Revocation -/

/-- `invalidate_handlers_for_bunker`. A key that does not parse gives up the whole cache.
`invalidate_entries_if` itself does not fail: the cache is built to support it. -/
def State.invalidateHandlersForBunker (w : Web) (s : State) (inst : InstanceId)
    (bunker : PublicKey) : State :=
  s.updateCache inst fun c =>
    match w.parseCacheKey bunker with
    | .ok key => c.invalidateEntriesIf fun _ h => h.bunkerPubkey == key
    | .error _ => c.invalidateEntriesIf fun _ _ => true

structure RevokeSessionResponse where
  success : Bool
  message : String
  deriving DecidableEq, Repr

/-- `revoke_session` on one instance. The command to the signer daemon leaves this system. -/
def revokeSession (w : Web) (inst : InstanceId) (headers : Headers) (tenant : TenantId)
    (bunker : PublicKey) : RpcM RevokeSessionResponse := do
  let now ← .read .clock (·.now)
  let user ← .ofExcept ((extractUserFromToken w now headers tenant).mapError .auth)
  let active ← .read (.existsActiveForBunker bunker) fun s =>
    s.db.existsActiveForBunker bunker user tenant
  if !active then .err (.auth .invalidToken)
  else
    .write (.revokeByBunkerPubkey bunker user tenant) fun s =>
      s.withDb (s.db.revokeOAuthByBunker s.now bunker user tenant)
    .write (.invalidateHandlers inst bunker) fun s => s.invalidateHandlersForBunker w inst bunker
    .write (.sendRemove bunker) id
    return ⟨true, "Session revoked successfully"⟩

/-! ## The system -/

inductive Work
  | rpc (inst : InstanceId) (headers : Headers) (tenant : TenantId) (nonce : Nat)
      (req : NostrRpcRequest)
  | revokeSession (inst : InstanceId) (headers : Headers) (tenant : TenantId) (bunker : PublicKey)

inductive Outcome
  | rpc (handler : HttpRpcHandler) (result : Json)
  | revoked (response : RevokeSessionResponse)

def Work.inst : Work → InstanceId
  | .rpc inst .. => inst
  | .revokeSession inst .. => inst

def perform (w : Web) : Work → RpcM Outcome
  | .rpc inst headers tenant nonce req => do
    let (handler, result) ← nostrRpc w inst headers tenant nonce req
    return .rpc handler result
  | .revokeSession inst headers tenant bunker => do
    let response ← revokeSession w inst headers tenant bunker
    return .revoked response

inductive EnvEvent
  | tick (d : Nat)
  | evict (inst : InstanceId) (key : CacheKey)
  | revokeOAuth (id : RowId)
  | revokeOAuthByOrigin (user : PublicKey) (origin : String) (tenant : TenantId)
  | deleteUser (user : PublicKey)
  | createOAuth (row : OAuthAuthorization)
  | setPolicies (permissions : List PermissionRow) (links : List PolicyPermission)
  deriving DecidableEq, Repr

def envStep (w : Web) : EnvEvent → State → State
  | .tick d, s => { s with now := s.now + d }
  | .evict inst key, s => s.updateCache inst (·.invalidate key)
  | .revokeOAuth id, s => s.withDb (s.db.revokeOAuth s.now id)
  | .revokeOAuthByOrigin user origin tenant, s =>
    s.withDb (s.db.revokeOAuthByOrigin s.now user origin tenant)
  | .deleteUser user, s => s.withDb (s.db.deleteUser user)
  | .createOAuth row, s => s.withDb (s.db.createOAuth w.toExternal row)
  | .setPolicies permissions policyPermissions, s =>
    s.withDb { s.db with permissions, policyPermissions }

def system (w : Web) : System Work Stmt State RpcError Outcome EnvEvent where
  prog := perform w
  env := envStep w

/-- Instances that have just started. -/
def State.boot (db : Db) (now : Timestamp) : State := ⟨db, now, fun _ => .empty⟩

abbrev Pool := Conf Work Stmt State RpcError Outcome
abbrev Event := Ev Work EnvEvent

def runFrom (w : Web) (db : Db) (now : Timestamp) (es : List Event) : Pool :=
  run (system w).step (.init (.boot db now)) es

theorem runFrom_append (w : Web) (db : Db) (now : Timestamp) (es fs : List Event) :
    runFrom w db now (es ++ fs) = run (system w).step (runFrom w db now es) fs :=
  run_append _ _ es fs

/-! ## What the statements do -/

section Steps

variable {w : Web} {G : State → State → Prop}

theorem withClock_steps (hrefl : ∀ s, G s s) (op : Timestamp → Except HandlerError String) :
    (withClock op).Steps G :=
  .bind (.read hrefl _ _) fun _ => .ofExcept _

theorem dispatch_steps (hrefl : ∀ s, G s s) (h : HttpRpcHandler) (nonce : Nat)
    (req : NostrRpcRequest) : (dispatch w h nonce req).Steps G := by
  have hop : ∀ (op : Timestamp → Except HandlerError String) (f : String → Json),
      ((withClock op).bind fun out => .ret (f out)).Steps G := by
    intro op f
    exact .bind (withClock_steps hrefl op) fun _ => trivial
  unfold dispatch
  split
  · trivial
  · repeat' split
    all_goals first
      | exact .bind (.ofExcept _) fun _ => hop _ _
      | trivial

theorem loadForToken_steps (hrefl : ∀ s, G s s) (authHeader : String) (tenant : TenantId) :
    (loadForToken w authHeader tenant).Steps G := by
  refine .bind (.read hrefl _ _) fun now => ?_
  split
  · trivial
  · refine .bind (.read hrefl _ _) fun row => .bind (.orErr _ _) fun row => ?_
    split
    · trivial
    · refine .bind ?_ fun _ => .bind (.read hrefl _ _) fun _ => .bind (.orErr _ _) fun _ =>
        .bind (.ofExcept _) fun _ => .bind (.ofExcept _) fun _ => .bind (.ofExcept _) fun _ =>
          trivial
      unfold loadPermissions
      split
      · exact .bind (.read hrefl _ _) fun _ => .bind (.orErr _ _) fun _ => trivial
      · trivial
  · split
    · refine .bind (.read hrefl _ _) fun unclaimed => ?_
      split
      · trivial
      · exact .bind (.read hrefl _ _) fun _ => .bind (.orErr _ _) fun _ =>
          .bind (.ofExcept _) fun _ => .bind (.ofExcept _) fun _ => trivial
    · trivial

theorem getHandler_steps (hrefl : ∀ s, G s s) {inst : InstanceId}
    (hcache : ∀ s f, G s (s.updateCache inst f)) (authHeader : String) (tenant : TenantId) :
    (getHandler w inst authHeader tenant).Steps G := by
  refine .bind (.orErr _ _) fun key => .bind (.read hrefl _ _) fun found => ?_
  split
  · refine .bind (.read hrefl _ _) fun now => ?_
    split
    · trivial
    · exact .bind (.write _ fun s => hcache s _) fun _ => trivial
  · refine .bind (loadForToken_steps hrefl _ _) fun handler => .bind (.read hrefl _ _) fun now => ?_
    split
    · exact .bind (.write _ fun s => hcache s _) fun _ => trivial
    · trivial

theorem revokeSession_steps (hrefl : ∀ s, G s s) {inst : InstanceId}
    (hinvalidate : ∀ s b, G s (s.invalidateHandlersForBunker w inst b))
    (hrevoke : ∀ s bunker user tenant,
      G s (s.withDb (s.db.revokeOAuthByBunker s.now bunker user tenant)))
    (headers : Headers) (tenant : TenantId) (bunker : PublicKey) :
    (revokeSession w inst headers tenant bunker).Steps G := by
  refine .bind (.read hrefl _ _) fun _ => .bind (.ofExcept _) fun _ =>
    .bind (.read hrefl _ _) fun active => ?_
  split
  · trivial
  · exact .bind (.write _ fun s => hrevoke s _ _ _) fun _ =>
      .bind (.write _ fun s => hinvalidate s _) fun _ => .bind (.write _ fun s => hrefl s) fun _ =>
        trivial

/-- **The walk.** What a thread does to the shared state, statement by statement. -/
theorem perform_steps (hrefl : ∀ s, G s s) (work : Work)
    (hcache : ∀ s f, G s (s.updateCache work.inst f))
    (hrevoke : ∀ s bunker user tenant,
      G s (s.withDb (s.db.revokeOAuthByBunker s.now bunker user tenant))) :
    (perform w work).Steps G := by
  cases work with
  | rpc inst headers tenant nonce req =>
    exact .bind (.bind (.orErr _ _) fun _ => .bind (getHandler_steps hrefl hcache _ _) fun _ =>
      .bind (dispatch_steps hrefl _ _ _) fun _ => trivial) fun _ => trivial
  | revokeSession inst headers tenant bunker =>
    exact .bind (revokeSession_steps hrefl (fun s _ => hcache s _) hrevoke _ _ _) fun _ => trivial

end Steps

end Keycast.Http
