import Mathlib.Data.List.Infix
import Keycast.Signer.Daemon

/-!
# `Signer/System.lean` — the daemon and its environment

Everything that can happen around the daemon, as the steps of one system: the API server
changing the authorization tables, time passing, the cache evicting an entry. Requests, channel
commands and cleanup ticks are the threads; the channel delivers commands in any order and any
number of times, so there is no queue to model.

`perform_steps` is the one walk over the daemon's code that looks at every statement. It says
that a request touches the shared state in three ways only — store a client, insert a handler,
drop a handler — and every invariant of the shared state is derived from it.
-/

set_option autoImplicit false

namespace Keycast.Signer

open Lib

inductive EnvEvent
  | tick (d : Nat)
  | evict (bunker : PublicKey)
  | revokeOAuth (id : RowId)
  | revokeOAuthByBunker (bunker user : PublicKey) (tenant : TenantId)
  | revokeOAuthByOrigin (user : PublicKey) (origin : String) (tenant : TenantId)
  | disconnectClient (bunker user : PublicKey) (tenant : TenantId)
  | deleteUser (user : PublicKey)
  | createOAuth (row : OAuthAuthorization)
  | revokeTeam (tenant : TenantId) (id : RowId) (reason : Option String)
  | deleteTeam (tenant : TenantId) (id : RowId)
  | createTeam (row : Authorization)
  deriving DecidableEq, Repr

def State.withDb (s : State) (db : Db) : State := { s with db }

@[simp] theorem State.withDb_db (s : State) (db : Db) : (s.withDb db).db = db := rfl
@[simp] theorem State.withDb_now (s : State) (db : Db) : (s.withDb db).now = s.now := rfl
@[simp] theorem State.withDb_handlers (s : State) (db : Db) :
    (s.withDb db).handlers = s.handlers := rfl

def envStep (ext : External) : EnvEvent → State → State
  | .tick d, s => { s with now := s.now + d }
  | .evict bunker, s => s.cacheInvalidate bunker
  | .revokeOAuth id, s => s.withDb (s.db.revokeOAuth s.now id)
  | .revokeOAuthByBunker bunker user tenant, s =>
    s.withDb (s.db.revokeOAuthByBunker s.now bunker user tenant)
  | .revokeOAuthByOrigin user origin tenant, s =>
    s.withDb (s.db.revokeOAuthByOrigin s.now user origin tenant)
  | .disconnectClient bunker user tenant, s =>
    s.withDb (s.db.disconnectClient bunker user tenant)
  | .deleteUser user, s => s.withDb (s.db.deleteUser user)
  | .createOAuth row, s => s.withDb (s.db.createOAuth ext row)
  | .revokeTeam tenant id reason, s => s.withDb (s.db.revokeTeam s.now tenant id reason)
  | .deleteTeam tenant id, s => s.withDb (s.db.deleteTeam tenant id)
  | .createTeam row, s => s.withDb (s.db.createTeam row)

def system (ext : External) : System Work Stmt State SignerError Outcome EnvEvent where
  prog := perform ext
  env := envStep ext

/-- A daemon that has just started: whatever is in the database, nothing is cached. -/
def State.boot (db : Db) (now : Timestamp) : State := ⟨db, now, .empty⟩

abbrev Pool := Conf Work Stmt State SignerError Outcome
abbrev Event := Ev Work EnvEvent

/-- Run the daemon from its start. -/
def runFrom (ext : External) (db : Db) (now : Timestamp) (es : List Event) : Pool :=
  run (system ext).step (.init (.boot db now)) es

/-! ## Runs of whole calls

A coarser view of the same daemon, in which a request, a command or a cleanup tick is one step. It
is the right one where the order of calls matters and what happens inside them does not. -/

inductive Call
  | work (w : Work)
  | env (e : EnvEvent)
  deriving DecidableEq, Repr

def callStep (ext : External) (s : State) : Call → State
  | .work w => ((perform ext w).run s).2
  | .env e => envStep ext e s

/-- The bunker a call is a request to. -/
def Call.bunker? : Call → Option PublicKey
  | .work (.request event _ _) => event.bunkerPubkey
  | _ => none

/-- The call is answered with a sensitive result. -/
def Call.succeeds (ext : External) (s : State) : Call → Bool
  | .work w =>
    match ((perform ext w).run s).1 with
    | .ok o => o.sensitiveResult
    | .error _ => false
  | .env _ => false

/-! ## Runs of statements -/

/-- The shared states a run goes through, first and last included. -/
def statesOf (ext : External) (db : Db) (now : Timestamp) (es : List Event) : List State :=
  es.inits.map fun pre => (runFrom ext db now pre).state

theorem runFrom_append (ext : External) (db : Db) (now : Timestamp) (es fs : List Event) :
    runFrom ext db now (es ++ fs) = run (system ext).step (runFrom ext db now es) fs :=
  run_append _ _ es fs

theorem mem_statesOf {ext : External} {db : Db} {now : Timestamp} {es pre post : List Event}
    (h : es = pre ++ post) : (runFrom ext db now pre).state ∈ statesOf ext db now es :=
  List.mem_map_of_mem ((List.mem_inits pre es).mpr ⟨post, h.symm⟩)

/-- The thread runs this request and has answered it with a sensitive result. -/
def answered (event : Nip46Event) (t : Thread Work Stmt State SignerError Outcome) : Bool :=
  t.req == .request event true 0 &&
    match t.result? with
    | some (.ok o) => o.sensitiveResult
    | _ => false

theorem answered_iff {event : Nip46Event} {t : Thread Work Stmt State SignerError Outcome} :
    answered event t = true ↔ t.req = .request event true 0 ∧
      ∃ o, t.result? = some (.ok o) ∧ o.sensitiveResult = true := by
  unfold answered
  rcases t.result? with _ | (e | o) <;> simp

/-! ## What the daemon's statements do -/

/-- A statement that only reads. -/
def Stmt.reads : Stmt → Bool
  | .storeClient .. | .cacheInsert _ | .cacheInvalidate _ => false
  | _ => true

section Statements

variable {ext : External} {P : Stmt → State → State → Prop}
  (hread : ∀ {l}, l.reads = true → ∀ s, P l s s)
  (hstore : ∀ s o id c, P (.storeClient o id c) s (s.storeClient o id c))
  (hinsert : ∀ s k h, P (.cacheInsert k) s (s.cacheInsert k h))
  (hinvalidate : ∀ s k, P (.cacheInvalidate k) s (s.cacheInvalidate k))

theorem handleCrypt_does {textName : String} {validate : String → PublicKey → SignerM Unit}
    {cipher : PublicKey → String → Except SignerError String} (request : Json)
    (hv : ∀ t k, (validate t k).Does P) :
    (handleCrypt ext textName validate cipher request).Does P :=
  .bind (.ofExcept _) fun _ => .bind (hv _ _) fun _ => .bind (.ofExcept _) fun _ => trivial

theorem respond_does (h : Nip46Handler) (event : Nip46Event) (nonce : Nat) (useNip44 : Bool)
    (tags : List Tag) (method : String) (response : Response) :
    (respond ext h event nonce useNip44 tags method response).Does P :=
  .bind (.ofExcept _) fun _ => .bind (.ofExcept _) fun _ => trivial

theorem deriveKeys_does (encrypted : Bytes) (secretHash invalid : String) :
    (deriveKeys ext encrypted secretHash invalid).Does P :=
  .bind (.ofExcept _) fun _ => .bind (.ofExcept _) fun _ => .bind (.orErr _ _) fun _ => trivial

theorem invalidateAll_does (hinvalidate : ∀ s k, P (.cacheInvalidate k) s (s.cacheInvalidate k))
    (ks : List PublicKey) : (invalidateAll ks).Does P := by
  induction ks with
  | nil => trivial
  | cons k ks ih => exact .bind (.write fun s => hinvalidate s k) fun _ => ih

include hread

theorem policyPermissions_does (h : Nip46Handler) : (h.policyPermissions ext).Does P := by
  unfold Nip46Handler.policyPermissions
  split
  · refine .bind (.read (hread rfl) _) fun auth => .bind (.orErr _ _) fun auth => ?_
    split
    · trivial
    · exact .bind (.read (hread rfl) _) fun rows => .orErr _ _
  · refine .bind (.read (hread rfl) _) fun auth => .bind (.orErr _ _) fun auth => ?_
    exact .bind (.read (hread rfl) _) fun rows => .orErr _ _

theorem loadPermissions_does (h : Nip46Handler) : (h.loadPermissions ext).Does P :=
  .bind (policyPermissions_does hread h) fun _ => .ofExcept _

theorem handleSignEvent_does (h : Nip46Handler) (nonce : Nat) (request : Json) :
    (handleSignEvent ext h nonce request).Does P :=
  .bind (.ofExcept _) fun _ =>
    .bind (.bind (loadPermissions_does hread h) fun _ => .ofExcept _) fun _ =>
      .bind (.ofExcept _) fun _ => trivial

/-- Every method is answered without a write, but for what `connect` does. -/
theorem dispatch_does (h : Nip46Handler) (client : PublicKey) (nonce : Nat) (method : String)
    (request : Json) (hconnect : method = "connect" → (handleConnect ext h client request).Does P) :
    (dispatch ext h client nonce method request).Does P := by
  have hload : (h.loadPermissions ext).Does P := loadPermissions_does hread h
  unfold dispatch
  split
  · exact handleSignEvent_does hread h nonce request
  split
  · trivial
  split
  · next hm => exact hconnect hm
  split
  · exact handleCrypt_does request fun _ _ => .bind hload fun _ => .ofExcept _
  split
  · exact handleCrypt_does request fun _ _ => .bind hload fun _ => .ofExcept _
  split
  · exact handleCrypt_does request fun _ _ => .bind hload fun _ => .ofExcept _
  split
  · exact handleCrypt_does request fun _ _ => .bind hload fun _ => .ofExcept _
  · trivial

include hstore

theorem processConnect_does (h : Nip46Handler) (client secret : String) :
    (h.processConnect ext client secret).Does P := by
  unfold Nip46Handler.processConnect
  split
  · refine .bind (.read (hread rfl) _) fun existing => ?_
    split
    · split <;> trivial
    · exact .bind (.write fun s => hstore s _ _ _) fun _ => trivial
  · trivial

theorem handleConnect_does (h : Nip46Handler) (client : PublicKey) (request : Json) :
    (handleConnect ext h client request).Does P := by
  unfold handleConnect
  split
  · refine .bind (.attempt (processConnect_does hread hstore h _ _)) fun r => ?_
    split <;> trivial
  · trivial

theorem validateAndStoreClient_does (h : Nip46Handler) (client : PublicKey) :
    (h.validateAndStoreClient ext client).Does P := by
  refine .bind (.read (hread rfl) _) fun isValid => ?_
  split
  · trivial
  · refine .bind (.read (hread rfl) _) fun unconnectedId => ?_
    split
    · exact .write fun s => hstore s _ _ _
    · trivial

theorem handleWith_does (h : Nip46Handler) (event : Nip46Event) (nonce : Nat) :
    (handleWith ext h event nonce).Does P := by
  refine .bind (.ofExcept _) fun d => .bind (.orErr _ _) fun request =>
    .bind (.orErr _ _) fun method => ?_
  split
  · exact respond_does ..
  · have hgate : (clientGate ext h event.pubkey method).Does P := by
      unfold clientGate
      split
      · exact .attempt (validateAndStoreClient_does hread hstore h _)
      · trivial
    refine .bind hgate fun gate => ?_
    split
    · exact respond_does ..
    · refine .bind (dispatch_does hread h _ _ _ _ fun _ => ?_) fun _ => respond_does ..
      exact handleConnect_does hread hstore h _ _

omit hstore
include hinsert

theorem getHandler_does (bunker : PublicKey) : (getHandler ext bunker).Does P := by
  refine .bind (.read (hread rfl) _) fun cached => ?_
  split
  · trivial
  refine .bind (.read (hread rfl) _) fun auth => ?_
  split
  · refine .bind (.read (hread rfl) _) fun now => .bind (.read (hread rfl) _) fun encrypted =>
      .bind (.orErr _ _) fun encrypted =>
        .bind (deriveKeys_does _ _ _) fun keys => ?_
    exact .bind (.write fun s => hinsert s _ _) fun _ => trivial
  · refine .bind (.read (hread rfl) _) fun auth => ?_
    split
    · refine .bind (.read (hread rfl) _) fun now => .bind (.read (hread rfl) _) fun encrypted =>
        .bind (.orErr _ _) fun encrypted =>
          .bind (deriveKeys_does _ _ _) fun keys => ?_
      exact .bind (.write fun s => hinsert s _ _) fun _ => trivial
    · trivial

theorem loadSingleAuthorization_does (bunker : PublicKey) (tenant : TenantId) (isOauth : Bool) :
    (loadSingleAuthorization ext bunker tenant isOauth).Does P := by
  unfold loadSingleAuthorization
  split
  · refine .bind (.read (hread rfl) _) fun auth => ?_
    split
    · refine .bind (.read (hread rfl) _) fun encrypted => .bind (.orErr _ _) fun encrypted =>
        .bind (deriveKeys_does _ _ _) fun keys => ?_
      exact .write fun s => hinsert s _ _
    · trivial
  · refine .bind (.read (hread rfl) _) fun auth => ?_
    split
    · refine .bind (.orErr _ _) fun _ => .bind (.read (hread rfl) _) fun encrypted =>
        .bind (.orErr _ _) fun encrypted => .bind (deriveKeys_does _ _ _) fun keys => ?_
      exact .write fun s => hinsert s _ _
    · trivial

theorem handleCommand_does (c : AuthorizationCommand) : (handleCommand ext c).Does P := by
  cases c with
  | upsert bunker tenant isOauth => exact loadSingleAuthorization_does hread hinsert ..
  | remove bunker =>
    refine .bind (.read (hread rfl) _) fun cached => ?_
    split
    · exact .bind (.read (hread rfl) _) fun now => .write fun s => hinsert s _ _
    · trivial
  | reloadAll => trivial

include hstore hinvalidate

/-- **The statements of the daemon**: one of them stores a client, caches a handler, drops one, or
only reads, and says so. -/
theorem perform_does (w : Work) : (perform ext w).Does P := by
  cases w with
  | request event owned nonce =>
    refine .bind (.orErr _ _) fun bunker => ?_
    split
    · refine .bind (getHandler_does hread hinsert bunker) fun h => ?_
      split
      · exact handleWith_does hread hstore _ event nonce
      · trivial
    · trivial
  | command c => exact .bind (handleCommand_does hread hinsert c) fun _ => trivial
  | cleanup =>
    refine .bind (.bind (.read (hread rfl) _) fun now => .bind (.read (hread rfl) _) fun ks => ?_)
      fun _ => trivial
    exact invalidateAll_does hinvalidate ks

end Statements

/-! The same for a relation between the states alone. -/

section Steps

variable {ext : External} {G : State → State → Prop}
  (hrefl : ∀ s, G s s)
  (hstore : ∀ s o id c, G s (s.storeClient o id c))

theorem respond_steps (h : Nip46Handler) (event : Nip46Event) (nonce : Nat) (useNip44 : Bool)
    (tags : List Tag) (method : String) (response : Response) :
    (respond ext h event nonce useNip44 tags method response).Steps G :=
  Prog.Does.steps (P := fun _ => G) (fun _ _ _ h => h)
    (respond_does h event nonce useNip44 tags method response)

theorem invalidateAll_steps (hinvalidate : ∀ s k, G s (s.cacheInvalidate k))
    (ks : List PublicKey) : (invalidateAll ks).Steps G :=
  Prog.Does.steps (P := fun _ => G) (fun _ _ _ h => h) (invalidateAll_does hinvalidate ks)

include hrefl hstore

theorem dispatch_steps (h : Nip46Handler) (client : PublicKey) (nonce : Nat) (method : String)
    (request : Json) : (dispatch ext h client nonce method request).Steps G :=
  Prog.Does.steps (P := fun _ => G) (fun _ _ _ h => h) <|
    dispatch_does (fun _ => hrefl) h client nonce method request fun _ =>
      handleConnect_does (fun _ => hrefl) hstore h client request

theorem handleWith_steps (h : Nip46Handler) (event : Nip46Event) (nonce : Nat) :
    (handleWith ext h event nonce).Steps G :=
  Prog.Does.steps (P := fun _ => G) (fun _ _ _ h => h)
    (handleWith_does (fun _ => hrefl) hstore h event nonce)

/-- Whatever relates a state to itself, to the state after a client was stored, and to the state
after a handler was cached or dropped, relates the states around every statement. -/
theorem perform_steps (hinsert : ∀ s k h, G s (s.cacheInsert k h))
    (hinvalidate : ∀ s k, G s (s.cacheInvalidate k)) (w : Work) : (perform ext w).Steps G :=
  Prog.Does.steps (P := fun _ => G) (fun _ _ _ h => h)
    (perform_does (fun _ => hrefl) hstore hinsert hinvalidate w)

end Steps

end Keycast.Signer
