import Mathlib.Data.Finset.Basic
import Keycast.Lib.Mutex

/-!
# `Cluster/Registration.lean` — registered, and not any more

`coordinator.rs` and `registry.rs` of `cluster-hashring`: who puts the id of an instance into the
registry and who takes it out. The heartbeat task sleeps in a `select!`; when it wakes, it is in one
of its branches until it sleeps again, and it can end only while it sleeps and after it has been
cancelled. Whoever uses the registry holds its lock. `shutdown` cancels the task and waits for its
end before it deregisters; `force_deregister` does not.

What a command comes to at Redis is an argument of the call. The refresh of the connection for IAM,
the backoff after a failed heartbeat and the drain period change nothing here and are left out, and
so is the ring.

The lock and the place where the heartbeat task is are part of the state, and a statement that has
to wait is not executed (`waits`). `Move` says what a statement does, given what its thread has
executed before, and `Tracked` is the invariant: one thread at most is between the lock and its
release, and one in a branch of the task; a task that has ended is not busy any more (`busy_step`);
and where a call was told that its id is gone, it is. A call that has unlocked has returned. What is
asked of a run and the condition on it are then compared step by step: a heartbeat that reaches
Redis after the return puts the id back (`noBeatAfter_of_staysOut`), and nothing else does
(`Tracked.stays_gone`).
-/

set_option autoImplicit false

namespace Keycast.Cluster.Registration

open Lib

/-- A Redis command: executed and answered, executed with the answer lost, or not executed. -/
inductive Reply
  | done
  | lost
  | failed
  deriving DecidableEq, Repr

def Reply.executed : Reply → Bool
  | .failed => false
  | _ => true

def Reply.ok : Reply → Bool
  | .done => true
  | _ => false

/-- The ids in the registry, its lock, and where the heartbeat task is. -/
structure Registry where
  instances : Finset String
  locked : Bool := false
  cancelled : Bool := false
  busy : Bool := false
  stopped : Bool := false

inductive Stmt
  | wake
  | sleep
  | stop
  | lock
  | unlock
  | heartbeat
  | cleanupStale
  | getActiveInstances
  | publish
  | deregister
  | cancel
  | join
  deriving DecidableEq, Repr

abbrev RegistryProg := Prog Stmt Registry String Unit

/-! ## The calls -/

def lock : RegistryProg := .write .lock fun s => { s with locked := true }

def unlock : RegistryProg := .write .unlock fun s => { s with locked := false }

def wake : RegistryProg := .write .wake fun s => { s with busy := true }

def sleep : RegistryProg := .write .sleep fun s => { s with busy := false }

def cleanupStale (stale : Finset String) : RegistryProg :=
  .write .cleanupStale fun s => { s with instances := s.instances \ stale }

/-- `ZADD` of the own id. -/
def heartbeat (instanceId : String) (beat : Reply) : RegistryProg :=
  .write .heartbeat fun s =>
    if beat.executed then { s with instances := insert instanceId s.instances } else s

/-- `ZREM` of the own id. -/
def deregister (instanceId : String) (removed : Reply) : RegistryProg :=
  .write .deregister fun s =>
    if removed.executed then { s with instances := s.instances.erase instanceId } else s

/-- The heartbeat branch; the cleanup runs with a chance of ten percent. -/
def heartbeatTick (instanceId : String) (beat : Reply) (stale : Option (Finset String)) :
    RegistryProg := do
  wake
  lock
  heartbeat instanceId beat
  if beat.ok then
    match stale with
    | some stale => cleanupStale stale
    | none => .ret ()
    unlock
    sleep
  else
    unlock
    sleep

/-- The sync branch, without the ring. -/
def syncTick : RegistryProg := do
  wake
  lock
  .write .getActiveInstances id
  unlock
  sleep

/-- The branch in which the task ends. -/
def stop : RegistryProg := .write .stop fun s => { s with stopped := true }

def refresh (stale : Finset String) : RegistryProg := do
  lock
  cleanupStale stale
  .write .getActiveInstances id
  unlock

def forceDeregister (instanceId : String) (published removed : Reply) : RegistryProg := do
  lock
  .write .publish id
  if published.ok then
    deregister instanceId removed
    unlock
    if removed.ok then .ret () else .err "deregister"
  else
    unlock
    .err "publish"

def shutdown (instanceId : String) (removed : Reply) : RegistryProg := do
  .write .cancel fun s => { s with cancelled := true }
  .write .join id
  lock
  -- a leave event that cannot be published is only logged
  .write .publish id
  deregister instanceId removed
  unlock
  if removed.ok then .ret () else .err "deregister"

inductive Call
  | heartbeat (beat : Reply) (stale : Option (Finset String))
  | sync
  | stop
  | refresh (stale : Finset String)
  | forceDeregister (published removed : Reply)
  | shutdown (removed : Reply)

/-- What others do to the registry: they add ids of theirs and remove any. -/
structure Others where
  joined : Finset String
  left : Finset String

def system (instanceId : String) : System Call Stmt Registry String Unit Others where
  prog
    | .heartbeat beat stale => heartbeatTick instanceId beat stale
    | .sync => syncTick
    | .stop => stop
    | .refresh stale => refresh stale
    | .forceDeregister published removed => forceDeregister instanceId published removed
    | .shutdown removed => shutdown instanceId removed
  env others s :=
    { s with instances := (s.instances ∪ others.joined.erase instanceId) \ others.left }

abbrev RThread := Thread Call Stmt Registry String Unit

abbrev RConf := Conf Call Stmt Registry String Unit

abbrev REv := Ev Call Others

/-- Statements that have to wait: for the lock, for the task to sleep, for its cancellation, for its
end. -/
def waits (c : RConf) : REv → Bool
  | .exec i =>
    match (c.threads[i]?).bind Thread.next? with
    | some .lock => c.state.locked
    | some .wake => c.state.busy || c.state.stopped
    | some .stop => c.state.busy || !c.state.cancelled
    | some .join => !c.state.stopped
    | _ => false
  | _ => false

def step (instanceId : String) : RConf → REv → RConf := (system instanceId).stepUnless waits

/-! ## What a statement does -/

def Call.deregisters : Call → Bool
  | .forceDeregister .. => true
  | .shutdown _ => true
  | _ => false

/-- A heartbeat that reaches Redis. -/
def Call.beats : Call → Bool
  | .heartbeat beat _ => beat.executed
  | _ => false

/-- The call is told that its id is gone. -/
def Call.removes : Call → Bool
  | .forceDeregister _ removed => removed.ok
  | .shutdown removed => removed.ok
  | _ => false

def lockSection : Section Stmt Registry := ⟨.lock, .unlock, (·.locked)⟩

/-- The branches of the heartbeat task. -/
def taskSection : Section Stmt Registry := ⟨.wake, .sleep, (·.busy)⟩

/-- What a statement of a call does, given what its thread has executed. -/
structure Move (instanceId : String) (call : Call) (l : Stmt) (seen : List (Stmt × Registry))
    (s s' : Registry) :
    Prop where
  lock : lockSection.Respects l seen s s'
  task : taskSection.Respects l seen s s'
  adds : instanceId ∈ s'.instances → instanceId ∉ s.instances →
    l = .heartbeat ∧ call.beats = true ∧ lockSection.Within seen ∧ taskSection.Within seen
  beats : l = .heartbeat → call.beats = true → instanceId ∈ s'.instances
  removes : l = .deregister → call.removes = true → instanceId ∉ s'.instances ∧
    lockSection.Within seen
  joins : l = .deregister → (∃ removed, call = .shutdown removed) → ∃ s, (.join, s) ∈ seen
  stops : s'.stopped = (s.stopped || l == .stop)
  last : call.deregisters = true → ∀ s, (.unlock, s) ∉ seen

/-- How a call that deregisters ends. -/
def End (call : Call) (seen : List (Stmt × Registry)) (result : Except String Unit) : Prop :=
  call.deregisters = true → (result = .ok () ↔ call.removes = true ∧ ∃ s, (.deregister, s) ∈ seen)

section Moves

variable {instanceId : String} {call : Call} {l : Stmt} {seen : List (Stmt × Registry)}
  {s s' : Registry}

/-- A statement that adds no id and has nothing to do with the lock or the task. -/
theorem Move.quiet (hl : l ∉ [Stmt.lock, .unlock, .wake, .sleep, .stop, .heartbeat, .deregister])
    (hsub : s'.instances ⊆ s.instances) (hlocked : s'.locked = s.locked) (hbusy : s'.busy = s.busy)
    (hstopped : s'.stopped = s.stopped)
    (hlast : call.deregisters = true → ∀ s, (.unlock, s) ∉ seen) :
    Move instanceId call l seen s s' := by
  simp only [List.mem_cons, List.not_mem_nil, or_false, not_or] at hl
  obtain ⟨hlock, hunlock, hwake, hsleep, hstop, hbeat, hderegister⟩ := hl
  exact ⟨⟨fun h => absurd h hlock, fun h => absurd h hunlock, fun _ _ => hlocked⟩,
    ⟨fun h => absurd h hwake, fun h => absurd h hsleep, fun _ _ => hbusy⟩,
      fun h h' => absurd (hsub h) h',
    fun h => absurd h hbeat, fun h => absurd h hderegister,
      fun h => absurd h hderegister, by simp [hstopped, hstop], hlast⟩

theorem lock_move (hlast : call.deregisters = true → ∀ s, (.unlock, s) ∉ seen) :
    Move instanceId call .lock seen s { s with locked := true } where
  lock := ⟨fun _ => rfl, nofun, fun h => absurd rfl h⟩
  task := ⟨nofun, nofun, fun _ _ => rfl⟩
  adds h h' := absurd h h'
  beats := nofun
  removes := nofun
  joins := nofun
  stops := (Bool.or_false _).symm
  last := hlast

theorem unlock_move (hwithin : lockSection.Within seen) :
    Move instanceId call .unlock seen s { s with locked := false } where
  lock := ⟨nofun, fun _ => hwithin, fun _ h => absurd rfl h⟩
  task := ⟨nofun, nofun, fun _ _ => rfl⟩
  adds h h' := absurd h h'
  beats := nofun
  removes := nofun
  joins := nofun
  stops := (Bool.or_false _).symm
  last _ := hwithin.2

theorem wake_move (hcall : call.deregisters = false) :
    Move instanceId call .wake seen s { s with busy := true } where
  lock := ⟨nofun, nofun, fun _ _ => rfl⟩
  task := ⟨fun _ => rfl, nofun, fun h => absurd rfl h⟩
  adds h h' := absurd h h'
  beats := nofun
  removes := nofun
  joins := nofun
  stops := (Bool.or_false _).symm
  last h := nomatch hcall.symm.trans h

theorem sleep_move (hcall : call.deregisters = false) (hwithin : taskSection.Within seen) :
    Move instanceId call .sleep seen s { s with busy := false } where
  lock := ⟨nofun, nofun, fun _ _ => rfl⟩
  task := ⟨nofun, fun _ => hwithin, fun _ h => absurd rfl h⟩
  adds h h' := absurd h h'
  beats := nofun
  removes := nofun
  joins := nofun
  stops := (Bool.or_false _).symm
  last h := nomatch hcall.symm.trans h

theorem stop_move (hcall : call.deregisters = false) :
    Move instanceId call .stop seen s { s with stopped := true } where
  lock := ⟨nofun, nofun, fun _ _ => rfl⟩
  task := ⟨nofun, nofun, fun _ _ => rfl⟩
  adds h h' := absurd h h'
  beats := nofun
  removes := nofun
  joins := nofun
  stops := (Bool.or_true _).symm
  last h := nomatch hcall.symm.trans h

theorem heartbeat_move {beat : Reply} {stale : Option (Finset String)}
    (hlock : lockSection.Within seen)
    (htask : taskSection.Within seen) :
    Move instanceId (.heartbeat beat stale) .heartbeat seen s
      (if beat.executed then { s with instances := insert instanceId s.instances } else s) where
  lock := ⟨nofun, nofun, fun _ _ => by split <;> rfl⟩
  task := ⟨nofun, nofun, fun _ _ => by split <;> rfl⟩
  adds h h' := by
    split at h
    · next hexecuted => exact ⟨rfl, hexecuted, hlock, htask⟩
    · exact absurd h h'
  beats _ hexecuted := by
    rw [if_pos (show beat.executed = true from hexecuted)]
    exact Finset.mem_insert_self _ _
  removes := nofun
  joins := nofun
  stops := by split <;> exact (Bool.or_false _).symm
  last := nofun

theorem deregister_move {removed : Reply} (hremoves : call.removes = removed.ok)
    (hlock : lockSection.Within seen)
    (hjoin : (∃ removed, call = .shutdown removed) → ∃ s, (.join, s) ∈ seen) :
    Move instanceId call .deregister seen s
      (if removed.executed then { s with instances := s.instances.erase instanceId } else s) where
  lock := ⟨nofun, nofun, fun _ _ => by split <;> rfl⟩
  task := ⟨nofun, nofun, fun _ _ => by split <;> rfl⟩
  adds h h' := by
    split at h
    · exact absurd h (Finset.notMem_erase _ _)
    · exact absurd h h'
  beats := nofun
  removes _ hok := by
    have hexecuted : removed.executed = true := by
      cases removed with
      | done => rfl
      | lost | failed => cases hremoves.symm.trans hok
    rw [if_pos hexecuted]
    exact ⟨Finset.notMem_erase _ _, hlock⟩
  joins _ h := hjoin h
  stops := by split <;> exact (Bool.or_false _).symm
  last _ := hlock.2

theorem heartbeatTick_meets (beat : Reply) (stale : Option (Finset String)) :
    (heartbeatTick instanceId beat stale).Meets (Move instanceId (.heartbeat beat stale))
      (End (.heartbeat beat stale)) [] := by
  refine fun s₀ =>
    ⟨wake_move rfl, fun s₁ => ⟨lock_move nofun, fun s₂ => ⟨heartbeat_move ?_ ?_, ?_⟩⟩⟩
  · simp [Section.Within, lockSection]
  · simp [Section.Within, taskSection]
  split
  · cases stale with
    | none =>
      refine fun s₃ => ⟨unlock_move ?_, fun s₄ => ⟨sleep_move rfl ?_, nofun⟩⟩
      · simp [Section.Within, lockSection]
      · simp [Section.Within, taskSection]
    | some stale =>
      refine fun s₃ =>
        ⟨.quiet (by decide) Finset.sdiff_subset rfl rfl rfl nofun,
          fun s₄ => ⟨unlock_move ?_, fun s₅ => ⟨sleep_move rfl ?_, nofun⟩⟩⟩
      · simp [Section.Within, lockSection]
      · simp [Section.Within, taskSection]
  · refine fun s₃ => ⟨unlock_move ?_, fun s₄ => ⟨sleep_move rfl ?_, nofun⟩⟩
    · simp [Section.Within, lockSection]
    · simp [Section.Within, taskSection]

theorem syncTick_meets : syncTick.Meets (Move instanceId .sync) (End .sync) [] := by
  refine fun s₀ =>
    ⟨wake_move rfl, fun s₁ => ⟨lock_move nofun, fun s₂ => ⟨?_, fun s₃ => ⟨unlock_move ?_, fun s₄ =>
    ⟨sleep_move rfl ?_, nofun⟩⟩⟩⟩⟩
  · exact .quiet (by decide) (Finset.Subset.refl _) rfl rfl rfl nofun
  · simp [Section.Within, lockSection]
  · simp [Section.Within, taskSection]

theorem refresh_meets (stale : Finset String) :
    (refresh stale).Meets (Move instanceId (.refresh stale)) (End (.refresh stale)) [] := by
  refine fun s₀ =>
    ⟨lock_move nofun, fun s₁ => ⟨?_, fun s₂ => ⟨?_, fun s₃ => ⟨unlock_move ?_, nofun⟩⟩⟩⟩
  · exact .quiet (by decide) Finset.sdiff_subset rfl rfl rfl nofun
  · exact .quiet (by decide) (Finset.Subset.refl _) rfl rfl rfl nofun
  · simp [Section.Within, lockSection]

theorem forceDeregister_meets (published removed : Reply) :
    (forceDeregister instanceId published removed).Meets
      (Move instanceId (.forceDeregister published removed))
      (End (.forceDeregister published removed)) [] := by
  refine fun s₀ => ⟨lock_move (by simp), fun s₁ => ⟨?_, ?_⟩⟩
  · exact .quiet (by decide) (Finset.Subset.refl _) rfl rfl rfl (by simp)
  split
  · refine fun s₂ => ⟨deregister_move rfl ?_ nofun, fun s₃ => ⟨unlock_move ?_, ?_⟩⟩
    · simp [Section.Within, lockSection]
    · simp [Section.Within, lockSection]
    split
    · next hok => simp [Prog.Meets, End, Call.removes, hok]
    · next hok => simp [Prog.Meets, End, Call.removes, hok]
  · refine fun s₂ => ⟨unlock_move ?_, ?_⟩
    · simp [Section.Within, lockSection]
    · simp [Prog.Meets, End]

theorem shutdown_meets (removed : Reply) :
    (shutdown instanceId removed).Meets (Move instanceId (.shutdown removed))
      (End (.shutdown removed)) [] := by
  refine fun s₀ =>
    ⟨?_, fun s₁ =>
      ⟨?_, fun s₂ => ⟨lock_move (by simp), fun s₃ => ⟨?_, fun s₄ => ⟨deregister_move rfl ?_ ?_,
    fun s₅ => ⟨unlock_move ?_, ?_⟩⟩⟩⟩⟩⟩
  · exact .quiet (by decide) (Finset.Subset.refl _) rfl rfl rfl (by simp)
  · exact .quiet (by decide) (Finset.Subset.refl _) rfl rfl rfl (by simp)
  · exact .quiet (by decide) (Finset.Subset.refl _) rfl rfl rfl (by simp)
  · simp [Section.Within, lockSection]
  · exact fun _ => ⟨s₁, by simp⟩
  · simp [Section.Within, lockSection]
  split
  · next hok => simp [Prog.Meets, End, Call.removes, hok]
  · next hok => simp [Prog.Meets, End, Call.removes, hok]

theorem prog_meets (call : Call) : ((system instanceId).prog call).Meets (Move instanceId call)
    (End call) [] := by
  cases call with
  | heartbeat beat stale => exact heartbeatTick_meets beat stale
  | sync => exact syncTick_meets
  | stop => exact fun s => ⟨stop_move rfl, nofun⟩
  | refresh stale => exact refresh_meets stale
  | forceDeregister published removed => exact forceDeregister_meets published removed
  | shutdown removed => exact shutdown_meets removed

end Moves

/-! ## Runs -/

/-- A thread of a call that has deregistered, or does so when it goes on. -/
def Removed (t : RThread) : Prop := t.req.removes = true ∧ ∃ s, (.deregister, s) ∈ t.seen

/-- The call has returned `Ok`. -/
def Returned (t : RThread) : Prop := t.req.deregisters = true ∧ t.result? = some (.ok ())

/-- Once a call has returned, the registry does not have the id. -/
def StaysOut (instanceId : String) (c : RConf) : Prop :=
  ∀ t ∈ c.threads, Returned t → instanceId ∉ c.state.instances

/-- No heartbeat reaches Redis after a `force_deregister` has returned. -/
def NoBeatAfter (c : RConf) (e : REv) : Prop :=
  ∀ i t, e = .exec i → c.threads[i]? = some t → t.next? = some .heartbeat → t.req.beats = true →
    ∀ t' ∈ c.threads, Returned t' → ∃ removed, t'.req = .shutdown removed

structure Tracked (instanceId : String) (c : RConf) : Prop where
  meets : System.Meets (Move instanceId) End c
  lock : lockSection.Exclusive c
  task : taskSection.Exclusive c
  stopped : c.state.stopped = true → c.state.busy = false
  joined : ∀ t ∈ c.threads, ∀ s, (Stmt.join, s) ∈ t.seen → c.state.stopped = true
  locked : ∀ t ∈ c.threads, Removed t → ∃ s, (Stmt.lock, s) ∈ t.seen
  ended : ∀ t ∈ c.threads, Removed t → (∃ removed, t.req = .shutdown removed) →
    ∃ s, (Stmt.join, s) ∈ t.seen
  gone : ∀ t ∈ c.threads, Removed t → instanceId ∉ c.state.instances

section Runs

variable {instanceId : String} {c : RConf} {e : REv}

theorem Tracked.removed (h : Tracked instanceId c) {t : RThread} (ht : t ∈ c.threads)
    (hreturned : Returned t) :
    Removed t := (h.meets.result ht hreturned.2 hreturned.1).mp rfl

theorem Tracked.staysOut (h : Tracked instanceId c) : StaysOut instanceId c :=
  fun t ht hreturned => h.gone t ht (h.removed ht hreturned)

/-- A call that has unlocked has returned. -/
theorem Tracked.returned (h : Tracked instanceId c) {i : Nat} {t : RThread}
    (ht : c.threads[i]? = some t)
    (hremoved : Removed t) {s : Registry} (hunlock : (.unlock, s) ∈ t.seen) : Returned t := by
  have hderegisters : t.req.deregisters = true := by
    have hremoves := hremoved.1
    cases hreq : t.req with
    | forceDeregister | shutdown => rfl
    | heartbeat | sync | stop | refresh => simp [hreq, Call.removes] at hremoves
  refine ⟨hderegisters, ?_⟩
  cases hrest : t.rest with
  | ret u => simp [Thread.result?, hrest]
  | err e =>
    have hresult : t.result? = some (.error e) := by simp [Thread.result?, hrest]
    have hend := (h.meets.result (List.mem_of_getElem? ht) hresult hderegisters).mpr hremoved
    cases hend
  | atom l upd k =>
    have hnext : t.next? = some l := by simp [Thread.next?, hrest]
    exact absurd hunlock ((h.meets.exec (system instanceId) ht hnext).last hderegisters s)

/-- Who is told so by a returned call is told right, whatever statement comes next. -/
theorem Tracked.stays_gone (h : Tracked instanceId c) (hbeat : NoBeatAfter c e) {i : Nat}
    {t t' : RThread} {l : Stmt}
    (he : e = .exec i) (ht : c.threads[i]? = some t) (hl : t.next? = some l) (ht' : t' ∈ c.threads)
    (hremoved : Removed t') {s' : Registry} (hmove : Move instanceId t.req l t.seen c.state s') :
    instanceId ∉ s'.instances := by
  intro hin
  obtain ⟨rfl, hbeats, hlock, htask⟩ := hmove.adds hin (h.gone t' ht' hremoved)
  obtain ⟨j, hj⟩ := List.mem_iff_getElem?.mp ht'
  by_cases hunlock : ∃ s, (Stmt.unlock, s) ∈ t'.seen
  · obtain ⟨s, hs⟩ := hunlock
    have hshutdown := hbeat i t he ht hl hbeats t' ht' (h.returned hj hremoved hs)
    -- the task has ended, so that nobody is in one of its branches
    obtain ⟨s, hjoin⟩ := h.ended t' ht' hremoved hshutdown
    cases (h.stopped (h.joined t' ht' s hjoin)).symm.trans (h.task.taken i t ht htask)
  · -- the call still has the lock, as the heartbeat does
    have hwithin : lockSection.Within t'.seen :=
      ⟨h.locked t' ht' hremoved, fun s hs => hunlock ⟨s, hs⟩⟩
    obtain rfl : i = j := h.lock.one i j t t' ht hj hlock hwithin
    cases ht.symm.trans hj
    have hremoves := hremoved.1
    cases hreq : t.req with
    | heartbeat => simp [hreq, Call.removes] at hremoves
    | sync | stop | refresh | forceDeregister | shutdown => simp [hreq, Call.beats] at hbeats

/-- Who has deregistered after a step had done so before, or does it in the step. -/
theorem removed_step {t : RThread} (ht : t ∈ ((system instanceId).step c e).threads)
    (h : Removed t) :
    ∃ t₀ ∈ c.threads, t₀.req = t.req ∧ t₀.seen ⊆ t.seen ∧
      (Removed t₀ ∨ ∃ i, e = .exec i ∧ c.threads[i]? = some t₀ ∧ t₀.next? = some .deregister) := by
  rcases System.threads_step _ ht with hold | hnew | ⟨i, t₀, l, he, hi, hl, hreq, hseen⟩
  · exact ⟨t, hold, rfl, List.Subset.refl _, .inl h⟩
  · obtain ⟨-, s, hs⟩ := h
    rw [hnew] at hs
    cases hs
  · refine ⟨t₀, List.mem_of_getElem? hi, hreq.symm, hseen ▸ List.subset_cons_self _ _, ?_⟩
    obtain ⟨hremoves, s, hs⟩ := h
    rw [hseen] at hs
    rcases List.mem_cons.mp hs with heq | hs
    · obtain rfl : Stmt.deregister = l := (Prod.ext_iff.mp heq).1
      exact .inr ⟨i, he, hi, hl⟩
    · exact .inl ⟨hreq ▸ hremoves, s, hs⟩

/-- What may be executed, by where the task and the lock are. -/
theorem free_of_not_waits (hwaits : ¬ waits c e = true) {i : Nat} {t : RThread} (he : e = .exec i)
    (ht : c.threads[i]? = some t) :
    (t.next? = some .lock → c.state.locked = false) ∧
      (t.next? = some .wake → c.state.busy = false ∧ c.state.stopped = false) ∧
      (t.next? = some .stop → c.state.busy = false) ∧
        (t.next? = some .join → c.state.stopped = true) := by
  subst he
  simp only [waits, ht, Option.bind_some] at hwaits
  refine ⟨fun hl => ?_, fun hl => ?_, fun hl => ?_, fun hl => ?_⟩
  · simpa [hl] using hwaits
  · simpa [hl] using hwaits
  · rw [hl] at hwaits
    simp only [Bool.or_eq_true, not_or] at hwaits
    exact Bool.eq_false_iff.mpr hwaits.1
  · simpa [hl] using hwaits

theorem stopped_step (h : Tracked instanceId c) (hstopped : c.state.stopped = true) :
    ((system instanceId).step c e).state.stopped = true := by
  cases e with
  | spawn | env => exact hstopped
  | exec i =>
    rcases h.meets.exec_cases (system instanceId) i with ⟨hidle, -⟩ | ⟨t, l, -, -, hmove⟩
    · rwa [hidle]
    · rw [hmove.stops, hstopped, Bool.true_or]

/-- The task ends while it sleeps, and does not wake up after that. -/
theorem busy_step (h : Tracked instanceId c) (hwaits : ¬ waits c e = true)
    (hstopped : ((system instanceId).step c e).state.stopped = true) :
    ((system instanceId).step c e).state.busy = false := by
  cases e with
  | spawn | env => exact h.stopped hstopped
  | exec i =>
    rcases h.meets.exec_cases (system instanceId) i with ⟨hidle, -⟩ | ⟨t, l, ht, hl, hmove⟩
    · rw [hidle] at hstopped ⊢
      exact h.stopped hstopped
    have hfree := free_of_not_waits hwaits rfl ht
    have hbusy : c.state.busy = false := by
      rw [hmove.stops] at hstopped
      rcases Bool.or_eq_true_iff.mp hstopped with hbefore | hstop
      · exact h.stopped hbefore
      · obtain rfl : l = .stop := beq_iff_eq.mp hstop
        exact hfree.2.2.1 hl
    by_cases hwake : l = .wake
    · subst hwake
      rw [hmove.stops, (hfree.2.1 hl).2] at hstopped
      cases hstopped
    by_cases hsleep : l = .sleep
    · cases hbusy.symm.trans (h.task.taken i t ht (hmove.task.leave hsleep))
    · exact (hmove.task.other hwake hsleep).trans hbusy

theorem Tracked.step (h : Tracked instanceId c) (hbeat : NoBeatAfter c e) :
    Tracked instanceId (step instanceId c e) := by
  unfold Registration.step System.stepUnless
  by_cases hwaits : waits c e = true
  · rwa [if_pos hwaits]
  rw [if_neg hwaits]
  refine ⟨System.meets_step prog_meets e h.meets, ?_, ?_, busy_step h hwaits, ?_, ?_, ?_, ?_⟩
  · refine h.lock.step Move.lock (fun _ _ => rfl) h.meets fun i t he ht hl => ?_
    exact (free_of_not_waits hwaits he ht).1 hl
  · refine h.task.step Move.task (fun _ _ => rfl) h.meets fun i t he ht hl => ?_
    exact ((free_of_not_waits hwaits he ht).2.1 hl).1
  · intro t ht s hs
    rcases System.threads_step _ ht with hold | hnew | ⟨i, t₀, l, he, hi, hl, -, hseen⟩
    · exact stopped_step h (h.joined t hold s hs)
    · rw [hnew] at hs
      cases hs
    · rw [hseen] at hs
      rcases List.mem_cons.mp hs with heq | hs
      · obtain rfl : Stmt.join = l := (Prod.ext_iff.mp heq).1
        exact stopped_step h ((free_of_not_waits hwaits he hi).2.2.2 hl)
      · exact stopped_step h (h.joined t₀ (List.mem_of_getElem? hi) s hs)
  · intro t ht hremoved
    obtain ⟨t₀, ht₀, hreq, hsub, hbefore | ⟨i, rfl, hi, hl⟩⟩ := removed_step ht hremoved
    · obtain ⟨s, hs⟩ := h.locked t₀ ht₀ hbefore
      exact ⟨s, hsub hs⟩
    · obtain ⟨s, hs⟩ :=
        ((h.meets.exec (system instanceId) hi hl).removes rfl (hreq ▸ hremoved.1)).2.1
      exact ⟨s, hsub hs⟩
  · intro t ht hremoved hshutdown
    obtain ⟨t₀, ht₀, hreq, hsub, hbefore | ⟨i, rfl, hi, hl⟩⟩ := removed_step ht hremoved
    · obtain ⟨s, hs⟩ := h.ended t₀ ht₀ hbefore (hreq ▸ hshutdown)
      exact ⟨s, hsub hs⟩
    · obtain ⟨s, hs⟩ := (h.meets.exec (system instanceId) hi hl).joins rfl (hreq ▸ hshutdown)
      exact ⟨s, hsub hs⟩
  · intro t ht hremoved
    obtain ⟨t₀, ht₀, hreq, -, hbefore | ⟨i, rfl, hi, hl⟩⟩ := removed_step ht hremoved
    · cases e with
      | spawn call => exact h.gone t₀ ht₀ hbefore
      | env others =>
        have hout := h.gone t₀ ht₀ hbefore
        simp [System.step, system, hout]
      | exec i =>
        rcases h.meets.exec_cases (system instanceId) i with ⟨hidle, -⟩ | ⟨t₁, l, hi, hl, hmove⟩
        · rw [hidle]
          exact h.gone t₀ ht₀ hbefore
        · exact h.stays_gone hbeat rfl hi hl ht₀ hbefore hmove
    · exact ((h.meets.exec (system instanceId) hi hl).removes rfl (hreq ▸ hremoved.1)).1

/-- A heartbeat that reaches Redis after the return puts the id back. -/
theorem noBeatAfter_of_staysOut (h : Tracked instanceId c)
    (hout : StaysOut instanceId (step instanceId c e)) :
    NoBeatAfter c e := by
  rintro i t rfl ht hl hbeats t' ht' hreturned
  exfalso
  have hwaits : ¬ waits c (.exec i) = true := by simp [waits, ht, hl]
  unfold Registration.step System.stepUnless at hout
  rw [if_neg hwaits] at hout
  have hin := (h.meets.exec (system instanceId) ht hl).beats rfl hbeats
  -- the thread that has returned is another one, and stays
  obtain ⟨j, hj⟩ := List.mem_iff_getElem?.mp ht'
  have hij : i ≠ j := by
    rintro rfl
    cases ht.symm.trans hj
    have hresult := hreturned.2
    unfold Thread.next? at hl
    unfold Thread.result? at hresult
    cases hrest : t.rest <;> simp [hrest] at hl hresult
  have hstays : t' ∈ ((system instanceId).step c (.exec i)).threads := by
    apply List.mem_of_getElem? (i := j)
    simp only [System.step, ht]
    rw [List.getElem?_set_ne hij]
    exact hj
  exact hout t' hstays hreturned hin

theorem Tracked.init {s : Registry} (hs : s.stopped = true → s.busy = false) :
    Tracked instanceId (.init s) where
  meets := fun _ ht => nomatch ht
  lock := .init s
  task := .init s
  stopped := hs
  joined := nofun
  locked := nofun
  ended := nofun
  gone := nofun

end Runs

/-- **When a deregistered instance stays deregistered.** Once a call has returned `Ok` the registry
never has the id again, in any interleaving of heartbeats, syncs, refreshes and calls, exactly if no
heartbeat reaches Redis after a `force_deregister` has returned; after a `shutdown` none does. -/
theorem deregistered_stays_out_iff (instanceId : String) (instances : Finset String)
    (es : List REv) :
    Along (step instanceId) (fun c e => StaysOut instanceId (step instanceId c e))
      (.init { instances }) es ↔
      Along (step instanceId) NoBeatAfter (.init { instances }) es := by
  apply along_congr_of_invariant (I := Tracked instanceId)
  · intro c e h
    exact ⟨noBeatAfter_of_staysOut h, fun hbeat => (h.step hbeat).staysOut⟩
  · intro c e h hout
    exact h.step (noBeatAfter_of_staysOut h hout)
  · exact Tracked.init nofun

/-- `force_deregister` has returned, and the heartbeat task is about to send. -/
def beatAfterReturn : List REv :=
  [.spawn (.forceDeregister .done .done), .exec 0, .exec 0, .exec 0, .exec 0,
    .spawn (.heartbeat .done none), .exec 1,
    .exec 1]

/-- **It happens.** The heartbeat puts the id back. -/
theorem heartbeat_registers_again :
    ¬ Along (step "me") (fun c e => StaysOut "me" (step "me" c e)) (.init { instances := {"me"} })
      (beatAfterReturn ++ [.exec 1]) := by
  intro h
  have hlast := along_iff_split.mp h beatAfterReturn (.exec 1) [] rfl
  obtain ⟨t, ht, hreturned⟩ := Conf.exists_thread
    (c := step "me" (run (step "me") (.init { instances := {"me"} }) beatAfterReturn) (.exec 1))
      (i := 0)
    (p := fun t => t.req.deregisters && t.result? == some (.ok ())) (by decide)
  simp only [Bool.and_eq_true, beq_iff_eq] at hreturned
  exact absurd (hlast t (List.mem_of_getElem? ht) hreturned) (by decide)

end Keycast.Cluster.Registration
