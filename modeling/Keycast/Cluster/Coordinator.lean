import Keycast.Cluster.Ring
import Keycast.Lib.Interleave

/-!
# `Cluster/Coordinator.lean` — keeping the ring up to date

`coordinator.rs` of `cluster-hashring`. Three writers change the ring: the Pub/Sub task, message by
message; the periodic full sync of the heartbeat task; and `refresh`, for whoever calls it. The ring
is behind a pointer that is loaded and stored; a sync and a refresh hold the lock of the registry,
the Pub/Sub task does not. What the registry answers is an argument of each call.

Here each call runs by itself. The full sync compares what it fetches with what it fetched last, not
with the ring, and sends its events before it stores; `refresh` sends none.

Both results are equivalences over histories of calls. For full sync each tick is compared with what
it fetched last (`InStep`), since that is what it looks at. For the events a subscriber is a fold
(`replay`), and replaying events that the membership reflects does not change it
(`replay_reflected`). A message is announced after its store and always in time; a full sync sends
before it stores (`sentInTime_tick_iff`) and a refresh sends nothing, so these are faithful exactly
if they fetch what the ring has anyway.
-/

set_option autoImplicit false

namespace Keycast.Cluster

open Lib

inductive MembershipEvent
  | joined (instanceId : String)
  | left (instanceId : String)
  deriving DecidableEq, Repr

/-- A message of the channel, parsed. -/
structure PubSubMessage where
  event : String
  instanceId : String
  deriving DecidableEq, Repr

/-- The ring, the set the heartbeat task has fetched last, all events sent so far, and the lock of
the registry. -/
structure Coordinator where
  ring : HashRing
  previousMembers : Finset String
  events : List MembershipEvent := []
  locked : Bool := false

/-- The membership of the ring. -/
def Coordinator.members (s : Coordinator) : Finset String := s.ring.currentInstances

inductive ClusterStmt
  | lock
  | unlock
  | cleanupStale
  | getActiveInstances
  | previousMembers
  | load
  | store
  | setPreviousMembers
  | send (event : MembershipEvent)
  deriving DecidableEq, Repr

abbrev ClusterProg := Prog ClusterStmt Coordinator String Unit

/-- The order in which a `HashSet` is iterated. -/
structure SetOrder where
  list : Finset String → List String
  mem_list : ∀ s x, x ∈ list s ↔ x ∈ s

/-! ## The three writers -/

def sendEvent (event : MembershipEvent) : ClusterProg :=
  .write (.send event) fun s => { s with events := s.events ++ [event] }

def sendAll : List MembershipEvent → ClusterProg
  | [] => .ret ()
  | event :: events => (sendEvent event).bind fun _ => sendAll events

def lock : ClusterProg := .write .lock fun s => { s with locked := true }

def unlock : ClusterProg := .write .unlock fun s => { s with locked := false }

/-- The body of `run_pubsub_loop` for one message. -/
def processMessage (myInstanceId : String) (m : PubSubMessage) : ClusterProg :=
  if m.instanceId = myInstanceId then .ret ()
  else if m.event = "join" then do
    let ring ← .read .load (·.ring)
    .write .store fun s => { s with ring := ring.addInstance m.instanceId }
    sendEvent (.joined m.instanceId)
  else if m.event = "leave" then do
    let ring ← .read .load (·.ring)
    .write .store fun s => { s with ring := ring.removeInstance m.instanceId }
    sendEvent (.left m.instanceId)
  else .ret ()

/-- The sync branch of the heartbeat task. -/
def syncTick (order : SetOrder) (fetched : Except String (List String)) : ClusterProg := do
  lock
  .write .getActiveInstances id
  match fetched with
  | .ok instances =>
    let currentMembers := instances.toFinset
    let previousMembers ← .read .previousMembers (·.previousMembers)
    sendAll ((order.list (currentMembers \ previousMembers)).map .joined)
    sendAll ((order.list (previousMembers \ currentMembers)).map .left)
    if currentMembers ≠ previousMembers then
      let ring ← .read .load (·.ring)
      .write .store fun s => { s with ring := ring.rebuild instances }
      .write .setPreviousMembers fun s => { s with previousMembers := currentMembers }
      unlock
    else unlock
  | .error _ => unlock

/-- `refresh`. -/
def refresh (cleaned : Except String Unit) (fetched : Except String (List String)) :
    ClusterProg := do
  lock
  .write .cleanupStale id
  match cleaned with
  | .error e =>
    unlock
    .err e
  | .ok () =>
    .write .getActiveInstances id
    match fetched with
    | .error e =>
      unlock
      .err e
    | .ok instances =>
      let ring ← .read .load (·.ring)
      .write .store fun s => { s with ring := ring.rebuild instances }
      unlock

inductive ClusterCall
  | message (m : PubSubMessage)
  | tick (fetched : Except String (List String))
  | refresh (cleaned : Except String Unit) (fetched : Except String (List String))

def callProg (myInstanceId : String) (order : SetOrder) : ClusterCall → ClusterProg
  | .message m => processMessage myInstanceId m
  | .tick fetched => syncTick order fetched
  | .refresh cleaned fetched => refresh cleaned fetched

/-- A call that nobody interrupts. -/
def callStep (myInstanceId : String) (order : SetOrder) (s : Coordinator) (call : ClusterCall) :
    Coordinator :=
  ((callProg myInstanceId order call).run s).2

/-! ## What a call does -/

section Calls

variable {myInstanceId : String} {order : SetOrder} {s : Coordinator}

theorem run_sendAll (events : List MembershipEvent) (s : Coordinator) :
    (sendAll events).run s = (.ok (), { s with events := s.events ++ events }) := by
  induction events generalizing s with
  | nil => simp [sendAll]
  | cons event events ih =>
    rw [sendAll, sendEvent, Prog.write_bind, Prog.run_atom, ih]
    simp

theorem callStep_message (m : PubSubMessage) :
    callStep myInstanceId order s (.message m) =
      if m.instanceId = myInstanceId then s
      else if m.event = "join" then
        { s with
          ring := s.ring.addInstance m.instanceId, events := s.events ++ [.joined m.instanceId] }
      else if m.event = "leave" then
        { s with
          ring := s.ring.removeInstance m.instanceId, events := s.events ++ [.left m.instanceId] }
      else s := by
  simp only [callStep, callProg, processMessage]
  split
  · rfl
  split
  · rfl
  split
  · rfl
  · rfl

/-- What a full sync sends: what has changed since the last one. -/
def syncEvents (order : SetOrder) (currentMembers previousMembers : Finset String) :
    List MembershipEvent :=
  (order.list (currentMembers \ previousMembers)).map .joined ++
    (order.list (previousMembers \ currentMembers)).map .left

theorem callStep_tick_ok (instances : List String) :
    callStep myInstanceId order s (.tick (.ok instances)) =
      { s with
        ring := if instances.toFinset ≠ s.previousMembers then s.ring.rebuild instances else s.ring
        previousMembers := instances.toFinset
        events := s.events ++ syncEvents order instances.toFinset s.previousMembers
        locked := false } := by
  simp only [callStep, callProg, syncTick, lock, Prog.bind_def, Prog.write_bind, Prog.run_atom,
    Prog.read_bind,
    Prog.run_bind, run_sendAll, id, syncEvents, List.append_assoc]
  split
  · rfl
  · next hsame =>
    rw [not_not] at hsame
    rw [hsame]
    rfl

theorem members_tick (instances : List String) :
    (callStep myInstanceId order s (.tick (.ok instances))).members =
      if instances.toFinset ≠ s.previousMembers then instances.toFinset else s.members := by
  rw [callStep_tick_ok]
  simp only [Coordinator.members]
  split
  · exact HashRing.rebuild_currentInstances _ _
  · rfl

theorem callStep_refresh_ok (instances : List String) :
    callStep myInstanceId order s (.refresh (.ok ()) (.ok instances)) =
      { s with ring := s.ring.rebuild instances, locked := false } := rfl

theorem callStep_refresh_error (cleaned : Except String Unit) (e : String) :
    callStep myInstanceId order s (.refresh cleaned (.error e)) = { s with locked := false } := by
  cases cleaned with
  | error e => rfl
  | ok u => rfl

end Calls

/-! ## Full sync -/

/-- A full sync leaves the ring with the set it has fetched. -/
def Repairs (myInstanceId : String) (order : SetOrder) (s : Coordinator)
    (call : ClusterCall) : Prop :=
  ∀ instances, call = .tick (.ok instances) →
    (callStep myInstanceId order s call).members = instances.toFinset

/-- A full sync that fetches the set of the last one finds it in the ring. -/
def InStep (s : Coordinator) (call : ClusterCall) : Prop :=
  ∀ instances, call = .tick (.ok instances) → instances.toFinset ≠ s.previousMembers ∨
    s.members = instances.toFinset

theorem repairs_iff {myInstanceId : String} {order : SetOrder} {s : Coordinator}
    {call : ClusterCall} :
    Repairs myInstanceId order s call ↔ InStep s call := by
  refine forall_congr' fun instances => forall_congr' ?_
  rintro rfl
  rw [members_tick]
  by_cases hchanged : instances.toFinset ≠ s.previousMembers
  · rw [if_pos hchanged]
    exact ⟨fun _ => .inl hchanged, fun _ => rfl⟩
  · rw [if_neg hchanged]
    exact ⟨.inr, fun h => h.resolve_left hchanged⟩

/-- **When the full sync repairs the ring.** In every history its ticks do exactly if each of them
fetches another set than the last one, or what the ring has anyway. -/
theorem full_sync_repairs_iff (myInstanceId : String) (order : SetOrder) (s : Coordinator)
    (calls : List ClusterCall) :
    Along (callStep myInstanceId order) (Repairs myInstanceId order) s calls ↔
      Along (callStep myInstanceId order) InStep s calls := by
  constructor
  · exact Along.mono fun _ _ => repairs_iff.mp
  · exact Along.mono fun _ _ => repairs_iff.mpr

/-- Any order. -/
noncomputable def someOrder : SetOrder := ⟨Finset.toList, fun _ _ => Finset.mem_toList⟩

/-- An instance alone in the cluster. -/
def alone : Coordinator := { ring := (HashRing.new "me").rebuild ["me"], previousMembers := {"me"} }

/-- **It happens.** Somebody who never registered announces itself; the registry still has one
instance, and full sync leaves the ring with two. -/
theorem full_sync_leaves_ghost :
    ¬ Along (callStep "me" someOrder) (Repairs "me" someOrder) alone
      [.message ⟨"join", "ghost"⟩, .tick (.ok ["me"])] := by
  intro h
  have hrepaired := h.2.1 ["me"] rfl
  rw [callStep_tick_ok, callStep_message] at hrepaired
  revert hrepaired
  decide

/-! ## The event stream -/

def MembershipEvent.apply (members : Finset String) : MembershipEvent → Finset String
  | .joined instanceId => insert instanceId members
  | .left instanceId => members.erase instanceId

/-- What a subscriber makes of the events. -/
def replay (members : Finset String) (events : List MembershipEvent) : Finset String :=
  events.foldl MembershipEvent.apply members

/-- The membership is as the event says. -/
def MembershipEvent.Reflected (members : Finset String) : MembershipEvent → Prop
  | .joined instanceId => instanceId ∈ members
  | .left instanceId => instanceId ∉ members

/-- Each event of the call is sent when the ring reflects it. -/
def SentInTime (myInstanceId : String) (order : SetOrder) (s : Coordinator)
    (call : ClusterCall) : Prop :=
  ∀ x ∈ (callProg myInstanceId order call).trace s, ∀ event, x.1 = .send event →
    event.Reflected x.2.members

/-- What a subscriber has received since `s₀`. -/
def received (s₀ s : Coordinator) : List MembershipEvent := s.events.drop s₀.events.length

/-- The call sends its events in time, and after it the subscriber of `s₀` has the membership. -/
def Faithful (myInstanceId : String) (order : SetOrder) (s₀ s : Coordinator)
    (call : ClusterCall) : Prop :=
  SentInTime myInstanceId order s call ∧
    replay s₀.members (received s₀ (callStep myInstanceId order s call)) =
      (callStep myInstanceId order s call).members

/-- A refresh, or a full sync that fetches another set than the last one, fetches what the ring
has. -/
def FetchesMembers (s : Coordinator) : ClusterCall → Prop
  | .tick (.ok instances) => instances.toFinset = s.previousMembers ∨ instances.toFinset = s.members
  | .refresh (.ok ()) (.ok instances) => instances.toFinset = s.members
  | _ => True

section Events

variable {myInstanceId : String} {order : SetOrder} {s₀ s : Coordinator} {members : Finset String}

theorem replay_append (members : Finset String) (events events' : List MembershipEvent) :
    replay members (events ++ events') = replay (replay members events) events' := List.foldl_append

/-- Events that the membership reflects do not change it. -/
theorem replay_reflected {events : List MembershipEvent}
    (h : ∀ event ∈ events, event.Reflected members) :
    replay members events = members := by
  induction events with
  | nil => rfl
  | cons event events ih =>
    have hfirst : event.apply members = members := by
      have hreflected := h event List.mem_cons_self
      cases event with
      | joined instanceId => exact Finset.insert_eq_of_mem hreflected
      | left instanceId => exact Finset.erase_eq_of_notMem hreflected
    show replay (event.apply members) events = members
    rw [hfirst]
    exact ih fun event' hevent' => h event' (List.mem_cons_of_mem _ hevent')

theorem mem_syncEvents {current previous : Finset String} {event : MembershipEvent} :
    event ∈ syncEvents order current previous ↔
      (∃ x, x ∈ current ∧ x ∉ previous ∧ event = .joined x) ∨ ∃ x, x ∈ previous ∧ x ∉ current ∧
        event = .left x := by
  simp only [syncEvents, List.mem_append, List.mem_map, order.mem_list, Finset.mem_sdiff]
  constructor
  · rintro (⟨x, hx, rfl⟩ | ⟨x, hx, rfl⟩)
    · exact .inl ⟨x, hx.1, hx.2, rfl⟩
    · exact .inr ⟨x, hx.1, hx.2, rfl⟩
  · rintro (⟨x, hx, hx', rfl⟩ | ⟨x, hx, hx', rfl⟩)
    · exact .inl ⟨x, ⟨hx, hx'⟩, rfl⟩
    · exact .inr ⟨x, ⟨hx, hx'⟩, rfl⟩

theorem mem_trace_sendAll {events : List MembershipEvent} {x : ClusterStmt × Coordinator}
    (hx : x ∈ (sendAll events).trace s) : ∃ event ∈ events, x.1 = .send event ∧
      x.2.members = s.members := by
  induction events generalizing s with
  | nil => cases hx
  | cons event events ih =>
    rcases List.mem_cons.mp hx with rfl | hx
    · exact ⟨event, List.mem_cons_self, rfl, rfl⟩
    · obtain ⟨event', hevent', hsend, hmembers⟩ := ih hx
      exact ⟨event', List.mem_cons_of_mem _ hevent', hsend, hmembers⟩

theorem exists_mem_trace_sendAll {events : List MembershipEvent} {event : MembershipEvent}
    (h : event ∈ events)
    (s : Coordinator) : ∃ x ∈ (sendAll events).trace s, x.1 = .send event ∧
      x.2.members = s.members := by
  induction events generalizing s with
  | nil => cases h
  | cons event' events ih =>
    rcases List.mem_cons.mp h with rfl | h
    · exact ⟨_, List.mem_cons_self, rfl, rfl⟩
    · obtain ⟨x, hx, hsend, hmembers⟩ := ih h { s with events := s.events ++ [event'] }
      exact ⟨x, List.mem_cons_of_mem _ hx, hsend, hmembers⟩

/-- A full sync sends its events before it stores. -/
theorem sentInTime_tick_iff (instances : List String) :
    SentInTime myInstanceId order s (.tick (.ok instances)) ↔
      ∀ event ∈ syncEvents order instances.toFinset s.previousMembers,
        event.Reflected s.members := by
  -- the statements of a tick: two sequences of sends, and others that are none
  have htrace : ∀ x : ClusterStmt × Coordinator, (∃ event, x.1 = .send event) →
      (x ∈ (callProg myInstanceId order (.tick (.ok instances))).trace s ↔
        x ∈ (sendAll ((order.list (instances.toFinset \ s.previousMembers)).map .joined)).trace
          { s with locked := true } ∨
        x ∈ (sendAll ((order.list (s.previousMembers \ instances.toFinset)).map .left)).trace
          { s with
            locked := true
            events :=
              s.events ++ (order.list (instances.toFinset \ s.previousMembers)).map .joined }) := by
    rintro ⟨l, s'⟩ ⟨event, rfl⟩
    simp only [callProg, syncTick, lock, Prog.bind_def, Prog.write_bind, Prog.read_bind, Prog.trace,
      List.mem_cons,
      Prog.mem_trace_bind, Prod.mk.injEq, reduceCtorEq, false_and, false_or,
        run_sendAll, exists_const,
      exists_eq_left', true_and, id]
    have hrest : ∀ s₁ : Coordinator, (ClusterStmt.send event, s') ∉ Prog.trace
        (if instances.toFinset ≠ s.previousMembers then
          .atom .load id fun s₂ =>
            .atom .store (fun s => { s with ring := s₂.ring.rebuild instances }) fun _ =>
            .atom .setPreviousMembers (fun s => { s with previousMembers := instances.toFinset })
              fun _ => unlock
        else unlock) s₁ := by
      intro s₁ hmem
      split at hmem
      · simp [Prog.trace, unlock, Prog.write] at hmem
      · simp [Prog.trace, unlock, Prog.write] at hmem
    constructor
    · rintro (h | h | h)
      · exact .inl h
      · exact .inr h
      · exact absurd h (hrest _)
    · rintro (h | h)
      · exact .inl h
      · exact .inr (.inl h)
  constructor
  · intro h event hevent
    rcases List.mem_append.mp hevent with hevent | hevent
    · obtain ⟨x, hx, hsend, hmembers⟩ := exists_mem_trace_sendAll hevent { s with locked := true }
      exact hmembers ▸ h x ((htrace x ⟨event, hsend⟩).mpr (.inl hx)) event hsend
    · obtain ⟨x, hx, hsend, hmembers⟩ := exists_mem_trace_sendAll hevent
        { s with
          locked := true
          events := s.events ++ (order.list (instances.toFinset \ s.previousMembers)).map .joined }
      exact hmembers ▸ h x ((htrace x ⟨event, hsend⟩).mpr (.inr hx)) event hsend
  · intro h x hx event hsend
    rcases (htrace x ⟨event, hsend⟩).mp hx with hx | hx
    · obtain ⟨event', hevent', hsend', hmembers⟩ := mem_trace_sendAll hx
      cases hsend.symm.trans hsend'
      rw [hmembers]
      exact h event (List.mem_append_left _ hevent')
    · obtain ⟨event', hevent', hsend', hmembers⟩ := mem_trace_sendAll hx
      cases hsend.symm.trans hsend'
      rw [hmembers]
      exact h event (List.mem_append_right _ hevent')

/-- A subscriber of `s₀` knows the membership. -/
def Informed (s₀ s : Coordinator) : Prop :=
  s₀.events <+: s.events ∧ replay s₀.members (received s₀ s) = s.members

theorem Informed.replay_after (h : Informed s₀ s) {s' : Coordinator} {events : List MembershipEvent}
    (hevents : s'.events = s.events ++ events) :
    replay s₀.members (received s₀ s') = replay s.members events := by
  rw [received, hevents, List.drop_append_of_le_length h.1.length_le, replay_append]
  exact congrArg (replay · events) h.2

theorem callStep_events (call : ClusterCall) :
    s.events <+: (callStep myInstanceId order s call).events := by
  cases call with
  | message m =>
    rw [callStep_message]
    split
    · exact List.prefix_rfl
    split
    · exact List.prefix_append _ _
    split
    · exact List.prefix_append _ _
    · exact List.prefix_rfl
  | tick fetched =>
    cases fetched with
    | error e => exact List.prefix_rfl
    | ok instances =>
      rw [callStep_tick_ok]
      exact List.prefix_append _ _
  | refresh cleaned fetched =>
    cases fetched with
    | error e =>
      rw [callStep_refresh_error]
    | ok instances =>
      cases cleaned with
      | error e => exact List.prefix_rfl
      | ok u => exact List.prefix_rfl

theorem faithful_message (h : Informed s₀ s) (m : PubSubMessage) :
    Faithful myInstanceId order s₀ s (.message m) := by
  simp only [Faithful, SentInTime, callStep_message, callProg, processMessage]
  split
  · exact ⟨nofun, h.2⟩
  split
  · constructor
    · simp [Prog.trace, Prog.bind_def, Prog.read_bind, sendEvent, Prog.write, Coordinator.members,
        MembershipEvent.Reflected, HashRing.addInstance_currentInstances]
    · rw [h.replay_after rfl]
      exact (HashRing.addInstance_currentInstances _ _).symm
  split
  · constructor
    · simp [Prog.trace, Prog.bind_def, Prog.read_bind, sendEvent, Prog.write, Coordinator.members,
        MembershipEvent.Reflected, HashRing.removeInstance_currentInstances]
    · rw [h.replay_after rfl]
      exact (HashRing.removeInstance_currentInstances _ _).symm
  · exact ⟨nofun, h.2⟩

/-- A call that sends nothing. -/
theorem faithful_quiet_iff (h : Informed s₀ s) {call : ClusterCall}
    (hquiet : ∀ x ∈ (callProg myInstanceId order call).trace s, ∀ event, x.1 ≠ .send event)
    (hevents : (callStep myInstanceId order s call).events = s.events) :
    Faithful myInstanceId order s₀ s call ↔
      (callStep myInstanceId order s call).members = s.members := by
  have hreplay : replay s₀.members (received s₀ (callStep myInstanceId order s call)) = s.members :=
    h.replay_after (hevents.trans (List.append_nil _).symm)
  rw [Faithful, hreplay]
  exact ⟨fun hfaithful => hfaithful.2.symm,
    fun hmembers => ⟨fun x hx event hsend => absurd hsend (hquiet x hx event), hmembers.symm⟩⟩

theorem faithful_tick_iff (h : Informed s₀ s) (instances : List String) :
    Faithful myInstanceId order s₀ s (.tick (.ok instances)) ↔
      FetchesMembers s (.tick (.ok instances)) := by
  have hreplay :
    replay s₀.members (received s₀ (callStep myInstanceId order s (.tick (.ok instances)))) =
      replay s.members (syncEvents order instances.toFinset s.previousMembers) := by
    apply h.replay_after
    rw [callStep_tick_ok]
  rw [Faithful, sentInTime_tick_iff, hreplay, members_tick]
  constructor
  · rintro ⟨htime, hknown⟩
    rw [replay_reflected htime] at hknown
    by_cases hchanged : instances.toFinset ≠ s.previousMembers
    · rw [if_pos hchanged] at hknown
      exact .inr hknown.symm
    · exact .inl (not_not.mp hchanged)
  · intro hfetched
    have htime : ∀ event ∈ syncEvents order instances.toFinset s.previousMembers,
      event.Reflected s.members := by
      intro event hevent
      rcases mem_syncEvents.mp hevent with ⟨x, hx, hx', rfl⟩ | ⟨x, hx, hx', rfl⟩
      · rcases hfetched with hsame | hsame
        · exact absurd (hsame ▸ hx) hx'
        · exact hsame ▸ hx
      · rcases hfetched with hsame | hsame
        · exact absurd (hsame ▸ hx) hx'
        · exact hsame ▸ hx'
    refine ⟨htime, (replay_reflected htime).trans ?_⟩
    split
    · next hchanged => exact (hfetched.resolve_left hchanged).symm
    · rfl

theorem faithful_iff (h : Informed s₀ s) (call : ClusterCall) :
    Faithful myInstanceId order s₀ s call ↔ FetchesMembers s call := by
  cases call with
  | message m => exact iff_of_true (faithful_message h m) trivial
  | tick fetched =>
    cases fetched with
    | ok instances => exact faithful_tick_iff h instances
    | error e =>
      have hquiet : ∀ x ∈ (callProg myInstanceId order (.tick (.error e))).trace s, ∀ event,
        x.1 ≠ .send event := by
        simp [callProg, syncTick, Prog.trace, lock, unlock, Prog.write, Prog.bind_def, Prog.bind]
      exact iff_of_true ((faithful_quiet_iff h hquiet rfl).mpr rfl) trivial
  | refresh cleaned fetched =>
    have hquiet : ∀ x ∈ (callProg myInstanceId order (.refresh cleaned fetched)).trace s, ∀ event,
      x.1 ≠ .send event := by
      rcases cleaned with e | u <;> rcases fetched with e | instances <;>
        simp [callProg, refresh, Prog.trace, lock, unlock, Prog.write, Prog.read,
          Prog.bind_def, Prog.bind]
    cases cleaned with
    | error e => exact iff_of_true ((faithful_quiet_iff h hquiet rfl).mpr rfl) trivial
    | ok u =>
      cases fetched with
      | error e => exact iff_of_true ((faithful_quiet_iff h hquiet rfl).mpr rfl) trivial
      | ok instances =>
        rw [faithful_quiet_iff h hquiet rfl, callStep_refresh_ok, Coordinator.members,
          HashRing.rebuild_currentInstances]
        rfl

end Events

/-- **When the event stream is faithful.** Whoever subscribes in `s₀` gets every event in time and
knows the membership after every call, exactly if each refresh, and each full sync that finds a
change, fetches what the ring has already. -/
theorem event_stream_faithful_iff (myInstanceId : String) (order : SetOrder) (s₀ : Coordinator)
    (calls : List ClusterCall) :
    Along (callStep myInstanceId order) (Faithful myInstanceId order s₀) s₀ calls ↔
      Along (callStep myInstanceId order) FetchesMembers s₀ calls := by
  apply along_congr_of_invariant (I := Informed s₀)
  · intro s call h
    exact faithful_iff h call
  · intro s call h hfaithful
    exact ⟨h.1.trans (callStep_events call), hfaithful.2⟩
  · refine ⟨List.prefix_rfl, ?_⟩
    rw [received, List.drop_length]
    rfl

/-- **It happens.** A refresh finds a second instance and tells nobody. -/
theorem refresh_is_silent :
    ¬ Along (callStep "me" someOrder) (Faithful "me" someOrder alone) alone
      [.refresh (.ok ()) (.ok ["me", "b"])] := by
  intro h
  have hknown := h.1.2
  rw [callStep_refresh_ok] at hknown
  revert hknown
  decide

end Keycast.Cluster
