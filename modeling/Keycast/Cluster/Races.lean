import Keycast.Cluster.Coordinator
import Keycast.Lib.Histories

/-!
# `Cluster/Races.lean` — the writers of the ring, interleaved

The calls of `Cluster/Coordinator.lean`, statement by statement. The load and the store of the ring
are two statements. Two things keep calls apart: whoever wants the lock of the registry waits for
it, and the Pub/Sub task is one task, so that a message waits for the one before it. Beside the
threads runs a log that says, in the order in which it happens, which message has been processed,
which call has fetched and which has stored.

A message is never lost to another message. It is lost to a call that has fetched before it and
stores after it.

The log is what the property is about, and `Tracked` ties it to the threads: one message at most has
loaded the ring and not stored yet, and the ring it has loaded agrees with the live messages.
`RaceStep` sorts the events by what they do to the membership: nothing, the store of a message, or
the store of a fetched set. In the first two cases the membership goes on agreeing with the live
messages, the second because nobody loads while a message is in the middle (`waits_of_loaded`); in
the third it does exactly if the condition holds of that store.
-/

set_option autoImplicit false

namespace Keycast.Cluster

open Lib

abbrev RingThread := Thread ClusterCall ClusterStmt Coordinator String Unit

abbrev RingConf := Conf ClusterCall ClusterStmt Coordinator String Unit

abbrev RingEv := Ev ClusterCall Empty

def ringSystem (myInstanceId : String) (order : SetOrder) :
    System ClusterCall ClusterStmt Coordinator String Unit Empty where
  prog := callProg myInstanceId order
  env e := nomatch e

def ClusterCall.isMessage : ClusterCall → Bool
  | .message _ => true
  | _ => false

/-- The set a sync or a refresh stores, if it does. -/
def ClusterCall.fetched? : ClusterCall → Option (Finset String)
  | .tick (.ok instances) => some instances.toFinset
  | .refresh _ (.ok instances) => some instances.toFinset
  | _ => none

/-- In the middle of a message. -/
def processing (t : RingThread) : Bool := t.req.isMessage && !t.seen.isEmpty && t.next?.isSome

/-- Whether the next statement of a thread has to wait: for the lock, or for the message before
it. -/
def waits (c : RingConf) : RingEv → Bool
  | .exec i =>
    match c.threads[i]? with
    | some t =>
      (t.next? == some .lock && c.state.locked) ||
        (t.req.isMessage && t.seen.isEmpty && c.threads.any processing)
    | none => false
  | _ => false

inductive LogEntry
  | processed (instanceId : String) (joined : Bool)
  | fetched (thread : Nat)
  | stored (thread : Nat)
  deriving DecidableEq, Repr

/-- What an event adds to the log. -/
def logged (c : RingConf) : RingEv → List LogEntry
  | .exec i =>
    match c.threads[i]? with
    | some t =>
      match t.next?, t.req with
      | some .getActiveInstances, _ => [.fetched i]
      | some .store, .message m => [.processed m.instanceId (m.event == "join")]
      | some .store, _ => [.stored i]
      | _, _ => []
    | none => []
  | _ => []

structure RingRun where
  conf : RingConf
  log : List LogEntry

def RingRun.start (s : Coordinator) : RingRun := ⟨.init s, []⟩

def raceStep (myInstanceId : String) (order : SetOrder) (r : RingRun) (e : RingEv) : RingRun :=
  if waits r.conf e then r
  else ⟨(ringSystem myInstanceId order).step r.conf e, r.log ++ logged r.conf e⟩

/-! ## What the log says -/

/-- A message that has been processed, with no later one for its id, and no call has fetched and
then stored since. -/
def Live (log : List LogEntry) (instanceId : String) (joined : Bool) : Prop :=
  ∃ pre post, log = pre ++ .processed instanceId joined :: post ∧
    (∀ j, .processed instanceId j ∉ post) ∧
    ∀ i, ¬ [LogEntry.fetched i, .stored i].Sublist post

/-- The membership is as the live messages say. -/
def Agrees (log : List LogEntry) (members : Finset String) : Prop :=
  ∀ instanceId joined, Live log instanceId joined → (instanceId ∈ members ↔ joined = true)

def Reflects (r : RingRun) : Prop := Agrees r.log r.conf.state.members

/-- A call that stores has fetched what the messages that stay live say. -/
def StoresAgree (r : RingRun) (e : RingEv) : Prop :=
  ∀ i t fetched, e = .exec i → r.conf.threads[i]? = some t → t.next? = some .store →
    t.req.fetched? = some fetched →
    Agrees (r.log ++ [.stored i]) fetched

section Log

variable {log : List LogEntry} {x : LogEntry} {instanceId : String} {joined : Bool}
  {members : Finset String}

theorem live_snoc (h : Live (log ++ [x]) instanceId joined) :
    x = .processed instanceId joined ∨ Live log instanceId joined ∧
      ∀ j, x ≠ .processed instanceId j := by
  obtain ⟨pre, post, heq, hlast, hstored⟩ := h
  rcases List.eq_nil_or_concat post with rfl | ⟨post, y, rfl⟩
  · left
    exact (List.append_inj' heq rfl).2 |> List.cons.inj |>.1
  · right
    rw [List.concat_eq_append] at heq hlast hstored
    obtain ⟨rfl, hxy⟩ :=
      List.append_inj' (heq.trans (List.append_assoc pre (_ :: post) [y]).symm) rfl
    obtain rfl : x = y := (List.cons.inj hxy).1
    refine ⟨⟨pre, post, rfl, ?_, ?_⟩, ?_⟩
    · exact fun j hj => hlast j (List.mem_append_left _ hj)
    · exact fun i hi => hstored i (hi.trans (List.sublist_append_left _ _))
    · intro j hj
      exact hlast j (List.mem_append_right _ (List.mem_singleton.mpr hj.symm))

/-- An entry that is no message leaves no message live that was not. -/
theorem Agrees.snoc (h : Agrees log members) (hx : ∀ id j, x ≠ .processed id j) :
    Agrees (log ++ [x]) members := by
  intro id j hlive
  rcases live_snoc hlive with heq | ⟨hlive, -⟩
  · exact absurd heq (hx id j)
  · exact h id j hlive

/-- A message, processed on a membership that agrees. -/
theorem Agrees.processed (h : Agrees log members) {members' : Finset String}
    (hown : instanceId ∈ members' ↔ joined = true)
    (hothers : ∀ id, id ≠ instanceId → (id ∈ members' ↔ id ∈ members)) :
    Agrees (log ++ [.processed instanceId joined]) members' := by
  intro id j hlive
  rcases live_snoc hlive with heq | ⟨hlive, hne⟩
  · cases heq
    exact hown
  · have hid : id ≠ instanceId := by
      rintro rfl
      exact hne joined rfl
    rw [hothers id hid]
    exact h id j hlive

end Log

/-! ## What a statement does -/

/-- What a message makes of a membership. -/
def PubSubMessage.apply (m : PubSubMessage) (members : Finset String) : Finset String :=
  if m.event = "join" then insert m.instanceId members else members.erase m.instanceId

/-- The statements of a sync or a refresh: a store is one of what it has fetched. -/
def FetchMove (call : ClusterCall) (l : ClusterStmt) (s s' : Coordinator) : Prop :=
  (l = .store → call.fetched? = some s'.members) ∧ (l ≠ .store → s'.members = s.members)

/-- The statements of a call, with what its thread has executed before. -/
def RingMove : ClusterCall → ClusterStmt → List (ClusterStmt × Coordinator) → Coordinator →
    Coordinator → Prop
  | .message m, l, seen, s, s' =>
    (l = .load ∧ seen = [] ∧ s' = s) ∨
      (l = .store ∧ ∃ s₀, seen = [(.load, s₀)] ∧ s'.members = m.apply s₀.members) ∨
      ((∃ event, l = .send event) ∧ (∀ s₀, seen ≠ [(.load, s₀)]) ∧ s'.members = s.members)
  | call, l, _, s, s' => FetchMove call l s s'

/-- A message that has loaded does not end there. -/
def RingEnd : ClusterCall → List (ClusterStmt × Coordinator) → Except String Unit → Prop
  | .message _, seen, _ => ∀ s₀, seen ≠ [(.load, s₀)]
  | _, _, _ => True

section Moves

variable {myInstanceId : String} {order : SetOrder}

theorem sendAll_does (call : ClusterCall) (events : List MembershipEvent) :
    (sendAll events).Does (FetchMove call) := by
  induction events with
  | nil => trivial
  | cons event events ih => exact fun s => ⟨⟨nofun, fun _ => rfl⟩, ih⟩

theorem syncTick_does (fetched : Except String (List String)) :
    (syncTick order fetched).Does (FetchMove (.tick fetched)) := by
  have hunlock : unlock.Does (FetchMove (.tick fetched)) := .write fun s => ⟨nofun, fun _ => rfl⟩
  refine fun s => ⟨⟨nofun, fun _ => rfl⟩, fun s => ⟨⟨nofun, fun _ => rfl⟩, ?_⟩⟩
  cases fetched with
  | error e => exact hunlock
  | ok instances =>
    refine fun s => ⟨⟨nofun, fun _ => rfl⟩, ?_⟩
    refine (sendAll_does _ _).bind fun _ => (sendAll_does _ _).bind fun _ => ?_
    split
    · refine fun s₀ => ⟨⟨nofun, fun _ => rfl⟩, fun s => ⟨⟨fun _ => ?_, fun h => absurd rfl h⟩, ?_⟩⟩
      · exact congrArg some (HashRing.rebuild_currentInstances s₀.ring instances).symm
      · exact fun s => ⟨⟨nofun, fun _ => rfl⟩, hunlock⟩
    · exact hunlock

theorem refresh_does (cleaned : Except String Unit) (fetched : Except String (List String)) :
    (refresh cleaned fetched).Does (FetchMove (.refresh cleaned fetched)) := by
  have hunlock : unlock.Does (FetchMove (.refresh cleaned fetched)) :=
    .write fun s => ⟨nofun, fun _ => rfl⟩
  refine fun s => ⟨⟨nofun, fun _ => rfl⟩, fun s => ⟨⟨nofun, fun _ => rfl⟩, ?_⟩⟩
  cases cleaned with
  | error e => exact hunlock.bind fun _ => trivial
  | ok u =>
    refine fun s => ⟨⟨nofun, fun _ => rfl⟩, ?_⟩
    cases fetched with
    | error e => exact hunlock.bind fun _ => trivial
    | ok instances =>
      refine fun s₀ =>
        ⟨⟨nofun, fun _ => rfl⟩, fun s => ⟨⟨fun _ => ?_, fun h => absurd rfl h⟩, hunlock⟩⟩
      exact congrArg some (HashRing.rebuild_currentInstances s₀.ring instances).symm

theorem processMessage_meets (m : PubSubMessage) :
    (processMessage myInstanceId m).Meets (RingMove (.message m)) (RingEnd (.message m)) [] := by
  have hsend : ∀ (event : MembershipEvent) (s₀ s : Coordinator),
      (sendEvent event).Meets (RingMove (.message m)) (RingEnd (.message m))
        [(.store, s), (.load, s₀)] :=
    fun event s₀ s s' => ⟨.inr (.inr ⟨⟨event, rfl⟩, nofun, rfl⟩), nofun⟩
  unfold processMessage
  split
  · exact nofun
  split
  · next hjoin =>
    refine fun s₀ => ⟨.inl ⟨rfl, rfl, rfl⟩, fun s => ⟨.inr (.inl ⟨rfl, s₀, rfl, ?_⟩), hsend _ s₀ s⟩⟩
    rw [PubSubMessage.apply, if_pos hjoin]
    exact HashRing.addInstance_currentInstances _ _
  split
  · next hjoin _ =>
    refine fun s₀ => ⟨.inl ⟨rfl, rfl, rfl⟩, fun s => ⟨.inr (.inl ⟨rfl, s₀, rfl, ?_⟩), hsend _ s₀ s⟩⟩
    rw [PubSubMessage.apply, if_neg hjoin]
    exact HashRing.removeInstance_currentInstances _ _
  · exact nofun

theorem callProg_meets (call : ClusterCall) :
    (callProg myInstanceId order call).Meets (RingMove call) (RingEnd call) [] := by
  cases call with
  | message m => exact processMessage_meets m
  | tick fetched => exact (syncTick_does fetched).meets id fun _ _ _ => trivial
  | refresh cleaned fetched => exact (refresh_does cleaned fetched).meets id fun _ _ _ => trivial

end Moves

/-! ## Runs -/

/-- A message that has loaded the ring of `s₀` and not stored yet. -/
def Loaded (c : RingConf) (i : Nat) (s₀ : Coordinator) : Prop :=
  ∃ t, c.threads[i]? = some t ∧ t.req.isMessage = true ∧ t.seen = [(.load, s₀)]

structure Tracked (r : RingRun) : Prop where
  meets : System.Meets RingMove RingEnd r.conf
  reflects : Reflects r
  loaded : ∀ (i : Nat) (s₀ : Coordinator), Loaded r.conf i s₀ → Agrees r.log s₀.members
  one : ∀ (i j : Nat) (s₀ s₁ : Coordinator), Loaded r.conf i s₀ → Loaded r.conf j s₁ → i = j

section Runs

variable {myInstanceId : String} {order : SetOrder} {r : RingRun} {c : RingConf}

/-- Who has loaded after a step had loaded before and not moved, or loads in the step. -/
theorem loaded_step {e : RingEv} {j : Nat} {s₀ : Coordinator}
    (h : Loaded ((ringSystem myInstanceId order).step c e) j s₀) :
    (Loaded c j s₀ ∧ (e = .exec j → ∀ t, c.threads[j]? = some t → t.next? = none)) ∨
      e = .exec j ∧ s₀ = c.state ∧ ∃ t, c.threads[j]? = some t ∧
        t.req.isMessage = true ∧ t.seen = [] ∧
        t.next? = some .load := by
  obtain ⟨t, ht, hmessage, hseen⟩ := h
  rcases System.getElem?_step _ ht with
    ⟨hold, hstay⟩ | ⟨call, -, rfl⟩ | ⟨t₀, l, he, hj, hl, hreq, hmoved⟩
  · refine .inl ⟨⟨t, hold, hmessage, hseen⟩, fun he t' ht' => ?_⟩
    cases hold.symm.trans ht'
    exact hstay he
  · cases hseen
  · rw [hmoved] at hseen
    obtain ⟨hfirst, hrest⟩ := List.cons.inj hseen
    cases hfirst
    exact .inr ⟨he, rfl, t₀, hj, hreq ▸ hmessage, hrest, hl⟩

/-- A message that has loaded is in the middle. -/
theorem Loaded.inMiddle (hmeets : System.Meets RingMove RingEnd c) {i : Nat} {s₀ : Coordinator}
    (h : Loaded c i s₀) : ∃ t, c.threads[i]? = some t ∧ processing t = true := by
  obtain ⟨t, ht, hmessage, hseen⟩ := h
  refine ⟨t, ht, ?_⟩
  have hnext : t.next?.isSome = true := by
    by_contra hnone
    obtain ⟨x, hx⟩ : ∃ x, t.result? = some x := by
      cases hrest : t.rest with
      | ret a => exact ⟨_, by simp only [Thread.result?, hrest]; rfl⟩
      | err e => exact ⟨_, by simp only [Thread.result?, hrest]; rfl⟩
      | atom l upd k => simp [Thread.next?, hrest] at hnone
    have hend := hmeets.result (List.mem_of_getElem? ht) hx
    cases hreq : t.req with
    | message m =>
      rw [hreq] at hend
      exact hend s₀ hseen
    | tick | refresh => simp [hreq, ClusterCall.isMessage] at hmessage
  simp [processing, hmessage, hseen, hnext]

/-- A waiting thread does not store. -/
theorem storesAgree_of_waits {e : RingEv} (h : waits r.conf e = true) : StoresAgree r e := by
  rintro i t fetched rfl ht hnext hfetched
  simp only [waits, ht, hnext, Bool.or_eq_true, Bool.and_eq_true] at h
  rcases h with ⟨hlock, -⟩ | ⟨⟨hmessage, -⟩, -⟩
  · exact absurd hlock (by decide)
  · cases hreq : t.req with
    | message m => simp [hreq, ClusterCall.fetched?] at hfetched
    | tick | refresh => simp [hreq, ClusterCall.isMessage] at hmessage

/-- A statement that is no store adds nothing but a fetch. -/
theorem logged_of_ne_store {i : Nat} (hstore : (c.threads[i]?).bind Thread.next? ≠ some .store) :
    logged c (.exec i) = [] ∨ logged c (.exec i) = [.fetched i] := by
  simp only [logged]
  split
  · next t ht =>
    rw [ht, Option.bind_some] at hstore
    split
    · exact .inr rfl
    · next hnext _ => exact absurd hnext hstore
    · next hnext _ => exact absurd hnext hstore
    · exact .inl rfl
  · exact .inl rfl

/-- What an event does: nothing to the membership; or it stores a message; or it stores a fetched
set. -/
inductive RaceStep (r r' : RingRun) (e : RingEv) : Prop
  | quiet (members : r'.conf.state.members = r.conf.state.members)
      (log : ∀ members, Agrees r.log members → Agrees r'.log members) (agree : StoresAgree r e)
  | message (i : Nat) (m : PubSubMessage) (s₀ : Coordinator) (exec : e = .exec i)
    (loaded : Loaded r.conf i s₀)
      (members : r'.conf.state.members = m.apply s₀.members)
      (log : r'.log = r.log ++ [.processed m.instanceId (m.event == "join")])
      (agree : StoresAgree r e)
  | fetched (i : Nat) (t : RingThread) (exec : e = .exec i) (thread : r.conf.threads[i]? = some t)
      (next : t.next? = some .store) (members : t.req.fetched? = some r'.conf.state.members)
      (log : r'.log = r.log ++ [.stored i])

theorem raceStep_does (myInstanceId : String) (order : SetOrder)
    (hmeets : System.Meets RingMove RingEnd r.conf) (e : RingEv) :
    RaceStep r (raceStep myInstanceId order r e) e := by
  unfold raceStep
  by_cases hwaits : waits r.conf e = true
  · rw [if_pos hwaits]
    exact .quiet rfl (fun _ => id) (storesAgree_of_waits hwaits)
  rw [if_neg hwaits]
  cases e with
  | env e => nomatch e
  | spawn call =>
    refine .quiet rfl (fun members h => ?_) nofun
    rwa [show r.log ++ logged r.conf (.spawn call) = r.log from List.append_nil _]
  | exec i =>
    -- what is no store changes nothing in the log that matters, and owes nothing
    have hquiet : ((ringSystem myInstanceId order).step r.conf (.exec i)).state.members =
      r.conf.state.members →
        (r.conf.threads[i]?).bind Thread.next? ≠ some .store →
        RaceStep r ⟨(ringSystem myInstanceId order).step r.conf (.exec i),
          r.log ++ logged r.conf (.exec i)⟩ (.exec i) := by
      intro hmembers hstore
      refine .quiet hmembers (fun members h => ?_) ?_
      · rcases logged_of_ne_store hstore with hlogged | hlogged
        · rwa [hlogged, List.append_nil]
        · rw [hlogged]
          exact h.snoc nofun
      · rintro j t fetched he ht hnext -
        cases he
        rw [ht, Option.bind_some] at hstore
        exact absurd hnext hstore
    rcases hmeets.exec_cases (ringSystem myInstanceId order) i with
      ⟨hidle, hnext⟩ | ⟨t, l, ht, hl, hmove⟩
    · exact hquiet (by rw [hidle]) (by rw [hnext]; nofun)
    by_cases hstore : l = .store
    · subst hstore
      cases hreq : t.req with
      | message m =>
        rw [hreq] at hmove
        rcases hmove with ⟨hload, -⟩ | ⟨-, s₀, hseen, hmembers⟩ | ⟨⟨event, hsend⟩, -⟩
        · cases hload
        · refine .message i m s₀ rfl ⟨t, ht, by rw [hreq]; rfl, hseen⟩ hmembers ?_ ?_
          · simp only [logged, ht, hl, hreq]
          · rintro j t' fetched he ht' - hfetched
            cases he
            cases ht.symm.trans ht'
            rw [hreq] at hfetched
            cases hfetched
        · cases hsend
      | tick fetched =>
        rw [hreq] at hmove
        refine .fetched i t rfl ht hl ?_ ?_
        · rw [hreq]
          exact hmove.1 rfl
        · simp only [logged, ht, hl, hreq]
      | refresh cleaned fetched =>
        rw [hreq] at hmove
        refine .fetched i t rfl ht hl ?_ ?_
        · rw [hreq]
          exact hmove.1 rfl
        · simp only [logged, ht, hl, hreq]
    · refine hquiet ?_ ?_
      · cases hreq : t.req with
        | message m =>
          rw [hreq] at hmove
          rcases hmove with ⟨-, -, hsame⟩ | ⟨hload, -⟩ | ⟨-, -, hsame⟩
          · rw [hsame]
          · exact absurd hload hstore
          · exact hsame
        | tick | refresh =>
          rw [hreq] at hmove
          exact hmove.2 hstore
      · rw [ht, Option.bind_some, hl]
        exact fun h => hstore (Option.some.inj h)

theorem apply_agrees {log : List LogEntry} {members : Finset String} (h : Agrees log members)
    (m : PubSubMessage) :
    Agrees (log ++ [.processed m.instanceId (m.event == "join")]) (m.apply members) := by
  refine h.processed ?_ fun id hid => ?_
  · unfold PubSubMessage.apply
    split
    · next hjoin => simp [hjoin]
    · next hjoin => simp [hjoin]
  · unfold PubSubMessage.apply
    split
    · simp [hid]
    · simp [hid]

theorem reflects_iff (h : Tracked r) (e : RingEv) :
    Reflects (raceStep myInstanceId order r e) ↔ StoresAgree r e := by
  cases raceStep_does myInstanceId order h.meets e with
  | quiet members log agree =>
    refine iff_of_true ?_ agree
    rw [Reflects, members]
    exact log _ h.reflects
  | message i m s₀ exec loaded members log agree =>
    refine iff_of_true ?_ agree
    rw [Reflects, members, log]
    exact apply_agrees (h.loaded i s₀ loaded) m
  | fetched i t exec thread next members log =>
    rw [Reflects, log]
    constructor
    · rintro hreflects j t' fetched he ht' - hfetched
      cases exec.symm.trans he
      cases thread.symm.trans ht'
      cases members.symm.trans hfetched
      exact hreflects
    · intro hagree
      exact hagree i t _ exec thread next members

/-- Nobody loads while a message is in the middle. -/
theorem waits_of_loaded (hmeets : System.Meets RingMove RingEnd c) {i j : Nat} {s₀ : Coordinator}
    (h : Loaded c i s₀)
    {t : RingThread} (ht : c.threads[j]? = some t) (hmessage : t.req.isMessage = true)
    (hseen : t.seen = []) :
    waits c (.exec j) = true := by
  obtain ⟨t', ht', hmiddle⟩ := h.inMiddle hmeets
  have hany : c.threads.any processing = true :=
    List.any_eq_true.mpr ⟨t', List.mem_of_getElem? ht', hmiddle⟩
  simp [waits, ht, hmessage, hseen, hany]

theorem Tracked.step (h : Tracked r) (e : RingEv)
    (hreflects : Reflects (raceStep myInstanceId order r e)) :
    Tracked (raceStep myInstanceId order r e) := by
  have hdoes := raceStep_does myInstanceId order h.meets e
  revert hreflects hdoes
  unfold raceStep
  by_cases hwaits : waits r.conf e = true
  · rw [if_pos hwaits]
    exact fun _ _ => h
  rw [if_neg hwaits]
  intro hreflects hdoes
  refine ⟨System.meets_step callProg_meets e h.meets, hreflects, ?_, ?_⟩
  · intro j s₀ hloaded
    rcases loaded_step hloaded with ⟨hold, hstay⟩ | ⟨he, rfl, t, ht, hmessage, hseen, hload⟩
    · cases hdoes with
      | quiet members log agree => exact log _ (h.loaded j s₀ hold)
      | message i m s₁ exec loaded members log agree =>
        -- the only message in the middle has just moved on
        obtain rfl : j = i := h.one j i s₀ s₁ hold loaded
        obtain ⟨t, ht, hmiddle⟩ := hold.inMiddle h.meets
        rw [processing, hstay exec t ht] at hmiddle
        simp at hmiddle
      | fetched i t exec thread next members log =>
        rw [log]
        exact (h.loaded j s₀ hold).snoc nofun
    · cases hdoes with
      | quiet members log agree => exact log _ h.reflects
      | message i m s₁ exec loaded members log agree =>
        cases he.symm.trans exec
        obtain ⟨t', ht', -, hseen'⟩ := loaded
        cases ht.symm.trans ht'
        cases hseen.symm.trans hseen'
      | fetched i t' exec thread next members log =>
        cases he.symm.trans exec
        cases ht.symm.trans thread
        cases hload.symm.trans next
  · intro i j s₀ s₁ hi hj
    rcases loaded_step hi with ⟨hi, -⟩ | ⟨hei, -, t, ht, hmessage, hseen, -⟩
    · rcases loaded_step hj with ⟨hj, -⟩ | ⟨hej, -, t, ht, hmessage, hseen, -⟩
      · exact h.one i j s₀ s₁ hi hj
      · rw [hej] at hwaits
        exact absurd (waits_of_loaded h.meets hi ht hmessage hseen) hwaits
    · rcases loaded_step hj with ⟨hj, -⟩ | ⟨hej, -⟩
      · rw [hei] at hwaits
        exact absurd (waits_of_loaded h.meets hj ht hmessage hseen) hwaits
      · exact Ev.exec.inj (hei.symm.trans hej)

theorem Tracked.start (s : Coordinator) : Tracked (.start s) where
  meets := fun t ht => nomatch ht
  reflects := by
    rintro instanceId joined ⟨pre, post, heq, -⟩
    exact absurd heq (by simp [RingRun.start])
  loaded := by
    rintro i s₀ ⟨t, ht, -⟩
    cases ht
  one := by
    rintro i j s₀ s₁ ⟨t, ht, -⟩
    cases ht

end Runs

/-- **When no update is lost.** Every message is in the ring from its store until another message
for the same id, or the store of a set fetched after it, exactly if every set that is stored agrees
with the messages that were processed since it was fetched. -/
theorem no_update_lost_iff (myInstanceId : String) (order : SetOrder) (s : Coordinator)
    (es : List RingEv) :
    Along (raceStep myInstanceId order) (fun r e => Reflects (raceStep myInstanceId order r e))
      (.start s) es ↔
      Along (raceStep myInstanceId order) StoresAgree (.start s) es := by
  apply along_congr_of_invariant (I := Tracked)
  · intro r e h
    exact reflects_iff h e
  · intro r e h hreflects
    exact h.step e hreflects
  · exact Tracked.start s

/-- A refresh has fetched; an instance joins; the refresh is about to store. -/
def joinDuringRefresh : List RingEv :=
  [.spawn (.refresh (.ok ()) (.ok ["me"])), .exec 0, .exec 0, .exec 0, .exec 0,
    .spawn (.message ⟨"join", "b"⟩), .exec 1,
    .exec 1]

/-- **It happens.** The refresh stores what it has fetched. -/
theorem refresh_loses_join :
    ¬ Along (raceStep "me" someOrder) (fun r e => Reflects (raceStep "me" someOrder r e))
      (.start alone)
      (joinDuringRefresh ++ [.exec 0]) := by
  intro h
  have hlast := along_iff_split.mp h joinDuringRefresh (.exec 0) [] rfl
  have hlog :
    (raceStep "me" someOrder (run (raceStep "me" someOrder) (.start alone) joinDuringRefresh)
      (.exec 0)).log =
      [.fetched 0, .processed "b" true, .stored 0] := by decide
  have hlive : Live [.fetched 0, .processed "b" true, .stored 0] "b" true := by
    refine ⟨[.fetched 0], [.stored 0], rfl, fun j hj => ?_, fun i hi => ?_⟩
    · cases List.mem_singleton.mp hj
    · exact absurd hi.length_le (by simp)
  have hin := (hlast "b" true (hlog ▸ hlive)).mpr rfl
  exact absurd hin (by decide)

end Keycast.Cluster
