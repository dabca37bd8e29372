import Mathlib.Data.List.Perm.Subperm
import Mathlib.Data.Option.Basic
import Keycast.Lib.Channel
import Keycast.Lib.Histories
import Keycast.Signer.System

/-!
# `Signer/RelayQueue.lean` — the queue in front of the daemon

The listener does not handle a request itself. It puts the event into a bounded queue and goes on
listening; a fixed number of workers take events out, each one at a time. A full queue drops the
event, which the client sees as a request without an answer.

`Pipeline` is the daemon with its queue, and `queued` says what the queue adds to the daemon of
`Signer/System.lean`: nothing but an order. Whatever the pipeline does is a run of that daemon, so
what holds in all its runs holds here; requests start in the order in which their events were let
in, each once; no more of them are under way than there are workers; and an event is dropped only
while 4096 are waiting.
-/

set_option autoImplicit false

namespace Keycast.Signer

open Lib

/-- `QUEUE_CAPACITY` of `work_queue.rs`. -/
def relayQueueCapacity : Nat := 4096

structure Nip46RpcItem where
  event : Nip46Event
  bunkerPubkey : PublicKey
  deriving DecidableEq, Repr

/-- What the listener makes of a notification. An event without a p-tag is nobody's. -/
def rpcItem? (kind : Nat) (event : Nip46Event) : Option Nip46RpcItem :=
  if kind = nostrConnectKind then
    event.bunkerPubkey.map fun bunkerPubkey => ⟨event, bunkerPubkey⟩ else none

/-- The queue, the request each worker has taken last (its place among the threads), and the
daemon. -/
structure Pipeline where
  channel : Channel Nip46RpcItem relayQueueCapacity
  workers : List (Option Nat)
  daemon : Pool

inductive PipelineEvent
  | notification (kind : Nat) (event : Nip46Event)
  | take (worker : Nat) (owned : Bool) (nonce : Nat)
  | exec (i : Nat)
  | command (c : AuthorizationCommand)
  | cleanup
  | env (e : EnvEvent)

/-- `RelayQueue::new`, `sender` and `spawn_workers`: each worker holds a receiver, and the queue
itself one. -/
def Pipeline.boot (workers : Nat) (db : Db) (now : Timestamp) : Pipeline where
  channel := .bounded _ _ 2 (workers + 1)
  workers := List.replicate workers none
  daemon := .init (.boot db now)

/-- A worker asks for the next event when it has answered the last. -/
def Pipeline.free (p : Pipeline) : Option Nat → Bool
  | none => true
  | some i => (p.daemon.threads[i]?).all (·.next?.isNone)

abbrev RelayChannel := Channel Nip46RpcItem relayQueueCapacity

/-- What the listener puts into the queue, with the queue then. -/
def Pipeline.sent? (p : Pipeline) (kind : Nat) (event : Nip46Event) :
    Option (Nip46RpcItem × RelayChannel) :=
  match rpcItem? kind event with
  | some item =>
    match p.channel.trySend item with
    | .ok c => some (item, c)
    | .error _ => none
  | none => none

/-- What a worker that asks is given, with the queue then. -/
def Pipeline.taken? (p : Pipeline) (worker : Nat) : Option (Nip46RpcItem × RelayChannel) :=
  match p.workers[worker]? with
  | some last =>
    if p.free last then
      match p.channel.tryRecv with
      | .ok x => some x
      | .error _ => none
    else none
  | none => none

/-- What the daemon sees of an event. -/
def Pipeline.seen (p : Pipeline) : PipelineEvent → List Event
  | .notification .. => []
  | .take worker owned nonce =>
    ((p.taken? worker).map fun x => .spawn (.request x.1.event owned nonce)).toList
  | .exec i => [.exec i]
  | .command c => [.spawn (.command c)]
  | .cleanup => [.spawn .cleanup]
  | .env e => [.env e]

def Pipeline.step (ext : External) (p : Pipeline) (e : PipelineEvent) : Pipeline where
  channel :=
    match e with
    | .notification kind event => ((p.sent? kind event).map (·.2)).getD p.channel
    | .take worker _ _ => ((p.taken? worker).map (·.2)).getD p.channel
    | _ => p.channel
  workers :=
    match e with
    | .take worker _ _ =>
      if (p.taken? worker).isSome then p.workers.set worker (some p.daemon.threads.length)
      else p.workers
    | _ => p.workers
  daemon := run (system ext).step p.daemon (p.seen e)

/-- The event that a step lets into the queue. -/
def Pipeline.accepts (p : Pipeline) : PipelineEvent → List Nip46RpcItem
  | .notification kind event => ((p.sent? kind event).map (·.1)).toList
  | _ => []

/-- The event that a step takes out of it. -/
def Pipeline.takes (p : Pipeline) : PipelineEvent → List Nip46RpcItem
  | .take worker _ _ => ((p.taken? worker).map (·.1)).toList
  | _ => []

/-- The event of a request that the daemon is given. -/
def requestEvent? : Event → Option Nip46Event
  | .spawn (.request event _ _) => some event
  | _ => none

/-- A request that has not been answered. -/
def underWay (t : Thread Work Stmt State SignerError Outcome) : Bool :=
  t.next?.isSome && match t.req with
    | .request .. => true
    | _ => false

/-- **What is asked of the queue**, of a run of the pipeline from a start. -/
structure Queued (ext : External) (workers : Nat) (db : Db) (now : Timestamp)
    (es : List PipelineEvent) : Prop where
  /-- the daemon does what it does without a queue -/
  refines : (run (Pipeline.step ext) (.boot workers db now) es).daemon =
    runFrom ext db now (collect (Pipeline.step ext) Pipeline.seen (.boot workers db now) es)
  /-- its requests are those let in, in that order, up to those that wait -/
  inOrder : collect (Pipeline.step ext) Pipeline.accepts (.boot workers db now) es =
    collect (Pipeline.step ext) Pipeline.takes (.boot workers db now) es ++
      (run (Pipeline.step ext) (.boot workers db now) es).channel.queue
  started : (collect (Pipeline.step ext) Pipeline.seen (.boot workers db now) es).filterMap
    requestEvent? =
    (collect (Pipeline.step ext) Pipeline.takes (.boot workers db now) es).map (·.event)
  few : (run (Pipeline.step ext) (.boot workers db now) es).daemon.threads.countP underWay ≤ workers
  /-- only a full queue drops an event -/
  dropped : ∀ pre kind event item post, es = pre ++ .notification kind event :: post →
    rpcItem? kind event = some item →
      (run (Pipeline.step ext) (.boot workers db now) pre).accepts
        (.notification kind event) = [item] ∨
      (run (Pipeline.step ext) (.boot workers db now) pre).channel.queue.length = relayQueueCapacity

namespace Pipeline

variable {ext : External} {p : Pipeline} {e : PipelineEvent}

theorem sent?_eq {kind : Nat} {event : Nip46Event} {item : Nip46RpcItem} {c : RelayChannel}
    (h : p.sent? kind event = some (item, c)) : rpcItem? kind event = some item ∧
      p.channel.trySend item = .ok c := by
  unfold sent? at h
  split at h
  · next item' hitem =>
    split at h
    · next c' hsend =>
      cases h
      exact ⟨hitem, hsend⟩
    · cases h
  · cases h

theorem taken?_eq {worker : Nat} {x : Nip46RpcItem × RelayChannel} (h : p.taken? worker = some x) :
    ∃ last, p.workers[worker]? = some last ∧ p.free last = true ∧ p.channel.tryRecv = .ok x := by
  unfold taken? at h
  split at h
  · next last hlast =>
    split at h
    · next hfree =>
      split at h
      · next x' hrecv =>
        cases h
        exact ⟨last, hlast, hfree, hrecv⟩
      · cases h
    · cases h
  · cases h

/-! ## The queue -/

theorem carries (ext : External) :
    Carries (step ext) (fun p => p.channel.queue) accepts takes := by
  intro p e
  cases e with
  | notification kind event =>
    simp only [accepts, takes, step, List.nil_append]
    cases hsent : p.sent? kind event with
    | none => exact List.append_nil _
    | some x =>
      obtain ⟨-, hsend⟩ := sent?_eq hsent
      exact (Channel.trySend_ok hsend).1.symm
  | take worker owned nonce =>
    simp only [accepts, takes, step, List.append_nil]
    cases htaken : p.taken? worker with
    | none => rfl
    | some x =>
      obtain ⟨last, -, -, hrecv⟩ := taken?_eq htaken
      exact (Channel.tryRecv_ok hrecv).1
  | exec | command | cleanup | env => simp [accepts, takes, step]

theorem receivers_step : (p.step ext e).channel.receivers = p.channel.receivers := by
  cases e with
  | notification kind event =>
    simp only [step]
    cases hsent : p.sent? kind event with
    | none => rfl
    | some x =>
      obtain ⟨-, hsend⟩ := sent?_eq hsent
      exact (Channel.trySend_ok hsend).2.2
  | take worker owned nonce =>
    simp only [step]
    cases htaken : p.taken? worker with
    | none => rfl
    | some x =>
      obtain ⟨last, -, -, hrecv⟩ := taken?_eq htaken
      exact (Channel.tryRecv_ok hrecv).2.2
  | exec | command | cleanup | env => rfl

/-! ## The daemon -/

theorem daemon_run (es : List PipelineEvent) :
    (run (step ext) p es).daemon =
      run (system ext).step p.daemon (collect (step ext) seen p es) := by
  induction es generalizing p with
  | nil => rfl
  | cons e es ih =>
    simp only [run_cons, collect]
    rw [ih, run_append]
    rfl

theorem requests_seen (p : Pipeline) (e : PipelineEvent) :
    (p.seen e).filterMap requestEvent? = (p.takes e).map (·.event) := by
  cases e with
  | take worker owned nonce =>
    simp only [seen, takes]
    cases p.taken? worker <;> rfl
  | notification | exec | command | cleanup | env => rfl

theorem requests_run (es : List PipelineEvent) :
    (collect (step ext) seen p es).filterMap requestEvent? =
      (collect (step ext) takes p es).map (·.event) := by
  induction es generalizing p with
  | nil => rfl
  | cons e es ih =>
    simp only [collect]
    rw [List.filterMap_append, List.map_append, ih, requests_seen]

/-! ## The workers -/

/-- Every request under way has been taken by a worker that has taken nothing since. -/
def Attended (p : Pipeline) : Prop :=
  ∀ (i : Nat) t, p.daemon.threads[i]? = some t → underWay t = true → some i ∈ p.workers

/-- What a step of the daemon leaves of its requests: none is under way that was not, except a new
one. -/
theorem underWay_of_step {c : Pool} {e : Event} {i : Nat}
    {t : Thread Work Stmt State SignerError Outcome}
    (ht : ((system ext).step c e).threads[i]? = some t) (hway : underWay t = true) :
    (∃ t₀, c.threads[i]? = some t₀ ∧ underWay t₀ = true) ∨
      i = c.threads.length ∧ ∃ event owned nonce, e = .spawn (.request event owned nonce) := by
  rcases System.getElem?_step (system ext) ht with
    ⟨hold, -⟩ | ⟨r, rfl, rfl⟩ | ⟨t₀, l, -, hold, hl, hreq, -⟩
  · exact .inl ⟨t, hold, hway⟩
  · cases r with
    | request event owned nonce =>
      by_cases hi : i < c.threads.length
      · left
        have hsame : c.threads[i]? = some _ := (List.getElem?_append_left hi).symm.trans ht
        exact ⟨_, hsame, hway⟩
      · refine .inr ⟨?_, event, owned, nonce, rfl⟩
        have hlt := (List.getElem?_eq_some_iff.mp ht).1
        simp only [System.step, List.length_append, List.length_singleton] at hlt
        omega
    | command | cleanup => simp [underWay] at hway
  · refine .inl ⟨t₀, hold, ?_⟩
    simp only [underWay, hreq, Bool.and_eq_true] at hway
    simp only [underWay, hl, Option.isSome_some, Bool.true_and]
    exact hway.2

theorem Attended.step (h : p.Attended) : (p.step ext e).Attended := by
  intro i t ht hway
  -- a step that gives the daemon no request
  have hkeep : ∀ e' : Event, requestEvent? e' = none →
    ((system ext).step p.daemon e').threads[i]? = some t →
      some i ∈ p.workers := by
    intro e' hno hstep
    rcases underWay_of_step hstep hway with ⟨t₀, hold, hway₀⟩ | ⟨-, event, owned, nonce, rfl⟩
    · exact h i t₀ hold hway₀
    · cases hno
  cases e with
  | notification kind event => exact h i t ht hway
  | take worker owned nonce =>
    simp only [Pipeline.step, seen] at ht ⊢
    cases htaken : p.taken? worker with
    | none =>
      rw [htaken] at ht
      exact h i t ht hway
    | some x =>
      rw [htaken] at ht
      have ht :
        ((system ext).step p.daemon (.spawn (.request x.1.event owned nonce))).threads[i]? =
          some t := ht
      obtain ⟨last, hlast, hfree, -⟩ := taken?_eq htaken
      obtain ⟨hworker, hplace⟩ := List.getElem?_eq_some_iff.mp hlast
      simp only [Option.isSome_some, if_true]
      rcases underWay_of_step ht hway with ⟨t₀, hold, hway₀⟩ | ⟨hnew, -⟩
      · -- its worker is not the one that is free
        obtain ⟨other, hother, hmine⟩ := List.getElem_of_mem (h i t₀ hold hway₀)
        have hne : worker ≠ other := by
          intro heq
          subst heq
          rw [hplace] at hmine
          rw [hmine, free, hold] at hfree
          have hidle : t₀.next? = none := by simpa using hfree
          rw [underWay, hidle] at hway₀
          cases hway₀
        refine List.mem_iff_getElem.mpr ⟨other, by rwa [List.length_set], ?_⟩
        rw [List.getElem_set_ne hne]
        exact hmine
      · rw [hnew]
        exact List.mem_set hworker _
  | exec j => exact hkeep (.exec j) rfl ht
  | command c => exact hkeep (.spawn (.command c)) rfl ht
  | cleanup => exact hkeep (.spawn .cleanup) rfl ht
  | env e => exact hkeep (.env e) rfl ht

/-- The places of a list that satisfy a predicate. -/
theorem countP_eq_places {α : Type} (q : α → Bool) (l : List α) :
    l.countP q = ((List.range l.length).filter fun i => (l[i]?).any q).length := by
  induction l with
  | nil => rfl
  | cons a l ih =>
    rw [List.length_cons, List.range_succ_eq_map, List.filter_cons, List.countP_cons, ih,
      List.filter_map]
    cases hq : q a with
    | false => simp [hq, Function.comp_def]
    | true => simp [hq, Function.comp_def]

theorem Attended.countP_le (h : p.Attended) :
    p.daemon.threads.countP underWay ≤ p.workers.length := by
  let places :=
    (List.range p.daemon.threads.length).filter fun i => (p.daemon.threads[i]?).any underWay
  have hnodup : (places.map some).Nodup :=
    (List.nodup_range.filter _).map (Option.some_injective Nat)
  have hsub : places.map some ⊆ p.workers := by
    intro x hx
    obtain ⟨i, hi, rfl⟩ := List.mem_map.mp hx
    have hany := (List.mem_filter.mp hi).2
    cases ht : p.daemon.threads[i]? with
    | none =>
      rw [ht] at hany
      cases hany
    | some t =>
      rw [ht] at hany
      exact h i t ht hany
  rw [countP_eq_places, ← List.length_map (f := some)]
  exact (hnodup.subperm hsub).length_le

theorem attended_run (h : p.Attended) (es : List PipelineEvent) :
    (run (step ext) p es).Attended := by
  induction es generalizing p with
  | nil => exact h
  | cons e es ih => exact ih h.step

theorem workers_run (es : List PipelineEvent) :
    (run (step ext) p es).workers.length = p.workers.length := by
  induction es generalizing p with
  | nil => rfl
  | cons e es ih =>
    rw [run_cons, ih]
    cases e with
    | take worker owned nonce =>
      simp only [step]
      split
      · exact List.length_set
      · rfl
    | notification | exec | command | cleanup | env => rfl

theorem receivers_run (es : List PipelineEvent) :
    (run (step ext) p es).channel.receivers = p.channel.receivers := by
  induction es generalizing p with
  | nil => rfl
  | cons e es ih => rw [run_cons, ih, receivers_step]

/-! ## The result -/

/-- **The queue adds an order, and nothing else**, in every run of the pipeline. -/
theorem queued (ext : External) (workers : Nat) (db : Db) (now : Timestamp)
    (es : List PipelineEvent) :
    Queued ext workers db now es where
  refines := daemon_run es
  inOrder := by
    have hcarried := (carries ext).run (boot workers db now) es
    rwa [show (boot workers db now).channel.queue = [] from rfl, List.nil_append] at hcarried
  started := requests_run es
  few := by
    have hnone : (boot workers db now).Attended :=
      fun i t ht => absurd ht (by simp [boot, Conf.init])
    have hattended : (run (step ext) (boot workers db now) es).Attended := attended_run hnone es
    have hfew := hattended.countP_le
    rw [workers_run, show (boot workers db now).workers = List.replicate workers none from rfl,
      List.length_replicate] at hfew
    exact hfew
  dropped := by
    intro pre kind event item post heq hitem
    have hreceivers : (run (step ext) (boot workers db now) pre).channel.receivers = workers + 1 :=
      receivers_run pre
    simp only [accepts, sent?, hitem]
    cases hsend : (run (step ext) (boot workers db now) pre).channel.trySend item with
    | ok c => exact .inl rfl
    | error err =>
      refine .inr ?_
      cases err with
      | full => exact (Channel.trySend_full.mp hsend).2
      | disconnected =>
        unfold Channel.trySend at hsend
        split at hsend
        · next hgone => omega
        · split at hsend
          · cases hsend
          · cases hsend

end Pipeline

end Keycast.Signer
