import Keycast.Lib.Channel
import Keycast.Core.BunkerKey
import Keycast.Http.OAuth

/-!
# `Http/SecretPool.lean` — secrets made in advance

Hashing a connection secret takes a tenth of a second, so a producer makes pairs of a secret and its
hash ahead of time and the handlers take them from a bounded queue. A handler never looks at the
pair it is given: whatever an authorization promises about its secret, the pool has to keep.

`pool_keeps` collects it, over every run of the producer against any number of callers: a pair is
handed out once and in the order it was made, its hash is that of its secret, and the bunker keys
that two callers derive differ, for whatever users they derive them.
-/

set_option autoImplicit false

namespace Keycast.Http

open Lib

/-- `DEFAULT_POOL_CAPACITY`. -/
def defaultPoolCapacity : Nat := 100

/-- `SECRET_LENGTH`. -/
def secretLength : Nat := 48

/-- What `Alphanumeric` may sample, `SECRET_LENGTH` times. -/
structure DrawnSecret where
  text : String
  length : text.toList.length = secretLength
  alphanumeric : ∀ c ∈ text.toList, c.isAlphanum = true

/-- Where the producer's loop stands. -/
inductive SecretProducer
  | generating
  | hashing (secret : DrawnSecret)
  | sending (pair : SecretPair)
  | exited

structure SecretPool where
  channel : Channel SecretPair defaultPoolCapacity
  producer : SecretProducer

inductive SecretPoolEvent
  | generate (secret : DrawnSecret)
  /-- What bcrypt gives, or that its thread panicked. -/
  | hashed (result : Except String String)
  /-- The producer's `send`, which waits for room. -/
  | send
  | sendPanicked
  /-- A caller of `get` or `try_get`. One that finds nothing gets nothing, or waits to be let in
  again. -/
  | get
  /-- A handle of the receiver is cloned or dropped, or the pool is. -/
  | receiver
  | dropReceiver
  | dropPool

/-- `SecretPool::default`, the receiver for the handlers, and `spawn_producer`. -/
def SecretPool.boot : SecretPool where
  channel := .bounded _ _ 2 2
  producer := .generating

/-- What a caller gets, with the queue then. -/
def SecretPool.got? (p : SecretPool) :
    Option (SecretPair × Channel SecretPair defaultPoolCapacity) :=
  if p.channel.receivers = 0 then none
  else match p.channel.tryRecv with
    | .ok x => some x
    | .error _ => none

/-- What the producer's `send` comes to. `none` is that it still waits. -/
def SecretPool.sent? (p : SecretPool) (pair : SecretPair) :
    Option (Except Unit (Channel SecretPair defaultPoolCapacity)) :=
  match p.channel.trySend pair with
  | .ok c => some (.ok c)
  | .error .disconnected => some (.error ())
  | .error .full => none

/-- The producer's loop is left, and its sender dropped. -/
def SecretPool.exit (p : SecretPool) : SecretPool where
  channel := { p.channel with senders := p.channel.senders - 1 }
  producer := .exited

def SecretPool.step (p : SecretPool) : SecretPoolEvent → SecretPool
  | .generate secret =>
    match p.producer with
    | .generating => { p with producer := .hashing secret }
    | _ => p
  | .hashed result =>
    match p.producer, result with
    | .hashing secret, .ok h => { p with producer := .sending ⟨secret.text, h⟩ }
    | .hashing _, .error _ => { p with producer := .generating }
    | _, _ => p
  | .send =>
    match p.producer with
    | .sending pair =>
      match p.sent? pair with
      | some (.ok c) => ⟨c, .generating⟩
      | some (.error _) => p.exit
      | none => p
    | _ => p
  | .sendPanicked =>
    match p.producer with
    | .sending _ => p.exit
    | _ => p
  | .get =>
    match p.got? with
    | some (_, c) => { p with channel := c }
    | none => p
  | .receiver => { p with channel := { p.channel with receivers := p.channel.receivers + 1 } }
  | .dropReceiver => { p with channel := { p.channel with receivers := p.channel.receivers - 1 } }
  | .dropPool => { p with channel := { p.channel with
      senders := p.channel.senders - 1
      receivers := p.channel.receivers - 1 } }

namespace SecretPool

variable {ext : External} {p : SecretPool} {e : SecretPoolEvent}

/-! ## What goes in and out -/

/-- The pair that a step puts into the queue. -/
def puts (p : SecretPool) : SecretPoolEvent → List SecretPair
  | .send =>
    match p.producer with
    | .sending pair =>
      match p.sent? pair with
      | some (.ok _) => [pair]
      | _ => []
    | _ => []
  | _ => []

/-- The pair that a caller is given. -/
def hands (p : SecretPool) : SecretPoolEvent → List SecretPair
  | .get => (p.got?.map (·.1)).toList
  | _ => []

/-- The secret that is drawn. -/
def draws (p : SecretPool) : SecretPoolEvent → List String
  | .generate secret =>
    match p.producer with
    | .generating => [secret.text]
    | _ => []
  | _ => []

/-- The secret that the producer has drawn and not yet put into the queue. -/
def inHand (p : SecretPool) : List String :=
  match p.producer with
  | .hashing secret => [secret.text]
  | .sending pair => [pair.secret]
  | _ => []

theorem got?_eq {pair : SecretPair} {c : Channel SecretPair defaultPoolCapacity}
    (h : p.got? = some (pair, c)) :
    p.channel.queue = pair :: c.queue := by
  unfold got? at h
  split at h
  · cases h
  · split at h
    · next x hrecv =>
      cases h
      exact (Channel.tryRecv_ok hrecv).1
    · cases h

theorem sent?_eq {pair : SecretPair} {c : Channel SecretPair defaultPoolCapacity}
    (h : p.sent? pair = some (.ok c)) :
    c.queue = p.channel.queue ++ [pair] := by
  unfold sent? at h
  split at h
  · next c' hsend =>
    cases h
    exact (Channel.trySend_ok hsend).1
  · cases h
  · cases h

/-! ## The queue -/

theorem carries : Carries step (fun p => p.channel.queue) puts hands := by
  intro p e
  cases e with
  | send =>
    simp only [puts, hands, step, List.nil_append]
    cases p.producer with
    | sending pair =>
      dsimp only
      cases hsent : p.sent? pair with
      | none => exact List.append_nil _
      | some r =>
        cases r with
        | ok c => exact (sent?_eq hsent).symm
        | error => exact List.append_nil _
    | generating | hashing | exited => exact List.append_nil _
  | get =>
    simp only [puts, hands, step, List.append_nil]
    cases hgot : p.got? with
    | none => rfl
    | some x => exact got?_eq hgot
  | hashed result =>
    simp only [puts, hands, step, List.append_nil, List.nil_append]
    split <;> rfl
  | generate secret =>
    simp only [puts, hands, step, List.append_nil, List.nil_append]
    split <;> rfl
  | sendPanicked =>
    simp only [puts, hands, step, List.append_nil, List.nil_append]
    split <;> rfl
  | receiver | dropReceiver | dropPool => simp [puts, hands, step]

/-- A secret that is put into the queue was drawn, and for this once. -/
theorem thins : Thins step inHand draws (fun p e => (p.puts e).map (·.secret)) := by
  intro p e
  cases e with
  | generate secret =>
    simp only [puts, draws, step, List.map_nil, List.nil_append]
    cases hproducer : p.producer with
    | generating => simp [inHand, hproducer]
    | hashing | sending | exited => simp
  | hashed result =>
    simp only [puts, draws, step, List.map_nil, List.nil_append, List.append_nil]
    cases hproducer : p.producer with
    | hashing secret =>
      cases result with
      | ok h => simp [inHand, hproducer]
      | error => simp [inHand]
    | generating | sending | exited => exact List.Sublist.refl _
  | send =>
    simp only [puts, draws, step, List.append_nil]
    cases hproducer : p.producer with
    | sending pair =>
      dsimp only
      cases hsent : p.sent? pair with
      | none => simp
      | some r =>
        cases r with
        | ok c => simp [inHand, hproducer]
        | error => simp [inHand, exit]
    | generating | hashing | exited => simp
  | sendPanicked =>
    simp only [puts, draws, step, List.map_nil, List.nil_append, List.append_nil]
    cases hproducer : p.producer with
    | sending pair => simp [inHand, exit]
    | generating | hashing | exited => exact List.Sublist.refl _
  | get =>
    simp only [puts, draws, step, List.map_nil, List.nil_append, List.append_nil]
    split <;> exact List.Sublist.refl _
  | receiver | dropReceiver | dropPool => simp [puts, draws, step, inHand]

/-! ## What every pair is -/

/-- A pair of a secret and what bcrypt gave for it. -/
def Made (ext : External) (pair : SecretPair) : Prop :=
  ∃ secret : DrawnSecret, pair.secret = secret.text ∧
    ext.verifySecret secret.text pair.hash = true ∧
    BcryptText pair.hash

/-- What must hold of bcrypt in a step: the hash it gives verifies the secret, and is in its
alphabet. -/
def Hashes (ext : External) (p : SecretPool) : SecretPoolEvent → Prop
  | .hashed (.ok h) =>
    ∀ secret, p.producer = .hashing secret → ext.verifySecret secret.text h = true ∧ BcryptText h
  | _ => True

/-- All pairs in the pool are made. -/
def AllMade (ext : External) (p : SecretPool) : Prop :=
  (∀ pair ∈ p.channel.queue, Made ext pair) ∧ ∀ pair, p.producer = .sending pair → Made ext pair

theorem AllMade.step (h : p.AllMade ext) (hhash : p.Hashes ext e) : (p.step e).AllMade ext := by
  obtain ⟨hqueue, hsending⟩ := h
  have hexit : p.exit.AllMade ext := ⟨hqueue, fun pair heq => by cases heq⟩
  cases e with
  | generate secret =>
    simp only [SecretPool.step]
    cases hproducer : p.producer with
    | generating => exact ⟨hqueue, fun pair heq => by cases heq⟩
    | hashing | sending | exited => exact ⟨hqueue, hsending⟩
  | hashed result =>
    simp only [SecretPool.step]
    cases hproducer : p.producer with
    | hashing secret =>
      cases result with
      | ok h =>
        refine ⟨hqueue, fun pair heq => ?_⟩
        cases heq
        exact ⟨secret, rfl, hhash secret hproducer⟩
      | error => exact ⟨hqueue, fun pair heq => by cases heq⟩
    | generating | sending | exited => exact ⟨hqueue, hsending⟩
  | send =>
    simp only [SecretPool.step]
    cases hproducer : p.producer with
    | sending pair =>
      dsimp only
      cases hsent : p.sent? pair with
      | none => exact ⟨hqueue, hsending⟩
      | some r =>
        cases r with
        | ok c =>
          refine ⟨fun other hother => ?_, fun other heq => by cases heq⟩
          rw [show (SecretPool.mk c .generating).channel.queue = c.queue from rfl,
            sent?_eq hsent] at hother
          rcases List.mem_append.mp hother with hold | hnew
          · exact hqueue other hold
          · rw [List.mem_singleton.mp hnew]
            exact hsending pair hproducer
        | error => exact hexit
    | generating | hashing | exited => exact ⟨hqueue, hsending⟩
  | sendPanicked =>
    simp only [SecretPool.step]
    cases hproducer : p.producer with
    | sending pair => exact hexit
    | generating | hashing | exited => exact ⟨hqueue, hsending⟩
  | get =>
    simp only [SecretPool.step]
    cases hgot : p.got? with
    | none => exact ⟨hqueue, hsending⟩
    | some x =>
      refine ⟨fun pair hpair => hqueue pair ?_, hsending⟩
      rw [got?_eq hgot]
      exact List.mem_cons_of_mem _ hpair
  | receiver | dropReceiver | dropPool => exact ⟨hqueue, hsending⟩

theorem AllMade.hands (h : p.AllMade ext) : ∀ pair ∈ p.hands e, Made ext pair := by
  intro pair hpair
  cases e with
  | get =>
    simp only [SecretPool.hands] at hpair
    cases hgot : p.got? with
    | none =>
      rw [hgot] at hpair
      cases hpair
    | some x =>
      rw [hgot] at hpair
      refine h.1 pair ?_
      rw [got?_eq hgot, List.mem_singleton.mp hpair]
      exact List.mem_cons_self
  | generate | hashed | send | sendPanicked | receiver | dropReceiver | dropPool => cases hpair

/-! ## The result -/

/-- What must hold of bcrypt: a hash verifies no two of the secrets that may be drawn. -/
def Binding (ext : External) : Prop :=
  ∀ (s s' : DrawnSecret) (h : String), ext.verifySecret s.text h = true →
    ext.verifySecret s'.text h = true →
    s.text = s'.text

/-- **What is asked of the pool**, of a run from its start. -/
structure Keeps (ext : External) (es : List SecretPoolEvent) : Prop where
  /-- what was put in is what was handed out, in that order, up to those that wait -/
  inOrder : collect step puts boot es = collect step hands boot es ++
    (run step boot es).channel.queue
  drawn : ((collect step hands boot es).map (·.secret)).Sublist (collect step draws boot es)
  once : ((collect step hands boot es).map (·.secret)).Nodup
  made : ∀ pair ∈ collect step hands boot es, Made ext pair
  /-- the bunker keys of two callers differ -/
  apart : (collect step hands boot es).Pairwise fun pair pair' => ∀ sk sk' keys keys',
    ext.deriveBunkerKeys sk pair.hash = some keys →
    ext.deriveBunkerKeys sk' pair'.hash = some keys' →
      ext.publicKey keys ≠ ext.publicKey keys'

/-- **The pool keeps it**, in every run in which no secret is drawn twice. -/
theorem pool_keeps (hext : ext.CollisionFree) (hbinding : Binding ext) {es : List SecretPoolEvent}
    (hhash : Along step (Hashes ext) boot es)
    (hdraws : (collect step draws boot es).Nodup) : Keeps ext es := by
  have horder : collect step puts boot es = collect step hands boot es ++
    (run step boot es).channel.queue :=
    carries.run boot es
  have hdrawn :
    ((collect step hands boot es).map (·.secret)).Sublist (collect step draws boot es) := by
    have hthin := thins.run boot es
    rw [collect_map, horder, List.map_append, List.append_assoc] at hthin
    exact (List.sublist_append_left _ _).trans hthin
  have honce : ((collect step hands boot es).map (·.secret)).Nodup := hdraws.sublist hdrawn
  have hboot : boot.AllMade ext := by
    refine ⟨fun pair hpair => ?_, fun pair heq => ?_⟩
    · cases hpair
    · cases heq
  have hmade : ∀ pair ∈ collect step hands boot es, Made ext pair :=
    forall_mem_collect (fun _ _ => AllMade.step) (fun _ _ h _ => h.hands) hboot hhash
  refine ⟨horder, hdrawn, honce, hmade, ?_⟩
  rw [List.nodup_iff_pairwise_ne, List.pairwise_map] at honce
  refine honce.imp_of_mem ?_
  intro pair pair' hpair hpair' hne sk sk' keys keys' hkeys hkeys' hsame
  obtain ⟨s, hs, hverify, htext⟩ := hmade pair hpair
  obtain ⟨s', hs', hverify', htext'⟩ := hmade pair' hpair'
  obtain ⟨-, hhashes⟩ := External.bunker_key_identifies hext htext htext' hkeys hkeys' hsame
  rw [← hhashes] at hverify'
  rw [hs, hs'] at hne
  exact hne (hbinding s s' pair.hash hverify hverify')

/-! Two secrets are drawn and handed out; for the second, bcrypt fails once, and the secret is
lost. -/

def repeated (c : Char) (h : c.isAlphanum = true) : DrawnSecret where
  text := String.ofList (List.replicate secretLength c)
  length := by rw [String.toList_ofList, List.length_replicate]
  alphanumeric := by
    intro c' hc'
    rw [String.toList_ofList] at hc'
    rw [List.eq_of_mem_replicate hc']
    exact h

def firstSecret : DrawnSecret := repeated 'a' rfl

def lostSecret : DrawnSecret := repeated 'b' rfl

def secondSecret : DrawnSecret := repeated 'c' rfl

def firstPairs : List SecretPoolEvent :=
  [.generate firstSecret, .hashed (.ok ("bcrypt:" ++ firstSecret.text)), .send,
    .generate lostSecret,
    .hashed (.error "bcrypt"), .get, .generate secondSecret,
      .hashed (.ok ("bcrypt:" ++ secondSecret.text)), .send, .get]

theorem retrying_binding : Binding External.retrying := by
  intro s s' h hverify hverify'
  have heq := (eq_of_beq hverify).symm.trans (eq_of_beq hverify')
  have hlist := congrArg String.toList heq
  rw [String.toList_append, String.toList_append] at hlist
  exact String.toList_injective (List.append_cancel_left hlist)

theorem firstPairs_hash : Along step (Hashes External.retrying) boot firstPairs := by
  refine ⟨trivial, ?_, trivial, trivial, trivial, trivial, trivial, ?_, trivial, trivial, trivial⟩
  · intro secret hproducer
    cases hproducer
    exact ⟨by decide, by decide⟩
  · intro secret hproducer
    cases hproducer
    exact ⟨by decide, by decide⟩

theorem firstPairs_kept :
    (collect step hands boot firstPairs).map (·.secret) = [firstSecret.text, secondSecret.text] ∧
      Keeps External.retrying firstPairs :=
  ⟨by rfl, pool_keeps External.retrying_collisionFree retrying_binding firstPairs_hash (by decide)⟩

end SecretPool

end Keycast.Http
