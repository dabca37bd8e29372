import Keycast.Lib.ReadThrough

/-!
# `Core/KeyCache.lean` — the cache of decrypted keys

`CachingKeyManager` stands in front of a key manager that is slow and paid for. `decrypt` reads
through a cache under the SHA-256 of the ciphertext; `encrypt` always goes to the inner manager and
then puts the plaintext under the new ciphertext, because a key is usually needed at once.

The calls of any number of callers are interleaved with evictions, and with callers that are dropped
in the middle; the answer of the inner manager is an event of its own. `refines`: nobody can tell
the answers from the inner manager's own.
-/

set_option autoImplicit false

namespace Keycast

open Lib

abbrev Octets := List UInt8

inductive KeyManagerError
  | loadKey (text : String)
  | encrypt (text : String)
  | decrypt (text : String)
  | generateMasterKey (text : String)
  | configurationError (text : String)
  | encryptionError (text : String)
  | decryptionError (text : String)
  deriving DecidableEq, Repr

/-- What is not in the repository: the digest, and how an error is printed for developers. -/
structure KeyWorld (Digest : Type) where
  sha256 : Octets → Digest
  debug : KeyManagerError → String

/-- The cache, and the calls of `encrypt` that have their ciphertext and are about to put it in: the
caller, the plaintext and the ciphertext. -/
structure CachingKeyManager (Digest : Type) where
  cache : ReadThrough Digest Octets Octets
  inserting : List (Nat × Octets × Octets)

inductive KeyEvent (Digest : Type)
  /-- the inner manager answers a call of `encrypt` -/
  | encrypted (caller : Nat) (plaintext : Octets) (result : Except KeyManagerError Octets)
  /-- its plaintext is put into the cache, and the call returns -/
  | insert (caller : Nat)
  | decrypt (caller : Nat) (ciphertext : Octets)
  /-- the inner manager answers the call of `decrypt` that is under way for a key -/
  | decrypted (k : Digest) (result : Except KeyManagerError Octets)
  | evict (k : Digest)
  | drop (caller : Nat)

inductive KeyAnswer
  | encrypt (caller : Nat) (plaintext : Octets) (result : Except KeyManagerError Octets)
  | decrypt (caller : Nat) (ciphertext : Octets) (result : Except KeyManagerError Octets)
  deriving DecidableEq

namespace CachingKeyManager

variable {Digest : Type} [DecidableEq Digest]

def new : CachingKeyManager Digest := ⟨.empty, []⟩

/-- The call of `encrypt` that the caller is about to finish. -/
def inserted? (m : CachingKeyManager Digest) (caller : Nat) : Option (Nat × Octets × Octets) :=
  m.inserting.find? fun i => decide (i.1 = caller)

/-- What an event is to the cache. -/
def cacheEvent (m : CachingKeyManager Digest) :
    KeyEvent Digest → Option (ReadThrough.Event Digest Octets Octets KeyManagerError)
  | .encrypted .. => none
  | .insert caller => (m.inserted? caller).map fun (_, plaintext, ciphertext) =>
    .put ciphertext plaintext
  | .decrypt caller ciphertext => some (.ask caller ciphertext)
  | .decrypted k result => some (.fetched k result)
  | .evict k => some (.evict k)
  | .drop caller => some (.leave caller)

def insertingAfter (m : CachingKeyManager Digest) : KeyEvent Digest → List (Nat × Octets × Octets)
  | .encrypted caller plaintext (.ok ciphertext) => m.inserting ++ [(caller, plaintext, ciphertext)]
  | .insert caller | .drop caller => m.inserting.filter fun i => !decide (i.1 = caller)
  | _ => m.inserting

def step (w : KeyWorld Digest) (m : CachingKeyManager Digest) (e : KeyEvent Digest) :
    CachingKeyManager Digest where
  cache := (m.cacheEvent e).elim m.cache (m.cache.step w.sha256)
  inserting := m.insertingAfter e

/-- Who is answered at an event. An error of the inner manager is printed into one of the cache's
own. -/
def answers (w : KeyWorld Digest) (m : CachingKeyManager Digest) : KeyEvent Digest → List KeyAnswer
  | .encrypted caller plaintext (.error e) => [.encrypt caller plaintext (.error e)]
  | .insert caller =>
    ((m.inserted? caller).map
      fun (_, plaintext, ciphertext) => .encrypt caller plaintext (.ok ciphertext)).toList
  | .decrypt caller ciphertext => (m.cache.answers w.sha256 (.ask caller ciphertext)).map decryption
  | .decrypted k result => (m.cache.answers w.sha256 (.fetched k result)).map decryption
  | _ => []
where
  decryption : Nat × Octets × Except KeyManagerError Octets → KeyAnswer
    | (caller, ciphertext, result) =>
      .decrypt caller ciphertext (result.mapError fun e => .decrypt (w.debug e))

/-- **The inner manager**: what it decrypts is a function of the ciphertext, and undoes what it has
encrypted. Nothing is asked of its failures. -/
def Inner (w : KeyWorld Digest) (D : Octets → Option Octets) (m : CachingKeyManager Digest) :
    KeyEvent Digest → Prop
  | .encrypted _ plaintext (.ok ciphertext) => D ciphertext = some plaintext
  | .decrypted k (.ok plaintext) =>
    ∀ c, m.cache.fetching? w.sha256 k = some c → D c = some plaintext
  | _ => True

/-- The event ends the call of the caller for the ciphertext. -/
def EndsCall (w : KeyWorld Digest) (caller : Nat) (c : Octets) : KeyEvent Digest → Prop
  | .decrypted k _ => k = w.sha256 c
  | .drop i => i = caller
  | _ => False

/-- **What is asked of the caching manager**, of a run. -/
structure Refines (w : KeyWorld Digest) (D : Octets → Option Octets)
    (es : List (KeyEvent Digest)) : Prop where
  /-- a success is the inner manager's -/
  right : ∀ pre e post, es = pre ++ e :: post → ∀ i c p,
    .decrypt i c (.ok p) ∈ (run (step w) new pre).answers w e → D c = some p
  /-- a failure is that of an inner call for the same ciphertext, while the caller waited -/
  failed : ∀ pre e post, es = pre ++ e :: post → ∀ i c err,
    .decrypt i c (.error err) ∈ (run (step w) new pre).answers w e →
      (∃ innerErr, e = .decrypted (w.sha256 c) (.error innerErr) ∧
        err = .decrypt (w.debug innerErr) ∧
        (run (step w) new pre).cache.fetching? w.sha256 (w.sha256 c) = some c) ∧
      ∃ before since, pre = before ++ .decrypt i c :: since ∧ ∀ e' ∈ since, ¬ EndsCall w i c e'
  /-- a failure is not kept: a later call gets what the inner manager then says -/
  retried : ∀ pre i c since result post,
    es = pre ++ .decrypt i c :: since ++ .decrypted (w.sha256 c) result :: post →
    (∀ e ∈ since, ¬ EndsCall w i c e) →
      (∃ p, D c = some p ∧ .decrypt i c (.ok p) ∈ (run (step w) new pre).answers w (.decrypt i c)) ∨
        .decrypt i c (result.mapError fun e => .decrypt (w.debug e)) ∈
          (run (step w) new (pre ++ .decrypt i c :: since)).answers w
            (.decrypted (w.sha256 c) result)
  /-- what `encrypt` returned decrypts to what it was given, and to nothing else -/
  own : ∀ pre e post pre' e' post', es = pre ++ e :: post → es = pre' ++ e' :: post' → ∀ i p c j q,
    .encrypt i p (.ok c) ∈ (run (step w) new pre).answers w e →
      .decrypt j c (.ok q) ∈ (run (step w) new pre').answers w e' → q = p

variable {w : KeyWorld Digest} {D : Octets → Option Octets} {m : CachingKeyManager Digest}
  {e : KeyEvent Digest}
  {i : Nat} {c p : Octets}

/-! ## The invariant -/

/-- What is kept, and what is about to be put in, is what the inner manager decrypts. -/
structure Sound (w : KeyWorld Digest) (D : Octets → Option Octets)
    (m : CachingKeyManager Digest) : Prop where
  cache : m.cache.AllRight w.sha256 fun c p => D c = some p
  inserting : ∀ x ∈ m.inserting, D x.2.2 = some x.2.1

theorem sound_new : Sound w D (new : CachingKeyManager Digest) :=
  ⟨ReadThrough.allRight_empty, fun _ hx => absurd hx List.not_mem_nil⟩

omit [DecidableEq Digest] in
theorem mem_of_inserted? {x : Nat × Octets × Octets} (h : m.inserted? i = some x) :
    x ∈ m.inserting :=
  List.mem_of_find?_eq_some h

theorem Sound.event (h : Sound w D m) (he : Inner w D m e)
    {ce : ReadThrough.Event Digest Octets Octets KeyManagerError}
    (hce : m.cacheEvent e = some ce) : ReadThrough.Right w.sha256 (fun c p => D c = some p)
      m.cache ce := by
  cases e with
  | encrypted => cases hce
  | insert caller =>
    obtain ⟨x, hx, rfl⟩ := Option.map_eq_some_iff.mp hce
    exact h.inserting x (mem_of_inserted? hx)
  | decrypted k result =>
    cases hce
    cases result with
    | error err => trivial
    | ok p => exact he
  | decrypt | evict | drop =>
    cases hce
    trivial

theorem Sound.step (hsha : Function.Injective w.sha256) (h : Sound w D m) (he : Inner w D m e) :
    Sound w D (m.step w e) := by
  constructor
  · unfold CachingKeyManager.step
    cases hce : m.cacheEvent e with
    | none => exact h.cache
    | some ce => exact h.cache.step (fun x y v hxy hx => hsha hxy ▸ hx) (h.event he hce)
  · intro x hx
    cases e with
    | encrypted caller plaintext result =>
      cases result with
      | error err => exact h.inserting x hx
      | ok ciphertext =>
        rcases List.mem_append.mp hx with hx | hx
        · exact h.inserting x hx
        · rw [List.mem_singleton] at hx
          rw [hx]
          exact he
    | insert | drop => exact h.inserting x (List.mem_of_mem_filter hx)
    | decrypt | decrypted | evict => exact h.inserting x hx

theorem sound_run (hsha : Function.Injective w.sha256) {es : List (KeyEvent Digest)}
    (hinner : Along (step w) (Inner w D) new es) : Sound w D (run (step w) new es) :=
  run_invariant (fun _ _ h he => h.step hsha he) sound_new hinner

/-! ## Answers -/

omit [DecidableEq Digest] in
theorem mem_decryption {l : List (Nat × Octets × Except KeyManagerError Octets)}
    {r : Except KeyManagerError Octets}
    (h : .decrypt i c r ∈ l.map (answers.decryption w)) :
    ∃ r', (i, c, r') ∈ l ∧ r = r'.mapError fun e => .decrypt (w.debug e) := by
  obtain ⟨⟨j, d, r'⟩, hmem, heq⟩ := List.mem_map.mp h
  cases heq
  exact ⟨r', hmem, rfl⟩

/-- An answer to `decrypt` is one of the cache. -/
theorem answer_of_cache {r : Except KeyManagerError Octets} (h : .decrypt i c r ∈ m.answers w e) :
    ∃ ce r', m.cacheEvent e = some ce ∧ (i, c, r') ∈ m.cache.answers w.sha256 ce ∧
      r = r'.mapError fun e => .decrypt (w.debug e) := by
  cases e with
  | encrypted caller plaintext result =>
    cases result with
    | error err => simp [answers] at h
    | ok ciphertext => cases h
  | insert caller => simp [answers] at h
  | decrypt | decrypted =>
    obtain ⟨r', hmem, hr⟩ := mem_decryption h
    exact ⟨_, r', rfl, hmem, hr⟩
  | evict | drop => cases h

theorem Sound.right (hsha : Function.Injective w.sha256) (h : Sound w D m) (he : Inner w D m e)
    (ha : .decrypt i c (.ok p) ∈ m.answers w e) : D c = some p := by
  obtain ⟨ce, r, hce, hmem, hr⟩ := answer_of_cache ha
  cases r with
  | error err => cases hr
  | ok q =>
    cases hr
    exact h.cache.answers_right (fun x y v hxy hx => hsha hxy ▸ hx) (h.event he hce) hmem

/-- A failure is that of an inner call. -/
theorem failed_of_inner {err : KeyManagerError} (ha : .decrypt i c (.error err) ∈ m.answers w e) :
    ∃ innerErr, e = .decrypted (w.sha256 c) (.error innerErr) ∧ err = .decrypt (w.debug innerErr) ∧
      (i, c) ∈ m.cache.waiting := by
  obtain ⟨ce, r, hce, hmem, hr⟩ := answer_of_cache ha
  cases r with
  | ok q => cases hr
  | error innerErr =>
    cases hr
    obtain ⟨rfl, hwaits⟩ := ReadThrough.answers_failed hmem
    refine ⟨innerErr, ?_, rfl, hwaits⟩
    cases e with
    | insert caller =>
      obtain ⟨x, -, hx⟩ := Option.map_eq_some_iff.mp hce
      cases hx
    | decrypted k result =>
      cases hce
      rfl
    | encrypted | decrypt | evict | drop => cases hce

/-! ## Waiting -/

theorem waits_step (hw : (i, c) ∈ m.cache.waiting) (he : ¬ EndsCall w i c e) :
    (i, c) ∈ (m.step w e).cache.waiting := by
  unfold CachingKeyManager.step
  cases hce : m.cacheEvent e with
  | none => exact hw
  | some ce =>
    refine ReadThrough.waiting_step hw fun hends => he ?_
    cases e with
    | encrypted => cases hce
    | insert caller =>
      obtain ⟨x, -, rfl⟩ := Option.map_eq_some_iff.mp hce
      cases hends
    | decrypt | evict =>
      cases hce
      cases hends
    | decrypted | drop =>
      cases hce
      exact hends

theorem waits_run {es : List (KeyEvent Digest)} (hw : (i, c) ∈ m.cache.waiting)
    (hes : ∀ e ∈ es, ¬ EndsCall w i c e) : (i, c) ∈ (run (step w) m es).cache.waiting := by
  induction es generalizing m with
  | nil => exact hw
  | cons e es ih =>
    rw [run_cons]
    exact ih (waits_step hw (hes e List.mem_cons_self)) fun e' he' =>
      hes e' (List.mem_cons_of_mem _ he')

theorem waits_of_step (hw : (i, c) ∈ (m.step w e).cache.waiting) :
    (i, c) ∈ m.cache.waiting ∧ ¬ EndsCall w i c e ∨ e = .decrypt i c := by
  unfold CachingKeyManager.step at hw
  cases hce : m.cacheEvent e with
  | none =>
    rw [hce] at hw
    refine .inl ⟨hw, fun hends => ?_⟩
    cases e with
    | decrypted | drop => cases hce
    | encrypted | insert | decrypt | evict => cases hends
  | some ce =>
    rw [hce] at hw
    rcases ReadThrough.waiting_of_step hw with ⟨hbefore, hends⟩ | rfl
    · refine .inl ⟨hbefore, fun hends' => hends ?_⟩
      cases e with
      | decrypted | drop =>
        cases hce
        exact hends'
      | encrypted | insert | decrypt | evict => cases hends'
    · cases e with
      | decrypt =>
        cases hce
        exact .inr rfl
      | insert caller =>
        obtain ⟨x, -, hx⟩ := Option.map_eq_some_iff.mp hce
        cases hx
      | encrypted | decrypted | evict | drop => cases hce

/-! ## The result -/

/-- **The caching manager refines the plain one**, whoever calls it when, whatever is evicted and
whatever fails. -/
theorem refines (hsha : Function.Injective w.sha256) {es : List (KeyEvent Digest)}
    (hinner : Along (step w) (Inner w D) new es) : Refines w D es := by
  have hsound : ∀ pre e post, es = pre ++ e :: post →
      Sound w D (run (step w) new pre) ∧ Inner w D (run (step w) new pre) e := by
    intro pre e post heq
    rw [heq] at hinner
    obtain ⟨hpre, he, -⟩ := along_append.mp hinner
    exact ⟨sound_run hsha hpre, he⟩
  have hright : ∀ pre e post, es = pre ++ e :: post → ∀ i c p,
      .decrypt i c (.ok p) ∈ (run (step w) new pre).answers w e → D c = some p := by
    intro pre e post heq i c p ha
    obtain ⟨hs, he⟩ := hsound pre e post heq
    exact hs.right hsha he ha
  constructor
  case right => exact hright
  case failed =>
    intro pre e post heq i c err ha
    obtain ⟨innerErr, he, herr, hwaits⟩ := failed_of_inner ha
    refine ⟨⟨innerErr, he, herr, ?_⟩, ?_⟩
    · obtain ⟨d, hd⟩ := ReadThrough.exists_fetching? w.sha256 hwaits
      rw [hd, hsha (ReadThrough.key_of_fetching? hd)]
    · have hstep : ∀ (m : CachingKeyManager Digest) e, (i, c) ∈ (m.step w e).cache.waiting →
          (i, c) ∈ m.cache.waiting ∧ ¬ EndsCall w i c e ∨ e = .decrypt i c :=
            fun m e => waits_of_step
      rcases since_of_run (P := fun m : CachingKeyManager Digest => (i, c) ∈ m.cache.waiting) hstep
        hwaits with ⟨hnew, -⟩ | h
      · exact absurd hnew List.not_mem_nil
      · exact h
  case retried =>
    intro pre i c since result post heq hsince
    have hpre : es = pre ++ .decrypt i c :: (since ++ .decrypted (w.sha256 c) result :: post) := by
      rw [heq, List.append_assoc, List.cons_append]
    obtain ⟨hs, -⟩ := hsound pre _ _ hpre
    cases hget : (run (step w) new pre).cache.kept.get (w.sha256 c) with
    | some p =>
      refine .inl ⟨p, hs.cache c p hget, ?_⟩
      simp [answers, ReadThrough.answers, hget, answers.decryption, Except.mapError]
    | none =>
      -- the call waits, and goes on waiting
      have hasked : (i, c) ∈ (run (step w) new (pre ++ [.decrypt i c])).cache.waiting := by
        rw [run_append]
        simp [step, cacheEvent, ReadThrough.step, hget]
      have hwaits : (i, c) ∈ (run (step w) new (pre ++ .decrypt i c :: since)).cache.waiting := by
        rw [List.append_cons, run_append]
        exact waits_run hasked hsince
      refine .inr (List.mem_map.mpr ⟨(i, c, result), ReadThrough.served hwaits result, rfl⟩)
  case own =>
    intro pre e post pre' e' post' heq heq' i p c j q henc hdec
    have hD : D c = some p := by
      obtain ⟨hs, -⟩ := hsound pre e post heq
      cases e with
      | insert caller =>
        obtain ⟨x, hx, hanswer⟩ := Option.map_eq_some_iff.mp (Option.mem_toList.mp henc)
        cases hanswer
        exact hs.inserting x (mem_of_inserted? hx)
      | encrypted caller plaintext r => cases r <;> simp [answers] at henc
      | decrypt | decrypted =>
        obtain ⟨x, -, hx⟩ := List.mem_map.mp henc
        cases hx
      | evict | drop => cases henc
    have hq := hright pre' e' post' heq' j c q hdec
    rw [hD] at hq
    exact (Option.some.inj hq).symm

/-! Two callers share a failure, a third gets the key, and a key that was just encrypted is there at
once. -/

def plainWorld : KeyWorld Octets := ⟨id, fun _ => "unavailable"⟩

def plainInner : Octets → Option Octets
  | [1] => some [7]
  | [2] => some [9]
  | _ => none

def keyCalls : List (KeyEvent Octets) :=
  [.decrypt 0 [1], .decrypt 1 [1], .decrypted [1] (.error (.decryptionError "timeout")),
    .decrypt 2 [1],
    .decrypted [1] (.ok [7]), .evict [1], .encrypted 3 [9] (.ok [2]), .insert 3, .decrypt 4 [2]]

theorem refines_keyCalls :
    (run (step plainWorld) new (keyCalls.take 2)).answers plainWorld
        (.decrypted [1] (.error (.decryptionError "timeout"))) =
        [.decrypt 0 [1] (.error (.decrypt "unavailable")),
          .decrypt 1 [1] (.error (.decrypt "unavailable"))] ∧
      (run (step plainWorld) new (keyCalls.take 4)).answers plainWorld (.decrypted [1] (.ok [7])) =
        [.decrypt 2 [1] (.ok [7])] ∧
      (run (step plainWorld) new (keyCalls.take 8)).answers plainWorld (.decrypt 4 [2]) =
        [.decrypt 4 [2] (.ok [9])] ∧
      Refines plainWorld plainInner keyCalls := by
  refine ⟨by decide, by decide, by decide, refines Function.injective_id ?_⟩
  refine ⟨trivial, trivial, trivial, trivial, fun c hc => ?_, trivial, rfl, trivial,
    trivial, trivial⟩
  have hfetched : c = [1] := ReadThrough.key_of_fetching? hc
  rw [hfetched]
  rfl

end CachingKeyManager

end Keycast
