import Keycast.Lib.Cache
import Keycast.Lib.Run

/-!
# `Lib/ReadThrough.lean` — a cache that fetches what it does not have

Callers ask for `x`; the cache keeps values under `key x`. A caller who finds nothing waits, and of
those who wait for one key the first fetches, for all of them. A success is kept and given to all
who wait; a failure is given to them and not kept. Entries are dropped and put in from outside at
any time, and a caller may leave while it waits: then the next one fetches.

What is given out is right if what is fetched and put in is right (`answers_right`), a caller is
given a failure only by a fetch that failed while it waited (`answers_failed`), and a caller who
waits is given whatever the next fetch brings (`served`).
-/

set_option autoImplicit false

namespace Keycast.Lib

/-- What is kept, and who waits for what, in the order they came. -/
structure ReadThrough (κ ξ ν : Type) where
  kept : Cache κ ν
  waiting : List (Nat × ξ)

namespace ReadThrough

inductive Event (κ ξ ν ε : Type)
  | ask (caller : Nat) (x : ξ)
  | fetched (k : κ) (result : Except ε ν)
  | put (x : ξ) (v : ν)
  | evict (k : κ)
  | leave (caller : Nat)

variable {κ ξ ν ε : Type} [DecidableEq κ]

def empty : ReadThrough κ ξ ν := ⟨.empty, []⟩

def waitingFor (key : ξ → κ) (c : ReadThrough κ ξ ν) (k : κ) : List (Nat × ξ) :=
  c.waiting.filter fun w => decide (key w.2 = k)

/-- What is being fetched for the key: what the first who waits has asked for. -/
def fetching? (key : ξ → κ) (c : ReadThrough κ ξ ν) (k : κ) : Option ξ :=
  (c.waitingFor key k).head?.map (·.2)

def step (key : ξ → κ) (c : ReadThrough κ ξ ν) : Event κ ξ ν ε → ReadThrough κ ξ ν
  | .ask caller x =>
    match c.kept.get (key x) with
    | some _ => c
    | none => { c with waiting := c.waiting ++ [(caller, x)] }
  | .fetched k (.ok v) =>
    if (c.fetching? key k).isSome then
      ⟨c.kept.insert k v, c.waiting.filter fun w => !decide (key w.2 = k)⟩
    else c
  | .fetched k (.error _) => { c with waiting := c.waiting.filter fun w => !decide (key w.2 = k) }
  | .put x v => { c with kept := c.kept.insert (key x) v }
  | .evict k => { c with kept := c.kept.invalidate k }
  | .leave caller => { c with waiting := c.waiting.filter fun w => !decide (w.1 = caller) }

/-- Who is answered at an event, for what, and how. -/
def answers (key : ξ → κ) (c : ReadThrough κ ξ ν) : Event κ ξ ν ε → List (Nat × ξ × Except ε ν)
  | .ask caller x =>
    match c.kept.get (key x) with
    | some v => [(caller, x, .ok v)]
    | none => []
  | .fetched k result => (c.waitingFor key k).map fun w => (w.1, w.2, result)
  | _ => []

variable {key : ξ → κ} {T : ξ → ν → Prop} {c : ReadThrough κ ξ ν} {e : Event κ ξ ν ε}
  {x : ξ} {i : Nat}

theorem mem_waitingFor {k : κ} : (i, x) ∈ c.waitingFor key k ↔ (i, x) ∈ c.waiting ∧ key x = k := by
  unfold waitingFor
  rw [List.mem_filter, decide_eq_true_iff]

theorem key_of_fetching? {k : κ} (h : c.fetching? key k = some x) : key x = k := by
  obtain ⟨⟨i, y⟩, hw, rfl⟩ := Option.map_eq_some_iff.mp h
  exact (mem_waitingFor.mp (List.mem_of_mem_head? hw)).2

/-- While somebody waits for a key, it is being fetched. -/
theorem exists_fetching? (key : ξ → κ) (h : (i, x) ∈ c.waiting) :
    ∃ y, c.fetching? key (key x) = some y := by
  have hmem : (i, x) ∈ c.waitingFor key (key x) := mem_waitingFor.mpr ⟨h, rfl⟩
  unfold fetching?
  cases hw : c.waitingFor key (key x) with
  | nil =>
    rw [hw] at hmem
    cases hmem
  | cons w ws => exact ⟨w.2, rfl⟩

/-! ## What is given out is right -/

/-- The event brings something that is right. -/
def Right (key : ξ → κ) (T : ξ → ν → Prop) (c : ReadThrough κ ξ ν) : Event κ ξ ν ε → Prop
  | .fetched k (.ok v) => ∀ x, c.fetching? key k = some x → T x v
  | .put x v => T x v
  | _ => True

/-- Everything kept is right, for whatever has its key. -/
def AllRight (key : ξ → κ) (T : ξ → ν → Prop) (c : ReadThrough κ ξ ν) : Prop :=
  ∀ x v, c.kept.get (key x) = some v → T x v

theorem allRight_empty : AllRight key T (empty : ReadThrough κ ξ ν) := by
  intro x v h
  simp [empty] at h

theorem AllRight.insert (h : AllRight key T c) {k : κ} {v : ν} (hv : ∀ x, key x = k → T x v)
    (waiting : List (Nat × ξ)) : AllRight key T ⟨c.kept.insert k v, waiting⟩ := by
  intro x v' hget
  rw [Cache.get_insert] at hget
  split at hget
  · next hk =>
    cases hget
    exact hv x hk
  · exact h x v' hget

variable (hT : ∀ x y v, key x = key y → T x v → T y v)

include hT

theorem AllRight.step (h : AllRight key T c) (he : Right key T c e) :
    AllRight key T (c.step key e) := by
  cases e with
  | ask caller x =>
    simp only [ReadThrough.step]
    split
    · exact h
    · exact h
  | fetched k result =>
    cases result with
    | error e => exact h
    | ok v =>
      simp only [ReadThrough.step]
      split
      · next hsome =>
        obtain ⟨y, hy⟩ := Option.isSome_iff_exists.mp hsome
        exact h.insert (fun x hx => hT y x v ((key_of_fetching? hy).trans hx.symm) (he y hy)) _
      · exact h
  | put y v => exact h.insert (fun x hx => hT y x v hx.symm he) _
  | evict k =>
    intro x v hget
    simp only [ReadThrough.step, Cache.get_invalidate] at hget
    split at hget
    · cases hget
    · exact h x v hget
  | leave caller => exact h

theorem AllRight.answers_right (h : AllRight key T c) (he : Right key T c e) {v : ν}
    (ha : (i, x, .ok v) ∈ c.answers key e) : T x v := by
  cases e with
  | ask caller y =>
    simp only [answers] at ha
    split at ha
    · next w hget =>
      rw [List.mem_singleton] at ha
      cases ha
      exact h x v hget
    · cases ha
  | fetched k result =>
    obtain ⟨⟨j, y⟩, hw, heq⟩ := List.mem_map.mp ha
    cases heq
    obtain ⟨hwaits, hk⟩ := mem_waitingFor.mp hw
    subst hk
    obtain ⟨z, hz⟩ := exists_fetching? key hwaits
    exact hT z y v (key_of_fetching? hz) (he z hz)
  | put | evict | leave => cases ha

omit hT

/-- **A failure comes from a fetch of the same key**, for one who waits. -/
theorem answers_failed {err : ε} (ha : (i, x, .error err) ∈ c.answers key e) :
    e = .fetched (key x) (.error err) ∧ (i, x) ∈ c.waiting := by
  cases e with
  | ask caller y =>
    simp only [answers] at ha
    split at ha
    · simp at ha
    · cases ha
  | fetched k result =>
    obtain ⟨⟨j, y⟩, hw, heq⟩ := List.mem_map.mp ha
    cases heq
    obtain ⟨hwaits, rfl⟩ := mem_waitingFor.mp hw
    exact ⟨rfl, hwaits⟩
  | put | evict | leave => cases ha

/-! ## Waiting -/

/-- The event ends the wait of the caller for `x`. -/
def Ends (key : ξ → κ) (i : Nat) (x : ξ) : Event κ ξ ν ε → Prop
  | .fetched k _ => k = key x
  | .leave caller => caller = i
  | _ => False

theorem waiting_step (hw : (i, x) ∈ c.waiting) (he : ¬ Ends key i x e) :
    (i, x) ∈ (c.step key e).waiting := by
  cases e with
  | ask caller y =>
    simp only [step]
    split
    · exact hw
    · exact List.mem_append_left _ hw
  | fetched k result =>
    have hk : key x ≠ k := fun heq => he heq.symm
    have hstays : (i, x) ∈ c.waiting.filter fun w => !decide (key w.2 = k) :=
      List.mem_filter.mpr ⟨hw, by simp [hk]⟩
    cases result with
    | error e => exact hstays
    | ok v =>
      simp only [step]
      split
      · exact hstays
      · exact hw
  | put | evict => exact hw
  | leave caller =>
    have hne : i ≠ caller := fun heq => he heq.symm
    exact List.mem_filter.mpr ⟨hw, by simp [hne]⟩

/-- **One who waits is given what the next fetch brings.** -/
theorem served (hw : (i, x) ∈ c.waiting) (result : Except ε ν) :
    (i, x, result) ∈ c.answers key (.fetched (key x) result) :=
  List.mem_map.mpr ⟨(i, x), mem_waitingFor.mpr ⟨hw, rfl⟩, rfl⟩

/-- Who waits now and did not before has just asked. -/
theorem waiting_of_step (hw : (i, x) ∈ (c.step key e).waiting) :
    (i, x) ∈ c.waiting ∧ ¬ Ends key i x e ∨ e = .ask i x := by
  cases e with
  | ask caller y =>
    simp only [step] at hw
    split at hw
    · exact .inl ⟨hw, id⟩
    · rcases List.mem_append.mp hw with hw | hw
      · exact .inl ⟨hw, id⟩
      · obtain ⟨rfl, rfl⟩ : i = caller ∧ x = y := by simpa using hw
        exact .inr rfl
  | fetched k result =>
    have hfiltered : ∀ {ws : List (Nat × ξ)}, (i, x) ∈ (ws.filter fun w => !decide (key w.2 = k)) →
        (i, x) ∈ ws ∧ ¬ k = key x := by
      intro ws h
      rw [List.mem_filter, Bool.not_eq_true', decide_eq_false_iff_not] at h
      exact ⟨h.1, fun heq => h.2 heq.symm⟩
    cases result with
    | error e => exact .inl (hfiltered hw)
    | ok v =>
      simp only [step] at hw
      split at hw
      · exact .inl (hfiltered hw)
      · next hnone =>
        refine .inl ⟨hw, fun heq => hnone ?_⟩
        obtain ⟨y, hy⟩ := exists_fetching? key hw
        have hk : k = key x := heq
        rw [hk, hy]
        rfl
  | put | evict => exact .inl ⟨hw, id⟩
  | leave caller =>
    have h := List.mem_filter.mp hw
    rw [Bool.not_eq_true', decide_eq_false_iff_not] at h
    exact .inl ⟨h.1, fun heq => h.2 heq.symm⟩

end ReadThrough

end Keycast.Lib
