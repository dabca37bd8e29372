import Mathlib.Data.List.Induction
import Keycast.Lib.Run
import Keycast.Lib.Prog

/-!
# `Lib/Interleave.lean` — many handlers over one shared state

A `System` says which program a request runs and what the environment can do to the shared
state. A configuration is the shared state and a pool of threads; an event starts a request,
executes the next statement of one thread, or lets the environment act. A run is any list of
such events, so every interleaving of the statements of any number of requests is one of them.

A thread keeps the list of statements it has executed, newest first, each with the state it
saw. That is a ghost: no program can read it. It lets a claim say "at the `SELECT` made inside
that same request" without naming positions in the run.

Reasoning is rely–guarantee. `Prog.Holds I C R Q` says of a program: started in a state that
satisfies the invariant `I`, with other threads changing the state only along `R`, and each
statement executed only when the side condition `C` allows it, every statement keeps `I` and
moves along `R` itself, and the program ends in `Q`. `System.holds_run` turns that, proved once
per program, into a fact about every thread of every run. `C` is what makes the rule usable for
code that is *wrong* without it: a claim that fails on some interleavings is a claim with an
exact `C`.
-/

set_option autoImplicit false

namespace Keycast.Lib

variable {ρ ℓ σ ε α ι β : Type}

/-- One request in flight (or finished). -/
structure Thread (ρ ℓ σ ε α : Type) where
  req : ρ
  seen : List (ℓ × σ)
  rest : Prog ℓ σ ε α

/-- How a thread ended, if it has. -/
def Thread.result? (t : Thread ρ ℓ σ ε α) : Option (Except ε α) :=
  match t.rest with
  | .ret a => some (.ok a)
  | .err e => some (.error e)
  | .atom .. => none

/-- The label of the statement a thread is about to execute. -/
def Thread.next? (t : Thread ρ ℓ σ ε α) : Option ℓ :=
  match t.rest with
  | .atom l _ _ => some l
  | _ => none

structure Conf (ρ ℓ σ ε α : Type) where
  state : σ
  threads : List (Thread ρ ℓ σ ε α)

/-- A configuration in which no request has been made yet. -/
def Conf.init (s : σ) : Conf ρ ℓ σ ε α := ⟨s, []⟩

/-- A thread that passes a check, for reading a concrete run. -/
theorem Conf.exists_thread {c : Conf ρ ℓ σ ε α} {i : Nat} {p : Thread ρ ℓ σ ε α → Bool}
    (h : (c.threads[i]?).any p = true) : ∃ t, c.threads[i]? = some t ∧ p t = true := by
  cases ht : c.threads[i]? with
  | none => simp [ht] at h
  | some t => exact ⟨t, rfl, by simpa [ht] using h⟩

inductive Ev (ρ ι : Type)
  | spawn (r : ρ)
  | exec (i : Nat)
  | env (e : ι)
  deriving DecidableEq, Repr

/-- The programs of the requests, and the environment's own moves. -/
structure System (ρ ℓ σ ε α ι : Type) where
  prog : ρ → Prog ℓ σ ε α
  env : ι → σ → σ

/-- Execute the next statement of a thread. A finished thread stays as it is. -/
def Thread.step (t : Thread ρ ℓ σ ε α) (s : σ) : Thread ρ ℓ σ ε α × σ :=
  match t.rest with
  | .atom l upd k => ({ t with seen := (l, s) :: t.seen, rest := k s }, upd s)
  | _ => (t, s)

namespace System

def step (sys : System ρ ℓ σ ε α ι) (c : Conf ρ ℓ σ ε α) : Ev ρ ι → Conf ρ ℓ σ ε α
  | .spawn r => { c with threads := c.threads ++ [⟨r, [], sys.prog r⟩] }
  | .exec i =>
    match c.threads[i]? with
    | some t => ⟨(t.step c.state).2, c.threads.set i (t.step c.state).1⟩
    | none => c
  | .env e => { c with state := sys.env e c.state }

/-- The side condition of an event: `C` for the statement an `exec` is about to execute, `E`
for a move of the environment, nothing for a new request. -/
def Allowed (C : ℓ → σ → Prop) (E : ι → σ → Prop) (c : Conf ρ ℓ σ ε α) : Ev ρ ι → Prop
  | .spawn _ => True
  | .exec i => ∀ t ∈ c.threads[i]?, ∀ l ∈ t.next?, C l c.state
  | .env e => E e c.state

instance Allowed.decidable (C : ℓ → σ → Prop) (E : ι → σ → Prop)
    [∀ l s, Decidable (C l s)] [∀ e s, Decidable (E e s)] :
    ∀ (c : Conf ρ ℓ σ ε α) (e : Ev ρ ι), Decidable (Allowed C E c e)
  | _, .spawn _ => .isTrue trivial
  | c, .exec i =>
    inferInstanceAs (Decidable (∀ t ∈ c.threads[i]?, ∀ l ∈ t.next?, C l c.state))
  | c, .env e => inferInstanceAs (Decidable (E e c.state))

/-- Without a side condition every run is allowed. -/
theorem along_allowed (sys : System ρ ℓ σ ε α ι) (c : Conf ρ ℓ σ ε α) (es : List (Ev ρ ι)) :
    Along sys.step (Allowed (fun _ _ => True) fun _ _ => True) c es := by
  induction es generalizing c with
  | nil => trivial
  | cons e es ih =>
    refine ⟨?_, ih _⟩
    cases e with
    | spawn | env => trivial
    | exec i => exact fun _ _ _ _ => trivial

/-! ## The general rule -/

/-- The invariant a configuration has when the state satisfies `I` and each thread `T`. -/
structure Good (I : σ → Prop) (T : ρ → Prog ℓ σ ε α → List (ℓ × σ) → σ → Prop)
    (c : Conf ρ ℓ σ ε α) : Prop where
  state : I c.state
  threads : ∀ t ∈ c.threads, T t.req t.rest t.seen c.state

variable {sys : System ρ ℓ σ ε α ι} {ok : Conf ρ ℓ σ ε α → Ev ρ ι → Prop}
  {I : σ → Prop} {R : σ → σ → Prop}
  {T : ρ → Prog ℓ σ ε α → List (ℓ × σ) → σ → Prop}

/-- What has to be shown of a system for `Good I T` to survive every allowed event: threads do
not notice moves along `R` (`stable`), a new request starts well (`spawn`), a statement keeps
the invariant, moves along `R`, and leaves its thread well (`exec`), and so does the environment
(`env`). -/
structure Preserves (sys : System ρ ℓ σ ε α ι) (ok : Conf ρ ℓ σ ε α → Ev ρ ι → Prop)
    (I : σ → Prop) (R : σ → σ → Prop)
    (T : ρ → Prog ℓ σ ε α → List (ℓ × σ) → σ → Prop) : Prop where
  stable : ∀ {r p seen s s'}, R s s' → T r p seen s → T r p seen s'
  spawn : ∀ {c r}, ok c (.spawn r) → I c.state → T r (sys.prog r) [] c.state
  exec : ∀ {c i t l upd k}, ok c (.exec i) → c.threads[i]? = some t → t.rest = .atom l upd k →
    Good I T c → I (upd c.state) ∧ R c.state (upd c.state) ∧
      T t.req (k c.state) ((l, c.state) :: t.seen) (upd c.state)
  env : ∀ {c e}, ok c (.env e) → Good I T c → I (sys.env e c.state) ∧
    R c.state (sys.env e c.state)

theorem Preserves.step (h : Preserves sys ok I R T) {c : Conf ρ ℓ σ ε α} {e : Ev ρ ι}
    (hc : Good I T c) (hok : ok c e) : Good I T (sys.step c e) := by
  cases e with
  | spawn r =>
    refine ⟨hc.state, fun t ht => ?_⟩
    simp only [System.step, List.mem_append, List.mem_singleton] at ht
    rcases ht with ht | rfl
    · exact hc.threads t ht
    · exact h.spawn (c := c) hok hc.state
  | env e =>
    obtain ⟨hi, hr⟩ := h.env hok hc
    exact ⟨hi, fun t ht => h.stable hr (hc.threads t ht)⟩
  | exec i =>
    simp only [System.step]
    cases ht : c.threads[i]? with
    | none => exact hc
    | some t =>
      cases hrest : t.rest with
      | ret | err =>
        -- a finished thread: the configuration is unchanged
        have hset : c.threads.set i t = c.threads := by
          obtain ⟨hi, rfl⟩ := List.getElem?_eq_some_iff.mp ht
          exact List.set_getElem_self hi
        simpa [Thread.step, hrest, hset] using hc
      | atom l upd k =>
        obtain ⟨hi, hr, hT⟩ := h.exec hok ht hrest hc
        simp only [Thread.step, hrest]
        refine ⟨hi, fun t' ht' => ?_⟩
        rcases List.mem_or_eq_of_mem_set ht' with hmem | rfl
        · exact h.stable hr (hc.threads t' hmem)
        · exact hT

theorem Preserves.run (h : Preserves sys ok I R T) {c : Conf ρ ℓ σ ε α} {es : List (Ev ρ ι)}
    (hc : Good I T c) (hok : Along sys.step ok c es) : Good I T (Lib.run sys.step c es) :=
  run_invariant (fun _ _ => h.step) hc hok

/-- Along an allowed run the state moves along `R`. -/
theorem Preserves.rely (h : Preserves sys ok I R T) (hrefl : ∀ s, R s s)
    (htrans : ∀ a b c, R a b → R b c → R a c) {c : Conf ρ ℓ σ ε α} {es : List (Ev ρ ι)}
    (hc : Good I T c) (hok : Along sys.step ok c es) :
    R c.state (Lib.run sys.step c es).state := by
  induction es generalizing c with
  | nil => exact hrefl _
  | cons e es ih =>
    refine htrans _ _ _ ?_ (ih (h.step hc hok.1) hok.2)
    cases e with
    | spawn r => exact hrefl _
    | env e => exact (h.env hok.1 hc).2
    | exec i =>
      simp only [System.step]
      cases ht : c.threads[i]? with
      | none => exact hrefl _
      | some t =>
        cases hrest : t.rest with
        | ret | err => simpa [Thread.step, hrest] using hrefl _
        | atom l upd k => simpa [Thread.step, hrest] using (h.exec hok.1 ht hrest hc).2.1

theorem good_init {s : σ} (hs : I s) : Good I T (Conf.init s) :=
  ⟨hs, fun t ht => absurd ht (by simp [Conf.init])⟩

end System

/-! ## What every statement does, whatever the state

The simplest of the rules: when a relation holds across *each* statement of a program in *every*
state, it holds across every step of every run, and nothing about threads has to be carried. -/

/-- Each statement of the program moves the state along `G`. -/
def Prog.Steps (G : σ → σ → Prop) : Prog ℓ σ ε α → Prop
  | .ret _ => True
  | .err _ => True
  | .atom _ upd k => ∀ s, G s (upd s) ∧ (k s).Steps G

namespace Prog

variable {G : σ → σ → Prop}

theorem Steps.bind {p : Prog ℓ σ ε α} {f : α → Prog ℓ σ ε β} (hp : p.Steps G)
    (hf : ∀ a, (f a).Steps G) : (p.bind f).Steps G := by
  induction p with
  | ret a => exact hf a
  | err e => trivial
  | atom l upd k ih => exact fun s => ⟨(hp s).1, ih s (hp s).2⟩

theorem Steps.mapErr {ε' : Type} {f : ε → ε'} {p : Prog ℓ σ ε α} (hp : p.Steps G) :
    (p.mapErr f).Steps G := by
  induction p with
  | ret | err => trivial
  | atom l upd k ih => exact fun s => ⟨(hp s).1, ih s (hp s).2⟩

theorem Steps.orErr (o : Option α) (e : ε) : (Prog.orErr o e : Prog ℓ σ ε α).Steps G := by
  cases o <;> trivial

theorem Steps.ofExcept (x : Except ε α) : (Prog.ofExcept x : Prog ℓ σ ε α).Steps G := by
  cases x <;> trivial

theorem Steps.read (hG : ∀ s, G s s) (l : ℓ) (f : σ → α) :
    (Prog.read l f : Prog ℓ σ ε α).Steps G := fun s => ⟨hG s, trivial⟩

theorem Steps.write (l : ℓ) {f : σ → σ} (hG : ∀ s, G s (f s)) :
    (Prog.write l f : Prog ℓ σ ε Unit).Steps G := fun s => ⟨hG s, trivial⟩

/-- The uninterrupted execution moves along `G` too. -/
theorem Steps.run (hrefl : ∀ s, G s s) (htrans : ∀ a b c, G a b → G b c → G a c)
    {p : Prog ℓ σ ε α} (h : p.Steps G) (s : σ) : G s (p.run s).2 := by
  induction p generalizing s with
  | ret | err => exact hrefl s
  | atom l upd k ih => exact htrans _ _ _ (h s).1 (ih s (h s).2 (upd s))

/-- **Sequencing** after a part that is only known to move along `G`. -/
theorem Ends.bind_steps {Q : Except ε β → σ → Prop} {p : Prog ℓ σ ε α}
    {f : α → Prog ℓ σ ε β} {s : σ}
    (hrefl : ∀ s, G s s) (htrans : ∀ a b c, G a b → G b c → G a c) (hp : p.Steps G)
    (herr : ∀ e s', G s s' → Q (.error e) s') (h : ∀ a s', G s s' → (f a).Ends Q s') :
    (p.bind f).Ends Q s := by
  refine Ends.bind ?_
  have hmoved : G s (p.run s).2 := hp.run hrefl htrans s
  unfold Ends
  cases (p.run s).1 with
  | error e => exact herr e _ hmoved
  | ok a => exact h a _ hmoved

end Prog

/-- Every value the program can return satisfies `P`, whatever states its statements see. -/
def Prog.Returns (P : α → Prop) : Prog ℓ σ ε α → Prop
  | .ret a => P a
  | .err _ => True
  | .atom _ _ k => ∀ s, (k s).Returns P

namespace Prog

theorem Returns.bind {P : α → Prop} {P' : β → Prop} {p : Prog ℓ σ ε α} {f : α → Prog ℓ σ ε β}
    (hp : p.Returns P) (hf : ∀ a, P a → (f a).Returns P') : (p.bind f).Returns P' := by
  induction p with
  | ret a => exact hf a hp
  | err e => trivial
  | atom l upd k ih => exact fun s => ih s (hp s)

theorem Returns.mono {P P' : α → Prop} (h : ∀ a, P a → P' a) {p : Prog ℓ σ ε α}
    (hp : p.Returns P) : p.Returns P' := by
  induction p with
  | ret a => exact h a hp
  | err e => trivial
  | atom l upd k ih => exact fun s => ih s (hp s)

theorem Returns.trivial (p : Prog ℓ σ ε α) : p.Returns (fun _ => True) := by
  induction p with
  | ret | err => exact True.intro
  | atom l upd k ih => exact ih

theorem Returns.run {P : α → Prop} {p : Prog ℓ σ ε α} (hp : p.Returns P) {s s' : σ} {a : α}
    (h : p.run s = (.ok a, s')) : P a := by
  induction p generalizing s with
  | ret b => cases h; exact hp
  | err e => cases h
  | atom l upd k ih => exact ih s (hp s) h

theorem Returns.ends {P : α → Prop} {p : Prog ℓ σ ε α} (hp : p.Returns P) (s : σ) :
    p.Ends (fun r _ => ∀ a, r = .ok a → P a) s :=
  fun _ ha => hp.run (Prod.ext ha rfl)

theorem Returns.mapErr {ε' : Type} {f : ε → ε'} {P : α → Prop} {p : Prog ℓ σ ε α}
    (hp : p.Returns P) :
    (p.mapErr f).Returns P := by
  induction p with
  | ret a => exact hp
  | err e => trivial
  | atom l upd k ih => exact fun s => ih s (hp s)

theorem Returns.ofExcept {P : α → Prop} {x : Except ε α} (h : ∀ a, x = .ok a → P a) :
    (Prog.ofExcept x : Prog ℓ σ ε α).Returns P := by
  cases x with
  | error e => trivial
  | ok a => exact h a rfl

/-- When only the second part matters. -/
theorem Returns.bind_right {P : β → Prop} {p : Prog ℓ σ ε α} {f : α → Prog ℓ σ ε β}
    (hf : ∀ a, (f a).Returns P) : (p.bind f).Returns P :=
  (Returns.trivial p).bind fun a _ => hf a

end Prog

/-- Every thread has only statements along `G` ahead of it. -/
def Conf.Steps (G : σ → σ → Prop) (c : Conf ρ ℓ σ ε α) : Prop :=
  ∀ t ∈ c.threads, t.rest.Steps G

theorem Conf.steps_init {G : σ → σ → Prop} (s : σ) : (Conf.init s : Conf ρ ℓ σ ε α).Steps G :=
  fun t ht => absurd ht (by simp [Conf.init])

namespace System

variable {sys : System ρ ℓ σ ε α ι} {G : σ → σ → Prop} {E : ι → σ → Prop}

theorem steps_step (hprog : ∀ r, (sys.prog r).Steps G) (hrefl : ∀ s, G s s)
    {c : Conf ρ ℓ σ ε α} {e : Ev ρ ι} (hc : c.Steps G) :
    (sys.step c e).Steps G ∧ ∀ i, e = .exec i → G c.state (sys.step c e).state := by
  cases e with
  | spawn r =>
    refine ⟨fun t ht => ?_, fun i hi => nomatch hi⟩
    simp only [System.step, List.mem_append, List.mem_singleton] at ht
    rcases ht with ht | rfl
    · exact hc t ht
    · exact hprog r
  | env e => exact ⟨hc, fun i hi => nomatch hi⟩
  | exec i =>
    simp only [System.step]
    cases ht : c.threads[i]? with
    | none => exact ⟨hc, fun _ _ => hrefl _⟩
    | some t =>
      have hT := hc t (List.mem_of_getElem? ht)
      have hstep : (t.step c.state).1.rest.Steps G ∧ G c.state (t.step c.state).2 := by
        unfold Thread.step
        cases hrest : t.rest with
        | ret | err => simpa [hrest, Prog.Steps] using hrefl _
        | atom l upd k =>
          rw [hrest] at hT
          exact ⟨(hT c.state).2, (hT c.state).1⟩
      refine ⟨fun t' ht' => ?_, fun _ _ => hstep.2⟩
      rcases List.mem_or_eq_of_mem_set ht' with hmem | rfl
      · exact hc t' hmem
      · exact hstep.1

theorem steps_run (hprog : ∀ r, (sys.prog r).Steps G) (hrefl : ∀ s, G s s)
    {c : Conf ρ ℓ σ ε α} {es : List (Ev ρ ι)} (hc : c.Steps G) :
    (Lib.run sys.step c es).Steps G := by
  induction es generalizing c with
  | nil => exact hc
  | cons e es ih => exact ih (steps_step hprog hrefl hc).1

/-- **Invariant rule** for a property of the shared state that every statement preserves in
every state, and the environment when it is allowed to act. -/
theorem state_invariant {J : σ → Prop} (hprog : ∀ r, (sys.prog r).Steps (fun s s' => J s → J s'))
    (henv : ∀ e s, E e s → J s → J (sys.env e s)) {c : Conf ρ ℓ σ ε α} {es : List (Ev ρ ι)}
    (hc : c.Steps (fun s s' => J s → J s')) (hJ : J c.state)
    (hok : Along sys.step (Allowed (fun _ _ => True) E) c es) :
    J (Lib.run sys.step c es).state := by
  induction es generalizing c with
  | nil => exact hJ
  | cons e es ih =>
    have hs := steps_step (e := e) hprog (fun _ h => h) hc
    refine ih hs.1 ?_ hok.2
    cases e with
    | spawn r => exact hJ
    | exec i => exact hs.2 i rfl hJ
    | env e => exact henv e c.state hok.1 hJ

/-- A thread started after `c` has seen only states reached after `c`. -/
theorem seen_reached (sys : System ρ ℓ σ ε α ι) {c : Conf ρ ℓ σ ε α} {es : List (Ev ρ ι)}
    {i : Nat} (hi : c.threads.length ≤ i) {t : Thread ρ ℓ σ ε α}
    (ht : (Lib.run sys.step c es).threads[i]? = some t) {x : ℓ × σ} (hx : x ∈ t.seen) :
    ∃ pre post, es = pre ++ post ∧ (Lib.run sys.step c pre).state = x.2 := by
  induction es using List.reverseRecOn generalizing t with
  | nil => rw [Lib.run_nil, List.getElem?_eq_none hi] at ht; cases ht
  | append_singleton es e ih =>
    rw [Lib.run_append, Lib.run_cons, Lib.run_nil] at ht
    -- either the thread has not moved in the last step, or it saw the state before it
    have hlast : (∃ t', (Lib.run sys.step c es).threads[i]? = some t' ∧ x ∈ t'.seen) ∨
        (Lib.run sys.step c es).state = x.2 := by
      cases e with
      | env e => exact .inl ⟨t, ht, hx⟩
      | spawn r =>
        simp only [System.step] at ht
        rw [List.getElem?_append] at ht
        split at ht
        · exact .inl ⟨t, ht, hx⟩
        · have hmem := List.mem_of_getElem? ht
          simp only [List.mem_singleton] at hmem
          subst hmem
          exact absurd hx (by simp)
      | exec j =>
        simp only [System.step] at ht
        cases hj : (Lib.run sys.step c es).threads[j]? with
        | none => rw [hj] at ht; exact .inl ⟨t, ht, hx⟩
        | some u =>
          rw [hj] at ht
          rw [List.getElem?_set] at ht
          split at ht
          · next hji =>
            subst hji
            split at ht
            · simp only [Option.some.injEq] at ht
              subst ht
              unfold Thread.step at hx
              cases hrest : u.rest with
              | ret | err => rw [hrest] at hx; exact .inl ⟨u, hj, hx⟩
              | atom l upd k =>
                rw [hrest] at hx
                rcases List.mem_cons.mp hx with rfl | hx
                · exact .inr rfl
                · exact .inl ⟨u, hj, hx⟩
            · exact absurd ht (by simp)
          · exact .inl ⟨t, ht, hx⟩
    rcases hlast with ⟨t', ht', hx'⟩ | hs
    · obtain ⟨pre, post, rfl, hpre⟩ := ih ht' hx'
      exact ⟨pre, post ++ [e], by simp, hpre⟩
    · exact ⟨es, [e], rfl, hs⟩

/-- A thread that is not there or has ended does nothing. -/
theorem exec_idle (sys : System ρ ℓ σ ε α ι) {c : Conf ρ ℓ σ ε α} {i : Nat}
    (h : (c.threads[i]?).bind Thread.next? = none) : (sys.step c (.exec i)).state = c.state := by
  simp only [System.step]
  cases ht : c.threads[i]? with
  | none => rfl
  | some t =>
    rw [ht, Option.bind_some] at h
    unfold Thread.next? at h
    unfold Thread.step
    cases hrest : t.rest with
    | ret | err => simp [hrest]
    | atom l upd k => simp [hrest] at h

/-- What a thread has seen stays seen. -/
theorem seen_kept (sys : System ρ ℓ σ ε α ι) {c : Conf ρ ℓ σ ε α} (e : Ev ρ ι)
    {t : Thread ρ ℓ σ ε α}
    (ht : t ∈ c.threads) : ∃ t' ∈ (sys.step c e).threads, t.req = t'.req ∧ t.seen ⊆ t'.seen := by
  cases e with
  | spawn r => exact ⟨t, List.mem_append_left _ ht, rfl, List.Subset.refl _⟩
  | env e => exact ⟨t, ht, rfl, List.Subset.refl _⟩
  | exec i =>
    simp only [System.step]
    cases hi : c.threads[i]? with
    | none => exact ⟨t, ht, rfl, List.Subset.refl _⟩
    | some u =>
      obtain ⟨j, hj, rfl⟩ := List.getElem_of_mem ht
      by_cases hij : i = j
      · subst hij
        obtain rfl : c.threads[i] = u := by
          rw [List.getElem?_eq_getElem hj] at hi
          exact Option.some.inj hi
        refine ⟨_, List.mem_set hj _, ?_, ?_⟩
        · unfold Thread.step
          split <;> rfl
        · unfold Thread.step
          split
          · exact List.subset_cons_self _ _
          · exact List.Subset.refl _
      · refine ⟨c.threads[j], ?_, rfl, List.Subset.refl _⟩
        have hlen : j < (c.threads.set i (u.step c.state).1).length := by rwa [List.length_set]
        have hget : (c.threads.set i (u.step c.state).1)[j] = c.threads[j] :=
          List.getElem_set_ne hij hlen
        exact hget ▸ List.getElem_mem hlen

/-- A thread after a step was there before, or is new, or has executed a statement. -/
theorem threads_step (sys : System ρ ℓ σ ε α ι) {c : Conf ρ ℓ σ ε α} {e : Ev ρ ι}
    {t : Thread ρ ℓ σ ε α}
    (ht : t ∈ (sys.step c e).threads) :
    t ∈ c.threads ∨ t.seen = [] ∨ ∃ i t₀ l, e = .exec i ∧ c.threads[i]? = some t₀ ∧
      t₀.next? = some l ∧
      t.req = t₀.req ∧ t.seen = (l, c.state) :: t₀.seen := by
  cases e with
  | spawn r =>
    rcases List.mem_append.mp ht with ht | ht
    · exact .inl ht
    · rw [List.mem_singleton.mp ht]
      exact .inr (.inl rfl)
  | env e => exact .inl ht
  | exec i =>
    simp only [System.step] at ht
    cases hi : c.threads[i]? with
    | none =>
      rw [hi] at ht
      exact .inl ht
    | some t₀ =>
      rw [hi] at ht
      rcases List.mem_or_eq_of_mem_set ht with ht | rfl
      · exact .inl ht
      · cases hrest : t₀.rest with
        | ret | err =>
          have hsame : (t₀.step c.state).1 = t₀ := by simp [Thread.step, hrest]
          rw [hsame]
          exact .inl (List.mem_of_getElem? hi)
        | atom l upd k =>
          refine .inr (.inr ⟨i, t₀, l, rfl, hi, ?_, ?_, ?_⟩)
          · simp [Thread.next?, hrest]
          · simp [Thread.step, hrest]
          · simp [Thread.step, hrest]

/-- What a thread has seen after a step it saw before, or it is the state the step was taken in. -/
theorem seen_step (sys : System ρ ℓ σ ε α ι) {c : Conf ρ ℓ σ ε α} {e : Ev ρ ι}
    {t : Thread ρ ℓ σ ε α}
    (ht : t ∈ (sys.step c e).threads) {x : ℓ × σ} (hx : x ∈ t.seen) :
    (∃ t₀ ∈ c.threads, x ∈ t₀.seen) ∨ x.2 = c.state := by
  rcases threads_step sys ht with ht | hnew | ⟨i, t₀, l, -, hi, -, -, hseen⟩
  · exact .inl ⟨t, ht, hx⟩
  · rw [hnew] at hx
    cases hx
  · rw [hseen] at hx
    rcases List.mem_cons.mp hx with rfl | hx
    · exact .inr rfl
    · exact .inl ⟨t₀, List.mem_of_getElem? hi, hx⟩

end System

/-! ## Rely–guarantee for one program -/

/-- See the module docstring. `seen` is what the thread has executed so far and `s` a state from
which only moves along `R` have happened since. -/
def Prog.Holds (I : σ → Prop) (C : ℓ → σ → Prop) (R : σ → σ → Prop)
    (Q : List (ℓ × σ) → σ → Except ε α → Prop) :
    Prog ℓ σ ε α → List (ℓ × σ) → σ → Prop
  | .ret a, seen, s => Q seen s (.ok a)
  | .err e, seen, s => Q seen s (.error e)
  | .atom l upd k, seen, s => ∀ s', R s s' → I s' → C l s' →
      I (upd s') ∧ R s' (upd s') ∧ (k s').Holds I C R Q ((l, s') :: seen) (upd s')

namespace Prog

variable {I : σ → Prop} {C : ℓ → σ → Prop} {R : σ → σ → Prop}
  {Q Q' : List (ℓ × σ) → σ → Except ε α → Prop}

theorem Holds.mono {p : Prog ℓ σ ε α} {seen : List (ℓ × σ)} {s : σ}
    (hQ : ∀ seen s r, Q seen s r → Q' seen s r) (h : p.Holds I C R Q seen s) :
    p.Holds I C R Q' seen s := by
  induction p generalizing seen s with
  | ret | err => exact hQ _ _ _ h
  | atom l upd k ih =>
    intro s' hr hi hc
    obtain ⟨h₁, h₂, h₃⟩ := h s' hr hi hc
    exact ⟨h₁, h₂, ih s' h₃⟩

/-- A longer rely only matters at the next statement, where it composes. -/
theorem Holds.stable (htrans : ∀ a b c, R a b → R b c → R a c)
    (hQ : ∀ seen s s' r, R s s' → Q seen s r → Q seen s' r)
    {p : Prog ℓ σ ε α} {seen : List (ℓ × σ)} {s s' : σ} (hr : R s s')
    (h : p.Holds I C R Q seen s) : p.Holds I C R Q seen s' := by
  cases p with
  | ret | err => exact hQ _ _ _ _ hr h
  | atom l upd k => exact fun s'' hr' => h s'' (htrans _ _ _ hr hr')

/-- **Sequencing.** The second program is judged where the first one ended. -/
theorem Holds.bind {Q : List (ℓ × σ) → σ → Except ε β → Prop} {p : Prog ℓ σ ε α}
    {f : α → Prog ℓ σ ε β} {seen : List (ℓ × σ)} {s : σ}
    (h : p.Holds I C R (fun seen s r => match r with
      | .ok a => (f a).Holds I C R Q seen s
      | .error e => Q seen s (.error e)) seen s) :
    (p.bind f).Holds I C R Q seen s := by
  induction p generalizing seen s with
  | ret | err => exact h
  | atom l upd k ih =>
    intro s' hr hi hc
    obtain ⟨h₁, h₂, h₃⟩ := h s' hr hi hc
    exact ⟨h₁, h₂, ih s' h₃⟩

theorem Holds.read {Q : List (ℓ × σ) → σ → Except ε β → Prop} {l : ℓ} {f : σ → α}
    {g : α → Prog ℓ σ ε β} {seen : List (ℓ × σ)} {s : σ} (hrefl : ∀ s, R s s)
    (h : ∀ s', R s s' → I s' → C l s' → (g (f s')).Holds I C R Q ((l, s') :: seen) s') :
    ((Prog.read l f).bind g).Holds I C R Q seen s :=
  fun s' hr hi hc => ⟨hi, hrefl s', h s' hr hi hc⟩

theorem Holds.write {Q : List (ℓ × σ) → σ → Except ε β → Prop} {l : ℓ} {f : σ → σ}
    {g : Unit → Prog ℓ σ ε β} {seen : List (ℓ × σ)} {s : σ}
    (h : ∀ s', R s s' → I s' → C l s' →
      I (f s') ∧ R s' (f s') ∧ (g ()).Holds I C R Q ((l, s') :: seen) (f s')) :
    ((Prog.write l f).bind g).Holds I C R Q seen s := h

theorem Holds.stmt {Q : List (ℓ × σ) → σ → Except ε β → Prop} {l : ℓ} {f : σ → α × σ}
    {g : α → Prog ℓ σ ε β} {seen : List (ℓ × σ)} {s : σ}
    (h : ∀ s', R s s' → I s' → C l s' →
      I (f s').2 ∧ R s' (f s').2 ∧ (g (f s').1).Holds I C R Q ((l, s') :: seen) (f s').2) :
    ((Prog.stmt l f).bind g).Holds I C R Q seen s := h

theorem Holds.orErr {Q : List (ℓ × σ) → σ → Except ε β → Prop} {o : Option α} {e : ε}
    {g : α → Prog ℓ σ ε β} {seen : List (ℓ × σ)} {s : σ}
    (hnone : Q seen s (.error e)) (hsome : ∀ a, o = some a → (g a).Holds I C R Q seen s) :
    ((Prog.orErr o e).bind g).Holds I C R Q seen s := by
  cases o with
  | none => exact hnone
  | some a => exact hsome a rfl

theorem Holds.ofExcept {Q : List (ℓ × σ) → σ → Except ε β → Prop} {x : Except ε α}
    {g : α → Prog ℓ σ ε β} {seen : List (ℓ × σ)} {s : σ}
    (herr : ∀ e, Q seen s (.error e)) (hok : ∀ a, x = .ok a → (g a).Holds I C R Q seen s) :
    ((Prog.ofExcept x).bind g).Holds I C R Q seen s := by
  cases x with
  | error e => exact herr e
  | ok a => exact hok a rfl

/-- A program whose statements are harmless in every state, and whose results all satisfy the
postcondition however much more it has seen by then. -/
theorem Holds.of_steps {P : α → Prop} {p : Prog ℓ σ ε α} {seen : List (ℓ × σ)} {s : σ}
    (hsteps : p.Steps (fun s s' => I s → I s' ∧ R s s')) (hret : p.Returns P)
    (hQ : ∀ news s r, (∀ a, r = .ok a → P a) → Q (news ++ seen) s r) :
    p.Holds I C R Q seen s := by
  induction p generalizing seen s with
  | ret a => exact hQ [] s _ fun _ h => by cases h; exact hret
  | err e => exact hQ [] s _ fun _ h => nomatch h
  | atom l upd k ih =>
    intro s' _ hi _
    obtain ⟨hstep, hk⟩ := hsteps s'
    obtain ⟨hi', hr'⟩ := hstep hi
    refine ⟨hi', hr', ih s' hk (hret s') fun news s r h => ?_⟩
    have := hQ (news ++ [(l, s')]) s r h
    simpa using this

theorem Holds.mapErr {ε' : Type} {f : ε → ε'} {Q : List (ℓ × σ) → σ → Except ε' α → Prop}
    {p : Prog ℓ σ ε α}
    {seen : List (ℓ × σ)} {s : σ}
    (h : p.Holds I C R (fun seen s r => Q seen s (r.mapError f)) seen s) :
    (p.mapErr f).Holds I C R Q seen s := by
  induction p generalizing seen s with
  | ret | err => exact h
  | atom l upd k ih =>
    intro s' hr hi hc
    obtain ⟨h₁, h₂, h₃⟩ := h s' hr hi hc
    exact ⟨h₁, h₂, ih s' h₃⟩

theorem Holds.attempt {Q : List (ℓ × σ) → σ → Except ε (Except ε α) → Prop} {p : Prog ℓ σ ε α}
    {seen : List (ℓ × σ)} {s : σ}
    (h : p.Holds I C R (fun seen s r => Q seen s (.ok r)) seen s) :
    p.attempt.Holds I C R Q seen s := by
  induction p generalizing seen s with
  | ret | err => exact h
  | atom l upd k ih =>
    intro s' hr hi hc
    obtain ⟨h₁, h₂, h₃⟩ := h s' hr hi hc
    exact ⟨h₁, h₂, ih s' h₃⟩

end Prog

namespace System

variable {sys : System ρ ℓ σ ε α ι} {I : σ → Prop} {C : ℓ → σ → Prop} {E : ι → σ → Prop}
  {R : σ → σ → Prop} {Q : ρ → List (ℓ × σ) → σ → Except ε α → Prop}

/-- What is proved of each program of a system and of its environment, once. -/
structure Guarantees (sys : System ρ ℓ σ ε α ι) (I : σ → Prop) (C : ℓ → σ → Prop)
    (E : ι → σ → Prop) (R : σ → σ → Prop)
    (Q : ρ → List (ℓ × σ) → σ → Except ε α → Prop) : Prop where
  refl : ∀ s, R s s
  trans : ∀ a b c, R a b → R b c → R a c
  post : ∀ r seen s s' x, R s s' → Q r seen s x → Q r seen s' x
  prog : ∀ r s, I s → (sys.prog r).Holds I C R (Q r) [] s
  env : ∀ e s, E e s → I s → I (sys.env e s) ∧ R s (sys.env e s)

theorem Guarantees.preserves (h : Guarantees sys I C E R Q) :
    Preserves sys (Allowed C E) I R (fun r p seen s => p.Holds I C R (Q r) seen s) where
  stable hr hp := hp.stable h.trans (h.post _) hr
  spawn _ hs := h.prog _ _ hs
  exec {c i t l upd k} hok ht hrest hc := by
    have hT := hc.threads t (List.mem_of_getElem? ht)
    rw [hrest] at hT
    exact hT c.state (h.refl _) hc.state (hok t ht l (by simp [Thread.next?, hrest]))
  env hok hc := h.env _ _ hok hc.state

/-- **Soundness.** Every thread of every allowed run satisfies its specification, and the
invariant holds at the end. -/
theorem Guarantees.run (h : Guarantees sys I C E R Q) {s : σ} (hs : I s) {es : List (Ev ρ ι)}
    (hok : Along sys.step (Allowed C E) (Conf.init s) es) :
    Good I (fun r p seen s => p.Holds I C R (Q r) seen s)
      (Lib.run sys.step (Conf.init s) es) :=
  h.preserves.run (good_init hs) hok

/-- A finished thread satisfies the postcondition of its request. -/
theorem Guarantees.result (h : Guarantees sys I C E R Q) {s : σ} (hs : I s)
    {es : List (Ev ρ ι)} (hok : Along sys.step (Allowed C E) (Conf.init s) es)
    {t : Thread ρ ℓ σ ε α} (ht : t ∈ (Lib.run sys.step (Conf.init s) es).threads)
    {x : Except ε α} (hx : t.result? = some x) :
    Q t.req t.seen (Lib.run sys.step (Conf.init s) es).state x := by
  have hT := (h.run hs hok).threads t ht
  unfold Thread.result? at hx
  cases hrest : t.rest with
  | ret a => simp only [hrest, Option.some.injEq] at hx hT; subst hx; exact hT
  | err e => simp only [hrest, Option.some.injEq] at hx hT; subst hx; exact hT
  | atom l upd k => simp [hrest] at hx

end System

/-! ## Guarantees that depend on the thread's own history

A thread may be harmless except while it is in the middle of something. `G l seen s s'` says what
the statement labelled `l` may do to the state, given what its thread has executed before; unlike
with `Holds` nothing is assumed of the state a statement finds. -/

def Prog.Meets (G : ℓ → List (ℓ × σ) → σ → σ → Prop) (Q : List (ℓ × σ) → Except ε α → Prop) :
    Prog ℓ σ ε α → List (ℓ × σ) → Prop
  | .ret a, seen => Q seen (.ok a)
  | .err e, seen => Q seen (.error e)
  | .atom l upd k, seen => ∀ s, G l seen s (upd s) ∧ (k s).Meets G Q ((l, s) :: seen)

namespace Prog

variable {G : ℓ → List (ℓ × σ) → σ → σ → Prop} {Q Q' : List (ℓ × σ) → Except ε α → Prop}

theorem Meets.mono (hQ : ∀ seen r, Q seen r → Q' seen r) {p : Prog ℓ σ ε α} {seen : List (ℓ × σ)}
    (h : p.Meets G Q seen) : p.Meets G Q' seen := by
  induction p generalizing seen with
  | ret | err => exact hQ _ _ h
  | atom l upd k ih =>
    intro s
    obtain ⟨h₁, h₂⟩ := h s
    exact ⟨h₁, ih s h₂⟩

theorem Meets.imp {G' : ℓ → List (ℓ × σ) → σ → σ → Prop}
    (hG : ∀ l seen s s', G l seen s s' → G' l seen s s')
    {p : Prog ℓ σ ε α} {seen : List (ℓ × σ)} (h : p.Meets G Q seen) : p.Meets G' Q seen := by
  induction p generalizing seen with
  | ret | err => exact h
  | atom l upd k ih =>
    intro s
    obtain ⟨h₁, h₂⟩ := h s
    exact ⟨hG _ _ _ _ h₁, ih s h₂⟩

theorem Meets.bind {Q : List (ℓ × σ) → Except ε β → Prop} {p : Prog ℓ σ ε α}
    {f : α → Prog ℓ σ ε β} {seen : List (ℓ × σ)}
    (h : p.Meets G (fun seen r => match r with
      | .ok a => (f a).Meets G Q seen
      | .error e => Q seen (.error e)) seen) : (p.bind f).Meets G Q seen := by
  induction p generalizing seen with
  | ret | err => exact h
  | atom l upd k ih =>
    intro s
    obtain ⟨h₁, h₂⟩ := h s
    exact ⟨h₁, ih s h₂⟩

theorem Meets.read {Q : List (ℓ × σ) → Except ε β → Prop} {l : ℓ} {f : σ → α}
    {g : α → Prog ℓ σ ε β} {seen : List (ℓ × σ)} (hrefl : ∀ s, G l seen s s)
    (h : ∀ s, (g (f s)).Meets G Q ((l, s) :: seen)) :
    ((Prog.read l f).bind g).Meets G Q seen :=
  fun s => ⟨hrefl s, h s⟩

theorem Meets.write {Q : List (ℓ × σ) → Except ε β → Prop} {l : ℓ} {f : σ → σ}
    {g : Unit → Prog ℓ σ ε β} {seen : List (ℓ × σ)}
    (h : ∀ s, G l seen s (f s) ∧ (g ()).Meets G Q ((l, s) :: seen)) :
    ((Prog.write l f).bind g).Meets G Q seen := h

theorem Meets.stmt {Q : List (ℓ × σ) → Except ε β → Prop} {l : ℓ} {f : σ → α × σ}
    {g : α → Prog ℓ σ ε β} {seen : List (ℓ × σ)}
    (h : ∀ s, G l seen s (f s).2 ∧ (g (f s).1).Meets G Q ((l, s) :: seen)) :
    ((Prog.stmt l f).bind g).Meets G Q seen := h

theorem Meets.orErr {Q : List (ℓ × σ) → Except ε β → Prop} {o : Option α} {e : ε}
    {g : α → Prog ℓ σ ε β} {seen : List (ℓ × σ)} (hnone : Q seen (.error e))
    (hsome : ∀ a, o = some a → (g a).Meets G Q seen) :
    ((Prog.orErr o e).bind g).Meets G Q seen := by
  cases o with
  | none => exact hnone
  | some a => exact hsome a rfl

theorem Meets.ofExcept {Q : List (ℓ × σ) → Except ε β → Prop} {x : Except ε α}
    {g : α → Prog ℓ σ ε β} {seen : List (ℓ × σ)} (herr : ∀ e, Q seen (.error e))
    (hok : ∀ a, x = .ok a → (g a).Meets G Q seen) :
    ((Prog.ofExcept x).bind g).Meets G Q seen := by
  cases x with
  | error e => exact herr e
  | ok a => exact hok a rfl

theorem Meets.attempt {Q : List (ℓ × σ) → Except ε (Except ε α) → Prop} {p : Prog ℓ σ ε α}
    {seen : List (ℓ × σ)} (h : p.Meets G (fun seen r => Q seen (.ok r)) seen) :
    p.attempt.Meets G Q seen := by
  induction p generalizing seen with
  | ret | err => exact h
  | atom l upd k ih =>
    intro s
    obtain ⟨h₁, h₂⟩ := h s
    exact ⟨h₁, ih s h₂⟩

theorem Meets.mapErr {ε' : Type} {f : ε → ε'} {Q : List (ℓ × σ) → Except ε' α → Prop}
    {p : Prog ℓ σ ε α}
    {seen : List (ℓ × σ)} (h : p.Meets G (fun seen r => Q seen (r.mapError f)) seen) :
    (p.mapErr f).Meets G Q seen := by
  induction p generalizing seen with
  | ret | err => exact h
  | atom l upd k ih =>
    intro s
    obtain ⟨h₁, h₂⟩ := h s
    exact ⟨h₁, ih s h₂⟩

/-- What has been seen stays seen. -/
theorem Meets.keeps {p : Prog ℓ σ ε α} {seen₀ seen : List (ℓ × σ)} (h : p.Meets G Q seen)
    (hs : seen₀ ⊆ seen) : p.Meets G (fun seen r => Q seen r ∧ seen₀ ⊆ seen) seen := by
  induction p generalizing seen with
  | ret | err => exact ⟨h, hs⟩
  | atom l upd k ih =>
    intro s
    obtain ⟨h₁, h₂⟩ := h s
    exact ⟨h₁, ih s h₂ (List.subset_cons_of_subset _ hs)⟩

/-- What the program can return at all. -/
theorem Meets.returns {P : α → Prop} {p : Prog ℓ σ ε α} {seen : List (ℓ × σ)} (h : p.Meets G Q seen)
    (hp : p.Returns P) : p.Meets G (fun seen r => Q seen r ∧ ∀ a, r = .ok a → P a) seen := by
  induction p generalizing seen with
  | ret a =>
    refine ⟨h, fun b hb => ?_⟩
    cases hb
    exact hp
  | err e => exact ⟨h, nofun⟩
  | atom l upd k ih =>
    intro s
    obtain ⟨h₁, h₂⟩ := h s
    exact ⟨h₁, ih s h₂ (hp s)⟩

/-- A program whose statements all move along a relation that `G` allows anywhere. -/
theorem Steps.meets {M : σ → σ → Prop} {p : Prog ℓ σ ε α} {seen : List (ℓ × σ)} (h : p.Steps M)
    (hG : ∀ {l seen s s'}, M s s' → G l seen s s')
    (hQ : ∀ seen r, Q seen r) : p.Meets G Q seen := by
  induction p generalizing seen with
  | ret | err => exact hQ _ _
  | atom l upd k ih => exact fun s => ⟨hG (h s).1, ih s (h s).2⟩

/-- Every statement of the program is one of `P`, in every state. -/
def Does (P : ℓ → σ → σ → Prop) : Prog ℓ σ ε α → Prop
  | .ret _ => True
  | .err _ => True
  | .atom l upd k => ∀ s, P l s (upd s) ∧ (k s).Does P

section Does

variable {P : ℓ → σ → σ → Prop}

theorem Does.bind {p : Prog ℓ σ ε α} {f : α → Prog ℓ σ ε β} (hp : p.Does P)
    (hf : ∀ a, (f a).Does P) : (p.bind f).Does P := by
  induction p with
  | ret a => exact hf a
  | err e => trivial
  | atom l upd k ih => exact fun s => ⟨(hp s).1, ih s (hp s).2⟩

theorem Does.mono {P' : ℓ → σ → σ → Prop} (hP : ∀ l s s', P l s s' → P' l s s') {p : Prog ℓ σ ε α}
    (h : p.Does P) : p.Does P' := by
  induction p with
  | ret | err => trivial
  | atom l upd k ih => exact fun s => ⟨hP _ _ _ (h s).1, ih s (h s).2⟩

theorem Does.and {P' : ℓ → σ → σ → Prop} {p : Prog ℓ σ ε α} (h : p.Does P) (h' : p.Does P') :
    p.Does fun l s s' => P l s s' ∧ P' l s s' := by
  induction p with
  | ret | err => trivial
  | atom l upd k ih => exact fun s => ⟨⟨(h s).1, (h' s).1⟩, ih s (h s).2 (h' s).2⟩

theorem Does.read {l : ℓ} (hP : ∀ s, P l s s) (f : σ → α) : (Prog.read l f : Prog ℓ σ ε α).Does P :=
  fun s => ⟨hP s, trivial⟩

theorem Does.write {l : ℓ} {f : σ → σ} (hP : ∀ s, P l s (f s)) :
    (Prog.write l f : Prog ℓ σ ε Unit).Does P := fun s => ⟨hP s, trivial⟩

theorem Does.stmt {l : ℓ} {f : σ → α × σ} (hP : ∀ s, P l s (f s).2) :
    (Prog.stmt l f : Prog ℓ σ ε α).Does P := fun s => ⟨hP s, trivial⟩

/-- A statement that changes nothing when it fails. -/
theorem Does.tryStmt {l : ℓ} {f : σ → Except ε (α × σ)} (herr : ∀ s e, f s = .error e → P l s s)
    (hok : ∀ s a s', f s = .ok (a, s') → P l s s') : (Prog.tryStmt l f).Does P := by
  intro s
  cases hf : f s with
  | error e => simpa only [hf] using ⟨herr s e hf, trivial⟩
  | ok r => simpa only [hf] using ⟨hok s r.1 r.2 hf, trivial⟩

theorem Does.mapErr {ε' : Type} {f : ε → ε'} {p : Prog ℓ σ ε α} (hp : p.Does P) :
    (p.mapErr f).Does P := by
  induction p with
  | ret | err => trivial
  | atom l upd k ih => exact fun s => ⟨(hp s).1, ih s (hp s).2⟩

theorem Does.attempt {p : Prog ℓ σ ε α} (hp : p.Does P) : p.attempt.Does P := by
  induction p with
  | ret | err => trivial
  | atom l upd k ih => exact fun s => ⟨(hp s).1, ih s (hp s).2⟩

theorem Does.orErr (o : Option α) (e : ε) : (Prog.orErr o e : Prog ℓ σ ε α).Does P := by
  cases o <;> trivial

theorem Does.ofExcept (x : Except ε α) : (Prog.ofExcept x : Prog ℓ σ ε α).Does P := by
  cases x <;> trivial

theorem Does.steps {G : σ → σ → Prop} (hG : ∀ l s s', P l s s' → G s s') {p : Prog ℓ σ ε α}
    (h : p.Does P) :
    p.Steps G := by
  induction p with
  | ret | err => trivial
  | atom l upd k ih => exact fun s => ⟨hG _ _ _ (h s).1, ih s (h s).2⟩

theorem Steps.does {G : σ → σ → Prop} (hG : ∀ l s s', G s s' → P l s s') {p : Prog ℓ σ ε α}
    (h : p.Steps G) :
    p.Does P := by
  induction p with
  | ret | err => trivial
  | atom l upd k ih => exact fun s => ⟨hG _ _ _ (h s).1, ih s (h s).2⟩

/-- A part of a program whose statements are all of one kind that `G` allows anywhere. -/
theorem Does.meets {p : Prog ℓ σ ε α} {seen : List (ℓ × σ)} (h : p.Does P)
    (hG : ∀ {l seen s s'}, P l s s' → G l seen s s')
    (hQ : ∀ news r, (∀ x ∈ news, ∃ s', P x.1 x.2 s') → Q (news ++ seen) r) : p.Meets G Q seen := by
  induction p generalizing seen with
  | ret a => exact hQ [] _ fun _ hx => nomatch hx
  | err e => exact hQ [] _ fun _ hx => nomatch hx
  | atom l upd k ih =>
    intro s
    obtain ⟨hl, hk⟩ := h s
    refine ⟨hG hl, ih s hk fun news r hnews => ?_⟩
    have hmore := hQ (news ++ [(l, s)]) r fun x hx => ?_
    · rwa [List.append_assoc] at hmore
    · rcases List.mem_append.mp hx with hx | hx
      · exact hnews x hx
      · rw [List.mem_singleton.mp hx]
        exact ⟨_, hl⟩

end Does

end Prog

namespace System

variable {sys : System ρ ℓ σ ε α ι} {G : ρ → ℓ → List (ℓ × σ) → σ → σ → Prop}
  {Q : ρ → List (ℓ × σ) → Except ε α → Prop}

/-- Every thread has only statements that meet `G` ahead of it. -/
def Meets (G : ρ → ℓ → List (ℓ × σ) → σ → σ → Prop) (Q : ρ → List (ℓ × σ) → Except ε α → Prop)
    (c : Conf ρ ℓ σ ε α) : Prop :=
  ∀ t ∈ c.threads, t.rest.Meets (G t.req) (Q t.req) t.seen

theorem meets_step (hprog : ∀ r, (sys.prog r).Meets (G r) (Q r) []) {c : Conf ρ ℓ σ ε α}
    (e : Ev ρ ι) (hc : Meets G Q c) : Meets G Q (sys.step c e) := by
  cases e with
  | spawn r =>
    intro t ht
    simp only [System.step, List.mem_append, List.mem_singleton] at ht
    rcases ht with ht | rfl
    · exact hc t ht
    · exact hprog r
  | env e => exact hc
  | exec i =>
    simp only [System.step]
    cases ht : c.threads[i]? with
    | none => exact hc
    | some t =>
      intro t' ht'
      rcases List.mem_or_eq_of_mem_set ht' with hmem | rfl
      · exact hc t' hmem
      · have hT := hc t (List.mem_of_getElem? ht)
        unfold Thread.step
        cases hrest : t.rest with
        | ret | err => simpa [hrest] using hT
        | atom l upd k =>
          rw [hrest] at hT
          exact (hT c.state).2

theorem meets_run (hprog : ∀ r, (sys.prog r).Meets (G r) (Q r) []) {c : Conf ρ ℓ σ ε α}
    {es : List (Ev ρ ι)} (hc : Meets G Q c) : Meets G Q (Lib.run sys.step c es) := by
  induction es generalizing c with
  | nil => exact hc
  | cons e es ih => exact ih (meets_step hprog e hc)

/-- What the statement an `exec` executes does to the state. -/
theorem Meets.exec (sys : System ρ ℓ σ ε α ι) {c : Conf ρ ℓ σ ε α} (hc : Meets G Q c) {i : Nat}
    {t : Thread ρ ℓ σ ε α}
    (ht : c.threads[i]? = some t) {l : ℓ} (hl : t.next? = some l) :
    G t.req l t.seen c.state (sys.step c (.exec i)).state := by
  have hT := hc t (List.mem_of_getElem? ht)
  simp only [System.step, ht, Thread.step]
  unfold Thread.next? at hl
  cases hrest : t.rest with
  | ret | err => simp [hrest] at hl
  | atom l' upd k =>
    rw [hrest] at hT
    simp only [hrest, Option.some.injEq] at hl
    subst hl
    exact (hT c.state).1

theorem Meets.result {c : Conf ρ ℓ σ ε α} (hc : Meets G Q c) {t : Thread ρ ℓ σ ε α}
    (ht : t ∈ c.threads) {x : Except ε α} (hx : t.result? = some x) : Q t.req t.seen x := by
  have hT := hc t ht
  unfold Thread.result? at hx
  cases hrest : t.rest with
  | ret a => simp only [hrest, Option.some.injEq] at hx hT; subst hx; exact hT
  | err e => simp only [hrest, Option.some.injEq] at hx hT; subst hx; exact hT
  | atom l upd k => simp [hrest] at hx

end System

end Keycast.Lib
