import Mathlib.Data.List.Basic

/-!
# `Lib/Prog.lean` — programs made of atomic statements

A request handler of a server is a sequence of statements on shared state — a query, an update,
a cache lookup — with pure code in between. `Prog` is such a handler: a tree whose inner nodes
are the atomic statements and whose leaves are the two ways to stop, with a value (`ret`) or
with an error (`err`).

A statement is split in two: `upd` is what it does to the shared state, and `k` is how the
handler goes on, given the state the statement saw. Anything a statement returns (the row it
selected, the value it read) is a function of that state, so nothing is lost, and no result type
has to be quantified over inside the tree.

The same tree is given two meanings. `Prog.run` executes it without interruption, which is what
a sequential property is about. `Lib/Interleave.lean` runs many of them statement by statement in
any order.

Statements carry a label. It has no influence on either meaning; it is how a property says *which*
statement it is about.
-/

set_option autoImplicit false

namespace Keycast.Lib

/-- A handler over shared state `σ`, with statements labelled in `ℓ`, errors in `ε` and results
in `α`. -/
inductive Prog (ℓ σ ε α : Type) : Type
  | ret (a : α)
  | err (e : ε)
  | atom (l : ℓ) (upd : σ → σ) (k : σ → Prog ℓ σ ε α)

namespace Prog

variable {ℓ σ ε α β γ : Type}

def bind : Prog ℓ σ ε α → (α → Prog ℓ σ ε β) → Prog ℓ σ ε β
  | ret a, f => f a
  | err e, _ => err e
  | atom l upd k, f => atom l upd (fun s => (k s).bind f)

instance : Monad (Prog ℓ σ ε) where
  pure := ret
  bind := bind

/-- One statement that returns a value and updates the state. -/
def stmt (l : ℓ) (f : σ → β × σ) : Prog ℓ σ ε β :=
  atom l (fun s => (f s).2) (fun s => ret (f s).1)

/-- A statement that only reads. -/
def read (l : ℓ) (f : σ → β) : Prog ℓ σ ε β := atom l id (fun s => ret (f s))

/-- A statement that only writes. -/
def write (l : ℓ) (f : σ → σ) : Prog ℓ σ ε Unit := atom l f (fun _ => ret ())

/-- One statement that may fail, and then changes nothing. -/
def tryStmt (l : ℓ) (f : σ → Except ε (β × σ)) : Prog ℓ σ ε β :=
  atom l (fun s => match f s with
    | .ok (_, s') => s'
    | .error _ => s) (fun s => match f s with
    | .ok (b, _) => ret b
    | .error e => err e)

/-- The source's `ok_or(e)?`. -/
def orErr (o : Option α) (e : ε) : Prog ℓ σ ε α :=
  match o with
  | some a => ret a
  | none => err e

/-- The source's `?` on a pure result. -/
def ofExcept : Except ε α → Prog ℓ σ ε α
  | .ok a => ret a
  | .error e => err e

/-- Run a handler and hand its error to the caller as a value: the source's
`if let Err(e) = f().await` and `match f().await`. -/
def attempt : Prog ℓ σ ε α → Prog ℓ σ ε (Except ε α)
  | ret a => ret (.ok a)
  | err e => ret (.error e)
  | atom l upd k => atom l upd (fun s => (k s).attempt)

/-- The source's `.await.map_err(f)?`. -/
def mapErr {ε' : Type} (f : ε → ε') : Prog ℓ σ ε α → Prog ℓ σ ε' α
  | ret a => ret a
  | err e => err (f e)
  | atom l upd k => atom l upd (fun s => (k s).mapErr f)

@[simp] theorem pure_def (a : α) : (pure a : Prog ℓ σ ε α) = ret a := rfl
@[simp] theorem bind_def (p : Prog ℓ σ ε α) (f : α → Prog ℓ σ ε β) : (p >>= f) = p.bind f := rfl
@[simp] theorem ret_bind (a : α) (f : α → Prog ℓ σ ε β) : (ret a).bind f = f a := rfl
@[simp] theorem err_bind (e : ε) (f : α → Prog ℓ σ ε β) :
    (err e : Prog ℓ σ ε α).bind f = err e := rfl
@[simp] theorem atom_bind (l : ℓ) (upd : σ → σ) (k : σ → Prog ℓ σ ε α)
    (f : α → Prog ℓ σ ε β) : (atom l upd k).bind f = atom l upd (fun s => (k s).bind f) := rfl
@[simp] theorem read_bind (l : ℓ) (g : σ → β) (f : β → Prog ℓ σ ε α) :
    (read l g).bind f = atom l id (fun s => f (g s)) := rfl
@[simp] theorem write_bind (l : ℓ) (g : σ → σ) (f : Unit → Prog ℓ σ ε α) :
    (write l g).bind f = atom l g (fun _ => f ()) := rfl
@[simp] theorem stmt_bind (l : ℓ) (g : σ → β × σ) (f : β → Prog ℓ σ ε α) :
    (stmt l g).bind f = atom l (fun s => (g s).2) (fun s => f (g s).1) := rfl
@[simp] theorem orErr_some (a : α) (e : ε) : (orErr (some a) e : Prog ℓ σ ε α) = ret a := rfl
@[simp] theorem orErr_none (e : ε) : (orErr none e : Prog ℓ σ ε α) = err e := rfl
@[simp] theorem ofExcept_ok (a : α) : (ofExcept (.ok a) : Prog ℓ σ ε α) = ret a := rfl
@[simp] theorem ofExcept_error (e : ε) : (ofExcept (.error e) : Prog ℓ σ ε α) = err e := rfl

theorem bind_assoc (p : Prog ℓ σ ε α) (f : α → Prog ℓ σ ε β) (g : β → Prog ℓ σ ε γ) :
    (p.bind f).bind g = p.bind (fun a => (f a).bind g) := by
  induction p with
  | ret | err => rfl
  | atom l upd k ih => simp [ih]

/-- The uninterrupted execution of a handler. -/
def run : Prog ℓ σ ε α → σ → Except ε α × σ
  | ret a, s => (.ok a, s)
  | err e, s => (.error e, s)
  | atom _ upd k, s => (k s).run (upd s)

@[simp] theorem run_ret (a : α) (s : σ) : (ret a : Prog ℓ σ ε α).run s = (.ok a, s) := rfl
@[simp] theorem run_err (e : ε) (s : σ) : (err e : Prog ℓ σ ε α).run s = (.error e, s) := rfl
@[simp] theorem run_atom (l : ℓ) (upd : σ → σ) (k : σ → Prog ℓ σ ε α) (s : σ) :
    (atom l upd k).run s = (k s).run (upd s) := rfl

/-- Running a sequence is running its parts one after the other. -/
theorem run_bind (p : Prog ℓ σ ε α) (f : α → Prog ℓ σ ε β) (s : σ) :
    (p.bind f).run s =
      match p.run s with
      | (.ok a, s') => (f a).run s'
      | (.error e, s') => (.error e, s') := by
  induction p generalizing s with
  | ret | err => rfl
  | atom l upd k ih => exact ih s (upd s)

/-- A caught error ends the run where it occurred. -/
theorem run_attempt (p : Prog ℓ σ ε α) (s : σ) :
    p.attempt.run s = (.ok (p.run s).1, (p.run s).2) := by
  induction p generalizing s with
  | ret | err => rfl
  | atom l upd k ih => exact ih s (upd s)

/-- When the second part changes nothing. -/
theorem run_bind_state {p : Prog ℓ σ ε α} {f : α → Prog ℓ σ ε β}
    (hf : ∀ a s, ((f a).run s).2 = s) (s : σ) : ((p.bind f).run s).2 = (p.run s).2 := by
  rw [run_bind]
  rcases p.run s with ⟨e | a, s'⟩
  · rfl
  · exact hf a s'

/-- A transaction that nobody interrupts: all of its statements, or at the first error none. -/
def transaction (p : Prog ℓ σ ε α) (s : σ) : Except ε α × σ :=
  match p.run s with
  | (.ok a, s') => (.ok a, s')
  | (.error e, _) => (.error e, s)

theorem transaction_ok {p : Prog ℓ σ ε α} {s s' : σ} {a : α} :
    p.transaction s = (.ok a, s') ↔ p.run s = (.ok a, s') := by
  unfold transaction
  rcases p.run s with ⟨e | b, s₁⟩
  · simp
  · simp

/-- **Atomicity.** -/
theorem transaction_error {p : Prog ℓ σ ε α} {s s' : σ} {e : ε}
    (h : p.transaction s = (.error e, s')) :
    s' = s := by
  unfold transaction at h
  rcases hp : p.run s with ⟨e' | b, s₁⟩
  · rw [hp] at h
    exact (Prod.mk.inj h).2.symm
  · rw [hp] at h
    cases h

/-! ## Inversion of successful runs

How a sequence, a read, a write and the two `?` operators can have succeeded; a run of a handler is
taken apart with these, one `obtain` per statement. -/

theorem run_bind_ok {p : Prog ℓ σ ε α} {f : α → Prog ℓ σ ε β} {s s' : σ} {b : β} :
    (p.bind f).run s = (.ok b, s') ↔
      ∃ a s₁, p.run s = (.ok a, s₁) ∧ (f a).run s₁ = (.ok b, s') := by
  rw [run_bind]
  rcases p.run s with ⟨e | a, s₁⟩
  · simp
  · simp

theorem run_read_ok {l : ℓ} {f : σ → α} {s s' : σ} {a : α} :
    (read l f : Prog ℓ σ ε α).run s = (.ok a, s') ↔ f s = a ∧ s = s' := by
  simp [read]

theorem run_write_ok {l : ℓ} {f : σ → σ} {s s' : σ} {a : Unit} :
    (write l f : Prog ℓ σ ε Unit).run s = (.ok a, s') ↔ f s = s' := by
  simp [write]

theorem run_tryStmt_ok {l : ℓ} {f : σ → Except ε (α × σ)} {s s' : σ} {a : α} :
    (tryStmt l f).run s = (.ok a, s') ↔ f s = .ok (a, s') := by
  rw [tryStmt, run_atom]
  rcases f s with e | ⟨b, s₁⟩
  · simp
  · simp

theorem run_orErr_ok {o : Option α} {e : ε} {s s' : σ} {a : α} :
    (orErr o e : Prog ℓ σ ε α).run s = (.ok a, s') ↔ o = some a ∧ s = s' := by
  cases o <;> simp

theorem run_ofExcept_ok {x : Except ε α} {s s' : σ} {a : α} :
    (ofExcept x : Prog ℓ σ ε α).run s = (.ok a, s') ↔ x = .ok a ∧ s = s' := by
  cases x <;> simp

theorem run_ret_ok {s s' : σ} {a b : α} :
    (ret b : Prog ℓ σ ε α).run s = (.ok a, s') ↔ b = a ∧ s = s' := by simp

/-! ## Postconditions of uninterrupted runs

`p.Ends Q s`: run from `s`, the program ends with a result and a state in `Q`. An error in the
middle ends it there, so `Q` has to hold of every error with the state it leaves behind. -/

def Ends (Q : Except ε α → σ → Prop) (p : Prog ℓ σ ε α) (s : σ) : Prop := Q (p.run s).1 (p.run s).2

section Ends

variable {Q : Except ε β → σ → Prop} {s : σ}

theorem Ends.bind {p : Prog ℓ σ ε α} {f : α → Prog ℓ σ ε β}
    (h : p.Ends (fun r s => match r with
      | .ok a => (f a).Ends Q s
      | .error e => Q (.error e) s) s) : (p.bind f).Ends Q s := by
  unfold Ends at h ⊢
  rw [run_bind]
  rcases hp : p.run s with ⟨e | a, s'⟩
  · simpa [hp] using h
  · simpa [hp] using h

theorem Ends.mono {Q' : Except ε β → σ → Prop} {p : Prog ℓ σ ε β} (hQ : ∀ r s, Q r s → Q' r s)
    (h : p.Ends Q s) : p.Ends Q' s := hQ _ _ h

theorem Ends.read {l : ℓ} {f : σ → α} {g : α → Prog ℓ σ ε β} (h : (g (f s)).Ends Q s) :
    ((Prog.read l f).bind g).Ends Q s := h

theorem Ends.write {l : ℓ} {f : σ → σ} {g : Unit → Prog ℓ σ ε β} (h : (g ()).Ends Q (f s)) :
    ((Prog.write l f).bind g).Ends Q s := h

theorem Ends.stmt {l : ℓ} {f : σ → α × σ} {g : α → Prog ℓ σ ε β} (h : (g (f s).1).Ends Q (f s).2) :
    ((Prog.stmt l f).bind g).Ends Q s := h

theorem Ends.orErr_cases {o : Option α} {e : ε} {g : α → Prog ℓ σ ε β}
    (hnone : o = none → Q (.error e) s)
    (hsome : ∀ a, o = some a → (g a).Ends Q s) : ((Prog.orErr o e).bind g).Ends Q s := by
  cases o with
  | none => exact hnone rfl
  | some a => exact hsome a rfl

theorem Ends.orErr {o : Option α} {e : ε} {g : α → Prog ℓ σ ε β} (hnone : Q (.error e) s)
    (hsome : ∀ a, o = some a → (g a).Ends Q s) : ((Prog.orErr o e).bind g).Ends Q s :=
  .orErr_cases (fun _ => hnone) hsome

theorem Ends.ofExcept_cases {x : Except ε α} {g : α → Prog ℓ σ ε β}
    (herr : ∀ e, x = .error e → Q (.error e) s)
    (hok : ∀ a, x = .ok a → (g a).Ends Q s) : ((Prog.ofExcept x).bind g).Ends Q s := by
  cases x with
  | error e => exact herr e rfl
  | ok a => exact hok a rfl

theorem Ends.ofExcept {x : Except ε α} {g : α → Prog ℓ σ ε β} (herr : ∀ e, Q (.error e) s)
    (hok : ∀ a, x = .ok a → (g a).Ends Q s) : ((Prog.ofExcept x).bind g).Ends Q s :=
  .ofExcept_cases (fun e _ => herr e) hok

/-- Errors that get another name on the way. -/
theorem Ends.ofExcept_mapError {ε' : Type} {x : Except ε' α} {f : ε' → ε} {g : α → Prog ℓ σ ε β}
    (herr : ∀ e, x = .error e → Q (.error (f e)) s) (hok : ∀ a, x = .ok a → (g a).Ends Q s) :
    ((Prog.ofExcept (x.mapError f)).bind g).Ends Q s := by
  cases x with
  | error e => exact herr e rfl
  | ok a => exact hok a rfl

end Ends

/-! ## The statements of a run -/

/-- The statements an uninterrupted execution makes, each with the state it finds. -/
def trace : Prog ℓ σ ε α → σ → List (ℓ × σ)
  | ret _, _ => []
  | err _, _ => []
  | atom l upd k, s => (l, s) :: (k s).trace (upd s)

theorem mem_trace_bind {p : Prog ℓ σ ε α} {f : α → Prog ℓ σ ε β} {s : σ} {x : ℓ × σ} :
    x ∈ (p.bind f).trace s ↔
      x ∈ p.trace s ∨ ∃ a s', p.run s = (.ok a, s') ∧ x ∈ (f a).trace s' := by
  induction p generalizing s with
  | ret a => simp [trace]
  | err e => simp [trace]
  | atom l upd k ih => simp [trace, ih, or_assoc]

@[simp] theorem trace_ret (a : α) (s : σ) : (ret a : Prog ℓ σ ε α).trace s = [] := rfl
@[simp] theorem trace_err (e : ε) (s : σ) : (err e : Prog ℓ σ ε α).trace s = [] := rfl
@[simp] theorem trace_read (l : ℓ) (f : σ → α) (s : σ) :
    (read l f : Prog ℓ σ ε α).trace s = [(l, s)] := rfl
@[simp] theorem trace_write (l : ℓ) (f : σ → σ) (s : σ) :
    (write l f : Prog ℓ σ ε Unit).trace s = [(l, s)] := rfl
@[simp] theorem trace_stmt (l : ℓ) (f : σ → α × σ) (s : σ) :
    (stmt l f : Prog ℓ σ ε α).trace s = [(l, s)] := rfl
@[simp] theorem trace_orErr (o : Option α) (e : ε) (s : σ) :
    (orErr o e : Prog ℓ σ ε α).trace s = [] := by cases o <;> rfl
@[simp] theorem trace_ofExcept (x : Except ε α) (s : σ) :
    (ofExcept x : Prog ℓ σ ε α).trace s = [] := by cases x <;> rfl

/-- Every statement of the program has a label in `P`. -/
def Uses (P : ℓ → Prop) : Prog ℓ σ ε α → Prop
  | ret _ => True
  | err _ => True
  | atom l _ k => P l ∧ ∀ s, (k s).Uses P

section Uses

variable {P : ℓ → Prop}

theorem Uses.bind {p : Prog ℓ σ ε α} {f : α → Prog ℓ σ ε β} (hp : p.Uses P)
    (hf : ∀ a, (f a).Uses P) : (p.bind f).Uses P := by
  induction p with
  | ret a => exact hf a
  | err e => trivial
  | atom l upd k ih => exact ⟨hp.1, fun s => ih s (hp.2 s)⟩

theorem Uses.read {l : ℓ} (hl : P l) (f : σ → α) : (Prog.read l f : Prog ℓ σ ε α).Uses P :=
  ⟨hl, fun _ => trivial⟩

theorem Uses.write {l : ℓ} (hl : P l) (f : σ → σ) : (Prog.write l f : Prog ℓ σ ε Unit).Uses P :=
  ⟨hl, fun _ => trivial⟩

theorem Uses.orErr (o : Option α) (e : ε) : (Prog.orErr o e : Prog ℓ σ ε α).Uses P := by
  cases o <;> trivial

theorem Uses.ofExcept (x : Except ε α) : (Prog.ofExcept x : Prog ℓ σ ε α).Uses P := by
  cases x <;> trivial

theorem Uses.trace {p : Prog ℓ σ ε α} (h : p.Uses P) {s : σ} {x : ℓ × σ} (hx : x ∈ p.trace s) :
    P x.1 := by
  induction p generalizing s with
  | ret | err => cases hx
  | atom l upd k ih =>
    rcases List.mem_cons.mp hx with rfl | hx
    · exact h.1
    · exact ih s (h.2 s) hx

end Uses

/-! ## Programs that only read

`Reads v p`: no statement of `p` changes the state, and what it returns is a function of `v s`. -/

def Reads {τ : Type} (v : σ → τ) : Prog ℓ σ ε α → Prop
  | ret _ => True
  | err _ => True
  | atom _ upd k => (∀ s, upd s = s) ∧ ∀ s, (∀ s', v s = v s' → k s = k s') ∧ (k s).Reads v

section Reads

variable {τ : Type} {v : σ → τ}

theorem Reads.bind {p : Prog ℓ σ ε α} {f : α → Prog ℓ σ ε β} (hp : p.Reads v)
    (hf : ∀ a, (f a).Reads v) : (p.bind f).Reads v := by
  induction p with
  | ret a => exact hf a
  | err e => trivial
  | atom l upd k ih =>
    refine ⟨hp.1, fun s => ⟨fun s' hs => ?_, ih s (hp.2 s).2⟩⟩
    show (k s).bind f = (k s').bind f
    rw [(hp.2 s).1 s' hs]

theorem Reads.read {l : ℓ} {f : σ → α} (hf : ∀ s s', v s = v s' → f s = f s') :
    (Prog.read l f : Prog ℓ σ ε α).Reads v := by
  refine ⟨fun _ => rfl, fun s => ⟨fun s' hs => ?_, trivial⟩⟩
  show ret (f s) = ret (f s')
  rw [hf s s' hs]

theorem Reads.orErr (o : Option α) (e : ε) : (Prog.orErr o e : Prog ℓ σ ε α).Reads v := by
  cases o <;> trivial

theorem Reads.ofExcept (x : Except ε α) : (Prog.ofExcept x : Prog ℓ σ ε α).Reads v := by
  cases x <;> trivial

theorem Reads.run_state {p : Prog ℓ σ ε α} (h : p.Reads v) (s : σ) : (p.run s).2 = s := by
  induction p generalizing s with
  | ret | err => rfl
  | atom l upd k ih =>
    rw [run_atom, h.1 s]
    exact ih s (h.2 s).2 s

/-- **What a read-only program returns** depends on the state through `v` only. -/
theorem Reads.run_congr {p : Prog ℓ σ ε α} (h : p.Reads v) {s s' : σ} (hs : v s = v s') :
    (p.run s').1 = (p.run s).1 := by
  induction p generalizing s s' with
  | ret | err => rfl
  | atom l upd k ih =>
    rw [run_atom, run_atom, h.1 s, h.1 s', ← (h.2 s).1 s' hs]
    exact ih s (h.2 s).2 hs

end Reads

end Prog

end Keycast.Lib
