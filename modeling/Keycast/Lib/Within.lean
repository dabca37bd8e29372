import Keycast.Lib.Interleave

/-!
# `Lib/Within.lean` — programs on a part of the state

A program written for one state runs on a larger one of which that is a part: its statements get the
labels of the larger system and leave the rest of the state alone. What is known of the program
carries over. Two programs are compared on the states in which the rest is at rest:
`Refines rest p q` says that `p`, run by itself from such a state, ends in such a state and does
what `q` does on the part.
-/

set_option autoImplicit false

namespace Keycast.Lib

variable {ℓ ℓ' σ τ ε α β : Type}

/-- A program on a part of the state, with the labels of the whole. -/
def Prog.within (label : ℓ → ℓ') (get : τ → σ) (set : τ → σ → τ) : Prog ℓ σ ε α → Prog ℓ' τ ε α
  | .ret a => .ret a
  | .err e => .err e
  | .atom l upd k => .atom (label l) (fun t => set t (upd (get t))) fun t =>
    (k (get t)).within label get set

namespace Prog

variable {label : ℓ → ℓ'} {get : τ → σ} {set : τ → σ → τ}

theorem Does.within {P : ℓ → σ → σ → Prop} {P' : ℓ' → τ → τ → Prop}
    (hP : ∀ l t s, P l (get t) s → P' (label l) t (set t s)) {p : Prog ℓ σ ε α} (h : p.Does P) :
    (p.within label get set).Does P' := by
  induction p with
  | ret | err => trivial
  | atom l upd k ih => exact fun t => ⟨hP l t _ (h (get t)).1, ih (get t) (h (get t)).2⟩

theorem Returns.within {P : α → Prop} {p : Prog ℓ σ ε α} (h : p.Returns P) :
    (p.within label get set).Returns P := by
  induction p with
  | ret => exact h
  | err => trivial
  | atom l upd k ih => exact fun t => ih (get t) (h (get t))

/-- `p` by itself does what `q` does on the part. -/
def Refines (rest : σ → τ) (p : Prog ℓ' τ ε α) (q : Prog ℓ σ ε α) : Prop :=
  ∀ s, p.run (rest s) = ((q.run s).1, rest (q.run s).2)

variable {rest : σ → τ}

theorem Refines.refl_ret (a : α) : Refines rest (.ret a : Prog ℓ' τ ε α) (.ret a : Prog ℓ σ ε α) :=
  fun _ => rfl

theorem Refines.refl_err (e : ε) : Refines rest (.err e : Prog ℓ' τ ε α) (.err e : Prog ℓ σ ε α) :=
  fun _ => rfl

theorem Refines.within (hget : ∀ s, get (rest s) = s) (hset : ∀ s s', set (rest s) s' = rest s')
    (p : Prog ℓ σ ε α) :
    Refines rest (p.within label get set) p := by
  intro s
  induction p generalizing s with
  | ret | err => rfl
  | atom l upd k ih =>
    show ((k (get (rest s))).within label get set).run (set (rest s) (upd (get (rest s)))) = _
    rw [hget, hset]
    exact ih s (upd s)

theorem Refines.bind {p : Prog ℓ' τ ε α} {q : Prog ℓ σ ε α} {f : α → Prog ℓ' τ ε β}
    {g : α → Prog ℓ σ ε β}
    (h : Refines rest p q) (hf : ∀ a, Refines rest (f a) (g a)) : Refines rest (p.bind f)
    (q.bind g) := by
  intro s
  rw [run_bind, run_bind, h s]
  rcases q.run s with ⟨e | a, s'⟩
  · rfl
  · exact hf a s'

theorem Refines.ofExcept (x : Except ε α) : Refines rest (.ofExcept x : Prog ℓ' τ ε α)
    (.ofExcept x : Prog ℓ σ ε α) := by
  cases x with
  | error e => exact .refl_err e
  | ok a => exact .refl_ret a

theorem Refines.orErr (o : Option α) (e : ε) :
    Refines rest (.orErr o e : Prog ℓ' τ ε α) (.orErr o e : Prog ℓ σ ε α) := by
  cases o with
  | none => exact .refl_err e
  | some a => exact .refl_ret a

end Prog

end Keycast.Lib
