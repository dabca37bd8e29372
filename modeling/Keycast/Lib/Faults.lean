import Keycast.Lib.Interleave

/-!
# `Lib/Faults.lean` — programs whose statements can fail

`p.failing fails` is `p` when the statements with certain labels fail: such a statement changes
nothing and ends the program with an error. What is known of every statement of `p` holds of those
that are left, and an error of `p` itself is not distinguished from one of the faults.
-/

set_option autoImplicit false

namespace Keycast.Lib.Prog

variable {ℓ σ ε α β : Type} {fails : ℓ → Option ε}

def failing (fails : ℓ → Option ε) : Prog ℓ σ ε α → Prog ℓ σ ε α
  | ret a => ret a
  | err e => err e
  | atom l upd k =>
    match fails l with
    | some e => err e
    | none => atom l upd fun s => (k s).failing fails

@[simp] theorem failing_ret (a : α) : (ret a : Prog ℓ σ ε α).failing fails = ret a := rfl

@[simp] theorem failing_err (e : ε) : (err e : Prog ℓ σ ε α).failing fails = err e := rfl

theorem failing_bind (p : Prog ℓ σ ε α) (f : α → Prog ℓ σ ε β) :
    (p.bind f).failing fails = (p.failing fails).bind fun a => (f a).failing fails := by
  induction p with
  | ret | err => rfl
  | atom l upd k ih =>
    simp only [atom_bind, failing]
    cases fails l with
    | some e => rfl
    | none => simp only [atom_bind, ih]

@[simp] theorem failing_orErr (o : Option α) (e : ε) :
    (orErr o e : Prog ℓ σ ε α).failing fails = orErr o e := by
  cases o with
  | none | some => rfl

@[simp] theorem failing_ofExcept (x : Except ε α) :
    (ofExcept x : Prog ℓ σ ε α).failing fails = ofExcept x := by
  cases x with
  | error | ok => rfl

/-- Without faults nothing changes. -/
theorem failing_none (p : Prog ℓ σ ε α) : p.failing (fun _ => none) = p := by
  induction p with
  | ret | err => rfl
  | atom l upd k ih => simp only [failing, ih]

/-- Nor by faults of other statements. -/
theorem failing_eq_self {p : Prog ℓ σ ε α} (h : p.Uses fun l => fails l = none) :
    p.failing fails = p := by
  induction p with
  | ret | err => rfl
  | atom l upd k ih =>
    have hl : fails l = none := h.1
    simp only [failing, hl]
    exact congrArg _ (funext fun s => ih s (h.2 s))

/-! ## Inversion -/

theorem failing_atom_run {l : ℓ} {upd : σ → σ} {k : σ → Prog ℓ σ ε α} {s : σ} :
    ((atom l upd k).failing fails).run s =
      match fails l with
      | some e => (.error e, s)
      | none => ((k s).failing fails).run (upd s) := by
  cases hl : fails l with
  | some e => simp only [failing, hl, run_err]
  | none => simp only [failing, hl, run_atom]

theorem failing_read_ok {l : ℓ} {f : σ → α} {s s' : σ} {a : α} :
    ((read l f : Prog ℓ σ ε α).failing fails).run s = (.ok a, s') ↔ fails l = none ∧
      f s = a ∧ s = s' := by
  rw [read, failing_atom_run]
  cases fails l with
  | some e => simp
  | none => simp

/-- A statement that may fail: nothing has happened then. -/
theorem Ends.failing_atom {Q : Except ε α → σ → Prop} {l : ℓ} {upd : σ → σ}
    {k : σ → Prog ℓ σ ε α} {s : σ}
    (hfail : ∀ e, fails l = some e → Q (.error e) s)
    (h : fails l = none → ((k s).failing fails).Ends Q (upd s)) :
      ((atom l upd k).failing fails).Ends Q s := by
  unfold Ends at h ⊢
  rw [failing_atom_run]
  cases hl : fails l with
  | some e => exact hfail e hl
  | none => exact h hl

theorem Ends.failing_write {Q : Except ε β → σ → Prop} {l : ℓ} {f : σ → σ}
    {g : Unit → Prog ℓ σ ε β} {s : σ}
    (hfail : ∀ e, fails l = some e → Q (.error e) s) (h : fails l = none → (g ()).Ends Q (f s)) :
    (((Prog.write l f : Prog ℓ σ ε Unit).failing fails).bind g).Ends Q s :=
  .bind (.failing_atom hfail h)

theorem Ends.failing_read {Q : Except ε β → σ → Prop} {l : ℓ} {f : σ → α}
    {g : α → Prog ℓ σ ε β} {s : σ}
    (hfail : ∀ e, fails l = some e → Q (.error e) s) (h : fails l = none → (g (f s)).Ends Q s) :
    (((Prog.read l f : Prog ℓ σ ε α).failing fails).bind g).Ends Q s := by
  unfold Ends at h ⊢
  rw [run_bind, Prog.read, failing_atom_run]
  cases hl : fails l with
  | some e => exact hfail e hl
  | none => exact h hl

end Keycast.Lib.Prog
