import Keycast.Lib.Prog

/-!
# `Lib/Interrupted.lean` — programs that are cut short

A query fails, the caller goes away, the process stops: a program may end between any two of its
statements, and what it has done by then stays done.
-/

set_option autoImplicit false

namespace Keycast.Lib.Prog

variable {ℓ σ ε α β : Type}

/-- The state that the first `n` statements leave. -/
def interrupted : Nat → Prog ℓ σ ε α → σ → σ
  | n + 1, atom _ upd k, s => interrupted n (k s) (upd s)
  | _, _, s => s

@[simp] theorem interrupted_zero (p : Prog ℓ σ ε α) (s : σ) : p.interrupted 0 s = s := by
  cases p with
  | ret | err | atom => rfl

@[simp] theorem interrupted_ret (n : Nat) (a : α) (s : σ) :
    (ret a : Prog ℓ σ ε α).interrupted n s = s := by
  cases n with
  | zero | succ => rfl

@[simp] theorem interrupted_err (n : Nat) (e : ε) (s : σ) :
    (err e : Prog ℓ σ ε α).interrupted n s = s := by
  cases n with
  | zero | succ => rfl

@[simp] theorem interrupted_atom (n : Nat) (l : ℓ) (upd : σ → σ) (k : σ → Prog ℓ σ ε α) (s : σ) :
    (atom l upd k).interrupted (n + 1) s = (k s).interrupted n (upd s) := rfl

/-- A program that ends without a further statement. -/
theorem interrupted_bind_ret (p : Prog ℓ σ ε α) (f : α → β) (n : Nat) (s : σ) :
    (p.bind fun a => ret (f a)).interrupted n s = p.interrupted n s := by
  induction p generalizing n s with
  | ret a => rw [ret_bind, interrupted_ret, interrupted_ret]
  | err e => rw [err_bind, interrupted_err, interrupted_err]
  | atom l upd k ih =>
    cases n with
    | zero => rw [interrupted_zero, interrupted_zero]
    | succ n => exact ih s n (upd s)

/-- Late enough, it makes no difference. -/
theorem interrupted_eq_run (p : Prog ℓ σ ε α) (s : σ) : ∃ n, ∀ m, n ≤ m →
    p.interrupted m s = (p.run s).2 := by
  induction p generalizing s with
  | ret a => exact ⟨0, fun m _ => interrupted_ret m a s⟩
  | err e => exact ⟨0, fun m _ => interrupted_err m e s⟩
  | atom l upd k ih =>
    obtain ⟨n, hn⟩ := ih s (upd s)
    refine ⟨n + 1, fun m hm => ?_⟩
    obtain ⟨m, rfl⟩ := Nat.exists_eq_add_of_le' (Nat.le_of_add_left_le hm)
    exact hn m (Nat.le_of_succ_le_succ hm)

end Keycast.Lib.Prog
