import Keycast.Lib.Cache
import Keycast.Lib.Run

/-!
# `Lib/Replay.lean` — a memory of what was accepted

A checker that is called at times which never go back, accepts some of the calls, and remembers the
keys of those it accepted, each for a while. `covers s k t` reads "in the state `s`, `k` is refused
at every time before `t`", `makes a k t` "accepting `a` makes an entry for `k` that lasts until
`t`". Three laws make the memory a `Guard`: what is accepted was not covered, it is covered then,
and nothing but the acceptance of the same key touches an entry.

That is all a replay check needs. It does not matter that an entry is overwritten when it has run
out: by then the time it covered is over, which is what `Guard.covers_run` carries through a run. So
two accepted calls with one key are as far apart as the first one lasts (`Guard.spaced`), and a call
that cannot be accepted that late is accepted once (`Guard.atMostOnce`).
-/

set_option autoImplicit false

namespace Keycast.Lib

variable {σ α κ ν : Type}

/-- The times of the calls never go back. -/
def Chronological (time : α → Int) (calls : List α) : Prop :=
  calls.Pairwise fun a b => time a ≤ time b

instance Chronological.decidable (time : α → Int) (calls : List α) :
    Decidable (Chronological time calls) :=
  inferInstanceAs (Decidable (calls.Pairwise _))

/-- No two calls of the run that are related are both accepted. -/
def AtMostOnce (step : σ → α → σ) (accepts : σ → α → Prop) (same : α → α → Prop) (s : σ)
    (calls : List α) :
    Prop :=
  ∀ pre a mid b post, calls = pre ++ a :: (mid ++ b :: post) → accepts (run step s pre) a →
    accepts (run step s (pre ++ a :: mid)) b → ¬ same a b

structure Guard (step : σ → α → σ) (accepts : σ → α → Prop) (time : α → Int)
    (makes : α → κ → Int → Prop)
    (covers : σ → κ → Int → Prop) : Prop where
  refuses : ∀ {s a k t t'}, accepts s a → makes a k t' → covers s k t → t ≤ time a
  remembers : ∀ {s a k t}, accepts s a → makes a k t → covers (step s a) k t
  frame : ∀ {s a k t}, covers s k t → (accepts s a → ∀ t', ¬ makes a k t') → covers (step s a) k t

namespace Guard

variable {step : σ → α → σ} {accepts : σ → α → Prop} {time : α → Int} {makes : α → κ → Int → Prop}
  {covers : σ → κ → Int → Prop}

/-- What is covered stays covered until its time is over. -/
theorem covers_run (h : Guard step accepts time makes covers) {s : σ} {k : κ} {t : Int}
    (hs : covers s k t) (calls : List α) :
    covers (run step s calls) k t ∨ ∃ c ∈ calls, t ≤ time c := by
  induction calls generalizing s with
  | nil => exact .inl hs
  | cons c calls ih =>
    by_cases hc : accepts s c ∧ ∃ t', makes c k t'
    · obtain ⟨hacc, t', hmakes⟩ := hc
      exact .inr ⟨c, List.mem_cons_self, h.refuses hacc hmakes hs⟩
    · have hnext := h.frame hs fun hacc t' hmakes => hc ⟨hacc, t', hmakes⟩
      rcases ih hnext with hcovers | ⟨d, hd, hle⟩
      · exact .inl hcovers
      · exact .inr ⟨d, List.mem_cons_of_mem c hd, hle⟩

/-- **Two accepted calls with one key** are as far apart as the first of them lasts. -/
theorem spaced (h : Guard step accepts time makes covers) {s : σ} {a b : α} {mid : List α} {k : κ}
    {t t' : Int} (htime : Chronological time (a :: (mid ++ [b]))) (ha : accepts s a)
    (hmakes : makes a k t)
    (hb : accepts (run step (step s a) mid) b) (hmakes' : makes b k t') : t ≤ time b := by
  rcases h.covers_run (h.remembers ha hmakes) mid with hcovers | ⟨c, hc, hle⟩
  · exact h.refuses hb hmakes' hcovers
  · have hlater : time c ≤ time b :=
      (List.pairwise_append.mp (List.pairwise_cons.mp htime).2).2.2 c hc b List.mem_cons_self
    exact Int.le_trans hle hlater

/-- **A call is accepted once** if a related one has the same key and cannot be accepted so late. -/
theorem atMostOnce (h : Guard step accepts time makes covers) {same : α → α → Prop} {calls : List α}
    (htime : Chronological time calls)
    (hsame : ∀ {s s' a b}, a ∈ calls → b ∈ calls → accepts s a → accepts s' b → same a b →
      ∃ k t t', makes a k t ∧ makes b k t' ∧ time b < t) (s : σ) :
    AtMostOnce step accepts same s calls := by
  rintro pre a mid b post rfl ha hb hab
  rw [run_append, run_cons] at hb
  have hmem : a ∈ pre ++ a :: (mid ++ b :: post) := by simp
  have hmem' : b ∈ pre ++ a :: (mid ++ b :: post) := by simp
  obtain ⟨k, t, t', hmakes, hmakes', hlate⟩ := hsame hmem hmem' ha hb hab
  have hsub : (a :: (mid ++ [b])).Sublist (pre ++ a :: (mid ++ b :: post)) := by
    refine List.Sublist.trans ?_ (List.sublist_append_right pre _)
    simp
  have hspaced := h.spaced (htime.sublist hsub) ha hmakes hb hmakes'
  exact absurd hlate (Int.not_lt.mpr hspaced)

/-- **A map from keys to what is remembered of them** is a guard, where `u v` is the time until
which the entry `v` is heeded. -/
theorem ofCache [DecidableEq κ] {step : Cache κ ν → α → Cache κ ν} {accepts : Cache κ ν → α → Prop}
    {u : ν → Int}
    (haccepts : ∀ {m a k t}, accepts m a → makes a k t →
      (∀ v, m.get k = some v → u v ≤ time a) ∧ ∃ v, u v = t ∧ step m a = m.insert k v)
    (hothers : ∀ {m a}, (accepts m a → ∀ k t, ¬ makes a k t) → step m a = m) :
    Guard step accepts time makes fun m k t => ∃ v, m.get k = some v ∧ t ≤ u v where
  refuses := by
    rintro m a k t t' hacc hkey ⟨v, hv, hle⟩
    exact Int.le_trans hle ((haccepts hacc hkey).1 v hv)
  remembers := by
    intro m a k t hacc hkey
    obtain ⟨-, v, rfl, hstep⟩ := haccepts hacc hkey
    exact ⟨v, by rw [hstep, Cache.get_insert_self], Int.le_refl _⟩
  frame := by
    rintro m a k t ⟨v, hv, hle⟩ hother
    by_cases hentry : accepts m a ∧ ∃ k' t', makes a k' t'
    · obtain ⟨hacc, k', t', hkey⟩ := hentry
      obtain ⟨-, v', -, hstep⟩ := haccepts hacc hkey
      have hne : k ≠ k' := by
        rintro rfl
        exact hother hacc t' hkey
      exact ⟨v, by rw [hstep, Cache.get_insert_of_ne _ _ hne, hv], hle⟩
    · have hstep : step m a = m := hothers fun hacc k' t' hkey => hentry ⟨hacc, k', t', hkey⟩
      exact ⟨v, by rw [hstep, hv], hle⟩

end Guard

end Keycast.Lib
