import Keycast.Lib.Cache

/-!
# `Lib/Window.lean` — counters that start again

A counter for each key, with a window that starts at the first hit and lasts for a while; the first
hit after it starts another. Whoever lets a hit pass while the count is within a limit bounds the
hits in each window. The windows do not follow the clock, so an arbitrary stretch of time as long as
a window meets two of them: `used` says how much of twice the limit a state has used up in such a
stretch, and every hit that passes uses up one more (`used_hit`).

In the other direction `filled` says how far the window that starts at a given time is filled, and
only hits that pass fill it (`filled_hit`): a hit does not meet a full window unless there were so
many.
-/

set_option autoImplicit false

namespace Keycast.Lib

/-- The hits of a window, and when it ends. -/
structure Hits where
  count : Nat
  ends : Int
  deriving DecidableEq, Repr

/-- The window of a hit at `now`: the one that has not ended, or a new one. -/
def Hits.next (ttl now : Int) : Option Hits → Hits
  | some h => if now < h.ends then ⟨h.count + 1, h.ends⟩ else ⟨1, now + ttl⟩
  | none => ⟨1, now + ttl⟩

/-- Whether a hit at `now`, counted as the `count`-th, passes within the stretch of time from `t`
on. -/
def passed (limit : Nat) (ttl t now : Int) (count : Nat) : Nat :=
  if t ≤ now ∧ now < t + ttl ∧ count ≤ limit then 1 else 0

theorem passed_cases (limit : Nat) (ttl t now : Int) (count : Nat) :
    passed limit ttl t now count = 0 ∧ ¬ (t ≤ now ∧ now < t + ttl ∧ count ≤ limit) ∨
      passed limit ttl t now count = 1 ∧ t ≤ now ∧ now < t + ttl ∧ count ≤ limit := by
  by_cases h : t ≤ now ∧ now < t + ttl ∧ count ≤ limit
  · exact .inr ⟨if_pos h, h⟩
  · exact .inl ⟨if_neg h, h⟩

/-- The window has started. -/
def Hits.Started (ttl now : Int) (h? : Option Hits) : Prop := ∀ h, h? = some h → h.ends ≤ now + ttl

namespace Hits

variable {limit : Nat} {ttl t now : Int} {h? : Option Hits}

theorem Started.none : Started ttl now .none := by
  intro h hh
  cases hh

theorem Started.later (hstarted : Started ttl now h?) {now' : Int} (hle : now ≤ now') :
    Started ttl now' h? := by
  intro h hh
  have hends := hstarted h hh
  omega

/-- The window after a hit is the old one or starts now. -/
theorem next_cases (ttl now : Int) (h? : Option Hits) :
    (∃ h, h? = some h ∧ now < h.ends ∧ next ttl now h? = ⟨h.count + 1, h.ends⟩) ∨
      (∀ h, h? = some h → h.ends ≤ now) ∧ next ttl now h? = ⟨1, now + ttl⟩ := by
  cases h? with
  | none =>
    refine .inr ⟨fun h hh => ?_, rfl⟩
    cases hh
  | some h =>
    by_cases hlive : now < h.ends
    · exact .inl ⟨h, rfl, hlive, if_pos hlive⟩
    · refine .inr ⟨fun h' hh' => ?_, if_neg hlive⟩
      cases hh'
      exact Int.not_lt.mp hlive

theorem Started.hit (hstarted : Started ttl now h?) : Started ttl now (some (next ttl now h?)) := by
  intro h hh
  obtain rfl := Option.some.inj hh
  rcases next_cases ttl now h? with ⟨h, hh, -, hnext⟩ | ⟨-, hnext⟩
  · rw [hnext]
    exact hstarted h hh
  · exact Int.le_of_eq (by rw [hnext])

/-! ## At most twice the limit -/

/-- How much of twice the limit is used up, in the stretch of time from `t` on. -/
def used (limit : Nat) (ttl t : Int) : Option Hits → Nat
  | none => 0
  | some h =>
    if h.ends ≤ t then 0
    else if h.ends ≤ t + ttl then min h.count limit
    else if h.ends < t + ttl + ttl then limit + min h.count limit
    else limit + limit

theorem used_le (limit : Nat) (ttl t : Int) (h? : Option Hits) :
    used limit ttl t h? ≤ limit + limit := by
  cases h? with
  | none => exact Nat.zero_le _
  | some h =>
    unfold used
    dsimp only
    split
    · omega
    split
    · omega
    split
    · omega
    · omega

/-- Nothing is used of a stretch that begins after the window, and no more than the limit up to the
second one. -/
theorem used_of_ended (limit : Nat) (ttl t : Int) (hends : ∀ h, h? = some h → h.ends ≤ now) :
    (now ≤ t → used limit ttl t h? = 0) ∧ (now < t + ttl → used limit ttl t h? ≤ limit) := by
  cases h? with
  | none => exact ⟨fun _ => rfl, fun _ => Nat.zero_le _⟩
  | some h =>
    have hended := hends h rfl
    refine ⟨fun hle => if_pos (by omega), fun hlt => ?_⟩
    unfold used
    dsimp only
    split
    · omega
    split
    · omega
    · omega

/-- **A hit that passes uses up one more.** -/
theorem used_hit (hstarted : Started ttl now h?) (httl : 0 < ttl) :
    used limit ttl t h? + passed limit ttl t now (next ttl now h?).count ≤
      used limit ttl t (some (next ttl now h?)) := by
  rcases next_cases ttl now h? with ⟨h, rfl, hlive, hnext⟩ | ⟨hended, hnext⟩
  · -- the same window, with one hit more
    have hends := hstarted h rfl
    rw [hnext]
    have hpassed := passed_cases limit ttl t now (h.count + 1)
    simp only [used]
    split
    · omega
    split
    · omega
    split
    · omega
    · omega
  · -- a new one: where it begins decides which part of the stretch it can meet
    obtain ⟨hzero, hone⟩ := used_of_ended limit ttl t hended
    have htwo := used_le limit ttl t h?
    have hpassed := passed_cases limit ttl t now 1
    rw [hnext]
    generalize used limit ttl t h? = n at hzero hone htwo ⊢
    simp only [used]
    split
    · omega
    split
    · omega
    split
    · omega
    · omega

/-! ## Not without need -/

/-- How far the window that starts at `t` is filled. -/
def filled (limit : Nat) (ttl t : Int) : Option Hits → Nat
  | none => 0
  | some h => if h.ends = t + ttl then min h.count limit else 0

/-- **Only hits that pass fill a window.** -/
theorem filled_hit (hstarted : Started ttl now h?) (httl : 0 < ttl) :
    filled limit ttl t (some (next ttl now h?)) ≤
      filled limit ttl t h? + passed limit ttl t now (next ttl now h?).count := by
  rcases next_cases ttl now h? with ⟨h, rfl, hlive, hnext⟩ | ⟨-, hnext⟩
  · have hends := hstarted h rfl
    rw [hnext]
    have hpassed := passed_cases limit ttl t now (h.count + 1)
    simp only [filled]
    split
    · omega
    · omega
  · rw [hnext]
    have hpassed := passed_cases limit ttl t now 1
    generalize filled limit ttl t h? = n
    simp only [filled]
    split
    · omega
    · omega

/-- A hit beyond the limit meets a window that is full. -/
theorem filled_of_refused (hrefused : limit < (next ttl now h?).count) (hpos : 0 < limit) :
    ∃ h, h? = some h ∧ now < h.ends ∧ filled limit ttl (h.ends - ttl) h? = limit := by
  rcases next_cases ttl now h? with ⟨h, rfl, hlive, hnext⟩ | ⟨-, hnext⟩
  · rw [hnext] at hrefused
    have hcount : limit ≤ h.count := Nat.le_of_lt_succ hrefused
    refine ⟨h, rfl, hlive, ?_⟩
    simp only [filled]
    rw [if_pos (by omega)]
    exact Nat.min_eq_right hcount
  · rw [hnext] at hrefused
    have hone : limit < 1 := hrefused
    omega

end Hits

end Keycast.Lib
