import Keycast.Lib.Histories

/-!
# `Lib/Mutex.lean` — sections that one thread is in at a time

Some statements have to wait: until they may be executed their threads do nothing
(`System.stepUnless`). The common reason to wait is a section of the program that somebody else is
in. A `Section` is entered and left by a statement each, and the shared state says whether it is
taken. When nobody enters a taken section, at most one thread is within it, and only while it is
taken (`Section.Exclusive`). Where a thread is can be read off what it has executed.
-/

set_option autoImplicit false

namespace Keycast.Lib

variable {ρ ℓ σ ε α ι : Type}

/-- A step of a system some of whose statements have to wait. -/
def System.stepUnless (sys : System ρ ℓ σ ε α ι) (waits : Conf ρ ℓ σ ε α → Ev ρ ι → Bool)
    (c : Conf ρ ℓ σ ε α)
    (e : Ev ρ ι) : Conf ρ ℓ σ ε α :=
  if waits c e then c else sys.step c e

/-- How a section is entered and left, and what says that somebody is in it. -/
structure Section (ℓ σ : Type) where
  enter : ℓ
  leave : ℓ
  taken : σ → Bool

namespace Section

variable (sec : Section ℓ σ)

/-- A thread that has executed `seen` is in the section. -/
def Within (seen : List (ℓ × σ)) : Prop := (∃ s, (sec.enter, s) ∈ seen) ∧ ∀ s, (sec.leave, s) ∉ seen

/-- What a statement does to the section. -/
structure Respects (l : ℓ) (seen : List (ℓ × σ)) (s s' : σ) : Prop where
  enter : l = sec.enter → sec.taken s' = true
  leave : l = sec.leave → sec.Within seen
  other : l ≠ sec.enter → l ≠ sec.leave → sec.taken s' = sec.taken s

structure Exclusive (c : Conf ρ ℓ σ ε α) : Prop where
  taken : ∀ (i : Nat) (t : Thread ρ ℓ σ ε α), c.threads[i]? = some t → sec.Within t.seen →
    sec.taken c.state = true
  one : ∀ (i j : Nat) (t t' : Thread ρ ℓ σ ε α), c.threads[i]? = some t → c.threads[j]? = some t' →
    sec.Within t.seen → sec.Within t'.seen → i = j

variable {sec} {sys : System ρ ℓ σ ε α ι} {c : Conf ρ ℓ σ ε α} {e : Ev ρ ι}

theorem Within.of_cons {l : ℓ} {s : σ} {seen : List (ℓ × σ)} (h : sec.Within ((l, s) :: seen)) :
    l ≠ sec.leave ∧ (l ≠ sec.enter → sec.Within seen) := by
  obtain ⟨⟨s₀, hs₀⟩, hleave⟩ := h
  refine ⟨fun hl => hleave s (hl ▸ List.mem_cons_self), fun hl => ⟨⟨s₀, ?_⟩, ?_⟩⟩
  · rcases List.mem_cons.mp hs₀ with heq | hs₀
    · exact absurd (Prod.ext_iff.mp heq).1.symm hl
    · exact hs₀
  · exact fun s' hs' => hleave s' (List.mem_cons_of_mem _ hs')

/-- Who is in the section after a step was in it and has not left, or enters. -/
theorem within_step (sys : System ρ ℓ σ ε α ι) {j : Nat} {t : Thread ρ ℓ σ ε α}
    (ht : (sys.step c e).threads[j]? = some t) (h : sec.Within t.seen) :
    (∃ t₀, c.threads[j]? = some t₀ ∧ sec.Within t₀.seen ∧
      (e = .exec j → t₀.next? ≠ some sec.leave)) ∨
      ∃ t₀, e = .exec j ∧ c.threads[j]? = some t₀ ∧ t₀.next? = some sec.enter := by
  rcases System.getElem?_step sys ht with
    ⟨hold, hstay⟩ | ⟨r, -, rfl⟩ | ⟨t₀, l, he, hj, hl, -, hseen⟩
  · exact .inl ⟨t, hold, h, fun he hleave => by cases (hstay he).symm.trans hleave⟩
  · obtain ⟨⟨s, hs⟩, -⟩ := h
    cases hs
  · rw [hseen] at h
    by_cases hent : l = sec.enter
    · exact .inr ⟨t₀, he, hj, hent ▸ hl⟩
    · refine .inl ⟨t₀, hj, h.of_cons.2 hent, fun _ hleave => ?_⟩
      exact h.of_cons.1 (Option.some.inj (hl.symm.trans hleave))

/-- **The rule.** Nobody enters a taken section; so one thread is in it at a time. -/
theorem Exclusive.step {G : ρ → ℓ → List (ℓ × σ) → σ → σ → Prop}
    {Q : ρ → List (ℓ × σ) → Except ε α → Prop}
    (hG : ∀ {r l seen s s'}, G r l seen s s' → sec.Respects l seen s s')
    (henv : ∀ e s, sec.taken (sys.env e s) = sec.taken s) (hmeets : System.Meets G Q c)
    (h : sec.Exclusive c)
    (hfree : ∀ i t, e = .exec i → c.threads[i]? = some t → t.next? = some sec.enter →
      sec.taken c.state = false) :
    sec.Exclusive (sys.step c e) := by
  -- nobody is in a section that is free, and nobody else in one that its thread leaves
  have hnobody : sec.taken c.state = false → ∀ {i : Nat} {t : Thread ρ ℓ σ ε α},
      c.threads[i]? = some t → ¬ sec.Within t.seen := by
    intro hfree i t ht hwithin
    cases hfree.symm.trans (h.taken i t ht hwithin)
  constructor
  · intro j t ht hwithin
    rcases within_step sys ht hwithin with ⟨t₀, hj, hwithin₀, hstay⟩ | ⟨t₀, rfl, hj, henter⟩
    · have htaken := h.taken j t₀ hj hwithin₀
      cases e with
      | spawn r => exact htaken
      | env e => exact (henv e c.state).trans htaken
      | exec i =>
        rcases hmeets.exec_cases sys i with ⟨hidle, -⟩ | ⟨t₁, l, hi, hl, hmove⟩
        · rwa [hidle]
        by_cases hent : l = sec.enter
        · exact (hG hmove).enter hent
        by_cases hleave : l = sec.leave
        · obtain rfl : i = j := h.one i j t₁ t₀ hi hj ((hG hmove).leave hleave) hwithin₀
          cases hi.symm.trans hj
          exact absurd (hleave ▸ hl) (hstay rfl)
        · exact ((hG hmove).other hent hleave).trans htaken
    · exact (hG (hmeets.exec sys hj henter)).enter rfl
  · intro i j t t' hi hj hwithin hwithin'
    rcases within_step sys hi hwithin with ⟨t₀, hi₀, hwithin₀, -⟩ | ⟨t₀, rfl, hi₀, henter⟩
    · rcases within_step sys hj hwithin' with ⟨t₁, hj₁, hwithin₁, -⟩ | ⟨t₁, rfl, hj₁, henter⟩
      · exact h.one i j t₀ t₁ hi₀ hj₁ hwithin₀ hwithin₁
      · exact absurd hwithin₀ (hnobody (hfree j t₁ rfl hj₁ henter) hi₀)
    · rcases within_step sys hj hwithin' with ⟨t₁, hj₁, hwithin₁, -⟩ | ⟨t₁, he, -⟩
      · exact absurd hwithin₁ (hnobody (hfree i t₀ rfl hi₀ henter) hj₁)
      · exact Ev.exec.inj he

theorem Exclusive.init (s : σ) : sec.Exclusive (Conf.init s : Conf ρ ℓ σ ε α) :=
  ⟨fun _ _ ht => (nomatch ht), fun _ _ _ _ ht => (nomatch ht)⟩

end Section

end Keycast.Lib
