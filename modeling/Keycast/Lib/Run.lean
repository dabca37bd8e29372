import Mathlib.Data.List.Basic

/-!
# `Lib/Run.lean` — runs of a deterministic step function

A component that takes one event after another is a function `step : σ → ι → σ`, and a run of
it is the fold of `step` over a list of events. Nondeterminism (which request comes next, which
cache entry is evicted, how the clock advances) lives entirely in the list, so "for every run"
is "for every list of events", and a concrete run is something the kernel can evaluate.

Two things are said about runs everywhere in this development:

* an invariant, which is a fact about one step (`run_invariant`);
* a condition on the events, "each of them is taken in a state that satisfies …", which is
  `Along`. It is a recursive predicate and so decidable for a concrete list, and
  `along_iff_split` says what it means without the recursion: cut the run anywhere, and the
  event at the cut meets the condition in the state reached by the part before it.
-/

set_option autoImplicit false

namespace Keycast.Lib

variable {σ ι : Type}

/-- The state a list of events leads to. -/
def run (step : σ → ι → σ) (s : σ) (es : List ι) : σ := es.foldl step s

@[simp] theorem run_nil (step : σ → ι → σ) (s : σ) : run step s [] = s := rfl

@[simp] theorem run_cons (step : σ → ι → σ) (s : σ) (e : ι) (es : List ι) :
    run step s (e :: es) = run step (step s e) es := rfl

theorem run_append (step : σ → ι → σ) (s : σ) (es fs : List ι) :
    run step s (es ++ fs) = run step (run step s es) fs := by
  simp [run, List.foldl_append]

/-- Every event of the run is taken in a state where `P` holds of it. -/
def Along (step : σ → ι → σ) (P : σ → ι → Prop) : σ → List ι → Prop
  | _, [] => True
  | s, e :: es => P s e ∧ Along step P (step s e) es

instance Along.decidable (step : σ → ι → σ) (P : σ → ι → Prop)
    [∀ s e, Decidable (P s e)] : ∀ s es, Decidable (Along step P s es)
  | _, [] => .isTrue trivial
  | s, e :: es =>
    have := Along.decidable step P (step s e) es
    inferInstanceAs (Decidable (P s e ∧ Along step P (step s e) es))

theorem along_singleton {step : σ → ι → σ} {P : σ → ι → Prop} {s : σ} {e : ι} :
    Along step P s [e] ↔ P s e := by simp [Along]

theorem along_append {step : σ → ι → σ} {P : σ → ι → Prop} {s : σ} {es fs : List ι} :
    Along step P s (es ++ fs) ↔ Along step P s es ∧ Along step P (run step s es) fs := by
  induction es generalizing s with
  | nil => simp [Along]
  | cons e es ih => simp [Along, ih, and_assoc]

/-- **What `Along` says**, with the run cut at an arbitrary event. -/
theorem along_iff_split {step : σ → ι → σ} {P : σ → ι → Prop} {s : σ} {es : List ι} :
    Along step P s es ↔ ∀ pre e post, es = pre ++ e :: post → P (run step s pre) e := by
  induction es generalizing s with
  | nil => simp [Along]
  | cons e es ih =>
    constructor
    · rintro ⟨he, hes⟩ pre e' post heq
      cases pre with
      | nil =>
        obtain ⟨rfl, -⟩ := List.cons.inj heq
        exact he
      | cons p pre =>
        obtain ⟨rfl, rfl⟩ := List.cons.inj heq
        exact ih.mp hes pre e' post rfl
    · intro h
      refine ⟨h [] e es rfl, ih.mpr ?_⟩
      rintro pre e' post rfl
      exact h (e :: pre) e' post rfl

theorem Along.mono {step : σ → ι → σ} {P P' : σ → ι → Prop} (h : ∀ s e, P s e → P' s e)
    {s : σ} {es : List ι} (ha : Along step P s es) : Along step P' s es := by
  induction es generalizing s with
  | nil => trivial
  | cons e es ih => exact ⟨h s e ha.1, ih ha.2⟩

theorem Along.and {step : σ → ι → σ} {P P' : σ → ι → Prop} {s : σ} {es : List ι}
    (h : Along step P s es) (h' : Along step P' s es) :
    Along step (fun s e => P s e ∧ P' s e) s es := by
  induction es generalizing s with
  | nil => trivial
  | cons e es ih => exact ⟨⟨h.1, h'.1⟩, ih h.2 h'.2⟩

/-- A condition on the events alone. -/
theorem Along.of_forall {step : σ → ι → σ} {P : ι → Prop} {es : List ι}
    (h : ∀ e ∈ es, P e) (s : σ) :
    Along step (fun _ e => P e) s es := by
  induction es generalizing s with
  | nil => trivial
  | cons e es ih =>
    exact ⟨h e List.mem_cons_self, ih (fun e' he' => h e' (List.mem_cons_of_mem _ he')) _⟩

/-- **Invariant rule.** What every allowed step preserves holds at the end of every allowed
run. -/
theorem run_invariant {step : σ → ι → σ} {C : σ → ι → Prop} {I : σ → Prop}
    (hstep : ∀ s e, I s → C s e → I (step s e)) {s : σ} {es : List ι}
    (hs : I s) (hc : Along step C s es) : I (run step s es) := by
  induction es generalizing s with
  | nil => exact hs
  | cons e es ih => exact ih (hstep s e hs hc.1) hc.2

/-- **Since when something is so.** What a step finds so, or one kind of step makes so, has been so
from the start or since such a step, and no step that ends it came after. -/
theorem since_of_run {step : σ → ι → σ} {P : σ → Prop} {ends : ι → Prop} {start : ι}
    (hstep : ∀ s e, P (step s e) → P s ∧ ¬ ends e ∨ e = start) {s : σ} {es : List ι}
    (h : P (run step s es)) :
    (P s ∧ ∀ e ∈ es, ¬ ends e) ∨ ∃ pre post, es = pre ++ start :: post ∧ ∀ e ∈ post, ¬ ends e := by
  induction es generalizing s with
  | nil => exact .inl ⟨h, fun e he => absurd he List.not_mem_nil⟩
  | cons e es ih =>
    rcases ih h with ⟨hs, hrest⟩ | ⟨pre, post, rfl, hpost⟩
    · rcases hstep s e hs with ⟨hbefore, hends⟩ | rfl
      · refine .inl ⟨hbefore, fun e' he' => ?_⟩
        rcases List.mem_cons.mp he' with rfl | he'
        · exact hends
        · exact hrest e' he'
      · exact .inr ⟨[], es, rfl, hrest⟩
    · exact .inr ⟨e :: pre, post, rfl, hpost⟩

/-- An invariant that makes `P` true at every allowed step makes it true along the run. -/
theorem along_of_invariant {step : σ → ι → σ} {C P : σ → ι → Prop} {I : σ → Prop}
    (hstep : ∀ s e, I s → C s e → I (step s e)) (hp : ∀ s e, I s → C s e → P s e)
    {s : σ} {es : List ι} (hs : I s) (hc : Along step C s es) : Along step P s es := by
  induction es generalizing s with
  | nil => trivial
  | cons e es ih => exact ⟨hp s e hs hc.1, ih (hstep s e hs hc.1) hc.2⟩

/-- Where an invariant makes `P` and `C` the same and a step with `P` keeps it, they hold along the
same runs. -/
theorem along_congr_of_invariant {step : σ → ι → σ} {C P : σ → ι → Prop} {I : σ → Prop}
    (hiff : ∀ s e, I s → (P s e ↔ C s e)) (hstep : ∀ s e, I s → P s e → I (step s e))
    {s : σ} {es : List ι} (hs : I s) : Along step P s es ↔ Along step C s es := by
  induction es generalizing s with
  | nil => exact Iff.rfl
  | cons e es ih =>
    constructor
    · rintro ⟨he, hes⟩
      exact ⟨(hiff s e hs).mp he, (ih (hstep s e hs he)).mp hes⟩
    · rintro ⟨he, hes⟩
      have he := (hiff s e hs).mpr he
      exact ⟨he, (ih (hstep s e hs he)).mpr hes⟩

/-- **An exact side condition.** When, in the states of a run, an event keeps `H` exactly if it
meets `C`, then the runs whose events all meet `C` are those in which `H` is never lost. -/
theorem along_iff_always {step : σ → ι → σ} {C : σ → ι → Prop} {I H : σ → Prop}
    (hI : ∀ s e, I s → I (step s e)) (hstep : ∀ s e, I s → H s → (C s e ↔ H (step s e)))
    {s : σ} {es : List ι} (hs : I s) (hH : H s) :
    Along step C s es ↔ ∀ pre post, es = pre ++ post → H (run step s pre) := by
  induction es generalizing s with
  | nil =>
    refine ⟨fun _ pre post heq => ?_, fun _ => trivial⟩
    rw [(List.append_eq_nil_iff.mp heq.symm).1]
    exact hH
  | cons e es ih =>
    constructor
    · rintro ⟨he, hes⟩ pre post heq
      cases pre with
      | nil => exact hH
      | cons p pre =>
        obtain ⟨rfl, rfl⟩ := List.cons.inj heq
        exact (ih (hI s e hs) ((hstep s e hs hH).mp he)).mp hes pre post rfl
    · intro h
      have hnext : H (step s e) := h [e] es rfl
      refine ⟨(hstep s e hs hH).mpr hnext, (ih (hI s e hs) hnext).mpr ?_⟩
      rintro pre post rfl
      exact h (e :: pre) post rfl

end Keycast.Lib
