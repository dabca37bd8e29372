import Keycast.Lib.Interleave

/-!
# `Lib/Histories.lean` — what threads can count on

`Meets` says what each statement does, given what its thread has executed before. Here a thread is
given a fact of its own, about its request, its history and the shared state, and the rule says what
has to be shown for every thread to keep its fact in every run: that its own statements establish
it, and that no statement of *another* thread breaks it. The side condition of a run may speak of
the whole configuration, so that values drawn by different requests can be told apart by the place
of their threads.
-/

set_option autoImplicit false

namespace Keycast.Lib

variable {ρ ℓ σ ε α ι : Type}

/-- The request an event makes. -/
def Ev.request? : Ev ρ ι → Option ρ
  | .spawn r => some r
  | _ => none

theorem Thread.result?_of_done {t : Thread ρ ℓ σ ε α} (h : t.next? = none) :
    t.result?.isSome = true := by
  unfold Thread.next? at h
  unfold Thread.result?
  cases hrest : t.rest with
  | ret | err => rfl
  | atom l upd k => simp [hrest] at h

/-- Two places of a list with the same value under `f`, when such values do not repeat, are one. -/
theorem nodup_filterMap_place {β γ : Type} {f : β → Option γ} {l : List β}
    (h : (l.filterMap f).Nodup) {i j : Nat}
    {a b : β} {k : γ} (hi : l[i]? = some a) (hj : l[j]? = some b) (ha : f a = some k)
    (hb : f b = some k) :
    i = j := by
  induction l generalizing i j with
  | nil => cases hi
  | cons x l ih =>
    -- a value of the tail is not the value of the head
    have htail : ∀ {n : Nat} {y : β}, l[n]? = some y → f y = some k → f x ≠ some k := by
      intro n y hn hy hx
      rw [List.filterMap_cons_some hx, List.nodup_cons] at h
      exact h.1 (List.mem_filterMap.mpr ⟨y, List.mem_of_getElem? hn, hy⟩)
    have hrest : (l.filterMap f).Nodup := by
      cases hx : f x with
      | none => rwa [List.filterMap_cons_none hx] at h
      | some y =>
        rw [List.filterMap_cons_some hx] at h
        exact (List.nodup_cons.mp h).2
    cases i with
    | zero =>
      cases hi
      cases j with
      | zero => rfl
      | succ j => exact absurd ha (htail hj hb)
    | succ i =>
      cases j with
      | zero =>
        cases hj
        exact absurd hb (htail hi ha)
      | succ j => exact congrArg (· + 1) (ih hrest hi hj)

/-- A program that only reads, when what it reads does not change, returns what it would return
alone. -/
theorem Prog.Reads.meets {τ : Type} {v : σ → τ} {p : Prog ℓ σ ε α} (h : p.Reads v)
    {G : ℓ → List (ℓ × σ) → σ → σ → Prop} (hG : ∀ l seen s, G l seen s s) (s₀ : σ)
    (seen : List (ℓ × σ)) :
    p.Meets G (fun seen' r => ∃ news, seen' = news ++ seen ∧
      ((∀ x ∈ news, v x.2 = v s₀) → (p.run s₀).1 = r)) seen := by
  induction p generalizing seen with
  | ret | err => exact ⟨[], rfl, fun _ => rfl⟩
  | atom l upd k ih =>
    intro s
    rw [h.1 s]
    refine ⟨hG l seen s, Prog.Meets.mono ?_ (ih s (h.2 s).2 ((l, s) :: seen))⟩
    rintro seen' r ⟨news, rfl, hr⟩
    refine ⟨news ++ [(l, s)], by rw [List.append_assoc]; rfl, fun hsame => ?_⟩
    have hs : v s = v s₀ := hsame (l, s) (List.mem_append_right _ (List.mem_singleton.mpr rfl))
    show ((k s₀).run (upd s₀)).1 = r
    rw [h.1 s₀, ← (h.2 s).1 s₀ hs]
    exact hr fun x hx => hsame x (List.mem_append_left _ hx)

namespace System

/-- The requests of a run are those its events make. -/
theorem reqs_step (sys : System ρ ℓ σ ε α ι) (c : Conf ρ ℓ σ ε α) (e : Ev ρ ι) :
    (sys.step c e).threads.map (·.req) = c.threads.map (·.req) ++ e.request?.toList := by
  cases e with
  | spawn r => exact List.map_append
  | env e => exact (List.append_nil _).symm
  | exec i =>
    simp only [System.step]
    cases ht : c.threads[i]? with
    | none => exact (List.append_nil _).symm
    | some t =>
      have hreq : (t.step c.state).1.req = t.req := by
        unfold Thread.step
        split <;> rfl
      show (c.threads.set i (t.step c.state).1).map (·.req) = _ ++ []
      rw [List.append_nil, List.map_set, hreq]
      obtain ⟨hi, rfl⟩ := List.getElem?_eq_some_iff.mp ht
      refine List.ext_getElem ?_ fun n h₁ h₂ => ?_
      · rw [List.length_set]
      · rw [List.getElem_set]
        split
        · next hin =>
          subst hin
          rw [List.getElem_map]
        · rfl

theorem reqs_run (sys : System ρ ℓ σ ε α ι) (c : Conf ρ ℓ σ ε α) (es : List (Ev ρ ι)) :
    (Lib.run sys.step c es).threads.map (·.req) = c.threads.map (·.req) ++
      es.filterMap Ev.request? := by
  induction es generalizing c with
  | nil => exact (List.append_nil _).symm
  | cons e es ih =>
    rw [Lib.run_cons, ih, reqs_step, List.append_assoc]
    cases he : e.request? with
    | none => rw [List.filterMap_cons_none he, Option.toList_none, List.nil_append]
    | some r => rw [List.filterMap_cons_some he, Option.toList_some, List.singleton_append]

/-- What happens to the thread at one place. -/
theorem getElem?_step (sys : System ρ ℓ σ ε α ι) {c : Conf ρ ℓ σ ε α} {e : Ev ρ ι} {j : Nat}
    {t : Thread ρ ℓ σ ε α}
    (ht : (sys.step c e).threads[j]? = some t) :
    (c.threads[j]? = some t ∧ (e = .exec j → t.next? = none)) ∨
    (∃ r, e = .spawn r ∧ t = ⟨r, [], sys.prog r⟩) ∨
      ∃ t₀ l, e = .exec j ∧ c.threads[j]? = some t₀ ∧ t₀.next? = some l ∧ t.req = t₀.req ∧
        t.seen = (l, c.state) :: t₀.seen := by
  cases e with
  | env e =>
    refine .inl ⟨ht, fun heq => ?_⟩
    cases heq
  | spawn r =>
    simp only [System.step] at ht
    rw [List.getElem?_append] at ht
    split at ht
    · refine .inl ⟨ht, fun heq => ?_⟩
      cases heq
    · have hmem := List.mem_of_getElem? ht
      rw [List.mem_singleton] at hmem
      exact .inr (.inl ⟨r, rfl, hmem⟩)
  | exec i =>
    simp only [System.step] at ht
    cases hi : c.threads[i]? with
    | none =>
      rw [hi] at ht
      refine .inl ⟨ht, fun heq => ?_⟩
      cases heq
      cases hi.symm.trans ht
    | some t₀ =>
      rw [hi] at ht
      by_cases hij : i = j
      · subst hij
        obtain ⟨hlt, -⟩ := List.getElem?_eq_some_iff.mp hi
        have heq : t = (t₀.step c.state).1 := by
          rw [List.getElem?_set_self hlt] at ht
          exact (Option.some.inj ht).symm
        cases hrest : t₀.rest with
        | ret | err =>
          have hsame : t = t₀ := by simpa [Thread.step, hrest] using heq
          rw [hsame]
          exact .inl ⟨hi, fun _ => by simp [Thread.next?, hrest]⟩
        | atom l upd k =>
          refine .inr (.inr ⟨t₀, l, rfl, hi, ?_, ?_, ?_⟩)
          · simp [Thread.next?, hrest]
          · rw [heq]
            simp [Thread.step, hrest]
          · rw [heq]
            simp [Thread.step, hrest]
      · rw [List.getElem?_set_ne hij] at ht
        exact .inl ⟨ht, fun heq => absurd (Ev.exec.inj heq) hij⟩

/-- What the thread at one place has seen after a step, it had seen before or the step was its
own. -/
theorem mem_seen_step (sys : System ρ ℓ σ ε α ι) {c : Conf ρ ℓ σ ε α} {e : Ev ρ ι} {j : Nat}
    {t : Thread ρ ℓ σ ε α}
    (ht : (sys.step c e).threads[j]? = some t) {x : ℓ × σ} (hx : x ∈ t.seen) :
    ∃ t₀, c.threads[j]? = some t₀ ∧ t₀.req = t.req ∧
      (x ∈ t₀.seen ∨ e = .exec j ∧ ∃ l, t₀.next? = some l ∧ x = (l, c.state)) := by
  rcases getElem?_step sys ht with ⟨hold, -⟩ | ⟨r, -, rfl⟩ | ⟨t₀, l, he, hj, hl, hreq, hseen⟩
  · exact ⟨t, hold, rfl, .inl hx⟩
  · cases hx
  · rw [hseen] at hx
    rcases List.mem_cons.mp hx with rfl | hx
    · exact ⟨t₀, hj, hreq.symm, .inr ⟨he, l, hl, rfl⟩⟩
    · exact ⟨t₀, hj, hreq.symm, .inl hx⟩

/-- What a thread has seen it executed: some `exec` of its own place was that statement, in that
state. -/
theorem executed_at (sys : System ρ ℓ σ ε α ι) {c : Conf ρ ℓ σ ε α} {es : List (Ev ρ ι)} {i : Nat}
    (hi : c.threads.length ≤ i) {t : Thread ρ ℓ σ ε α}
    (ht : (Lib.run sys.step c es).threads[i]? = some t) {x : ℓ × σ} (hx : x ∈ t.seen) :
    ∃ pre post t₀, es = pre ++ .exec i :: post ∧
      (Lib.run sys.step c pre).threads[i]? = some t₀ ∧ t₀.req = t.req ∧ t₀.next? = some x.1 ∧
      (Lib.run sys.step c pre).state = x.2 := by
  induction es using List.reverseRecOn generalizing t with
  | nil => rw [Lib.run_nil, List.getElem?_eq_none hi] at ht; cases ht
  | append_singleton es e ih =>
    rw [Lib.run_append, Lib.run_cons, Lib.run_nil] at ht
    -- an entry of the thread as it was before the last event
    have hold : ∀ t₀, (Lib.run sys.step c es).threads[i]? = some t₀ → t₀.req = t.req →
        x ∈ t₀.seen → ∃ pre post t₁, es ++ [e] = pre ++ .exec i :: post ∧
          (Lib.run sys.step c pre).threads[i]? = some t₁ ∧ t₁.req = t.req ∧ t₁.next? = some x.1 ∧
          (Lib.run sys.step c pre).state = x.2 := by
      intro t₀ ht₀ hreq hx₀
      obtain ⟨pre, post, t₁, hes, hat, hreq₁, hnext, hstate⟩ := ih ht₀ hx₀
      refine ⟨pre, post ++ [e], t₁, ?_, hat, hreq₁.trans hreq, hnext, hstate⟩
      rw [hes, List.append_assoc, List.cons_append]
    rcases getElem?_step sys ht with
      ⟨hsame, -⟩ | ⟨r, -, rfl⟩ | ⟨t₀, l, rfl, hat, hnext, hreq, hseen⟩
    · exact hold t hsame rfl hx
    · cases hx
    · rw [hseen] at hx
      rcases List.mem_cons.mp hx with rfl | hx
      · exact ⟨es, [], t₀, rfl, hat, hreq.symm, hnext, rfl⟩
      · exact hold t₀ hat hreq.symm hx

/-- A thread that executes a statement has seen it. -/
theorem seen_exec (sys : System ρ ℓ σ ε α ι) {c : Conf ρ ℓ σ ε α} {i : Nat}
    {t : Thread ρ ℓ σ ε α} {l : ℓ}
    (ht : c.threads[i]? = some t) (hl : t.next? = some l) :
    ∃ t' ∈ (sys.step c (.exec i)).threads, t'.req = t.req ∧ (l, c.state) ∈ t'.seen := by
  obtain ⟨hi, -⟩ := List.getElem?_eq_some_iff.mp ht
  have hmem : (t.step c.state).1 ∈ (sys.step c (.exec i)).threads := by
    simp only [System.step, ht]
    exact List.mem_set hi _
  cases hrest : t.rest with
  | ret | err => simp [Thread.next?, hrest] at hl
  | atom l' upd k =>
    obtain rfl : l' = l := by simpa [Thread.next?, hrest] using hl
    refine ⟨_, hmem, ?_, ?_⟩
    · simp [Thread.step, hrest]
    · simp [Thread.step, hrest]

/-- The same, with its place. -/
theorem getElem?_exec (sys : System ρ ℓ σ ε α ι) {c : Conf ρ ℓ σ ε α} {i : Nat}
    {t : Thread ρ ℓ σ ε α} {l : ℓ}
    (ht : c.threads[i]? = some t) (hl : t.next? = some l) :
    ∃ t', (sys.step c (.exec i)).threads[i]? = some t' ∧ t'.req = t.req ∧
      t'.seen = (l, c.state) :: t.seen := by
  obtain ⟨hi, -⟩ := List.getElem?_eq_some_iff.mp ht
  have hplace : (sys.step c (.exec i)).threads[i]? = some (t.step c.state).1 := by
    simp only [System.step, ht]
    exact List.getElem?_set_self hi
  cases hrest : t.rest with
  | ret | err => simp [Thread.next?, hrest] at hl
  | atom l' upd k =>
    obtain rfl : l' = l := by simpa [Thread.next?, hrest] using hl
    refine ⟨_, hplace, ?_, ?_⟩
    · simp [Thread.step, hrest]
    · simp [Thread.step, hrest]

/-- A thread keeps its place and its request, and only adds to what it has seen. -/
theorem getElem?_run (sys : System ρ ℓ σ ε α ι) {c : Conf ρ ℓ σ ε α} {i : Nat}
    {t : Thread ρ ℓ σ ε α}
    (ht : c.threads[i]? = some t) (es : List (Ev ρ ι)) :
    ∃ t', (Lib.run sys.step c es).threads[i]? = some t' ∧ t'.req = t.req ∧ t.seen <:+ t'.seen := by
  induction es generalizing c t with
  | nil => exact ⟨t, ht, rfl, List.suffix_refl _⟩
  | cons e es ih =>
    obtain ⟨hi, -⟩ := List.getElem?_eq_some_iff.mp ht
    -- one event leaves the thread alone or adds one entry
    have hstep : ∃ t₁, (sys.step c e).threads[i]? = some t₁ ∧ t₁.req = t.req ∧
      t.seen <:+ t₁.seen := by
      cases e with
      | spawn r => exact ⟨t, (List.getElem?_append_left hi).trans ht, rfl, List.suffix_refl _⟩
      | env e => exact ⟨t, ht, rfl, List.suffix_refl _⟩
      | exec j =>
        by_cases hij : j = i
        · subst hij
          refine ⟨(t.step c.state).1, ?_, ?_, ?_⟩
          · simp only [System.step, ht]
            exact List.getElem?_set_self hi
          · unfold Thread.step
            split <;> rfl
          · unfold Thread.step
            split
            · exact List.suffix_cons _ _
            · exact List.suffix_refl _
        · refine ⟨t, ?_, rfl, List.suffix_refl _⟩
          simp only [System.step]
          split
          · exact (List.getElem?_set_ne hij).trans ht
          · exact ht
    obtain ⟨t₁, ht₁, hreq₁, hseen₁⟩ := hstep
    obtain ⟨t₂, ht₂, hreq₂, hseen₂⟩ := ih ht₁
    exact ⟨t₂, ht₂, hreq₂.trans hreq₁, hseen₁.trans hseen₂⟩

/-- A statement that a thread executes is one it has seen by the time it executes a later one. -/
theorem executed_before (sys : System ρ ℓ σ ε α ι) {c : Conf ρ ℓ σ ε α}
    {pre mid : List (Ev ρ ι)} {i : Nat}
    {t t' : Thread ρ ℓ σ ε α} {l : ℓ} (ht : (Lib.run sys.step c pre).threads[i]? = some t)
    (hl : t.next? = some l)
    (ht' : (Lib.run sys.step c (pre ++ .exec i :: mid)).threads[i]? = some t') :
    (l, (Lib.run sys.step c pre).state) ∈ t'.seen := by
  obtain ⟨t₁, ht₁, -, hseen₁⟩ := getElem?_exec sys ht hl
  obtain ⟨t₂, ht₂, -, hseen₂⟩ := getElem?_run sys ht₁ mid
  rw [Lib.run_append, Lib.run_cons] at ht'
  cases ht₂.symm.trans ht'
  exact hseen₂.subset (hseen₁ ▸ List.mem_cons_self)

/-- Of two statements of a thread at different places of a run, one is seen when the other is
executed. -/
theorem executed_apart (sys : System ρ ℓ σ ε α ι) {c : Conf ρ ℓ σ ε α}
    {pre pre' post post' : List (Ev ρ ι)}
    {i : Nat} (hes : pre ++ .exec i :: post = pre' ++ .exec i :: post') (hne : pre' ≠ pre)
    {t t' : Thread ρ ℓ σ ε α} {l l' : ℓ} (ht : (Lib.run sys.step c pre).threads[i]? = some t)
    (hl : t.next? = some l) (ht' : (Lib.run sys.step c pre').threads[i]? = some t')
    (hl' : t'.next? = some l') :
    (l, (Lib.run sys.step c pre).state) ∈ t'.seen ∨
      (l', (Lib.run sys.step c pre').state) ∈ t.seen := by
  rcases List.append_eq_append_iff.mp hes with ⟨mid, rfl, hmid⟩ | ⟨mid, rfl, hmid⟩
  · cases mid with
    | nil => exact absurd (List.append_nil pre) hne
    | cons e mid =>
      obtain ⟨rfl, -⟩ := List.cons.inj hmid
      exact .inl (executed_before sys ht hl ht')
  · cases mid with
    | nil => exact absurd (List.append_nil pre').symm hne
    | cons e mid =>
      obtain ⟨rfl, -⟩ := List.cons.inj hmid
      exact .inr (executed_before sys ht' hl' ht)

/-- A thread that is done stays as it is. -/
theorem getElem?_run_of_done (sys : System ρ ℓ σ ε α ι) {c : Conf ρ ℓ σ ε α} {j : Nat}
    {t : Thread ρ ℓ σ ε α}
    (ht : c.threads[j]? = some t) (hdone : t.next? = none) (es : List (Ev ρ ι)) :
    (Lib.run sys.step c es).threads[j]? = some t := by
  induction es generalizing c with
  | nil => exact ht
  | cons e es ih =>
    refine ih ?_
    obtain ⟨hj, -⟩ := List.getElem?_eq_some_iff.mp ht
    cases e with
    | spawn r => exact (List.getElem?_append_left hj).trans ht
    | env e => exact ht
    | exec i =>
      simp only [System.step]
      cases hi : c.threads[i]? with
      | none => exact ht
      | some t₀ =>
        by_cases hij : i = j
        · subst hij
          cases ht.symm.trans hi
          have hsame : (t.step c.state).1 = t := by
            cases hrest : t.rest with
            | ret | err => simp [Thread.step, hrest]
            | atom l upd k => simp [Thread.next?, hrest] at hdone
          simp only [hsame]
          exact List.getElem?_set_self hj
        · exact (List.getElem?_set_ne hij).trans ht

variable {sys : System ρ ℓ σ ε α ι} {G : ρ → ℓ → List (ℓ × σ) → σ → σ → Prop}
  {Q : ρ → List (ℓ × σ) → Except ε α → Prop} {ok : Conf ρ ℓ σ ε α → Ev ρ ι → Prop}
  {T : ρ → List (ℓ × σ) → σ → Prop}

/-- What an `exec` does to the state, if it does anything. -/
theorem Meets.exec_cases (sys : System ρ ℓ σ ε α ι) {c : Conf ρ ℓ σ ε α}
    (hc : Meets G Q c) (i : Nat) :
    (sys.step c (.exec i)).state = c.state ∧ (c.threads[i]?).bind Thread.next? = none ∨
      ∃ t l, c.threads[i]? = some t ∧ t.next? = some l ∧
        G t.req l t.seen c.state (sys.step c (.exec i)).state := by
  cases hl : (c.threads[i]?).bind Thread.next? with
  | none => exact .inl ⟨exec_idle sys hl, rfl⟩
  | some l =>
    obtain ⟨t, ht, hnext⟩ := Option.bind_eq_some_iff.mp hl
    exact .inr ⟨t, l, ht, hnext, hc.exec sys ht hnext⟩

/-- Every entry of a thread's history is a statement it executed in the run: where, and what it
did. -/
theorem Meets.executed (hprog : ∀ r, (sys.prog r).Meets (G r) (Q r) []) {s : σ}
    {es : List (Ev ρ ι)} {i : Nat}
    {t : Thread ρ ℓ σ ε α}
    (ht : (Lib.run sys.step (Conf.init s) es).threads[i]? = some t) {x : ℓ × σ}
    (hx : x ∈ t.seen) :
    ∃ pre post t₀, es = pre ++ .exec i :: post ∧
      (Lib.run sys.step (Conf.init s) pre).threads[i]? = some t₀ ∧ t₀.next? = some x.1 ∧
      (Lib.run sys.step (Conf.init s) pre).state = x.2 ∧
      G t.req x.1 t₀.seen x.2 (Lib.run sys.step (Conf.init s) (pre ++ [.exec i])).state := by
  obtain ⟨pre, post, t₀, hes, hat, hreq, hnext, hstate⟩ :=
    executed_at sys (Nat.zero_le i) ht hx
  have hmeets : Meets G Q (Lib.run sys.step (Conf.init s) pre) :=
    meets_run hprog fun t ht => absurd ht (by simp [Conf.init])
  have hdoes := hmeets.exec sys hat hnext
  rw [hreq, hstate] at hdoes
  refine ⟨pre, post, t₀, hes, hat, hnext, hstate, ?_⟩
  rw [Lib.run_append, Lib.run_cons, Lib.run_nil]
  exact hdoes

/-- What has to be shown of each statement for the facts of the threads to last. -/
structure Lasting (sys : System ρ ℓ σ ε α ι) (G : ρ → ℓ → List (ℓ × σ) → σ → σ → Prop)
    (ok : Conf ρ ℓ σ ε α → Ev ρ ι → Prop) (T : ρ → List (ℓ × σ) → σ → Prop) : Prop where
  spawn : ∀ {c r}, ok c (.spawn r) → T r [] c.state
  own : ∀ {c i t l s'}, ok c (.exec i) → c.threads[i]? = some t → t.next? = some l →
    G t.req l t.seen c.state s' → T t.req t.seen c.state → T t.req ((l, c.state) :: t.seen) s'
  other : ∀ {c i t l s' j t'}, ok c (.exec i) → c.threads[i]? = some t → t.next? = some l →
    G t.req l t.seen c.state s' → T t.req t.seen c.state → c.threads[j]? = some t' → j ≠ i →
    T t'.req t'.seen c.state → T t'.req t'.seen s'
  env : ∀ {c e r seen}, ok c (.env e) → T r seen c.state → T r seen (sys.env e c.state)

/-- Every thread has its fact. -/
structure Told (G : ρ → ℓ → List (ℓ × σ) → σ → σ → Prop) (Q : ρ → List (ℓ × σ) → Except ε α → Prop)
    (T : ρ → List (ℓ × σ) → σ → Prop) (c : Conf ρ ℓ σ ε α) : Prop where
  meets : Meets G Q c
  facts : ∀ (j : Nat) (t : Thread ρ ℓ σ ε α), c.threads[j]? = some t → T t.req t.seen c.state

theorem Told.init (s : σ) : Told G Q T (Conf.init s : Conf ρ ℓ σ ε α) :=
  ⟨fun t ht => absurd ht (by simp [Conf.init]), fun j t ht => absurd ht (by simp [Conf.init])⟩

theorem Lasting.step (h : Lasting sys G ok T) (hprog : ∀ r, (sys.prog r).Meets (G r) (Q r) [])
    {c : Conf ρ ℓ σ ε α} {e : Ev ρ ι} (hc : Told G Q T c)
    (hok : ok c e) : Told G Q T (sys.step c e) := by
  refine ⟨meets_step hprog e hc.meets, fun j t ht => ?_⟩
  rcases getElem?_step sys ht with ⟨hold, hstay⟩ | ⟨r, rfl, rfl⟩ | ⟨t₀, l, rfl, hj, hl, hreq, hseen⟩
  · -- the thread has not moved; the state may have
    have hfact := hc.facts j t hold
    cases e with
    | spawn r => exact hfact
    | env e => exact h.env hok hfact
    | exec i =>
      rcases hc.meets.exec_cases sys i with ⟨hidle, -⟩ | ⟨t₁, l, hi, hl, hmove⟩
      · rwa [hidle]
      refine h.other hok hi hl hmove (hc.facts i t₁ hi) hold (fun hij => ?_) hfact
      subst hij
      cases hold.symm.trans hi
      cases (hstay rfl).symm.trans hl
  · exact h.spawn (c := c) hok
  · rw [hreq, hseen]
    exact h.own hok hj hl (hc.meets.exec sys hj hl) (hc.facts j t₀ hj)

/-- **The rule.** -/
theorem Lasting.run (h : Lasting sys G ok T) (hprog : ∀ r, (sys.prog r).Meets (G r) (Q r) [])
    {s : σ} {es : List (Ev ρ ι)} (hok : Along sys.step ok (Conf.init s) es) :
    Told G Q T (Lib.run sys.step (Conf.init s) es) :=
  run_invariant (fun _ _ hc => h.step hprog hc) (Told.init s) hok

end System

end Keycast.Lib
