import Mathlib.Algebra.Order.BigOperators.Group.List
import Mathlib.Algebra.GroupWithZero.Nat
import Mathlib.Algebra.Order.Group.Nat
import Keycast.Lib.Interleave
import Keycast.Lib.Table

/-!
# `Lib/Ledger.lean` — nothing is spent that was not there

Single use, for a system of concurrent handlers. Some statements *mint* a unit of something, some
*spend* one, and `live` counts the units in the shared state. If no statement can spend a unit that
is not there — `spend + live after ≤ live before + mint`, statement by statement — then the books
balance over a whole run, whatever the interleaving, and what was spent is bounded by what there was
and what the requests were able to mint.

A statement is judged with what its thread has executed before (`G`, as in `Prog.Meets`), and the
states it saw then are known to have led to the current one along `R`. That is how code that checks
first and acts later is treated: what the check saw, and what can have happened since.
-/

set_option autoImplicit false

namespace Keycast.Lib

variable {ρ ℓ σ ε α ι : Type}

/-! ## Counting -/

/-- The sum of `f` over what a thread has executed. -/
def tally (f : ℓ → σ → Nat) (seen : List (ℓ × σ)) : Nat := (seen.map fun x => f x.1 x.2).sum

@[simp] theorem tally_nil (f : ℓ → σ → Nat) : tally f [] = 0 := rfl

@[simp] theorem tally_cons (f : ℓ → σ → Nat) (x : ℓ × σ) (seen : List (ℓ × σ)) :
    tally f (x :: seen) = f x.1 x.2 + tally f seen := rfl

theorem tally_append (f : ℓ → σ → Nat) (xs ys : List (ℓ × σ)) :
    tally f (xs ++ ys) = tally f xs + tally f ys := by
  simp [tally]

theorem tally_eq_zero {f : ℓ → σ → Nat} {seen : List (ℓ × σ)} (h : ∀ x ∈ seen, f x.1 x.2 = 0) :
    tally f seen = 0 := by
  induction seen with
  | nil => rfl
  | cons x seen ih =>
    rw [tally_cons, h x List.mem_cons_self, ih fun y hy => h y (List.mem_cons_of_mem _ hy)]

theorem le_tally {f : ℓ → σ → Nat} {seen : List (ℓ × σ)} {x : ℓ × σ} (hx : x ∈ seen) :
    f x.1 x.2 ≤ tally f seen :=
  List.le_sum_of_mem (List.mem_map_of_mem (f := fun x => f x.1 x.2) hx)

/-- The sum over all threads. -/
def Conf.tally (f : ℓ → σ → Nat) (c : Conf ρ ℓ σ ε α) : Nat :=
  (c.threads.map fun t => Lib.tally f t.seen).sum

theorem Conf.tally_zero (c : Conf ρ ℓ σ ε α) : c.tally (fun _ _ => 0) = 0 := by
  unfold Conf.tally
  refine List.sum_eq_zero fun n hn => ?_
  obtain ⟨t, -, rfl⟩ := List.mem_map.mp hn
  exact tally_eq_zero fun _ _ => rfl

/-- Threads that have each counted something. -/
theorem Conf.countP_le_tally {f : ℓ → σ → Nat} {p : Thread ρ ℓ σ ε α → Bool} {c : Conf ρ ℓ σ ε α}
    (h : ∀ t ∈ c.threads, p t = true → 1 ≤ Lib.tally f t.seen) : c.threads.countP p ≤
      c.tally f := by
  obtain ⟨s, threads⟩ := c
  unfold Conf.tally
  dsimp only at h ⊢
  induction threads with
  | nil => exact le_rfl
  | cons t threads ih =>
    have hrest := ih fun t' ht' => h t' (List.mem_cons_of_mem _ ht')
    rw [List.countP_cons, List.map_cons, List.sum_cons]
    split
    · next hp =>
      have hone := h t List.mem_cons_self hp
      omega
    · omega

/-- Two entries of a list of numbers, at different places. -/
theorem add_le_sum {l : List Nat} {i j a b : Nat} (hij : i ≠ j) (hi : l[i]? = some a)
    (hj : l[j]? = some b) : a + b ≤ l.sum := by
  induction l generalizing i j with
  | nil => cases hi
  | cons x l ih =>
    rw [List.sum_cons]
    cases i with
    | zero =>
      cases j with
      | zero => exact absurd rfl hij
      | succ j =>
        cases hi
        have hb : b ≤ l.sum := List.le_sum_of_mem (List.mem_of_getElem? hj)
        omega
    | succ i =>
      cases j with
      | zero =>
        cases hj
        have ha : a ≤ l.sum := List.le_sum_of_mem (List.mem_of_getElem? hi)
        omega
      | succ j =>
        have := ih (by omega) hi hj
        omega

/-- When all threads together have counted at most one, only one thread has counted any. -/
theorem Conf.eq_of_tally_le_one {f : ℓ → σ → Nat} {c : Conf ρ ℓ σ ε α}
    (h : c.tally f ≤ 1) {i j : Nat}
    {t u : Thread ρ ℓ σ ε α} (ht : c.threads[i]? = some t) (hu : c.threads[j]? = some u)
    (hft : 1 ≤ Lib.tally f t.seen) (hfu : 1 ≤ Lib.tally f u.seen) : i = j := by
  by_contra hij
  have hsum : Lib.tally f t.seen + Lib.tally f u.seen ≤ c.tally f := by
    refine add_le_sum hij (i := i) (j := j) ?_ ?_
    · rw [List.getElem?_map, ht, Option.map_some]
    · rw [List.getElem?_map, hu, Option.map_some]
  omega

/-- A sum of zeros and ones. -/
theorem sum_map_ite {p : ρ → Prop} [DecidablePred p] (rs : List ρ) :
    (rs.map fun r => if p r then 1 else 0).sum = rs.countP p := by
  induction rs with
  | nil => rfl
  | cons r rs ih =>
    rw [List.map_cons, List.sum_cons, List.countP_cons, ih, Nat.add_comm]
    simp only [decide_eq_true_eq]

/-- Something that is there at most once, or drawn by one request, but not both. -/
theorem add_drawn_le_one {β : Type} [DecidableEq β] {g : ρ → Option β} {rs : List ρ}
    {b : β} {n : Nat}
    (hdrawn : (rs.filterMap g).Nodup) (hn : n ≤ 1) (hnew : 0 < n → ∀ r ∈ rs, g r ≠ some b) :
    n + (rs.map fun r => if g r = some b then 1 else 0).sum ≤ 1 := by
  have hone : rs.countP (fun r => g r == some b) ≤ 1 := countP_some_le_one hdrawn b
  have hsum : (rs.map fun r => if g r = some b then 1 else 0).sum =
    rs.countP (fun r => g r == some b) := by
    rw [sum_map_ite]
    exact List.countP_congr fun r _ => by rw [decide_eq_true_iff, beq_iff_eq]
  rw [hsum]
  by_cases hpos : 0 < n
  · have hnone : rs.countP (fun r => g r == some b) = 0 := by
      refine List.countP_eq_zero.mpr fun r hr heq => hnew hpos r hr ?_
      exact beq_iff_eq.mp heq
    omega
  · omega

/-! ## Steps of threads -/

namespace System

variable {sys : System ρ ℓ σ ε α ι}

/-- **What an `exec` can be**: nothing, or the next statement of one thread. -/
theorem step_exec (sys : System ρ ℓ σ ε α ι) (c : Conf ρ ℓ σ ε α) (i : Nat) :
    sys.step c (.exec i) = c ∨
      ∃ t l upd k, c.threads[i]? = some t ∧ t.rest = .atom l upd k ∧
        sys.step c (.exec i) =
          ⟨upd c.state, c.threads.set i ⟨t.req, (l, c.state) :: t.seen, k c.state⟩⟩ := by
  cases ht : c.threads[i]? with
  | none => exact .inl (by simp [System.step, ht])
  | some t =>
    cases hrest : t.rest with
    | ret | err =>
      refine .inl ?_
      obtain ⟨hi, rfl⟩ := List.getElem?_eq_some_iff.mp ht
      simp [System.step, ht, Thread.step, hrest]
    | atom l upd k =>
      exact .inr ⟨t, l, upd, k, rfl, hrest, by simp [System.step, ht, Thread.step, hrest]⟩

/-- The requests of a list of events. -/
def spawned (es : List (Ev ρ ι)) : List ρ :=
  es.filterMap fun
    | .spawn r => some r
    | _ => none

theorem threads_req (sys : System ρ ℓ σ ε α ι) (c : Conf ρ ℓ σ ε α) (es : List (Ev ρ ι)) :
    (Lib.run sys.step c es).threads.map (·.req) = c.threads.map (·.req) ++ spawned es := by
  induction es generalizing c with
  | nil => simp [spawned]
  | cons e es ih =>
    rw [Lib.run_cons, ih]
    cases e with
    | spawn r => simp [System.step, spawned]
    | env e => rfl
    | exec i =>
      have hsame : (sys.step c (.exec i)).threads.map (·.req) = c.threads.map (·.req) := by
        rcases step_exec sys c i with h | ⟨t, l, upd, k, ht, -, h⟩
        · rw [h]
        · have hreq : (c.threads.map (·.req))[i]? = some t.req := by
            rw [List.getElem?_map, ht, Option.map_some]
          obtain ⟨hi, heq⟩ := List.getElem?_eq_some_iff.mp hreq
          rw [h, List.map_set, ← heq, List.set_getElem_self]
      rw [hsame]
      rfl

end System

/-! ## The rule -/

theorem sum_set_add {l : List Nat} {i a : Nat} (h : l[i]? = some a) (b : Nat) :
    (l.set i b).sum + a = l.sum + b := by
  induction l generalizing i with
  | nil => cases h
  | cons x l ih =>
    cases i with
    | zero =>
      cases h
      simp only [List.set_cons_zero, List.sum_cons]
      omega
    | succ i =>
      have := ih h
      simp only [List.set_cons_succ, List.sum_cons]
      omega

/-- A statement adds its own count. -/
theorem Conf.tally_set {f : ℓ → σ → Nat} {c : Conf ρ ℓ σ ε α} {i : Nat} {t : Thread ρ ℓ σ ε α}
    (ht : c.threads[i]? = some t) (s : σ) (l : ℓ) (rest : Prog ℓ σ ε α) :
    Conf.tally f ⟨s, c.threads.set i ⟨t.req, (l, c.state) :: t.seen, rest⟩⟩ =
      c.tally f + f l c.state := by
  have hsum := sum_set_add (l := c.threads.map fun t => Lib.tally f t.seen) (i := i)
    (a := Lib.tally f t.seen) (by rw [List.getElem?_map, ht, Option.map_some])
    (f l c.state + Lib.tally f t.seen)
  unfold Conf.tally
  rw [List.map_set]
  simp only [tally_cons]
  omega

namespace System

variable {sys : System ρ ℓ σ ε α ι} {C : ℓ → σ → Prop} {E : ι → σ → Prop}
  {G : ρ → ℓ → List (ℓ × σ) → σ → σ → Prop} {Q : ρ → List (ℓ × σ) → Except ε α → Prop}
  {I : σ → Prop} {R : σ → σ → Prop}

/-- What is known of a run: its threads have statements in `G` ahead, the state satisfies `I`, and
so did the states its threads saw, which led here along `R`. -/
structure Traced (G : ρ → ℓ → List (ℓ × σ) → σ → σ → Prop)
    (Q : ρ → List (ℓ × σ) → Except ε α → Prop)
    (I : σ → Prop) (R : σ → σ → Prop) (c : Conf ρ ℓ σ ε α) : Prop where
  meets : Meets G Q c
  state : I c.state
  seen : ∀ t ∈ c.threads, ∀ x ∈ t.seen, I x.2 ∧ R x.2 c.state

/-- What has to be shown for it: a statement, given what its thread has seen, and the environment
keep `I` and move along `R`. -/
structure Traces (sys : System ρ ℓ σ ε α ι) (C : ℓ → σ → Prop) (E : ι → σ → Prop)
    (G : ρ → ℓ → List (ℓ × σ) → σ → σ → Prop) (Q : ρ → List (ℓ × σ) → Except ε α → Prop)
    (I : σ → Prop) (R : σ → σ → Prop) : Prop where
  prog : ∀ r, (sys.prog r).Meets (G r) (Q r) []
  refl : ∀ s, R s s
  trans : ∀ a b c, R a b → R b c → R a c
  exec : ∀ {r l seen s s'}, I s → (∀ x ∈ seen, I x.2 ∧ R x.2 s) → C l s → G r l seen s s' →
    I s' ∧ R s s'
  env : ∀ {e s}, I s → E e s → I (sys.env e s) ∧ R s (sys.env e s)

theorem traced_init {s : σ} (hs : I s) : Traced G Q I R (Conf.init s) :=
  ⟨(fun _ ht => nomatch ht), hs, (fun _ ht => nomatch ht)⟩

variable {c : Conf ρ ℓ σ ε α}

/-- What is known of a statement that is about to be executed. -/
theorem Traced.next (h : Traced G Q I R c) {i : Nat} {t : Thread ρ ℓ σ ε α} {l : ℓ} {upd : σ → σ}
    {k : σ → Prog ℓ σ ε α} (hok : Allowed C E c (.exec i)) (ht : c.threads[i]? = some t)
    (hrest : t.rest = .atom l upd k) :
    (∀ x ∈ t.seen, I x.2 ∧ R x.2 c.state) ∧ C l c.state ∧
      G t.req l t.seen c.state (upd c.state) := by
  have hmem := List.mem_of_getElem? ht
  refine ⟨h.seen t hmem, hok t ht l (by simp [Thread.next?, hrest]), ?_⟩
  have hT := h.meets t hmem
  rw [hrest] at hT
  exact (hT c.state).1

theorem Traces.step (h : Traces sys C E G Q I R) (hc : Traced G Q I R c) {e : Ev ρ ι}
    (hok : Allowed C E c e) : Traced G Q I R (sys.step c e) := by
  have hmeets := meets_step h.prog e hc.meets
  cases e with
  | spawn r =>
    refine ⟨hmeets, hc.state, fun t ht x hx => ?_⟩
    simp only [System.step, List.mem_append, List.mem_singleton] at ht
    rcases ht with ht | rfl
    · exact hc.seen t ht x hx
    · cases hx
  | env e =>
    obtain ⟨hi, hr⟩ := h.env hc.state hok
    refine ⟨hmeets, hi, fun t ht x hx => ?_⟩
    obtain ⟨hx₁, hx₂⟩ := hc.seen t ht x hx
    exact ⟨hx₁, h.trans _ _ _ hx₂ hr⟩
  | exec i =>
    rcases step_exec sys c i with hstep | ⟨t, l, upd, k, ht, hrest, hstep⟩
    · rw [hstep]
      exact hc
    · obtain ⟨hseen, hC, hG⟩ := hc.next hok ht hrest
      obtain ⟨hi, hr⟩ := h.exec hc.state hseen hC hG
      rw [hstep] at hmeets ⊢
      refine ⟨hmeets, hi, fun t' ht' x hx => ?_⟩
      -- the state just seen is the one before the statement
      have hold : I x.2 ∧ R x.2 c.state := by
        rcases List.mem_or_eq_of_mem_set ht' with hmem | rfl
        · exact hc.seen t' hmem x hx
        · rcases List.mem_cons.mp hx with rfl | hx
          · exact ⟨hc.state, h.refl _⟩
          · exact hseen x hx
      exact ⟨hold.1, h.trans _ _ _ hold.2 hr⟩

theorem Traces.run (h : Traces sys C E G Q I R) (hc : Traced G Q I R c) {es : List (Ev ρ ι)}
    (hok : Along sys.step (Allowed C E) c es) : Traced G Q I R (Lib.run sys.step c es) :=
  run_invariant (I := Traced G Q I R) (fun _ _ hc hok => h.step hc hok) hc hok

/-- **Induction over an allowed run**, one case for each kind of event. -/
theorem Traces.induct (h : Traces sys C E G Q I R) {K : Conf ρ ℓ σ ε α → Prop}
    (hspawn : ∀ c r, K c → K ⟨c.state, c.threads ++ [⟨r, [], sys.prog r⟩]⟩)
    (hexec : ∀ c i t l s' rest, K c → c.threads[i]? = some t → I c.state →
      (∀ x ∈ t.seen, I x.2 ∧ R x.2 c.state) → C l c.state → G t.req l t.seen c.state s' →
      K ⟨s', c.threads.set i ⟨t.req, (l, c.state) :: t.seen, rest⟩⟩)
    (henv : ∀ c e, K c → I c.state → E e c.state → K ⟨sys.env e c.state, c.threads⟩)
    (hc : Traced G Q I R c) (hK : K c) {es : List (Ev ρ ι)}
    (hok : Along sys.step (Allowed C E) c es) : K (Lib.run sys.step c es) := by
  refine (run_invariant (I := fun c => Traced G Q I R c ∧ K c) (fun c e hI hok => ?_)
    ⟨hc, hK⟩ hok).2
  refine ⟨h.step hI.1 hok, ?_⟩
  cases e with
  | spawn r => exact hspawn c r hI.2
  | env e => exact henv c e hI.2 hI.1.state hok
  | exec i =>
    rcases step_exec sys c i with hstep | ⟨t, l, upd, k, ht, hrest, hstep⟩
    · rw [hstep]
      exact hI.2
    · obtain ⟨hseen, hC, hG⟩ := hI.1.next hok ht hrest
      rw [hstep]
      exact hexec c i t l _ _ hI.2 ht hI.1.state hseen hC hG

/-- What each statement adds to the history of its thread. -/
theorem Traces.history (h : Traces sys C E G Q I R) {K : ρ → List (ℓ × σ) → Prop}
    (hnil : ∀ r, K r [])
    (hcons : ∀ {r l seen s s'}, K r seen → (∀ x ∈ seen, I x.2 ∧ R x.2 s) → C l s → G r l seen s s' →
      K r ((l, s) :: seen))
    {s : σ} (hs : I s) {es : List (Ev ρ ι)} (hok : Along sys.step (Allowed C E) (Conf.init s) es)
    {t : Thread ρ ℓ σ ε α}
    (ht : t ∈ (Lib.run sys.step (Conf.init s) es).threads) : K t.req t.seen := by
  refine h.induct (K := fun c => ∀ t ∈ c.threads, K t.req t.seen) ?_ ?_ ?_ (traced_init hs)
    (fun _ ht => nomatch ht) hok t ht
  · intro c r hK t ht
    rcases List.mem_append.mp ht with ht | ht
    · exact hK t ht
    · rw [List.mem_singleton.mp ht]
      exact hnil r
  · intro c i t l s' rest hK ht _ hseen hC hG t' ht'
    rcases List.mem_or_eq_of_mem_set ht' with hmem | rfl
    · exact hK t' hmem
    · exact hcons (hK t (List.mem_of_getElem? ht)) hseen hC hG
  · exact fun c e hK _ _ => hK

/-- The law of a ledger, for a statement and for the environment. -/
structure Ledger (sys : System ρ ℓ σ ε α ι) (C : ℓ → σ → Prop) (E : ι → σ → Prop)
    (G : ρ → ℓ → List (ℓ × σ) → σ → σ → Prop) (I : σ → Prop) (R : σ → σ → Prop) (live : σ → Nat)
    (spend mint : ℓ → σ → Nat) : Prop where
  exec : ∀ {r l seen s s'}, I s → (∀ x ∈ seen, I x.2 ∧ R x.2 s) → C l s → G r l seen s s' →
    spend l s + live s' ≤ live s + mint l s
  env : ∀ {e s}, I s → E e s → live (sys.env e s) ≤ live s

variable {live : σ → Nat} {spend mint : ℓ → σ → Nat}

/-- **The books balance** from any point of a run on. -/
theorem Ledger.balance (h : Ledger sys C E G I R live spend mint) (htraces : Traces sys C E G Q I R)
    (hc : Traced G Q I R c) {es : List (Ev ρ ι)} (hok : Along sys.step (Allowed C E) c es) :
    (Lib.run sys.step c es).tally spend + live (Lib.run sys.step c es).state + c.tally mint ≤
      c.tally spend + live c.state + (Lib.run sys.step c es).tally mint := by
  refine htraces.induct
    (K := fun c' => c'.tally spend + live c'.state + c.tally mint ≤
      c.tally spend + live c.state + c'.tally mint) ?_ ?_ ?_ hc le_rfl hok
  · intro c' r hK
    simpa [Conf.tally] using hK
  · intro c' i t l s' rest hK ht hi hseen hC hG
    have hlaw := h.exec hi hseen hC hG
    rw [Conf.tally_set ht, Conf.tally_set ht]
    show _ + live s' + _ ≤ _
    omega
  · intro c' e hK hi hE
    have hlaw := h.env hi hE
    show c'.tally spend + live (sys.env e c'.state) + _ ≤ _ + c'.tally mint
    omega

/-- A request mints what it may, if a statement that mints more is never reached. -/
theorem Traces.minted_le (h : Traces sys C E G Q I R) {draws : ρ → Nat}
    (hdraws : ∀ {r l seen s s'}, G r l seen s s' → Lib.tally mint seen ≤ draws r →
      mint l s + Lib.tally mint seen ≤ draws r) {s : σ} (hs : I s) {es : List (Ev ρ ι)}
    (hok : Along sys.step (Allowed C E) (Conf.init s) es) :
    (Lib.run sys.step (Conf.init s) es).tally mint ≤ ((spawned es).map draws).sum := by
  have hthread : ∀ t ∈ (Lib.run sys.step (Conf.init s) es).threads,
      Lib.tally mint t.seen ≤ draws t.req := by
    intro t ht
    exact h.history (K := fun r seen => Lib.tally mint seen ≤ draws r) (fun _ => Nat.zero_le _)
      (fun hle _ _ hG => hdraws hG hle) hs hok ht
  have hreqs : spawned es = (Lib.run sys.step (Conf.init s) es).threads.map (·.req) := by
    rw [threads_req]
    rfl
  rw [hreqs, List.map_map]
  exact List.sum_le_sum hthread

/-- **At most so much is spent** in a run from the start: what there was, and what its requests may
mint. -/
theorem Ledger.spent_le (h : Ledger sys C E G I R live spend mint)
    (htraces : Traces sys C E G Q I R)
    (draws : ρ → Nat)
    (hdraws : ∀ {r l seen s s'}, G r l seen s s' → Lib.tally mint seen ≤ draws r →
      mint l s + Lib.tally mint seen ≤ draws r) {s : σ} (hs : I s) {es : List (Ev ρ ι)}
    (hok : Along sys.step (Allowed C E) (Conf.init s) es) :
    (Lib.run sys.step (Conf.init s) es).tally spend +
      live (Lib.run sys.step (Conf.init s) es).state ≤
      live s + ((spawned es).map draws).sum := by
  have hbalance := h.balance htraces (traced_init hs) hok
  have hminted := htraces.minted_le hdraws hs hok
  have hnone : (Conf.init s : Conf ρ ℓ σ ε α).tally spend = 0 := rfl
  have hstate : (Conf.init s : Conf ρ ℓ σ ε α).state = s := rfl
  rw [hnone, hstate] at hbalance
  omega

/-- What has been counted stays counted. -/
theorem tally_le_run (sys : System ρ ℓ σ ε α ι) (f : ℓ → σ → Nat) (c : Conf ρ ℓ σ ε α)
    (es : List (Ev ρ ι)) : c.tally f ≤ (Lib.run sys.step c es).tally f := by
  induction es generalizing c with
  | nil => exact le_rfl
  | cons e es ih =>
    refine le_trans ?_ (ih (sys.step c e))
    cases e with
    | spawn r => simp [System.step, Conf.tally]
    | env e => exact le_rfl
    | exec i =>
      rcases step_exec sys c i with hstep | ⟨t, l, upd, k, ht, -, hstep⟩
      · rw [hstep]
      · rw [hstep, Conf.tally_set ht]
        exact Nat.le_add_right _ _

/-- **Nothing more is spent** after a point where there is a unit, but a dead one, when there is at
most one to begin with or to be minted. -/
theorem Ledger.spent_no_more {present : σ → Nat} (h : Ledger sys C E G I R live spend mint)
    (hpresent : Ledger sys C E G I R present (fun _ _ => 0) mint) (htraces : Traces sys C E G Q I R)
    {draws : ρ → Nat}
    (hdraws : ∀ {r l seen s s'}, G r l seen s s' → Lib.tally mint seen ≤ draws r →
      mint l s + Lib.tally mint seen ≤ draws r) {s : σ} (hs : I s) {pre post : List (Ev ρ ι)}
    (hok : Along sys.step (Allowed C E) (Conf.init s) (pre ++ post))
    (hone : present s + ((spawned (pre ++ post)).map draws).sum ≤ 1)
    (hthere : 1 ≤ present (Lib.run sys.step (Conf.init s) pre).state)
    (hdead : live (Lib.run sys.step (Conf.init s) pre).state = 0) :
    (Lib.run sys.step (Conf.init s) (pre ++ post)).tally spend =
      (Lib.run sys.step (Conf.init s) pre).tally spend := by
  obtain ⟨hpre, hpost⟩ := along_append.mp hok
  have hminted := htraces.minted_le hdraws hs hok
  have hbefore := hpresent.balance htraces (traced_init hs) hpre
  have hafter := h.balance htraces (htraces.run (traced_init hs) hpre) hpost
  rw [Lib.run_append] at hminted ⊢
  have hmints := tally_le_run sys mint (Lib.run sys.step (Conf.init s) pre) post
  have hspends := tally_le_run sys spend (Lib.run sys.step (Conf.init s) pre) post
  have hzero : (Conf.init s : Conf ρ ℓ σ ε α).tally (fun _ _ => 0) = 0 := rfl
  have hstate : (Conf.init s : Conf ρ ℓ σ ε α).state = s := rfl
  rw [hzero, hstate] at hbefore
  -- the unit that is there was the only one, so all minting was before
  have hall : (Lib.run sys.step (Lib.run sys.step (Conf.init s) pre) post).tally mint ≤
      (Lib.run sys.step (Conf.init s) pre).tally mint := by omega
  omega

end System

end Keycast.Lib
