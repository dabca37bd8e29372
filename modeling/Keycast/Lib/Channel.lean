import Mathlib.Data.List.Infix
import Keycast.Lib.Run

/-!
# `Lib/Channel.lean` — a bounded channel

Any number of senders and receivers, and a bound on what waits between them. The bound is a field of
the channel, so nothing above it says so again. `Carries` is what a system does that passes messages
through a channel and by no other way, `Carries.run` that over any run nothing is lost, nothing
comes twice and nothing overtakes.
-/

set_option autoImplicit false

namespace Keycast.Lib

variable {σ ι β μ : Type}

/-! ## What a run puts out -/

/-- What the steps of a run put out, first to last. -/
def collect (step : σ → ι → σ) (out : σ → ι → List β) : σ → List ι → List β
  | _, [] => []
  | s, e :: es => out s e ++ collect step out (step s e) es

theorem collect_map {γ : Type} (f : β → γ) (step : σ → ι → σ) (out : σ → ι → List β) (s : σ)
    (es : List ι) :
    collect step (fun s e => (out s e).map f) s es = (collect step out s es).map f := by
  induction es generalizing s with
  | nil => rfl
  | cons e es ih =>
    simp only [collect]
    rw [ih, List.map_append]

/-- Whatever a run has put out, one of its steps has. -/
theorem mem_collect {step : σ → ι → σ} {out : σ → ι → List β} {s : σ} {es : List ι} {b : β} :
    b ∈ collect step out s es ↔ ∃ pre e post, es = pre ++ e :: post ∧
      b ∈ out (run step s pre) e := by
  induction es generalizing s with
  | nil => simp [collect]
  | cons e es ih =>
    simp only [collect, List.mem_append, ih]
    constructor
    · intro h
      rcases h with h | ⟨pre, e', post, rfl, h⟩
      · exact ⟨[], e, es, rfl, h⟩
      · exact ⟨e :: pre, e', post, rfl, h⟩
    · intro ⟨pre, e', post, heq, h⟩
      cases pre with
      | nil =>
        obtain ⟨rfl, -⟩ := List.cons.inj heq
        exact .inl h
      | cons p pre =>
        obtain ⟨rfl, rfl⟩ := List.cons.inj heq
        exact .inr ⟨pre, e', post, rfl, h⟩

/-- What is so of whatever an invariant's states put out is so of all that an allowed run puts
out. -/
theorem forall_mem_collect {step : σ → ι → σ} {out : σ → ι → List β} {C : σ → ι → Prop}
    {I : σ → Prop} {P : β → Prop}
    (hstep : ∀ s e, I s → C s e → I (step s e)) (hout : ∀ s e, I s → C s e → ∀ b ∈ out s e, P b)
    {s : σ} {es : List ι}
    (hs : I s) (hc : Along step C s es) : ∀ b ∈ collect step out s es, P b := by
  intro b hb
  obtain ⟨pre, e, post, rfl, hput⟩ := mem_collect.mp hb
  obtain ⟨hpre, hpost⟩ := along_append.mp hc
  exact hout _ e (run_invariant hstep hs hpre) hpost.1 b hput

/-! ## The channel -/

structure Channel (μ : Type) (capacity : Nat) where
  /-- What has been sent and not received, oldest first. -/
  queue : List μ
  /-- How many handles of each side have not been dropped. -/
  senders : Nat
  receivers : Nat
  fits : queue.length ≤ capacity

inductive TrySendError
  | full
  | disconnected
  deriving DecidableEq, Repr

inductive TryRecvError
  | empty
  | disconnected
  deriving DecidableEq, Repr

namespace Channel

variable {capacity : Nat} {c c' : Channel μ capacity} {m : μ}

def bounded (μ : Type) (capacity senders receivers : Nat) : Channel μ capacity :=
  ⟨[], senders, receivers, Nat.zero_le _⟩

def trySend (c : Channel μ capacity) (m : μ) : Except TrySendError (Channel μ capacity) :=
  if c.receivers = 0 then .error .disconnected
  else if h : c.queue.length < capacity then .ok { c with
    queue := c.queue ++ [m]
    fits := by rw [List.length_append]; exact h }
  else .error .full

/-- The channel without its oldest message. -/
def rest (c : Channel μ capacity) : Channel μ capacity :=
  { c with
    queue := c.queue.tail
    fits := by rw [List.length_tail]; exact (Nat.sub_le _ _).trans c.fits }

def tryRecv (c : Channel μ capacity) : Except TryRecvError (μ × Channel μ capacity) :=
  match c.queue.head? with
  | some m => .ok (m, c.rest)
  | none => .error (if c.senders = 0 then .disconnected else .empty)

theorem trySend_ok (h : c.trySend m = .ok c') :
    c'.queue = c.queue ++ [m] ∧ c'.senders = c.senders ∧ c'.receivers = c.receivers := by
  unfold trySend at h
  split at h
  · cases h
  · split at h
    · cases h
      exact ⟨rfl, rfl, rfl⟩
    · cases h

/-- A message is refused for want of room only if so many wait already. -/
theorem trySend_full : c.trySend m = .error .full ↔ c.receivers ≠ 0 ∧
    c.queue.length = capacity := by
  unfold trySend
  have hfits := c.fits
  by_cases hgone : c.receivers = 0
  · simp [hgone]
  · rw [if_neg hgone]
    by_cases hroom : c.queue.length < capacity
    · simp [hroom, Nat.ne_of_lt hroom]
    · rw [dif_neg hroom]
      exact ⟨fun _ => ⟨hgone, by omega⟩, fun _ => rfl⟩

theorem tryRecv_ok (h : c.tryRecv = .ok (m, c')) :
    c.queue = m :: c'.queue ∧ c'.senders = c.senders ∧ c'.receivers = c.receivers := by
  unfold tryRecv at h
  cases hq : c.queue with
  | nil =>
    rw [hq] at h
    cases h
  | cons m' queue =>
    rw [hq] at h
    cases h
    refine ⟨?_, rfl, rfl⟩
    show m :: queue = m :: c.queue.tail
    rw [hq]
    rfl

end Channel

/-! ## Systems that pass messages -/

/-- What waits, with what a step lets in, is what the step takes out, with what waits then. -/
def Carries (step : σ → ι → σ) (queue : σ → List μ) (accepts takes : σ → ι → List μ) : Prop :=
  ∀ s e, queue s ++ accepts s e = takes s e ++ queue (step s e)

variable {step : σ → ι → σ} {queue : σ → List μ} {accepts takes : σ → ι → List μ}

/-- **Nothing is lost, nothing comes twice, nothing overtakes.** -/
theorem Carries.run (h : Carries step queue accepts takes) (s : σ) (es : List ι) :
    queue s ++ collect step accepts s es = collect step takes s es ++ queue (run step s es) := by
  induction es generalizing s with
  | nil => simp [collect]
  | cons e es ih =>
    simp only [collect, run_cons]
    rw [← List.append_assoc, h s e, List.append_assoc, ih, List.append_assoc]

/-! ## Producers -/

/-- What a step puts out, with what it still holds, was held or drawn, in that order; some may be
thrown away. -/
def Thins (step : σ → ι → σ) (held : σ → List μ) (draws puts : σ → ι → List μ) : Prop :=
  ∀ s e, (puts s e ++ held (step s e)).Sublist (held s ++ draws s e)

theorem Thins.run {held : σ → List μ} {draws puts : σ → ι → List μ}
    (h : Thins step held draws puts) (s : σ)
    (es : List ι) : (collect step puts s es ++ held (run step s es)).Sublist
      (held s ++ collect step draws s es) := by
  induction es generalizing s with
  | nil => simp [collect]
  | cons e es ih =>
    simp only [collect, run_cons]
    calc puts s e ++ collect step puts (step s e) es ++ held (Lib.run step (step s e) es)
        = puts s e ++ (collect step puts (step s e) es ++ held (Lib.run step (step s e) es)) :=
          List.append_assoc ..
      List.Sublist _ (puts s e ++ (held (step s e) ++ collect step draws (step s e) es)) :=
        (ih _).append_left _
      _ = puts s e ++ held (step s e) ++ collect step draws (step s e) es :=
        (List.append_assoc ..).symm
      List.Sublist _ (held s ++ draws s e ++ collect step draws (step s e) es) :=
        (h s e).append_right _
      _ = held s ++ (draws s e ++ collect step draws (step s e) es) := List.append_assoc ..

end Keycast.Lib
