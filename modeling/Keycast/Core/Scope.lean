import Mathlib.Data.Set.Prod
import Mathlib.Order.Interval.Set.Defs
import Keycast.Core.Permission

/-!
# `Core/Scope.lean` — what a permission allows, as sets

The six permissions answer three questions, each by a test of its own. Taken as sets the answers
have a simple shape: a permission allows the events of some kinds *and* of some contents, the
plaintexts of some set *to* the recipients of some set, and the ciphertexts of some senders. So has
any number of permissions together, and one scope is within another, for every operation at once,
when its sets are, one by one (`Scope.has_mono_iff`).
-/

set_option autoImplicit false

namespace Keycast

/-- The sets a permission goes by. The key it acts for is the argument of the last two. -/
structure Scope where
  kinds : Set Nat
  contents : Set String
  plaintexts : Set String
  recipients : PublicKey → Set PublicKey
  senders : PublicKey → Set PublicKey

/-- The kind of an event is a `u16`. -/
def Operation.WellFormed : Operation → Prop
  | .sign event => event.kind < 65536
  | .encrypt .. => True
  | .decrypt .. => True

namespace Scope

/-- The operation is in the scope, for the holder of `self`. -/
def Has (s : Scope) (self : PublicKey) : Operation → Prop
  | .sign event => event.kind ∈ s.kinds ∧ event.content ∈ s.contents
  | .encrypt plaintext recipient => plaintext ∈ s.plaintexts ∧ recipient ∈ s.recipients self
  | .decrypt _ sender => sender ∈ s.senders self

def everything : Scope := ⟨Set.Iio 65536, Set.univ, Set.univ, fun _ => Set.univ, fun _ => Set.univ⟩

def nothing : Scope := ⟨∅, ∅, ∅, fun _ => ∅, fun _ => ∅⟩

/-- What all of them have. -/
def meet (ss : List Scope) : Scope where
  kinds := {k | k < 65536 ∧ ∀ s ∈ ss, k ∈ s.kinds}
  contents := {t | ∀ s ∈ ss, t ∈ s.contents}
  plaintexts := {t | ∀ s ∈ ss, t ∈ s.plaintexts}
  recipients := fun self => {r | ∀ s ∈ ss, r ∈ s.recipients self}
  senders := fun self => {r | ∀ s ∈ ss, r ∈ s.senders self}

/-- Set by set. Where one of two sets that belong together is empty, the other does not matter. -/
structure Within (a b : Scope) : Prop where
  sign : a.kinds ⊆ b.kinds ∧ a.contents ⊆ b.contents ∨ a.kinds = ∅ ∨ a.contents = ∅
  encrypt : ∀ self, a.plaintexts ⊆ b.plaintexts ∧ a.recipients self ⊆ b.recipients self ∨
    a.plaintexts = ∅ ∨ a.recipients self = ∅
  decrypt : ∀ self, a.senders self ⊆ b.senders self

theorem has_meet {ss : List Scope} {self : PublicKey} {op : Operation} (hop : op.WellFormed) :
    (meet ss).Has self op ↔ ∀ s ∈ ss, s.Has self op := by
  cases op with
  | sign event =>
    constructor
    · rintro ⟨⟨-, hkinds⟩, hcontents⟩ s hs
      exact ⟨hkinds s hs, hcontents s hs⟩
    · intro h
      exact ⟨⟨hop, fun s hs => (h s hs).1⟩, fun s hs => (h s hs).2⟩
  | encrypt plaintext recipient =>
    constructor
    · rintro ⟨hplain, hrec⟩ s hs
      exact ⟨hplain s hs, hrec s hs⟩
    · intro h
      exact ⟨fun s hs => (h s hs).1, fun s hs => (h s hs).2⟩
  | decrypt ciphertext sender => exact Iff.rfl

/-- **One scope is within another when its sets are.** -/
theorem has_mono_iff {a b : Scope} (hkinds : a.kinds ⊆ Set.Iio 65536) :
    (∀ self op, op.WellFormed → a.Has self op → b.Has self op) ↔ a.Within b := by
  constructor
  · intro h
    refine ⟨?_, fun self => ?_, fun self => ?_⟩
    · refine Set.prod_subset_prod_iff.mp ?_
      rintro ⟨kind, content⟩ ⟨hk, hc⟩
      exact h "" (.sign ⟨"", 0, kind, [], content⟩) (hkinds hk) ⟨hk, hc⟩
    · refine Set.prod_subset_prod_iff.mp ?_
      rintro ⟨plaintext, recipient⟩ ⟨hp, hr⟩
      exact h self (.encrypt plaintext recipient) trivial ⟨hp, hr⟩
    · intro sender hs
      exact h self (.decrypt "" sender) trivial hs
  · rintro ⟨hsign, hencrypt, hdecrypt⟩ self op - hop
    cases op with
    | sign event =>
      exact Set.prod_subset_prod_iff.mpr hsign (Set.mk_mem_prod hop.1 hop.2)
    | encrypt plaintext recipient =>
      exact Set.prod_subset_prod_iff.mpr (hencrypt self) (Set.mk_mem_prod hop.1 hop.2)
    | decrypt ciphertext sender => exact hdecrypt self hop

end Scope

/-! ## The scopes of the permissions -/

namespace CustomPermission

/-- The texts in which no blocked word occurs. -/
def unblocked (words : Option (List String)) : Set String := {t | blocks words t = false}

def scope (ext : External) : CustomPermission → Scope
  | allowedKinds none => .everything
  | allowedKinds (some kinds) => { Scope.everything with kinds := {k | k < 65536 ∧ k ∈ kinds} }
  | commerceEnvelope merchant =>
    { Scope.everything with
      kinds := {sealKind}
      plaintexts := {t | isEnvelopeForMerchant ext merchant t = true}
      recipients := fun self => {merchant, self} }
  | contentFilter words =>
    { Scope.everything with contents := unblocked words, plaintexts := unblocked words }
  | decryptOnly => { Scope.everything with kinds := {nip42AuthKind}, plaintexts := ∅ }
  | encryptToSelf =>
    { Scope.everything with recipients := fun self => {self}, senders := fun self => {self} }
  | fullAccess => .everything

/-- **What a permission allows is its scope.** -/
theorem allows_iff_has {ext : External} {c : CustomPermission} {self : PublicKey} {op : Operation}
    (hop : op.WellFormed) : c.allows ext self op = true ↔ (c.scope ext).Has self op := by
  cases op with
  | sign event =>
    have hkind : event.kind < 65536 := hop
    cases c with
    | allowedKinds kinds =>
      cases kinds with
      | none => simp [allows, canSign, scope, Scope.Has, Scope.everything, hkind]
      | some kinds => simp [allows, canSign, scope, Scope.Has, Scope.everything, hkind]
    | commerceEnvelope | decryptOnly => simp [allows, canSign, scope, Scope.Has, Scope.everything]
    | contentFilter words =>
      simp [allows, canSign, scope, Scope.Has, Scope.everything, unblocked, hkind]
    | encryptToSelf | fullAccess =>
      simp [allows, canSign, scope, Scope.Has, Scope.everything, hkind]
  | encrypt plaintext recipient =>
    cases c with
    | allowedKinds kinds =>
      cases kinds with
      | none | some => simp [allows, canEncrypt, scope, Scope.Has, Scope.everything]
    | commerceEnvelope merchant =>
      simp [allows, canEncrypt, scope, Scope.Has, Scope.everything, and_comm]
    | contentFilter words =>
      simp [allows, canEncrypt, scope, Scope.Has, Scope.everything, unblocked]
    | decryptOnly | fullAccess => simp [allows, canEncrypt, scope, Scope.Has, Scope.everything]
    | encryptToSelf =>
      simp only [allows, canEncrypt, scope, Scope.Has, Scope.everything, beq_iff_eq,
        Set.mem_univ, true_and,
        Set.mem_singleton_iff]
      exact eq_comm
  | decrypt ciphertext sender =>
    cases c with
    | allowedKinds kinds =>
      cases kinds with
      | none | some => simp [allows, canDecrypt, scope, Scope.Has, Scope.everything]
    | commerceEnvelope | contentFilter | decryptOnly | fullAccess | encryptToSelf =>
      simp [allows, canDecrypt, scope, Scope.Has, Scope.everything]

end CustomPermission

end Keycast
