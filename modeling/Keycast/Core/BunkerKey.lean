import Mathlib.Data.List.TakeWhile
import Keycast.Core.External

/-!
# `Core/BunkerKey.lean` — whose bunker key it is

A bunker key is derived from the key of its user and the hash of a connection secret, and the daemon
finds an authorization by its bunker key alone. So the key must name one user and one hash.
`derive_bunker_keys` tries again under another name, `…-retry1` and so on, when HKDF gives no
scalar; a hash that ended in such a name would be taken for another. Hashes from bcrypt do not:
their alphabet has no hyphen.
-/

set_option autoImplicit false

namespace Keycast

/-- A text in the alphabet of bcrypt, as far as it matters: without the character that begins a
retry. -/
def BcryptText (hash : String) : Prop := '-' ∉ hash.toList

instance : DecidablePred BcryptText := fun hash => inferInstanceAs (Decidable ('-' ∉ hash.toList))

namespace External

variable {ext : External}

/-- What HKDF is given in the try of a given number. -/
def derivedInfo (info : String) (counter : Nat) : String :=
  if counter = 0 then info else info ++ "-retry" ++ toString counter

/-- What must hold of the libraries: HKDF and the curve after it are free of collisions. -/
def CollisionFree (ext : External) : Prop :=
  ∀ sk info sk' info' keys keys', ext.secretKeyFromSlice (ext.hkdfExpand sk info) = .ok keys →
    ext.secretKeyFromSlice (ext.hkdfExpand sk' info') = .ok keys' →
    ext.publicKey keys = ext.publicKey keys' →
      sk = sk' ∧ info = info'

/-- A derived key comes from one of the tries. -/
theorem exists_try {sk keys : SecretKey} {info : String} {fuel counter : Nat}
    (h : ext.deriveBunkerKeysFrom sk info fuel counter = some keys) :
    ∃ n, ext.secretKeyFromSlice (ext.hkdfExpand sk (derivedInfo info n)) = .ok keys := by
  induction fuel generalizing counter with
  | zero => cases h
  | succ fuel ih =>
    unfold deriveBunkerKeysFrom at h
    dsimp only at h
    split at h
    · next secret hsecret =>
      cases h
      exact ⟨counter, hsecret⟩
    · exact ih h

/-- The part of a name before the retry. -/
theorem takeWhile_derivedInfo {hash : String} (hhash : BcryptText hash) (n : Nat) :
    ((derivedInfo hash n).toList).takeWhile (· ≠ '-') = hash.toList := by
  have hall : ∀ c ∈ hash.toList, decide (c ≠ '-') = true := by
    intro c hc
    rw [decide_eq_true_iff]
    intro heq
    rw [heq] at hc
    exact hhash hc
  unfold derivedInfo
  split
  · exact List.takeWhile_eq_self_iff.mpr hall
  · rw [String.toList_append, String.toList_append, List.append_assoc,
      List.takeWhile_append_of_pos hall]
    show hash.toList ++ [] = hash.toList
    rw [List.append_nil]

theorem derivedInfo_append (pre hash : String) (n : Nat) :
    derivedInfo (pre ++ hash) n = pre ++ derivedInfo hash n := by
  unfold derivedInfo
  split
  · rfl
  · rw [String.append_assoc, String.append_assoc, String.append_assoc]

theorem hash_of_derivedInfo {pre hash hash' : String} {n n' : Nat} (hhash : BcryptText hash)
    (hhash' : BcryptText hash') (h : derivedInfo (pre ++ hash) n = derivedInfo (pre ++ hash') n') :
    hash = hash' := by
  rw [derivedInfo_append, derivedInfo_append] at h
  have hlist := congrArg String.toList h
  rw [String.toList_append, String.toList_append] at hlist
  have htails := List.append_cancel_left hlist
  have hfront := congrArg (List.takeWhile (· ≠ '-')) htails
  rw [takeWhile_derivedInfo hhash, takeWhile_derivedInfo hhash'] at hfront
  exact String.toList_injective hfront

/-- **A bunker key belongs to one user key and one hash**, however many tries its derivation
took. -/
theorem bunker_key_identifies (hext : ext.CollisionFree) {sk sk' keys keys' : SecretKey}
    {hash hash' : String}
    (hhash : BcryptText hash) (hhash' : BcryptText hash')
    (h : ext.deriveBunkerKeys sk hash = some keys)
    (h' : ext.deriveBunkerKeys sk' hash' = some keys')
    (hsame : ext.publicKey keys = ext.publicKey keys') :
    sk = sk' ∧ hash = hash' := by
  obtain ⟨n, hn⟩ := exists_try h
  obtain ⟨n', hn'⟩ := exists_try h'
  obtain ⟨hsk, hinfo⟩ := hext _ _ _ _ _ _ hn hn' hsame
  exact ⟨hsk, hash_of_derivedInfo hhash hhash' hinfo⟩

/-! One user; the first bytes that are derived for one of two hashes are no scalar. -/

def retrying : External :=
  { External.symbolic [] [] with
    publicKey := id
    hkdfExpand := fun sk info => if sk = "user" then info else ""
    secretKeyFromSlice := fun b =>
      if b = "" then .error "no scalar"
      else if b = "keycast-bunker-nip46-v1-$2b$10$first" then .error "no scalar" else .ok b }

theorem retrying_ok {sk info keys : String}
    (h : retrying.secretKeyFromSlice (retrying.hkdfExpand sk info) = .ok keys) : sk = "user" ∧
      info = keys := by
  by_cases hsk : sk = "user"
  · simp only [retrying, hsk, if_true] at h
    split at h
    · cases h
    · split at h
      · cases h
      · exact ⟨hsk, Except.ok.inj h⟩
  · simp only [retrying, if_neg hsk, if_true] at h
    cases h

theorem retrying_collisionFree : retrying.CollisionFree := by
  intro sk info sk' info' keys keys' h h' hsame
  obtain ⟨rfl, rfl⟩ := retrying_ok h
  obtain ⟨rfl, rfl⟩ := retrying_ok h'
  exact ⟨rfl, hsame⟩

example :
    retrying.deriveBunkerKeys "user" "$2b$10$first" =
      some "keycast-bunker-nip46-v1-$2b$10$first-retry1" := by
  decide

end External

end Keycast
