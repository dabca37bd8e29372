import Keycast.Cluster.Ring

/-!
# `Cluster/Disruption.lean` — which keys a change of the membership moves

The type promises that a change moves only the keys it must. `anchorhash` keeps that promise for its
buckets: one resource more, and a hash keeps its bucket or goes to the new one. But a ring is not
changed, it is built anew from the sorted ids: an id that does not sort last shifts the ids behind
it to other buckets, and from seventeen ids on every change is a change of the capacity, for which
the crate promises nothing.
-/

set_option autoImplicit false

namespace Keycast.Cluster

open Lib

/-- What is known of `anchorhash`. -/
structure AnchorLike (bucket : Bucket) : Prop where
  inRange : InRange bucket
  minimal : ∀ hash capacity n, 0 < n → n < capacity.toNat →
    bucket hash capacity (n + 1) = bucket hash capacity n ∨ bucket hash capacity (n + 1) = n
  onto : ∀ capacity n, n ≤ capacity.toNat → ∀ i < n, ∃ hash, bucket hash capacity n = i

/-- The owner of a key, if there is a ring. -/
def HashRing.owner (bucket : Bucket) (r : HashRing) (key : String) : Option String :=
  r.anchor.bind (·.getResource bucket (hashKey key))

theorem HashRing.Synced.owner {r : HashRing} (h : r.Synced) (bucket : Bucket) (key : String) :
    r.owner bucket key = ownerOf bucket r.currentInstances key := by
  unfold HashRing.owner ownerOf
  rw [show r.anchor = _ from h, anchorOf]
  split
  · next hempty =>
    rw [hempty, Finset.sort_empty]
    rfl
  · simp [Anchor.getResource]

/-- The ids that can come and go without moving other keys: next to at most one other, or the last
of at most sixteen. -/
def KeepsBuckets (others : Finset String) (x : String) : Prop :=
  others.card ≤ 1 ∨ others.card < 16 ∧ ∀ y ∈ others, y < x

instance (others : Finset String) (x : String) : Decidable (KeepsBuckets others x) :=
  inferInstanceAs (Decidable (_ ∨ _))

section Keeps

variable {bucket : Bucket} {others : Finset String} {x : String}

/-- The last id takes the last bucket. -/
theorem sort_insert_last (hlast : ∀ y ∈ others, y < x) :
    (insert x others).sort = others.sort ++ [x] := by
  have hnodup : (others.sort ++ [x]).Nodup := by
    refine List.nodup_append.mpr ⟨others.sort_nodup _, List.nodup_singleton x, fun y hy z hz => ?_⟩
    rw [List.mem_singleton.mp hz]
    exact ne_of_lt (hlast y ((Finset.mem_sort _).mp hy))
  have hset : (others.sort ++ [x]).toFinset = insert x others := by
    ext y
    simp
  rw [← hset]
  refine (List.toFinset_sort (· ≤ ·) hnodup).mpr
    (List.pairwise_append.mpr ⟨others.pairwise_sort _, by simp, ?_⟩)
  intro y hy z hz
  rw [List.mem_singleton.mp hz]
  exact le_of_lt (hlast y ((Finset.mem_sort _).mp hy))

theorem capacityFor_small {n : Nat} (h : n ≤ 16) : capacityFor n = 16 := by
  unfold capacityFor
  rw [max_eq_right h]
  rfl

/-- **The ids that move only their own keys.** -/
theorem KeepsBuckets.keeps (h : KeepsBuckets others x) (hx : x ∉ others)
    (hbucket : AnchorLike bucket) (key : String)
    (hother : ownerOf bucket (insert x others) key ≠ some x) :
    ownerOf bucket others key = ownerOf bucket (insert x others) key := by
  have hcard : (insert x others).card = others.card + 1 := Finset.card_insert_of_notMem hx
  rcases h with hfew | ⟨hsmall, hlast⟩
  · -- whoever of the two owns the key is the other one
    obtain ⟨owner, hmem, howner⟩ :=
      ownerOf_mem hbucket.inRange (Finset.insert_nonempty x others) (by omega) key
    rcases Finset.mem_insert.mp hmem with rfl | hmem
    · exact absurd howner hother
    obtain ⟨owner', hmem', howner'⟩ := ownerOf_mem hbucket.inRange ⟨owner, hmem⟩ (by omega) key
    rw [howner, howner', Finset.card_le_one.mp hfew owner' hmem' owner hmem]
  · cases Nat.eq_zero_or_pos others.card with
    | inl hzero =>
      -- the only id owns every key
      obtain rfl := Finset.card_eq_zero.mp hzero
      obtain ⟨owner, hmem, howner⟩ :=
        ownerOf_mem hbucket.inRange (Finset.insert_nonempty x ∅) (by omega) key
      rw [Finset.insert_empty, Finset.mem_singleton] at hmem
      rw [hmem] at howner
      exact absurd howner hother
    | inr hpos =>
      have hlen : others.sort.length = others.card := Finset.length_sort _
      unfold ownerOf at hother ⊢
      rw [sort_insert_last hlast, hcard, capacityFor_small (by omega)] at hother ⊢
      rw [capacityFor_small (by omega)]
      rcases hbucket.minimal (hashKey key) 16 others.card hpos hsmall with hsame | hnew
      · rw [hsame, List.getElem?_append_left]
        rw [hlen]
        exact hbucket.inRange _ _ _ hpos (Nat.le_of_lt hsmall)
      · refine absurd ?_ hother
        rw [hnew, ← hlen]
        exact List.getElem?_concat_length

end Keeps

/-! ## The ids that move other keys

For each of them there is a bucket function like `anchorhash`, under which a key moves between two
ids that stay. -/

/-- The number of a hash, with that of one hash exchanged for another. -/
def numbered (hash₀ : UInt64) (target : Nat) (hash : UInt64) : Nat :=
  Equiv.swap hash₀.toNat target hash.toNat

/-- Resource `i` comes with bucket `i` and takes the hash with number `i`; the rest is in bucket 0.
One hash has the number we want, for each capacity another. With more resources than the capacity
nothing is known. -/
def placing (hash₀ : UInt64) (target : UInt16 → Nat) (beyond : Nat → Nat) : Bucket :=
  fun hash capacity n =>
  if n ≤ capacity.toNat then
    if numbered hash₀ (target capacity) hash < n then numbered hash₀ (target capacity) hash else 0
  else beyond n

section Placing

variable {hash₀ : UInt64} {target : UInt16 → Nat} {beyond : Nat → Nat}

theorem numbered_self (target : Nat) : numbered hash₀ target hash₀ = target :=
  Equiv.swap_apply_left _ _

theorem exists_numbered (hash₀ : UInt64) {target i : Nat} (htarget : target < 2 ^ 64)
    (hi : i < 2 ^ 64) :
    ∃ hash, numbered hash₀ target hash = i := by
  have hlt : Equiv.swap hash₀.toNat target i < 2 ^ 64 := by
    rw [Equiv.swap_apply_def]
    split
    · exact htarget
    split
    · exact hash₀.toNat_lt
    · exact hi
  refine ⟨UInt64.ofNat (Equiv.swap hash₀.toNat target i), ?_⟩
  unfold numbered
  rw [UInt64.toNat_ofNat_of_lt' hlt, Equiv.swap_apply_self]

theorem placing_anchorLike (htarget : ∀ capacity, target capacity < 2 ^ 64) :
    AnchorLike (placing hash₀ target beyond) where
  inRange := by
    intro hash capacity n hpos hle
    unfold placing
    rw [if_pos hle]
    split
    · assumption
    · exact hpos
  minimal := by
    intro hash capacity n hpos hlt
    unfold placing
    rw [if_pos (Nat.succ_le_of_lt hlt), if_pos (Nat.le_of_lt hlt)]
    generalize numbered hash₀ (target capacity) hash = number
    rcases Nat.lt_trichotomy number n with hless | rfl | hmore
    · rw [if_pos hless, if_pos (Nat.lt_succ_of_lt hless)]
      exact .inl rfl
    · rw [if_pos (Nat.lt_succ_self number)]
      exact .inr rfl
    · rw [if_neg (Nat.not_lt.mpr hmore), if_neg (Nat.lt_asymm hmore)]
      exact .inl rfl
  onto := by
    intro capacity n hle i hi
    have hcapacity : capacity.toNat < 2 ^ 16 := capacity.toNat_lt
    obtain ⟨hash, hhash⟩ := exists_numbered hash₀ (htarget capacity) (i := i) (by omega)
    refine ⟨hash, ?_⟩
    unfold placing
    rw [if_pos hle, hhash, if_pos hi]

/-- The bucket of the one hash. -/
theorem placing_self (n : Nat) (capacity : UInt16) (hle : n ≤ capacity.toNat)
    (hlt : target capacity < n) :
    placing hash₀ target beyond hash₀ capacity n = target capacity := by
  unfold placing
  rw [if_pos hle, numbered_self, if_pos hlt]

end Placing

section Moves

variable {others : Finset String} {x : String}

/-- A key moves between two ids that stay. -/
def MovesOther (bucket : Bucket) (others : Finset String) (x : String) (key : String) : Prop :=
  ownerOf bucket (insert x others) key ≠ some x ∧
    ownerOf bucket others key ≠ ownerOf bucket (insert x others) key

/-- An id in front of another one shifts the last. -/
theorem moves_of_shift (hx : x ∉ others) (hmany : 1 < others.card) (hsmall : others.card < 16)
    (hfront : ∃ y ∈ others, x < y) : ∃ bucket, AnchorLike bucket ∧
      MovesOther bucket others x "" := by
  have hcard : (insert x others).card = others.card + 1 := Finset.card_insert_of_notMem hx
  refine ⟨placing (hashKey "") (fun _ => others.card) id, placing_anchorLike fun _ => by omega, ?_⟩
  -- the key has the last bucket, and the first one while there is no such
  have hlast : ownerOf (placing (hashKey "") (fun _ => others.card) id) (insert x others) "" =
      some ((insert x others).max' (Finset.insert_nonempty x others)) := by
    unfold ownerOf
    rw [hcard, capacityFor_small (by omega),
      placing_self _ _ (Nat.succ_le_of_lt hsmall) (Nat.lt_succ_self _),
      Finset.max'_eq_sorted_last]
    simp [hcard]
  have hfirst : ownerOf (placing (hashKey "") (fun _ => others.card) id) others "" =
      some (others.min' (Finset.card_pos.mp (by omega))) := by
    unfold ownerOf placing
    rw [capacityFor_small (by omega),
      if_pos (show others.card ≤ (16 : UInt16).toNat from Nat.le_of_lt hsmall),
      numbered_self, if_neg (Nat.lt_irrefl _), Finset.min'_eq_sorted_zero]
    simp
  obtain ⟨y, hy, hlt⟩ := hfront
  refine ⟨?_, ?_⟩
  · rw [hlast]
    intro heq
    have hle := Finset.le_max' (insert x others) y (Finset.mem_insert_of_mem hy)
    rw [Option.some.inj heq] at hle
    exact absurd hlt (not_lt.mpr hle)
  · rw [hlast, hfirst]
    intro heq
    obtain ⟨a, ha, b, hb, hne⟩ := Finset.one_lt_card.mp hmany
    have heq := Option.some.inj heq
    have hall : ∀ z ∈ others, z = others.min' ⟨a, ha⟩ := fun z hz => by
      refine le_antisymm ?_ (Finset.min'_le _ z hz)
      rw [heq]
      exact Finset.le_max' _ z (Finset.mem_insert_of_mem hz)
    exact hne ((hall a ha).trans (hall b hb).symm)

/-- With another capacity any key can go anywhere. -/
theorem moves_of_capacity (hx : x ∉ others) (hlarge : 16 ≤ others.card) :
    ∃ bucket, AnchorLike bucket ∧ MovesOther bucket others x "" := by
  have hcard : (insert x others).card = others.card + 1 := Finset.card_insert_of_notMem hx
  obtain ⟨a, ha, b, hb, hne⟩ := Finset.one_lt_card.mp (show 1 < others.card by omega)
  have hstays : a ∈ insert x others := Finset.mem_insert_of_mem ha
  obtain ⟨i, hi⟩ := List.mem_iff_getElem?.mp ((Finset.mem_sort (· ≤ ·)).mpr hstays)
  obtain ⟨j, hj⟩ := List.mem_iff_getElem?.mp ((Finset.mem_sort (· ≤ ·)).mpr hb)
  have hilt : i < others.card + 1 := by
    have hlt := (List.getElem?_eq_some_iff.mp hi).1
    rwa [Finset.length_sort, hcard] at hlt
  have hjlt : j < others.card := by
    have hlt := (List.getElem?_eq_some_iff.mp hj).1
    rwa [Finset.length_sort] at hlt
  -- the bucket of the key is that of `a` with the new id, and that of `b` without it
  let target (capacity : UInt16) : Nat :=
    min (if capacity.toNat = others.card + 1 then i else j) 65535
  let beyond (n : Nat) : Nat := if n = others.card + 1 then i else j
  have hwith : placing (hashKey "") target beyond (hashKey "") (capacityFor (others.card + 1))
    (others.card + 1) = i := by
    have hcapacity := capacityFor_toNat (others.card + 1)
    by_cases hfits : others.card + 1 ≤ 65535
    · have htarget : target (capacityFor (others.card + 1)) = i := by
        simp only [target]
        rw [if_pos (by omega)]
        omega
      rw [placing_self _ _ (by omega) (by omega), htarget]
    · unfold placing
      rw [if_neg (by omega)]
      exact if_pos rfl
  have hwithout :
    placing (hashKey "") target beyond (hashKey "") (capacityFor others.card) others.card = j := by
    have hcapacity := capacityFor_toNat others.card
    by_cases hfits : others.card ≤ 65535
    · have htarget : target (capacityFor others.card) = j := by
        simp only [target]
        rw [if_neg (by omega)]
        omega
      rw [placing_self _ _ (by omega) (by omega), htarget]
    · unfold placing
      rw [if_neg (by omega)]
      exact if_neg (by omega)
  refine ⟨placing (hashKey "") target beyond, placing_anchorLike fun capacity => ?_, ?_⟩
  · simp only [target]
    omega
  have howner : ownerOf (placing (hashKey "") target beyond) (insert x others) "" = some a := by
    unfold ownerOf
    rw [hcard, hwith]
    exact hi
  have howner' : ownerOf (placing (hashKey "") target beyond) others "" = some b := by
    unfold ownerOf
    rw [hwithout]
    exact hj
  refine ⟨?_, ?_⟩
  · rw [howner]
    intro heq
    rw [Option.some.inj heq] at ha
    exact hx ha
  · rw [howner, howner']
    exact fun heq => hne (Option.some.inj heq).symm

/-- **All others move other keys**, for some function like `anchorhash`. -/
theorem moves_of_not_keeps (hx : x ∉ others) (h : ¬ KeepsBuckets others x) :
    ∃ bucket, AnchorLike bucket ∧ MovesOther bucket others x "" := by
  unfold KeepsBuckets at h
  rw [not_or] at h
  obtain ⟨hmany, hlast⟩ := h
  by_cases hlarge : 16 ≤ others.card
  · exact moves_of_capacity hx hlarge
  · refine moves_of_shift hx (by omega) (by omega) ?_
    by_contra hnone
    refine hlast ⟨by omega, fun y hy => ?_⟩
    rcases lt_trichotomy y x with hlt | rfl | hlt
    · exact hlt
    · exact absurd hy hx
    · exact absurd ⟨y, hy, hlt⟩ hnone

end Moves

/-! ## Rings -/

/-- Taking the id out moves only its own keys. -/
def RemovalMinimal (bucket : Bucket) (instances : Finset String) (x : String) : Prop :=
  ∀ r : HashRing, r.Synced → r.currentInstances = instances → ∀ key,
    (r.removeInstance x).owner bucket key ≠ r.owner bucket key → r.owner bucket key = some x

/-- Putting the id in moves only the keys it gets. -/
def AdditionMinimal (bucket : Bucket) (instances : Finset String) (x : String) : Prop :=
  ∀ r : HashRing, r.Synced → r.currentInstances = instances → ∀ key,
    (r.addInstance x).owner bucket key ≠ r.owner bucket key →
      (r.addInstance x).owner bucket key = some x

section Rings

variable {bucket : Bucket} {instances : Finset String} {x : String}

theorem removeInstance_owner {r : HashRing} (h : r.Synced) (key : String) :
    (r.removeInstance x).owner bucket key = ownerOf bucket (r.currentInstances.erase x) key := by
  refine (HashRing.Synced.owner (RingOp.apply_synced h (.removeInstance x)) bucket key).trans ?_
  exact congrArg (ownerOf bucket · key) (HashRing.removeInstance_currentInstances r x)

theorem addInstance_owner {r : HashRing} (h : r.Synced) (key : String) :
    (r.addInstance x).owner bucket key = ownerOf bucket (insert x r.currentInstances) key := by
  refine (HashRing.Synced.owner (RingOp.apply_synced h (.addInstance x)) bucket key).trans ?_
  exact congrArg (ownerOf bucket · key) (HashRing.addInstance_currentInstances r x)

/-- A ring with a given membership. -/
def ringOf (instances : Finset String) : HashRing := ⟨anchorOf instances, "", instances⟩

theorem removal_minimal_iff :
    (∀ bucket, AnchorLike bucket → RemovalMinimal bucket instances x) ↔ x ∉ instances ∨
      KeepsBuckets (instances.erase x) x := by
  constructor
  · intro h
    by_contra hno
    rw [not_or, not_not] at hno
    obtain ⟨hmem, hkeeps⟩ := hno
    obtain ⟨bucket, hbucket, hother, hmoves⟩ :=
      moves_of_not_keeps (Finset.notMem_erase x instances) hkeeps
    rw [Finset.insert_erase hmem] at hother hmoves
    have howner : (ringOf instances).owner bucket "" = ownerOf bucket instances "" :=
      HashRing.Synced.owner (r := ringOf instances) rfl bucket ""
    refine hother (howner.symm.trans (h bucket hbucket (ringOf instances) rfl rfl "" ?_))
    rw [removeInstance_owner (r := ringOf instances) rfl, howner]
    exact hmoves
  · intro h bucket hbucket r hsynced hinstances key hchanged
    rw [removeInstance_owner hsynced, hsynced.owner, hinstances] at hchanged
    rw [hsynced.owner, hinstances]
    rcases h with hmem | hkeeps
    · rw [Finset.erase_eq_of_notMem hmem] at hchanged
      exact absurd rfl hchanged
    by_cases hmem : x ∈ instances
    · by_contra hother
      refine hchanged ?_
      have hsame :=
        hkeeps.keeps (Finset.notMem_erase x instances) hbucket key
          (by rwa [Finset.insert_erase hmem])
      rwa [Finset.insert_erase hmem] at hsame
    · rw [Finset.erase_eq_of_notMem hmem] at hchanged
      exact absurd rfl hchanged

theorem addition_minimal_iff :
    (∀ bucket, AnchorLike bucket → AdditionMinimal bucket instances x) ↔ x ∈ instances ∨
      KeepsBuckets instances x := by
  constructor
  · intro h
    by_contra hno
    rw [not_or] at hno
    obtain ⟨hmem, hkeeps⟩ := hno
    obtain ⟨bucket, hbucket, hother, hmoves⟩ := moves_of_not_keeps hmem hkeeps
    have hadded : ((ringOf instances).addInstance x).owner bucket "" =
      ownerOf bucket (insert x instances) "" :=
      addInstance_owner (r := ringOf instances) rfl ""
    have howner : (ringOf instances).owner bucket "" = ownerOf bucket instances "" :=
      HashRing.Synced.owner (r := ringOf instances) rfl bucket ""
    refine hother (hadded.symm.trans (h bucket hbucket (ringOf instances) rfl rfl "" ?_))
    rw [hadded, howner]
    exact hmoves.symm
  · intro h bucket hbucket r hsynced hinstances key hchanged
    rw [addInstance_owner hsynced, hsynced.owner, hinstances] at hchanged
    rw [addInstance_owner hsynced, hinstances]
    by_cases hmem : x ∈ instances
    · rw [Finset.insert_eq_of_mem hmem] at hchanged
      exact absurd rfl hchanged
    · by_contra hother
      exact hchanged ((h.resolve_left hmem).keeps hmem hbucket key hother).symm

end Rings

/-- **When a change moves only the keys it must**, for every function like `anchorhash`: the id is
there already, or not there, or there is at most one other id, or it is the last in order of at most
sixteen. -/
theorem minimal_disruption_iff (instances : Finset String) (x : String) :
    ((∀ bucket, AnchorLike bucket → RemovalMinimal bucket instances x) ↔
      x ∉ instances ∨ KeepsBuckets (instances.erase x) x) ∧
    ((∀ bucket, AnchorLike bucket → AdditionMinimal bucket instances x) ↔ x ∈ instances ∨
      KeepsBuckets instances x) :=
  ⟨removal_minimal_iff, addition_minimal_iff⟩

/-- The lookup, with the ids given in order. -/
theorem ownerOf_toFinset {bucket : Bucket} (ids : List String) (hsorted : ids.Pairwise (· < ·))
    (key : String) :
    ownerOf bucket ids.toFinset key =
      ids[bucket (hashKey key) (capacityFor ids.length) ids.length]? := by
  have hnodup : ids.Nodup := hsorted.imp fun h => ne_of_lt h
  unfold ownerOf
  rw [(List.toFinset_sort (· ≤ ·) hnodup).mpr (hsorted.imp fun h => le_of_lt h),
    List.toFinset_card_of_nodup hnodup]

/-- **It happens.** With `a`, `b` and `c` in the ring and `a` taken out, a key moves from `c` to
`b`. -/
theorem removal_moves_other_key :
    ∃ bucket, AnchorLike bucket ∧
      (ringOf {"a", "b", "c"}).owner bucket "" = some "c" ∧
      ((ringOf {"a", "b", "c"}).removeInstance "a").owner bucket "" = some "b" := by
  refine ⟨placing (hashKey "") (fun _ => 2) id, placing_anchorLike fun _ => by decide, ?_, ?_⟩
  · refine (HashRing.Synced.owner (r := ringOf _) rfl _ _).trans ?_
    refine (ownerOf_toFinset ["a", "b", "c"] (by decide) "").trans ?_
    decide
  · refine (removeInstance_owner (r := ringOf _) rfl "").trans ?_
    refine (ownerOf_toFinset ["b", "c"] (by decide) "").trans ?_
    decide

end Keycast.Cluster
