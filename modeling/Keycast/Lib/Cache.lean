import Mathlib.Data.List.AList

/-!
# `Lib/Cache.lean` — a keyed cache

An in-memory cache with at most one value per key. Which entries are dropped, and when, is the
business of whoever drives it (`invalidate` for one key, `invalidateEntriesIf` for a predicate),
so a size bound or an idle timeout is just a source of such steps.

Mathlib's `AList` already carries "no key twice" as a field; what is added here is the predicate
form of removal, and a set of equations for `get` that is closed under all the operations. After
`simp` with them no lemma elsewhere looks at the list of entries.
-/

set_option autoImplicit false

namespace Keycast.Lib

structure Cache (κ ν : Type) where
  alist : AList (fun _ : κ => ν)

namespace Cache

variable {κ ν : Type}

def empty : Cache κ ν := ⟨∅⟩

/-- What an iterator over the cache yields. -/
def iter (c : Cache κ ν) : List (κ × ν) := c.alist.entries.map (fun e => (e.1, e.2))

variable [DecidableEq κ]

def get (c : Cache κ ν) (k : κ) : Option ν := c.alist.lookup k

def insert (c : Cache κ ν) (k : κ) (v : ν) : Cache κ ν := ⟨c.alist.insert k v⟩

def invalidate (c : Cache κ ν) (k : κ) : Cache κ ν := ⟨c.alist.erase k⟩

/-- Drop the entries that satisfy `p`. -/
def invalidateEntriesIf (c : Cache κ ν) (p : κ → ν → Bool) : Cache κ ν where
  alist :=
    { entries := c.alist.entries.filter (fun e => !p e.1 e.2)
      nodupKeys := List.NodupKeys.sublist List.filter_sublist c.alist.nodupKeys }

@[simp] theorem get_empty (k : κ) : (empty : Cache κ ν).get k = none := AList.lookup_empty k

@[simp] theorem get_insert_self (c : Cache κ ν) (k : κ) (v : ν) :
    (c.insert k v).get k = some v := AList.lookup_insert c.alist

theorem get_insert_of_ne (c : Cache κ ν) {k k' : κ} (v : ν) (h : k ≠ k') :
    (c.insert k' v).get k = c.get k := AList.lookup_insert_ne h

theorem get_insert (c : Cache κ ν) (k k' : κ) (v : ν) :
    (c.insert k' v).get k = if k = k' then some v else c.get k := by
  split
  · next h => subst h; exact get_insert_self c k v
  · next h => exact get_insert_of_ne c v h

theorem get_invalidate (c : Cache κ ν) (k k' : κ) :
    (c.invalidate k').get k = if k = k' then none else c.get k := by
  split
  · next h => subst h; exact AList.lookup_erase k c.alist
  · next h => exact AList.lookup_erase_ne h

theorem mem_get_iff {c : Cache κ ν} {k : κ} {v : ν} :
    c.get k = some v ↔ (k, v) ∈ c.iter := by
  rw [get, ← Option.mem_def, AList.mem_lookup_iff]
  constructor
  · exact fun h => List.mem_map.mpr ⟨⟨k, v⟩, h, rfl⟩
  · intro h
    obtain ⟨e, he, heq⟩ := List.mem_map.mp h
    cases heq
    exact he

/-- **Removal by predicate**, seen through `get`. -/
theorem get_invalidateEntriesIf (c : Cache κ ν) (p : κ → ν → Bool) (k : κ) :
    (c.invalidateEntriesIf p).get k = (c.get k).filter (fun v => !p k v) := by
  apply Option.ext
  intro v
  rw [Option.filter_eq_some_iff, mem_get_iff, mem_get_iff]
  simp only [iter, invalidateEntriesIf, List.mem_map, List.mem_filter]
  constructor
  · rintro ⟨e, ⟨he, hp⟩, heq⟩
    cases heq
    exact ⟨⟨e, he, rfl⟩, hp⟩
  · rintro ⟨⟨e, he, heq⟩, hp⟩
    cases heq
    exact ⟨e, ⟨he, hp⟩, rfl⟩

/-- A property of all cached entries. -/
def All (P : κ → ν → Prop) (c : Cache κ ν) : Prop := ∀ k v, c.get k = some v → P k v

theorem All.insert {P : κ → ν → Prop} {c : Cache κ ν} (h : All P c) {k : κ} {v : ν}
    (hv : P k v) : All P (c.insert k v) := by
  intro k' v' hget
  rw [get_insert] at hget
  split at hget
  · next he => subst he; cases hget; exact hv
  · exact h k' v' hget

theorem All.invalidate {P : κ → ν → Prop} {c : Cache κ ν} (h : All P c) (k : κ) :
    All P (c.invalidate k) := by
  intro k' v' hget
  rw [get_invalidate] at hget
  split at hget
  · exact absurd hget (by simp)
  · exact h k' v' hget

theorem All.invalidateEntriesIf {P : κ → ν → Prop} {c : Cache κ ν} (h : All P c)
    (p : κ → ν → Bool) : All P (c.invalidateEntriesIf p) := by
  intro k v hget
  rw [get_invalidateEntriesIf, Option.filter_eq_some_iff] at hget
  exact h k v hget.1

end Cache

end Keycast.Lib
