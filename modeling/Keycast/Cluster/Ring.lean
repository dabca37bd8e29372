import Mathlib.Data.Finset.Sort
import Mathlib.Data.String.Basic
import Keycast.Lib.Run

/-!
# `Cluster/Ring.lean` — who signs for which key

`ring.rs` of `cluster-hashring`. A ring keeps the ids of the instances and, cached, what the
`anchorhash` crate builds from them; an instance handles a key if the crate gives the key's hash to
its own id. The crate is a parameter: with `n` resources and a capacity it gives a hash one of the
buckets `0, …, n - 1`, and bucket `i` is the `i`-th resource.

Every instance keeps a ring of its own and gets to its membership along its own way. What matters is
that the cached part is a function of the membership.
-/

set_option autoImplicit false

namespace Keycast.Cluster

open Lib

/-- The bucket of a hash, for a capacity and a number of resources. -/
abbrev Bucket := UInt64 → UInt16 → Nat → Nat

/-- `AnchorHash`, as `Builder::with_resources(…).build(capacity)` makes it. -/
structure Anchor where
  resources : List String
  capacity : UInt16
  deriving DecidableEq, Repr

def Anchor.getResource (bucket : Bucket) (a : Anchor) (hash : UInt64) : Option String :=
  a.resources[bucket hash a.capacity a.resources.length]?

structure HashRing where
  anchor : Option Anchor
  myInstanceId : String
  currentInstances : Finset String
  deriving DecidableEq

/-- `hash_key`: FNV-1a over the bytes of the key. -/
def hashKey (key : String) : UInt64 :=
  (key.toList.flatMap String.utf8EncodeChar).foldl
    (fun hash byte => (hash ^^^ byte.toUInt64) * 0x100000001b3)
    0xcbf29ce484222325

/-- `len().max(16).min(u16::MAX as usize) as u16`. -/
def capacityFor (n : Nat) : UInt16 := UInt16.ofNat (min (max n 16) 65535)

namespace HashRing

def new (myInstanceId : String) : HashRing := ⟨none, myInstanceId, ∅⟩

def rebuildAnchor (r : HashRing) : HashRing :=
  if r.currentInstances = ∅ then { r with anchor := none }
  else
    let instanceIds := r.currentInstances.sort
    { r with anchor := some ⟨instanceIds, capacityFor instanceIds.length⟩ }

def rebuild (r : HashRing) (instanceIds : List String) : HashRing :=
  let newInstances := instanceIds.toFinset
  if newInstances = r.currentInstances then r
  else rebuildAnchor { r with currentInstances := newInstances }

def addInstance (r : HashRing) (instanceId : String) : HashRing :=
  if instanceId ∈ r.currentInstances then r
  else rebuildAnchor { r with currentInstances := insert instanceId r.currentInstances }

def removeInstance (r : HashRing) (instanceId : String) : HashRing :=
  if instanceId ∉ r.currentInstances then r
  else rebuildAnchor { r with currentInstances := r.currentInstances.erase instanceId }

def instanceCount (r : HashRing) : Nat := r.currentInstances.card

def shouldHandle (bucket : Bucket) (r : HashRing) (key : String) : Bool :=
  if r.currentInstances = ∅ then true
  else
    match r.anchor with
    | some anchor =>
      match anchor.getResource bucket (hashKey key) with
      | some owner => owner == r.myInstanceId
      | none => true
    | none => true

end HashRing

/-! ## Histories of a ring -/

inductive RingOp
  | rebuild (instanceIds : List String)
  | addInstance (instanceId : String)
  | removeInstance (instanceId : String)
  deriving DecidableEq, Repr

def RingOp.apply (r : HashRing) : RingOp → HashRing
  | .rebuild instanceIds => r.rebuild instanceIds
  | .addInstance instanceId => r.addInstance instanceId
  | .removeInstance instanceId => r.removeInstance instanceId

/-- What a call is meant to make of a membership. -/
def RingOp.members (instances : Finset String) : RingOp → Finset String
  | .rebuild instanceIds => instanceIds.toFinset
  | .addInstance instanceId => insert instanceId instances
  | .removeInstance instanceId => instances.erase instanceId

/-- What is cached for a membership. -/
def anchorOf (instances : Finset String) : Option Anchor :=
  if instances = ∅ then none else some ⟨instances.sort, capacityFor instances.card⟩

/-- The cached part is the one for the membership. -/
def HashRing.Synced (r : HashRing) : Prop := r.anchor = anchorOf r.currentInstances

section Synced

variable {r : HashRing}

theorem HashRing.rebuildAnchor_synced (r : HashRing) : r.rebuildAnchor.Synced := by
  unfold Synced rebuildAnchor anchorOf
  by_cases hempty : r.currentInstances = ∅
  · rw [if_pos hempty]
    exact (if_pos hempty).symm
  · rw [if_neg hempty]
    refine Eq.trans ?_ (if_neg hempty).symm
    simp only [Finset.length_sort]

@[simp] theorem HashRing.rebuildAnchor_currentInstances (r : HashRing) :
    r.rebuildAnchor.currentInstances = r.currentInstances := by
  unfold rebuildAnchor
  split <;> rfl

@[simp] theorem HashRing.rebuildAnchor_myInstanceId (r : HashRing) :
    r.rebuildAnchor.myInstanceId = r.myInstanceId := by
  unfold rebuildAnchor
  split <;> rfl

theorem HashRing.new_synced (myInstanceId : String) : (HashRing.new myInstanceId).Synced := rfl

/-- **Each operation** keeps the cache in step, also where it returns early. -/
theorem RingOp.apply_synced (h : r.Synced) (op : RingOp) : (op.apply r).Synced := by
  cases op with
  | rebuild instanceIds =>
    simp only [RingOp.apply, HashRing.rebuild]
    split
    · exact h
    · exact HashRing.rebuildAnchor_synced _
  | addInstance instanceId =>
    simp only [RingOp.apply, HashRing.addInstance]
    split
    · exact h
    · exact HashRing.rebuildAnchor_synced _
  | removeInstance instanceId =>
    simp only [RingOp.apply, HashRing.removeInstance]
    split
    · exact h
    · exact HashRing.rebuildAnchor_synced _

theorem HashRing.rebuild_currentInstances (r : HashRing) (instanceIds : List String) :
    (r.rebuild instanceIds).currentInstances = instanceIds.toFinset := by
  unfold rebuild
  dsimp only
  split
  · next heq => exact heq.symm
  · exact rebuildAnchor_currentInstances _

theorem HashRing.addInstance_currentInstances (r : HashRing) (instanceId : String) :
    (r.addInstance instanceId).currentInstances = insert instanceId r.currentInstances := by
  unfold addInstance
  split
  · next hmem => exact (Finset.insert_eq_of_mem hmem).symm
  · exact rebuildAnchor_currentInstances _

theorem HashRing.removeInstance_currentInstances (r : HashRing) (instanceId : String) :
    (r.removeInstance instanceId).currentInstances = r.currentInstances.erase instanceId := by
  unfold removeInstance
  split
  · next hmem => exact (Finset.erase_eq_of_notMem hmem).symm
  · exact rebuildAnchor_currentInstances _

theorem RingOp.apply_currentInstances (r : HashRing) (op : RingOp) :
    (op.apply r).currentInstances = op.members r.currentInstances := by
  cases op with
  | rebuild instanceIds => exact r.rebuild_currentInstances instanceIds
  | addInstance instanceId => exact r.addInstance_currentInstances instanceId
  | removeInstance instanceId => exact r.removeInstance_currentInstances instanceId

/-- The membership of a ring can be read off the calls. -/
theorem run_currentInstances (r : HashRing) (ops : List RingOp) :
    (run RingOp.apply r ops).currentInstances = run RingOp.members r.currentInstances ops := by
  induction ops generalizing r with
  | nil => rfl
  | cons op ops ih =>
    rw [run_cons, run_cons, ih, RingOp.apply_currentInstances]

theorem RingOp.apply_myInstanceId (r : HashRing) (op : RingOp) :
    (op.apply r).myInstanceId = r.myInstanceId := by
  cases op with
  | rebuild instanceIds =>
    simp only [RingOp.apply, HashRing.rebuild]
    split
    · rfl
    · exact HashRing.rebuildAnchor_myInstanceId _
  | addInstance instanceId =>
    simp only [RingOp.apply, HashRing.addInstance]
    split
    · rfl
    · exact HashRing.rebuildAnchor_myInstanceId _
  | removeInstance instanceId =>
    simp only [RingOp.apply, HashRing.removeInstance]
    split
    · rfl
    · exact HashRing.rebuildAnchor_myInstanceId _

/-- **Whatever the history**, a ring has the anchor of its membership, and its own id. -/
theorem run_synced (h : r.Synced) (ops : List RingOp) :
    (run RingOp.apply r ops).Synced ∧ (run RingOp.apply r ops).myInstanceId = r.myInstanceId := by
  induction ops generalizing r with
  | nil => exact ⟨h, rfl⟩
  | cons op ops ih =>
    obtain ⟨hsynced, hid⟩ := ih (RingOp.apply_synced h op)
    exact ⟨hsynced, hid.trans (RingOp.apply_myInstanceId r op)⟩

end Synced

/-! ## Owners -/

/-- The instance that a membership gives a key to. -/
def ownerOf (bucket : Bucket) (instances : Finset String) (key : String) : Option String :=
  instances.sort[bucket (hashKey key) (capacityFor instances.card) instances.card]?

/-- A bucket is one of the resources. -/
def InRange (bucket : Bucket) : Prop :=
  ∀ hash capacity n, 0 < n → n ≤ capacity.toNat → bucket hash capacity n < n

theorem capacityFor_toNat (n : Nat) : (capacityFor n).toNat = min (max n 16) 65535 := by
  refine UInt16.toNat_ofNat_of_lt' ?_
  show _ < 65536
  omega

theorem le_capacityFor {n : Nat} (h : n ≤ 65535) : n ≤ (capacityFor n).toNat := by
  rw [capacityFor_toNat]
  omega

section Owners

variable {bucket : Bucket} {r : HashRing} {key : String}

theorem HashRing.Synced.shouldHandle (h : r.Synced) (hne : r.currentInstances.Nonempty)
    {owner : String}
    (howner : ownerOf bucket r.currentInstances key = some owner) :
    r.shouldHandle bucket key = (owner == r.myInstanceId) := by
  have hempty : r.currentInstances ≠ ∅ := hne.ne_empty
  have hanchor : r.anchor = some ⟨r.currentInstances.sort, capacityFor r.currentInstances.card⟩ :=
    h.trans (if_neg hempty)
  unfold HashRing.shouldHandle
  rw [if_neg hempty, hanchor]
  unfold ownerOf at howner
  simp only [Anchor.getResource, Finset.length_sort, howner]

theorem ownerOf_mem (hbucket : InRange bucket) {instances : Finset String}
    (hne : instances.Nonempty)
    (hcard : instances.card ≤ 65535)
    (key : String) : ∃ owner ∈ instances, ownerOf bucket instances key = some owner := by
  have hlt : bucket (hashKey key) (capacityFor instances.card) instances.card <
    instances.sort.length := by
    rw [Finset.length_sort]
    exact hbucket _ _ _ hne.card_pos (le_capacityFor hcard)
  refine ⟨instances.sort[bucket (hashKey key) (capacityFor instances.card) instances.card], ?_, ?_⟩
  · exact (Finset.mem_sort _).mp (List.getElem_mem hlt)
  · exact List.getElem?_eq_getElem hlt

/-- Along any history to a membership, a ring handles a key exactly if its instance owns it. -/
theorem run_shouldHandle {instances : Finset String} (hne : instances.Nonempty) {owner i : String}
    (howner : ownerOf bucket instances key = some owner) {ops : List RingOp}
    (hops : (run RingOp.apply (.new i) ops).currentInstances = instances) :
    (run RingOp.apply (.new i) ops).shouldHandle bucket key = true ↔ i = owner := by
  obtain ⟨hsynced, hid⟩ := run_synced (HashRing.new_synced i) ops
  rw [hsynced.shouldHandle (by rwa [hops]) (by rwa [hops]), hid, beq_iff_eq]
  exact eq_comm

end Owners

/-- **Exactly one owner per key.** For a membership and a key there is one member such that, however
the ring of any member has come to this membership, that member handles the key exactly if it is the
one. -/
theorem exactly_one_owner {bucket : Bucket} (hbucket : InRange bucket) {instances : Finset String}
    (hne : instances.Nonempty) (hcard : instances.card ≤ 65535) (key : String) :
    ∃ owner ∈ instances, ∀ i ∈ instances, ∀ ops : List RingOp,
      (run RingOp.apply (.new i) ops).currentInstances = instances →
      ((run RingOp.apply (.new i) ops).shouldHandle bucket key = true ↔ i = owner) := by
  obtain ⟨owner, hmem, howner⟩ := ownerOf_mem hbucket hne hcard key
  exact ⟨owner, hmem, fun i _ ops hops => run_shouldHandle hne howner hops⟩

/-- Two instances: one rebuilds from the registry, the other hears of the first. -/
theorem exactly_one_owner_of_two :
    ∃ owner ∈ ({"a", "b"} : Finset String),
      ((run RingOp.apply (.new "a") [.rebuild ["b", "a", "a"]]).shouldHandle
        (fun hash _ n => hash.toNat % n) "k" = true ↔
        "a" = owner) ∧
      ((run RingOp.apply (.new "b") [.addInstance "b", .addInstance "c", .addInstance "a",
        .removeInstance "c"]).shouldHandle
        (fun hash _ n => hash.toNat % n) "k" = true ↔ "b" = owner) := by
  obtain ⟨owner, hmem, howner⟩ :=
    @exactly_one_owner (fun hash _ n => hash.toNat % n) (fun hash _ n hn _ => Nat.mod_lt _ hn)
    {"a", "b"} (by decide) (by decide) "k"
  exact ⟨owner, hmem, howner "a" (by decide) _ (by decide), howner "b" (by decide) _ (by decide)⟩

/-- The same, with the membership that the calls themselves say. -/
theorem one_owner_of_calls {bucket : Bucket} (hbucket : InRange bucket) {instances : Finset String}
    (hne : instances.Nonempty) (hcard : instances.card ≤ 65535) (key : String) :
    ∃ owner ∈ instances, ∀ i ∈ instances, ∀ ops : List RingOp,
      run RingOp.members ∅ ops = instances →
      ((run RingOp.apply (.new i) ops).shouldHandle bucket key = true ↔ i = owner) := by
  obtain ⟨owner, hmem, howner⟩ := ownerOf_mem hbucket hne hcard key
  refine ⟨owner, hmem, fun i _ ops hops => run_shouldHandle hne howner ?_⟩
  rw [run_currentInstances]
  exact hops

end Keycast.Cluster
