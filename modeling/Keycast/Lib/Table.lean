import Mathlib.Data.List.Nodup

/-!
# `Lib/Table.lean` — a database table as a list of rows

`UPDATE … SET … WHERE …` is `updateWhere`; `DELETE … WHERE …` is `List.filter`, `INSERT` is
append, `SELECT … LIMIT 1` is `List.find?` and `SELECT EXISTS` is `List.any`, all of which have
their lemmas already. What `updateWhere` needs is how it looks through each of the others.
-/

set_option autoImplicit false

namespace Keycast.Lib

variable {ρ : Type}

/-- `UPDATE … SET f WHERE p`. -/
def updateWhere (p : ρ → Bool) (f : ρ → ρ) (rows : List ρ) : List ρ :=
  rows.map (fun r => if p r then f r else r)

theorem mem_updateWhere {p : ρ → Bool} {f : ρ → ρ} {rows : List ρ} {r : ρ} :
    r ∈ updateWhere p f rows ↔ (∃ r₀ ∈ rows, p r₀ = true ∧ f r₀ = r) ∨
      (r ∈ rows ∧ p r = false) := by
  simp only [updateWhere, List.mem_map]
  constructor
  · rintro ⟨r₀, hr₀, rfl⟩
    cases hp : p r₀ with
    | true => exact .inl ⟨r₀, hr₀, hp, by simp⟩
    | false => exact .inr ⟨by simpa using hr₀, by simpa using hp⟩
  · rintro (⟨r₀, hr₀, hp, rfl⟩ | ⟨hr, hp⟩)
    · exact ⟨r₀, hr₀, by simp [hp]⟩
    · exact ⟨r, hr, by simp [hp]⟩

/-- An update that concerns no row. -/
theorem updateWhere_eq_self {p : ρ → Bool} {f : ρ → ρ} {rows : List ρ}
    (h : ∀ r ∈ rows, p r = false) :
    updateWhere p f rows = rows := by
  refine (List.map_congr_left fun r hr => ?_).trans (List.map_id rows)
  exact if_neg (by rw [h r hr]; exact nofun)

theorem updateWhere_eq_self_iff {p : ρ → Bool} {f : ρ → ρ} {rows : List ρ} :
    updateWhere p f rows = rows ↔ ∀ r ∈ rows, p r = true → f r = r := by
  induction rows with
  | nil => simp [updateWhere]
  | cons r rows ih =>
    rw [updateWhere] at ih ⊢
    simp only [List.map_cons, List.cons.injEq, ih, List.forall_mem_cons, ite_eq_right_iff]

/-- A column an update does not set keeps its values, row by row. -/
theorem map_updateWhere {β : Type} {p : ρ → Bool} {f : ρ → ρ} {g : ρ → β}
    (hg : ∀ r, g (f r) = g r) (rows : List ρ) :
    (updateWhere p f rows).map g = rows.map g := by
  simp only [updateWhere, List.map_map]
  refine List.map_congr_left fun r _ => ?_
  simp only [Function.comp]
  split
  · exact hg r
  · rfl

/-- An update of columns the query does not look at changes the row it finds, not which. -/
theorem find?_updateWhere {p q : ρ → Bool} {f : ρ → ρ} (hq : ∀ r, q (f r) = q r)
    (rows : List ρ) :
    (updateWhere p f rows).find? q = (rows.find? q).map (fun r => if p r then f r else r) := by
  induction rows with
  | nil => rfl
  | cons r rows ih =>
    have hqr : q (if p r then f r else r) = q r := by
      split
      · exact hq r
      · rfl
    simp only [updateWhere, List.map_cons, List.find?_cons, hqr] at ih ⊢
    cases q r with
    | true => rfl
    | false => exact ih

/-- A query that only one row can answer. -/
theorem find?_eq_some_of_unique {q : ρ → Bool} {rows : List ρ} {r : ρ} (hr : r ∈ rows)
    (hq : q r = true) (huniq : ∀ x ∈ rows, q x = true → x = r) : rows.find? q = some r := by
  cases hf : rows.find? q with
  | none => exact absurd hq (List.find?_eq_none.mp hf r hr)
  | some x => rw [huniq x (List.mem_of_find?_eq_some hf) (List.find?_some hf)]

/-- The rows of a query that only one can answer. -/
theorem filter_eq_singleton {q : ρ → Bool} {rows : List ρ} {r : ρ} (hnodup : rows.Nodup)
    (hr : r ∈ rows)
    (hq : q r = true) (honly : ∀ r' ∈ rows, q r' = true → r' = r) : rows.filter q = [r] := by
  refine List.perm_singleton.mp
    ((List.perm_ext_iff_of_nodup (hnodup.filter q) (List.nodup_singleton r)).mpr fun r' => ?_)
  rw [List.mem_filter, List.mem_singleton]
  constructor
  · exact fun h => honly r' h.1 h.2
  · rintro rfl
    exact ⟨hr, hq⟩

/-- The rows a query sees stay exactly if the delete spares them. -/
theorem filter_filter_eq {p q : ρ → Bool} {rows : List ρ} :
    (rows.filter q).filter p = rows.filter p ↔ ∀ r ∈ rows, p r = true → q r = true := by
  constructor
  · intro h r hr hp
    have hmem : r ∈ (rows.filter q).filter p := by
      rw [h]
      exact List.mem_filter.mpr ⟨hr, hp⟩
    exact (List.mem_filter.mp (List.mem_filter.mp hmem).1).2
  · intro h
    rw [List.filter_filter]
    refine List.filter_congr fun r hr => ?_
    cases hp : p r with
    | false => rfl
    | true => simp [h r hr hp]

/-! Counting rows. -/

theorem countP_updateWhere_le {p q : ρ → Bool} {f : ρ → ρ}
    (h : ∀ r, p r = true → q (f r) = true → q r = true)
    (rows : List ρ) : (updateWhere p f rows).countP q ≤ rows.countP q := by
  rw [updateWhere, List.countP_map]
  refine List.countP_mono_left fun r _ hr => ?_
  simp only [Function.comp] at hr
  split at hr
  · next hp => exact h r hp hr
  · exact hr

/-- Fewer rows pass a stronger test, and strictly fewer when one of them does not. -/
theorem countP_lt {q q' : ρ → Bool} (himp : ∀ r, q' r = true → q r = true) {rows : List ρ} {r : ρ}
    (hr : r ∈ rows) (hq : q r = true) (hq' : q' r = false) : rows.countP q' < rows.countP q := by
  induction rows with
  | nil => cases hr
  | cons x rows ih =>
    rw [List.countP_cons, List.countP_cons]
    have hle : rows.countP q' ≤ rows.countP q := List.countP_mono_left fun y _ hy => himp y hy
    rcases List.mem_cons.mp hr with rfl | hr
    · rw [hq, hq']
      simp only [Bool.false_eq_true, if_true, if_false]
      omega
    · have hlt := ih hr
      have hx := himp x
      cases hx' : q' x with
      | false => simp only [Bool.false_eq_true, if_false]; omega
      | true => simp only [hx hx', if_true]; omega

theorem countP_updateWhere_lt {p q : ρ → Bool} {f : ρ → ρ} (h : ∀ r, p r = true → q (f r) = false)
    {rows : List ρ} {r : ρ} (hr : r ∈ rows) (hp : p r = true) (hq : q r = true) :
    (updateWhere p f rows).countP q < rows.countP q := by
  rw [updateWhere, List.countP_map]
  refine countP_lt (fun r hr => ?_) hr hq ?_
  · simp only [Function.comp] at hr
    split at hr
    · next hp =>
      rw [h r hp] at hr
      cases hr
    · exact hr
  · simp only [Function.comp, hp, if_true]
    exact h r hp

/-- A value that no two rows share is in at most one of them. -/
theorem countP_le_one {β : Type} [DecidableEq β] {g : ρ → β} {rows : List ρ}
    (h : (rows.map g).Nodup)
    (b : β) : rows.countP (fun r => g r == b) ≤ 1 := by
  have hcount := List.nodup_iff_count_le_one.mp h b
  rwa [List.count_eq_countP, List.countP_map] at hcount

theorem countP_some_le_one {β : Type} [DecidableEq β] {g : ρ → Option β} {rows : List ρ}
    (h : (rows.filterMap g).Nodup) (b : β) : rows.countP (fun r => g r == some b) ≤ 1 := by
  have hcount := List.nodup_iff_count_le_one.mp h b
  rwa [List.count_filterMap] at hcount

/-! ## Foreign keys

A child row names its parent by key, or by `none` nobody. -/

section References

variable {α β κ : Type} {ref : α → Option κ} {key : β → κ} {rows rows' : List α} {parents : List β}

/-- `FOREIGN KEY (ref) REFERENCES parents (key)`. -/
def References (ref : α → Option κ) (key : β → κ) (rows : List α) (parents : List β) : Prop :=
  ∀ r ∈ rows, ∀ k ∈ ref r, ∃ p ∈ parents, key p = k

theorem References.subset (h : References ref key rows parents) (hsub : rows' ⊆ rows) :
    References ref key rows' parents :=
  fun r hr => h r (hsub hr)

/-- Nobody refers to a parent that is not there. -/
theorem References.absent (h : References ref key rows parents) {k : κ}
    (hk : ∀ p ∈ parents, key p ≠ k) :
    ∀ r ∈ rows, ref r ≠ some k := by
  intro r hr href
  obtain ⟨p, hp, heq⟩ := h r hr k href
  exact hk p hp heq

/-- **No action**: parents may go that no row refers to. -/
theorem References.restrict (h : References ref key rows parents) {q : β → Bool}
    (hq : ∀ r ∈ rows, ∀ p ∈ parents, ref r = some (key p) → q p = true) :
    References ref key rows (parents.filter q) := by
  intro r hr k hk
  obtain ⟨p, hp, rfl⟩ := h r hr k hk
  exact ⟨p, List.mem_filter.mpr ⟨hp, hq r hr p hp hk⟩, rfl⟩

/-- **Cascade**: the rows go with the parent they refer to. -/
theorem References.cascade (h : References ref key rows parents) {q : β → Bool} {q' : α → Bool}
    (hq : ∀ r ∈ rows, ∀ p ∈ parents, ref r = some (key p) → q' r = true → q p = true) :
    References ref key (rows.filter q') (parents.filter q) := by
  refine (h.subset (List.filter_subset_self _)).restrict fun r hr p hp href => ?_
  obtain ⟨hr, hkeep⟩ := List.mem_filter.mp hr
  exact hq r hr p hp href hkeep

end References

/-! ## The row with a key -/

section OnlyRow

variable {κ : Type} {key : ρ → κ} {k : κ} {P P' : ρ → Prop} {rows : List ρ}

/-- There is one row with this key, and `P` holds of it. -/
def OnlyRow (key : ρ → κ) (k : κ) (P : ρ → Prop) (rows : List ρ) : Prop :=
  ∃ r ∈ rows, key r = k ∧ P r ∧ ∀ r' ∈ rows, key r' = k → r' = r

/-- A new row that has the key of no other. -/
theorem OnlyRow.of_insert {x : ρ} (hnew : ∀ r ∈ rows, key r ≠ key x) (hx : P x) :
    OnlyRow key (key x) P (rows ++ [x]) := by
  refine ⟨x, List.mem_append_right _ (List.mem_singleton.mpr rfl), rfl, hx, fun r' hr' hk => ?_⟩
  rcases List.mem_append.mp hr' with hr' | hr'
  · exact absurd hk (hnew r' hr')
  · exact List.mem_singleton.mp hr'

/-- A row that is inserted elsewhere. -/
theorem OnlyRow.insert {x : ρ} (hnew : ∀ r ∈ rows, key r ≠ key x) (h : OnlyRow key k P rows) :
    OnlyRow key k P (rows ++ [x]) := by
  obtain ⟨r, hr, hk, hp, hone⟩ := h
  refine ⟨r, List.mem_append_left _ hr, hk, hp, fun r' hr' hk' => ?_⟩
  rcases List.mem_append.mp hr' with hr' | hr'
  · exact hone r' hr' hk'
  · rw [List.mem_singleton.mp hr'] at hk'
    exact absurd (hk.trans hk'.symm) (hnew r hr)

theorem OnlyRow.updateWhere {p : ρ → Bool} {f : ρ → ρ} (hkey : ∀ r, key (f r) = key r)
    (hyes : ∀ r ∈ rows, key r = k → P r → p r = true → P' (f r))
    (hno : ∀ r, key r = k → P r → p r = false → P' r)
    (h : OnlyRow key k P rows) : OnlyRow key k P' (updateWhere p f rows) := by
  obtain ⟨r, hr, hk, hp, hone⟩ := h
  have hsame : ∀ r' ∈ Lib.updateWhere p f rows, key r' = k → r' = if p r then f r else r := by
    intro r' hr' hk'
    rcases mem_updateWhere.mp hr' with ⟨r₀, hr₀, hp₀, rfl⟩ | ⟨hr', hp'⟩
    · rw [hkey] at hk'
      rw [hone r₀ hr₀ hk'] at hp₀ ⊢
      rw [if_pos hp₀]
    · rw [hone r' hr' hk'] at hp' ⊢
      rw [hp']
      rfl
  cases hpr : p r with
  | true =>
    refine ⟨f r, mem_updateWhere.mpr (.inl ⟨r, hr, hpr, rfl⟩), (hkey r).trans hk,
      hyes r hr hk hp hpr, ?_⟩
    simpa only [hpr, if_true] using hsame
  | false =>
    refine ⟨r, mem_updateWhere.mpr (.inr ⟨hr, hpr⟩), hk, hno r hk hp hpr, ?_⟩
    simpa only [hpr, Bool.false_eq_true, if_false] using hsame

theorem OnlyRow.filter {q : ρ → Bool} (hq : ∀ r ∈ rows, key r = k → P r → q r = true)
    (h : OnlyRow key k P rows) :
    OnlyRow key k P (rows.filter q) := by
  obtain ⟨r, hr, hk, hp, hone⟩ := h
  exact ⟨r, List.mem_filter.mpr ⟨hr, hq r hr hk hp⟩, hk, hp,
    fun r' hr' hk' => hone r' (List.mem_filter.mp hr').1 hk'⟩

end OnlyRow

end Keycast.Lib
