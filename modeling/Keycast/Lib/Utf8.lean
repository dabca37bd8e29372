import Mathlib.Data.List.Infix

/-!
# `Lib/Utf8.lean` — slices of a string by bytes

`&text[lo..hi]` counts bytes, and there is no such slice when a bound is past the end, the bounds
are out of order, or one of them is inside a character. A slice is therefore an option here, and
`slice_isSome` is the rule that says when there is one. What a place between characters is comes
from the standard library.
-/

set_option autoImplicit false

namespace Keycast.Lib

/-- `str::is_char_boundary`: between two characters, or at an end. -/
abbrev CharBoundary (text : String) (n : Nat) : Prop := String.Pos.Raw.IsValid text ⟨n⟩

theorem charBoundary_iff {text : String} {n : Nat} :
    CharBoundary text n ↔ ∃ pre post, text = pre ++ post ∧ pre.utf8ByteSize = n := by
  rw [CharBoundary, String.Pos.Raw.isValid_iff_exists_append]
  refine exists_congr fun pre => exists_congr fun post => and_congr_right fun _ => ?_
  rw [String.Pos.Raw.ext_iff]
  exact eq_comm

/-- `&text[..n]`. -/
def sliceTo (text : String) (n : Nat) : Option String :=
  (text.toList.inits.map String.ofList).find? (·.utf8ByteSize == n)

/-- `&text[n..]`. -/
def sliceFrom (text : String) (n : Nat) : Option String :=
  (text.toList.tails.map String.ofList).find? (·.utf8ByteSize + n == text.utf8ByteSize)

/-- `&text[lo..hi]`. -/
def slice (text : String) (lo hi : Nat) : Option String := (sliceTo text hi).bind (sliceFrom · lo)

theorem mem_inits_ofList {text pre : String} :
    pre ∈ text.toList.inits.map String.ofList ↔ ∃ post, text = pre ++ post := by
  rw [List.mem_map]
  constructor
  · rintro ⟨cs, hcs, rfl⟩
    obtain ⟨ds, hds⟩ := (List.mem_inits _ _).mp hcs
    refine ⟨String.ofList ds, ?_⟩
    rw [← String.ofList_append, hds, String.ofList_toList]
  · rintro ⟨post, rfl⟩
    exact ⟨pre.toList, (List.mem_inits _ _).mpr ⟨post.toList, String.toList_append.symm⟩,
      String.ofList_toList⟩

theorem mem_tails_ofList {text post : String} :
    post ∈ text.toList.tails.map String.ofList ↔ ∃ pre, text = pre ++ post := by
  rw [List.mem_map]
  constructor
  · rintro ⟨ds, hds, rfl⟩
    obtain ⟨cs, hcs⟩ := (List.mem_tails _ _).mp hds
    refine ⟨String.ofList cs, ?_⟩
    rw [← String.ofList_append, hcs, String.ofList_toList]
  · rintro ⟨pre, rfl⟩
    exact ⟨post.toList, (List.mem_tails _ _).mpr ⟨pre.toList, String.toList_append.symm⟩,
      String.ofList_toList⟩

theorem sliceTo_some {text pre : String} {n : Nat} (h : sliceTo text n = some pre) :
    (∃ post, text = pre ++ post) ∧ pre.utf8ByteSize = n := by
  have hsize := List.find?_some h
  exact ⟨mem_inits_ofList.mp (List.mem_of_find?_eq_some h), beq_iff_eq.mp hsize⟩

/-- When `&text[..n]` does not panic. -/
theorem sliceTo_isSome {text : String} {n : Nat} : (sliceTo text n).isSome ↔
    CharBoundary text n := by
  rw [sliceTo, List.find?_isSome, charBoundary_iff]
  refine exists_congr fun pre => ?_
  rw [mem_inits_ofList, beq_iff_eq]
  exact exists_and_right.symm

theorem sliceFrom_isSome {text : String} {n : Nat} : (sliceFrom text n).isSome ↔
    CharBoundary text n := by
  rw [sliceFrom, List.find?_isSome, charBoundary_iff]
  constructor
  · rintro ⟨post, hpost, hsize⟩
    obtain ⟨pre, rfl⟩ := mem_tails_ofList.mp hpost
    rw [beq_iff_eq, String.utf8ByteSize_append] at hsize
    exact ⟨pre, post, rfl, by omega⟩
  · rintro ⟨pre, post, rfl, rfl⟩
    refine ⟨post, mem_tails_ofList.mpr ⟨pre, rfl⟩, ?_⟩
    rw [beq_iff_eq, String.utf8ByteSize_append, Nat.add_comm]

theorem CharBoundary.le {text : String} {n : Nat} (h : CharBoundary text n) :
    n ≤ text.utf8ByteSize := by
  obtain ⟨pre, post, rfl, rfl⟩ := charBoundary_iff.mp h
  rw [String.utf8ByteSize_append]
  exact Nat.le_add_right _ _

/-- A place in the first part is one in the whole, and the other way round up to where it is cut. -/
theorem charBoundary_append {pre post : String} {n : Nat} (h : n ≤ pre.utf8ByteSize) :
    CharBoundary (pre ++ post) n ↔ CharBoundary pre n := by
  rw [CharBoundary, String.Pos.Raw.isValid_append]
  refine ⟨fun hor => hor.elim id fun ⟨hle, _⟩ => ?_, .inl⟩
  obtain rfl : n = pre.utf8ByteSize := Nat.le_antisymm h hle
  exact charBoundary_iff.mpr ⟨pre, "", String.append_empty.symm, rfl⟩

/-- **When `&text[lo..hi]` does not panic.** -/
theorem slice_isSome {text : String} {lo hi : Nat} :
    (slice text lo hi).isSome ↔ lo ≤ hi ∧ CharBoundary text lo ∧ CharBoundary text hi := by
  unfold slice
  cases h : sliceTo text hi with
  | none =>
    have hhi : ¬ CharBoundary text hi := by
      rw [← sliceTo_isSome, h]
      exact Bool.false_ne_true
    exact ⟨(fun hs => nomatch hs), fun hc => absurd hc.2.2 hhi⟩
  | some pre =>
    obtain ⟨⟨post, rfl⟩, rfl⟩ := sliceTo_some h
    rw [Option.bind_some, sliceFrom_isSome]
    constructor
    · intro hlo
      refine ⟨hlo.le, (charBoundary_append hlo.le).mpr hlo, ?_⟩
      exact charBoundary_iff.mpr ⟨pre, post, rfl, rfl⟩
    · rintro ⟨hle, hlo, -⟩
      exact (charBoundary_append hle).mp hlo

/-! ## The parts of a concatenation -/

/-- Of two beginnings of a text, or two ends, the longer one has more bytes. -/
theorem append_inj_of_size {pre post pre' post' : String} (h : pre ++ post = pre' ++ post')
    (hsize : pre.utf8ByteSize = pre'.utf8ByteSize) : pre = pre' ∧ post = post' := by
  have hlists : pre.toList ++ post.toList = pre'.toList ++ post'.toList := by
    rw [← String.toList_append, ← String.toList_append, h]
  have key : ∀ {a b : String} {rest : List Char}, b.toList = a.toList ++ rest →
    a.utf8ByteSize = b.utf8ByteSize →
      rest = [] := by
    intro a b rest hrest hab
    have heq : b = a ++ String.ofList rest := by
      rw [← String.toList_inj, String.toList_append, hrest, String.toList_ofList]
    rw [heq, String.utf8ByteSize_append] at hab
    have hzero :=
      String.utf8ByteSize_eq_zero_iff.mp
        (Nat.add_left_cancel (hab.symm.trans (Nat.add_zero _).symm))
    rw [← String.toList_ofList (l := rest), hzero]
    rfl
  have hlen : pre.toList.length = pre'.toList.length := by
    rcases List.append_eq_append_iff.mp hlists with ⟨rest, hrest, -⟩ | ⟨rest, hrest, -⟩
    · rw [hrest, key hrest hsize, List.append_nil]
    · rw [hrest, key hrest hsize.symm, List.append_nil]
  obtain ⟨hpre, hpost⟩ := List.append_inj hlists hlen
  exact ⟨String.toList_inj.mp hpre, String.toList_inj.mp hpost⟩

theorem sliceTo_append (pre post : String) : sliceTo (pre ++ post) pre.utf8ByteSize = some pre := by
  obtain ⟨pre', hpre'⟩ := Option.isSome_iff_exists.mp
    (sliceTo_isSome.mpr (charBoundary_iff.mpr ⟨pre, post, rfl, rfl⟩))
  obtain ⟨⟨post', happend⟩, hsize⟩ := sliceTo_some hpre'
  rw [hpre', (append_inj_of_size happend hsize.symm).1]

theorem sliceFrom_append (pre post : String) :
    sliceFrom (pre ++ post) pre.utf8ByteSize = some post := by
  obtain ⟨post', hpost'⟩ := Option.isSome_iff_exists.mp
    (sliceFrom_isSome.mpr (charBoundary_iff.mpr ⟨pre, post, rfl, rfl⟩))
  obtain ⟨pre', happend⟩ := mem_tails_ofList.mp (List.mem_of_find?_eq_some hpost')
  have hfound := List.find?_some hpost'
  have hsize : post'.utf8ByteSize + pre.utf8ByteSize = (pre ++ post).utf8ByteSize :=
    beq_iff_eq.mp hfound
  have hpre : pre.utf8ByteSize = pre'.utf8ByteSize := by
    rw [happend, String.utf8ByteSize_append] at hsize
    omega
  rw [hpost', (append_inj_of_size happend hpre).2]

/-- What a slice between two parts of a text is. -/
theorem slice_append (pre text post : String) :
    slice (pre ++ text ++ post) pre.utf8ByteSize
      ((pre ++ text ++ post).utf8ByteSize - post.utf8ByteSize) =
      some text := by
  have hhi : (pre ++ text ++ post).utf8ByteSize - post.utf8ByteSize =
    (pre ++ text).utf8ByteSize := by
    rw [String.utf8ByteSize_append, Nat.add_sub_cancel]
  rw [slice, hhi, sliceTo_append, Option.bind_some, sliceFrom_append]

/-! ## One-byte characters -/

theorem utf8ByteSize_of_ascii {cs : List Char} (hascii : ∀ c ∈ cs, c.utf8Size = 1) :
    (String.ofList cs).utf8ByteSize = cs.length := by
  induction cs with
  | nil => rfl
  | cons c cs ih =>
    have hsplit : String.ofList (c :: cs) = String.singleton c ++ String.ofList cs := by
      rw [String.singleton_eq_ofList, ← String.ofList_append, List.singleton_append]
    rw [hsplit, String.utf8ByteSize_append, String.utf8ByteSize_singleton,
      hascii c List.mem_cons_self,
      ih fun d hd => hascii d (List.mem_cons_of_mem _ hd), List.length_cons, Nat.add_comm]

/-- In a text of one-byte characters every place up to the end is a boundary. -/
theorem charBoundary_of_ascii {text : String} (hascii : ∀ c ∈ text.toList, c.utf8Size = 1) {n : Nat}
    (hn : n ≤ text.toList.length) : CharBoundary text n := by
  rw [CharBoundary, String.Pos.Raw.isValid_iff_exists_take_toList]
  refine ⟨n, ?_⟩
  rw [utf8ByteSize_of_ascii fun c hc => hascii c (List.mem_of_mem_take hc), List.length_take,
    Nat.min_eq_left hn]

end Keycast.Lib
