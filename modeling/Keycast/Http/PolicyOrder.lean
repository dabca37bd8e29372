import Keycast.Core.Scope
import Keycast.Http.Policy

/-!
# `Http/PolicyOrder.lean` — is one policy more restrictive than another?

`is_more_restrictive` of `core/src/types/policy.rs` compares two policies row by row: rows of the
same identifier with each other, and of the rest only whether the second policy has an
`encrypt_to_self` that the first lacks. A row of the second policy that finds no partner, or that is
of a kind the comparison has no case for, is passed over, although it restricts the second policy on
every path to the key.
-/

set_option autoImplicit false

namespace Keycast

/-! ## The comparison -/

/-- `AllowedKindsConfig` of a row, the default if it does not deserialize. -/
def Permission.allowedKindsConfig (p : Permission) : Option (List Nat) :=
  (Json.deStruct "allowed_kinds" (some none) (Json.deOptionVec Json.deU16) p.config).getD none

/-- `ContentFilterConfig`, likewise. -/
def Permission.contentFilterConfig (p : Permission) : Option (List String) :=
  (Json.deStruct "blocked_words" (some none) (Json.deOptionVec Json.asStr) p.config).getD none

/-- A's kinds must be among B's. -/
def kindsWithin : Option (List Nat) → Option (List Nat) → Bool
  | some a, some b => a.all b.contains
  | some _, none => true
  | none, some _ => false
  | none, none => true

/-- A must block the words that B blocks. -/
def wordsCover : Option (List String) → Option (List String) → Bool
  | some a, some b => b.all a.contains
  | none, some _ => false
  | some _, none => true
  | none, none => true

/-- The body of the two loops, `false` where it returns `Ok(false)`. -/
def comparePair (a b : Permission) : Bool :=
  if a.identifier ≠ b.identifier then true
  else if a.identifier = "allowed_kinds" then kindsWithin a.allowedKindsConfig b.allowedKindsConfig
  else if a.identifier = "content_filter" then
    wordsCover a.contentFilterConfig b.contentFilterConfig
  else true

/-- `is_more_restrictive`, from the rows of the two policies on. -/
def isMoreRestrictive (aPerms bPerms : List Permission) : Bool :=
  (aPerms.all fun a => bPerms.all fun b => comparePair a b) &&
    bPerms.all fun b =>
      let hasMatching := aPerms.any (·.identifier == b.identifier)
      !(!hasMatching && b.identifier == "encrypt_to_self")

theorem isMoreRestrictive_pair {aPerms bPerms : List Permission}
    (h : isMoreRestrictive aPerms bPerms = true)
    {a b : Permission} (ha : a ∈ aPerms) (hb : b ∈ bPerms) : comparePair a b = true := by
  rw [isMoreRestrictive, Bool.and_eq_true, List.all_eq_true] at h
  exact List.all_eq_true.mp (h.1 a ha) b hb

/-! ## What it compares -/

section Rows

variable {ext : External}

/-- The row takes part in the comparison: its config reads, there is a case for it, and the first
policy has a row of the same identifier. -/
def Permission.Compared (ext : External) (aPerms : List Permission) (b : Permission) : Prop :=
  b.Converts ext ∧ b.identifier ∈ ["allowed_kinds", "content_filter", "encrypt_to_self"] ∧
    ∃ a ∈ aPerms, a.identifier = b.identifier

/-! A row of a compared kind converts to its config. -/

theorem convert_allowedKinds {p : Permission} (hid : p.identifier = "allowed_kinds") :
    p.toCustomPermission ext = CustomPermission.allowedKindsFrom p := by
  unfold Permission.toCustomPermission
  rw [if_pos (by rw [hid]; decide +kernel)]

theorem convert_contentFilter {p : Permission} (hid : p.identifier = "content_filter") :
    p.toCustomPermission ext = CustomPermission.contentFilterFrom p := by
  unfold Permission.toCustomPermission
  rw [hid, if_neg (by decide +kernel), if_neg (by decide), if_pos rfl]

theorem convert_encryptToSelf {p : Permission} (hid : p.identifier = "encrypt_to_self") :
    p.toCustomPermission ext = .ok .encryptToSelf := by
  unfold Permission.toCustomPermission
  rw [hid, if_neg (by decide +kernel), if_neg (by decide), if_neg (by decide),
    if_neg (by decide), if_pos rfl]

theorem allowedKindsFrom_ok {p : Permission} {c : CustomPermission}
    (h : CustomPermission.allowedKindsFrom p = .ok c) :
    c = .allowedKinds p.allowedKindsConfig := by
  unfold CustomPermission.allowedKindsFrom at h
  unfold Permission.allowedKindsConfig
  cases hde : Json.deStruct "allowed_kinds" (some none) (Json.deOptionVec Json.deU16) p.config with
  | none =>
    rw [hde] at h
    cases h
  | some kinds =>
    rw [hde] at h
    cases h
    rfl

theorem allowedKindsFrom_some {p : Permission} {kinds : List Nat}
    (h : p.allowedKindsConfig = some kinds) :
    CustomPermission.allowedKindsFrom p = .ok (.allowedKinds (some kinds)) := by
  unfold CustomPermission.allowedKindsFrom
  unfold Permission.allowedKindsConfig at h
  cases hde : Json.deStruct "allowed_kinds" (some none) (Json.deOptionVec Json.deU16) p.config with
  | none =>
    rw [hde] at h
    cases h
  | some kinds' =>
    rw [hde, Option.getD_some] at h
    rw [h]
    rfl

theorem contentFilterFrom_ok {p : Permission} {c : CustomPermission}
    (h : CustomPermission.contentFilterFrom p = .ok c) :
    c = .contentFilter p.contentFilterConfig := by
  unfold CustomPermission.contentFilterFrom at h
  unfold Permission.contentFilterConfig
  cases hde : Json.deStruct "blocked_words" (some none) (Json.deOptionVec Json.asStr) p.config with
  | none =>
    rw [hde] at h
    cases h
  | some words =>
    rw [hde] at h
    cases h
    rfl

theorem contentFilterFrom_some {p : Permission} {words : List String}
    (h : p.contentFilterConfig = some words) :
    CustomPermission.contentFilterFrom p = .ok (.contentFilter (some words)) := by
  unfold CustomPermission.contentFilterFrom
  unfold Permission.contentFilterConfig at h
  cases hde : Json.deStruct "blocked_words" (some none) (Json.deOptionVec Json.asStr) p.config with
  | none =>
    rw [hde] at h
    cases h
  | some words' =>
    rw [hde, Option.getD_some] at h
    rw [h]
    rfl

/-! What the two config comparisons mean. -/

variable {self : PublicKey} {op : Operation}

theorem allows_of_kindsWithin {a b : Option (List Nat)} (h : kindsWithin a b = true)
    (ha : ∀ kinds, a = some kinds →
      (CustomPermission.allowedKinds (some kinds)).allows ext self op = true) :
    (CustomPermission.allowedKinds b).allows ext self op = true := by
  cases op with
  | encrypt | decrypt => rfl
  | sign event =>
    cases b with
    | none => rfl
    | some bKinds =>
      cases a with
      | none => cases h
      | some aKinds =>
        have hin : event.kind ∈ aKinds := List.contains_iff_mem.mp (ha aKinds rfl)
        exact List.all_eq_true.mp h event.kind hin

theorem blocks_of_wordsCover {a b : Option (List String)} (h : wordsCover a b = true)
    {text : String}
    (hb : CustomPermission.blocks b text = true) : ∃ words, a = some words ∧
      CustomPermission.blocks a text = true := by
  cases b with
  | none => cases hb
  | some bWords =>
    cases a with
    | none => cases h
    | some aWords =>
      obtain ⟨word, hword, hin⟩ := List.any_eq_true.mp hb
      have hmem : word ∈ aWords := List.contains_iff_mem.mp (List.all_eq_true.mp h word hword)
      exact ⟨aWords, rfl, List.any_eq_true.mpr ⟨word, hmem, hin⟩⟩

theorem allows_of_wordsCover {a b : Option (List String)} (h : wordsCover a b = true)
    (ha : ∀ words, a = some words →
      (CustomPermission.contentFilter (some words)).allows ext self op = true) :
    (CustomPermission.contentFilter b).allows ext self op = true := by
  have htext : ∀ text,
    (∀ words, a = some words → CustomPermission.blocks (some words) text = false) →
      CustomPermission.blocks b text = false := by
    intro text hno
    by_contra hb
    obtain ⟨words, hwords, hblock⟩ := blocks_of_wordsCover h (by simpa using hb)
    rw [hwords, hno words hwords] at hblock
    cases hblock
  cases op with
  | decrypt => rfl
  | sign event =>
    have hb := htext event.content fun words hwords =>
      (by simpa [CustomPermission.allows, CustomPermission.canSign] using ha words hwords)
    simp [CustomPermission.allows, CustomPermission.canSign, hb]
  | encrypt plaintext recipient =>
    have hb := htext plaintext fun words hwords =>
      (by simpa [CustomPermission.allows, CustomPermission.canEncrypt] using ha words hwords)
    simp [CustomPermission.allows, CustomPermission.canEncrypt, hb]

/-- **A compared row refuses nothing new.** -/
theorem Permission.Compared.lets {aPerms bPerms : List Permission} {b : Permission} {path : Path}
    (h : isMoreRestrictive aPerms bPerms = true) (hb : b ∈ bPerms) (hcmp : b.Compared ext aPerms)
    (hlets : path.Lets ext aPerms self op) : b.Lets ext self op path := by
  obtain ⟨⟨c, hc⟩, hkind, a, ha, hid⟩ := hcmp
  have hpair := isMoreRestrictive_pair h ha hb
  have hrow : a.Lets ext self op path := Path.lets_iff.mp hlets a ha
  rw [Permission.lets_iff hc]
  simp only [comparePair, hid, ne_eq, not_true_eq_false, if_false] at hpair
  simp only [List.mem_cons, List.not_mem_nil, or_false] at hkind
  rcases hkind with hkind | hkind | hkind
  · rw [convert_allowedKinds hkind] at hc
    rw [allowedKindsFrom_ok hc]
    rw [if_pos hkind] at hpair
    refine allows_of_kindsWithin hpair fun kinds hkinds => ?_
    exact (Permission.lets_iff
      ((convert_allowedKinds (hid.trans hkind)).trans (allowedKindsFrom_some hkinds))).mp hrow
  · rw [convert_contentFilter hkind] at hc
    rw [contentFilterFrom_ok hc]
    rw [hkind, if_neg (by decide), if_pos rfl] at hpair
    refine allows_of_wordsCover hpair fun words hwords => ?_
    exact (Permission.lets_iff
      ((convert_contentFilter (hid.trans hkind)).trans (contentFilterFrom_some hwords))).mp hrow
  · rw [convert_encryptToSelf hkind] at hc
    cases hc
    exact (Permission.lets_iff (convert_encryptToSelf (hid.trans hkind))).mp hrow

/-! ## The result -/

/-- The scope of a row on a path. -/
def Permission.scope (ext : External) (path : Path) (p : Permission) : Scope :=
  match p.toCustomPermission ext, path with
  | .ok c, _ => c.scope ext
  | .error _, .nip46 => .nothing
  | .error _, .http => .everything

theorem Permission.lets_iff_has {p : Permission} {path : Path} (hop : op.WellFormed) :
    p.Lets ext self op path ↔ (p.scope ext path).Has self op := by
  cases hp : p.toCustomPermission ext with
  | ok c =>
    simp only [Permission.lets_iff hp, Permission.scope, hp]
    exact CustomPermission.allows_iff_has hop
  | error e =>
    simp only [Permission.scope, hp]
    cases path with
    | nip46 =>
      refine ⟨?_, ?_⟩
      · rintro ⟨c, hc, -⟩
        cases hp.symm.trans hc
      · intro hhas
        cases op with
        | sign | encrypt => exact hhas.1.elim
        | decrypt => exact hhas.elim
    | http =>
      refine ⟨fun _ => ?_, fun _ c hc => ?_⟩
      · cases op with
        | sign event => exact ⟨hop, trivial⟩
        | encrypt => exact ⟨trivial, trivial⟩
        | decrypt => exact trivial
      · cases hp.symm.trans hc

/-- What the rows of a policy have together. -/
def policyScope (ext : External) (path : Path) (rows : List Permission) : Scope :=
  .meet (rows.map (·.scope ext path))

theorem Path.lets_iff_has {path : Path} {rows : List Permission} (hop : op.WellFormed) :
    path.Lets ext rows self op ↔ (policyScope ext path rows).Has self op := by
  rw [Path.lets_iff, policyScope, Scope.has_meet hop, List.forall_mem_map]
  exact forall₂_congr fun p _ => Permission.lets_iff_has hop

/-- **When the order is sound.** Where the comparison finds the first policy more restrictive, that
is so on a path exactly when the scope of the first policy is within that of each row of the second
which took no part in the comparison. -/
theorem order_sound_iff {aPerms bPerms : List Permission}
    (h : isMoreRestrictive aPerms bPerms = true) (path : Path) :
    (∀ self op, op.WellFormed → path.Lets ext aPerms self op → path.Lets ext bPerms self op) ↔
      ∀ b ∈ bPerms, ¬ b.Compared ext aPerms →
        (policyScope ext path aPerms).Within (b.scope ext path) := by
  have hkinds : (policyScope ext path aPerms).kinds ⊆ Set.Iio 65536 := fun _ hk => hk.1
  constructor
  · intro hsound b hb _
    refine (Scope.has_mono_iff hkinds).mp fun self op hop hhas => ?_
    have hlets := hsound self op hop ((Path.lets_iff_has hop).mpr hhas)
    exact (Permission.lets_iff_has hop).mp (Path.lets_iff.mp hlets b hb)
  · intro hskipped self op hop hlets
    refine Path.lets_iff.mpr fun b hb => ?_
    by_cases hcmp : b.Compared ext aPerms
    · exact hcmp.lets h hb hlets
    · refine (Permission.lets_iff_has hop).mpr ?_
      exact (Scope.has_mono_iff hkinds).mpr (hskipped b hb hcmp) self op hop
        ((Path.lets_iff_has hop).mp hlets)

end Rows

/-! A policy with one row, and one with another. -/

def kindsRow (kinds : List Int) : Permission :=
  ⟨1, "allowed_kinds", .obj [("allowed_kinds", .arr (kinds.map .int))]⟩

def wordsRow (words : List String) : Permission :=
  ⟨2, "content_filter", .obj [("blocked_words", .arr (words.map .str))]⟩

theorem order_sound_iff_kinds :
    isMoreRestrictive [kindsRow [1]] [kindsRow [1, 4]] = true ∧
      ∀ self op, op.WellFormed → Path.Lets (.symbolic [] []) [kindsRow [1]] self op .nip46 →
        Path.Lets (.symbolic [] []) [kindsRow [1, 4]] self op .nip46 := by
  have hmore : isMoreRestrictive [kindsRow [1]] [kindsRow [1, 4]] = true := by decide
  refine ⟨hmore, (order_sound_iff hmore .nip46).mpr fun b hb hskipped => absurd ?_ hskipped⟩
  rw [List.mem_singleton] at hb
  subst hb
  refine ⟨⟨.allowedKinds (some [1, 4]), ?_⟩, List.mem_cons_self, kindsRow [1],
    List.mem_singleton.mpr rfl, rfl⟩
  rw [convert_allowedKinds rfl]
  rfl

/-- **A filter is found more restrictive than a list of kinds.** The policy that only blocks a word
lets a direct message be signed, the policy for kind 1 does not; but they have no identifier in
common. -/
theorem filter_passes_for_kinds :
    ¬ ∀ (ext : External) (path : Path) (aPerms bPerms : List Permission),
      isMoreRestrictive aPerms bPerms = true →
      ∀ self op, op.WellFormed → path.Lets ext aPerms self op → path.Lets ext bPerms self op := by
  intro h
  have hlets : Signer.validateRows (.symbolic [] []) [wordsRow ["spam"]] "alice"
      (.sign ⟨"alice", 0, 4, [], "hi"⟩) = .ok () := by decide +kernel
  have hrefused : Signer.validateRows (.symbolic [] []) [kindsRow [1]] "alice"
      (.sign ⟨"alice", 0, 4, [], "hi"⟩) ≠ .ok () := by decide +kernel
  exact hrefused
    (h (.symbolic [] []) .nip46 [wordsRow ["spam"]] [kindsRow [1]] (by decide) "alice" _
    (show 4 < 65536 by decide) hlets)

end Keycast
