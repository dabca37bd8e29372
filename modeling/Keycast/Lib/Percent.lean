import Mathlib.Data.List.Infix
import Mathlib.Data.List.TakeWhile

/-!
# `Lib/Percent.lean` — percent-encoding and form parameters

How a text gets through a URL: the characters that may not stand in it are written as `%` and two
digits for each of their bytes, and whoever reads the parameters of a query puts the bytes back
together. A text is a list of characters. Between the two steps stands a list of units, a unit being
a character that stands for itself or the byte of an escape; bytes are natural numbers.

`utf8Decode_percentEncode` is the round trip, whatever is escaped. `formDecode_eq_self_iff` says
which texts are read as they are written.

The decoder of UTF-8 is a machine with a state between two units, so its lemmas are inductions over
the units for every state. `Utf8State.Sane` is what holds of the state in between: it looks for a
continuation byte, if for any. `length_utf8Step` is the potential with which reading does not make a
text longer: a sequence under way has one character to its credit.

The escaper is compared with the text through the units. An escaped character has the units of its
bytes and every other one its own (`units_induct` for the cases of how a text can begin), and a
decoder gives back the same for both (`utf8Decode_percentEncode`). The form parser cuts a text
before it decodes the pieces; a set that keeps the delimiters (`KeepsForm`) keeps the pieces, and so
the meaning of the query (`formPairs_percentEncode`).
-/

set_option autoImplicit false

namespace Keycast.Lib

/-- Over a list, not over all characters: that is how a statement about a text is evaluated. -/
theorem forall_mem_of_all {α : Type} {p : α → Prop} [DecidablePred p] {l : List α}
    (h : l.all (fun a => decide (p a)) = true) : ∀ a ∈ l, p a := by
  simpa using h

/-! Where the letters and digits begin. -/

theorem le_of_isLower {c : Char} (h : c.isLower = true) : 97 ≤ c.toNat := by
  have hrange : (decide ('a'.val ≤ c.val) && decide (c.val ≤ 'z'.val)) = true := h
  exact of_decide_eq_true (Bool.and_eq_true_iff.mp hrange).1

theorem le_of_isAlphanum {c : Char} (h : c.isAlphanum = true) : 48 ≤ c.toNat := by
  have hclass : ((decide ('A'.val ≤ c.val ∧ c.val ≤ 'Z'.val) || c.isLower) ||
      (decide ('0'.val ≤ c.val) && decide (c.val ≤ '9'.val))) = true := h
  rw [Bool.or_eq_true, Bool.or_eq_true] at hclass
  rcases hclass with (hupper | hlower) | hdigit
  · have h65 : 65 ≤ c.toNat := (of_decide_eq_true hupper).1
    omega
  · have h97 := le_of_isLower hlower
    omega
  · exact of_decide_eq_true (Bool.and_eq_true_iff.mp hdigit).1

/-! ## UTF-8 -/

/-- The bytes of a character. -/
def utf8Encode (c : Char) : List Nat :=
  if c.toNat < 0x80 then [c.toNat]
  else if c.toNat < 0x800 then [0xC0 + c.toNat / 64, 0x80 + c.toNat % 64]
  else if c.toNat < 0x10000 then
    [0xE0 + c.toNat / 4096, 0x80 + c.toNat / 64 % 64, 0x80 + c.toNat % 64]
  else
    [0xF0 + c.toNat / 262144, 0x80 + c.toNat / 4096 % 64, 0x80 + c.toNat / 64 % 64,
      0x80 + c.toNat % 64]

/-- A decoder between two bytes: how many are missing, the value so far, and where the next one has
to lie. -/
structure Utf8State where
  needed : Nat := 0
  value : Nat := 0
  lower : Nat := 0x80
  upper : Nat := 0xBF

/-- What stands for a sequence that is not UTF-8. -/
def replacement : Char := '\uFFFD'

/-- A byte between two characters. -/
def utf8Start (b : Nat) : Utf8State × List Char :=
  if b < 0x80 then ({}, [Char.ofNat b])
  else if 0xC2 ≤ b ∧ b ≤ 0xDF then ({ needed := 1, value := b - 0xC0 }, [])
  else if 0xE0 ≤ b ∧ b ≤ 0xEF then
    -- no character is written longer than it must be, and none is a surrogate
    ({ needed := 2, value := b - 0xE0, lower := if b = 0xE0 then 0xA0 else 0x80,
       upper := if b = 0xED then 0x9F else 0xBF }, [])
  else if 0xF0 ≤ b ∧ b ≤ 0xF4 then
    ({ needed := 3, value := b - 0xF0, lower := if b = 0xF0 then 0x90 else 0x80,
       upper := if b = 0xF4 then 0x8F else 0xBF }, [])
  else ({}, [replacement])

/-- One more byte. One that does not belong to the sequence begins the next. -/
def utf8Step (q : Utf8State) (b : Nat) : Utf8State × List Char :=
  match q.needed with
  | 0 => utf8Start b
  | n + 1 =>
    if q.lower ≤ b ∧ b ≤ q.upper then
      if n = 0 then ({}, [Char.ofNat (q.value * 64 + (b - 0x80))])
      else ({ needed := n, value := q.value * 64 + (b - 0x80) }, [])
    else ((utf8Start b).1, replacement :: (utf8Start b).2)

/-- What an unfinished sequence is read as. -/
def Utf8State.flush (q : Utf8State) : List Char := if q.needed = 0 then [] else [replacement]

/-- The characters of a list of units. -/
def utf8Decode : Utf8State → List (Char ⊕ Nat) → List Char
  | q, [] => q.flush
  | q, .inl c :: units => q.flush ++ c :: utf8Decode {} units
  | q, .inr b :: units => (utf8Step q b).2 ++ utf8Decode (utf8Step q b).1 units

@[simp] theorem utf8State_flush_default : ({} : Utf8State).flush = [] := rfl

theorem length_utf8Start (b : Nat) :
    (utf8Start b).2.length + (utf8Start b).1.flush.length = 1 := by
  unfold utf8Start Utf8State.flush
  split
  · simp
  split
  · simp
  split
  · simp
  split
  · simp
  · simp

/-- A step pays for what it puts out: a sequence that is under way has one character to its
credit. -/
theorem length_utf8Step (q : Utf8State) (b : Nat) :
    (utf8Step q b).2.length + (utf8Step q b).1.flush.length ≤ q.flush.length + 1 := by
  have hstart := length_utf8Start b
  unfold utf8Step
  split
  next hq => omega
  next n hq =>
  have hflush : q.flush.length = 1 := by simp [Utf8State.flush, hq]
  split
  · split
    · simp
    · simp [Utf8State.flush, *]
  · simp only [List.length_cons]
    omega

/-- Reading does not make a text longer. -/
theorem length_utf8Decode (q : Utf8State) (units : List (Char ⊕ Nat)) :
    (utf8Decode q units).length ≤ q.flush.length + units.length := by
  induction units generalizing q with
  | nil => simp [utf8Decode]
  | cons x units ih =>
    cases x with
    | inl c =>
      have h := ih {}
      simp only [utf8Decode, List.length_append, List.length_cons, utf8State_flush_default,
        List.length_nil] at *
      omega
    | inr b =>
      have hstep := length_utf8Step q b
      have h := ih (utf8Step q b).1
      simp only [utf8Decode, List.length_append, List.length_cons]
      omega

@[simp] theorem utf8Decode_chars (cs : List Char) : utf8Decode {} (cs.map .inl) = cs := by
  induction cs with
  | nil => rfl
  | cons c cs ih =>
    simp only [List.map_cons, utf8Decode, utf8State_flush_default, List.nil_append, ih]

/-- The first byte of a character does not belong to a sequence under way. -/
theorem utf8Step_start {q : Utf8State} {b : Nat} (hlow : 0x80 ≤ q.lower) (hup : q.upper ≤ 0xBF)
    (hb : b < 0x80 ∨ 0xBF < b) :
    utf8Step q b = ((utf8Start b).1, q.flush ++ (utf8Start b).2) := by
  unfold utf8Step Utf8State.flush
  split
  next hq => simp [hq]
  next n hq =>
  rw [if_neg (by omega), if_neg (by omega)]
  rfl

/-- A decoder looks for a continuation byte, if for any. -/
def Utf8State.Sane (q : Utf8State) : Prop := 0x80 ≤ q.lower ∧ q.upper ≤ 0xBF

theorem utf8Start_sane (b : Nat) : (utf8Start b).1.Sane := by
  unfold utf8Start Utf8State.Sane
  split
  · simp
  split
  · simp
  split
  · dsimp only
    constructor
    · split <;> omega
    · split <;> omega
  split
  · dsimp only
    constructor
    · split <;> omega
    · split <;> omega
  · simp

theorem utf8Step_sane (q : Utf8State) (b : Nat) : (utf8Step q b).1.Sane := by
  unfold utf8Step
  split
  · exact utf8Start_sane b
  split
  · split
    · exact ⟨by simp, by simp⟩
    · exact ⟨by simp, by simp⟩
  · exact utf8Start_sane b

theorem utf8Decode_start {q : Utf8State} {b : Nat} {units : List (Char ⊕ Nat)} (hq : q.Sane)
    (hb : b < 0x80 ∨ 0xBF < b) :
    utf8Decode q (.inr b :: units) =
      q.flush ++ ((utf8Start b).2 ++ utf8Decode (utf8Start b).1 units) := by
  rw [utf8Decode, utf8Step_start hq.1 hq.2 hb, List.append_assoc]

theorem utf8Decode_more {n v lower upper b : Nat} {units : List (Char ⊕ Nat)} (hlow : lower ≤ b)
    (hup : b ≤ upper) :
    utf8Decode ⟨n + 2, v, lower, upper⟩ (.inr b :: units) =
      utf8Decode ⟨n + 1, v * 64 + (b - 0x80), 0x80, 0xBF⟩ units := by
  simp [utf8Decode, utf8Step, hlow, hup]

theorem utf8Decode_last {v lower upper b : Nat} {units : List (Char ⊕ Nat)} (hlow : lower ≤ b)
    (hup : b ≤ upper) :
    utf8Decode ⟨1, v, lower, upper⟩ (.inr b :: units) =
      Char.ofNat (v * 64 + (b - 0x80)) :: utf8Decode {} units := by
  simp [utf8Decode, utf8Step, hlow, hup]

/-- **The bytes of a character are read as the character.** -/
theorem utf8Decode_utf8Encode {q : Utf8State} (hq : q.Sane) (c : Char) (units : List (Char ⊕ Nat)) :
    utf8Decode q ((utf8Encode c).map .inr ++ units) = utf8Decode q (.inl c :: units) := by
  have hvalid : c.toNat < 0xD800 ∨ 0xDFFF < c.toNat ∧ c.toNat < 0x110000 := c.valid
  have hc : ∀ n, n = c.toNat → Char.ofNat n = c := by
    intro n hn
    rw [hn, Char.ofNat_toNat]
  have hright : utf8Decode q (.inl c :: units) = q.flush ++ c :: utf8Decode {} units := by
    rw [utf8Decode]
  rw [hright]
  unfold utf8Encode
  split
  next h1 =>
    simp only [List.map_cons, List.map_nil, List.cons_append, List.nil_append]
    rw [utf8Decode_start hq (by omega), utf8Start, if_pos h1, Char.ofNat_toNat,
      List.singleton_append]
  split
  next h1 h2 =>
    simp only [List.map_cons, List.map_nil, List.cons_append, List.nil_append]
    rw [utf8Decode_start hq (by omega), utf8Start, if_neg (by omega), if_pos (by omega)]
    rw [utf8Decode_last (by omega) (by omega), hc _ (by omega), List.nil_append]
  split
  next h1 h2 h3 =>
    simp only [List.map_cons, List.map_nil, List.cons_append, List.nil_append]
    rw [utf8Decode_start hq (by omega), utf8Start, if_neg (by omega), if_neg (by omega),
      if_pos (by omega)]
    rw [utf8Decode_more (by split <;> omega) (by split <;> omega)]
    rw [utf8Decode_last (by omega) (by omega), hc _ (by omega), List.nil_append]
  next h1 h2 h3 =>
    simp only [List.map_cons, List.map_nil, List.cons_append, List.nil_append]
    rw [utf8Decode_start hq (by omega), utf8Start, if_neg (by omega), if_neg (by omega),
      if_neg (by omega),
      if_pos (by omega)]
    rw [utf8Decode_more (by split <;> omega) (by split <;> omega),
      utf8Decode_more (by omega) (by omega)]
    rw [utf8Decode_last (by omega) (by omega), hc _ (by omega), List.nil_append]

/-! ## Percent-encoding -/

def hexVal (c : Char) : Option Nat :=
  if '0' ≤ c ∧ c ≤ '9' then some (c.toNat - 48)
  else if 'A' ≤ c ∧ c ≤ 'F' then some (c.toNat - 55)
  else if 'a' ≤ c ∧ c ≤ 'f' then some (c.toNat - 87)
  else none

def hexDigit (n : Nat) : Char := Char.ofNat (if n < 10 then 48 + n else 55 + n)

def escape (b : Nat) : List Char := ['%', hexDigit (b / 16), hexDigit (b % 16)]

/-- The units of a text. -/
def units (text : List Char) : List (Char ⊕ Nat) :=
  match text with
  | [] => []
  | c :: text =>
    if c = '%' then
      match text with
      | a :: b :: rest =>
        match hexVal a, hexVal b with
        | some x, some y => .inr (16 * x + y) :: units rest
        | _, _ => .inl c :: units (a :: b :: rest)
      | short => .inl c :: units short
    else .inl c :: units text

/-- `percent-decode`, and what the bytes are as UTF-8. -/
def percentDecode (text : List Char) : List Char := utf8Decode {} (units text)

/-- Escape the characters of a set. -/
def percentEncode (set : Char → Bool) (text : List Char) : List Char :=
  text.flatMap fun c => if set c then (utf8Encode c).flatMap escape else [c]

/-- Two digits, as they make an escape of the `%` before them. -/
def Digits (text : List Char) : Prop :=
  ∃ a b rest, text = a :: b :: rest ∧ (hexVal a).isSome ∧ (hexVal b).isSome

@[simp] theorem units_nil : units [] = [] := rfl

theorem units_char {c : Char} (hc : c ≠ '%') (text : List Char) :
    units (c :: text) = .inl c :: units text := by
  rw [units.eq_def]
  dsimp only
  rw [if_neg hc]

theorem units_escape {a b : Char} {x y : Nat} (ha : hexVal a = some x) (hb : hexVal b = some y)
    (text : List Char) :
    units ('%' :: a :: b :: text) = .inr (16 * x + y) :: units text := by
  rw [units.eq_def]
  simp only [if_true, ha, hb]

theorem units_percent {text : List Char} (h : ¬ Digits text) :
    units ('%' :: text) = .inl '%' :: units text := by
  rw [units.eq_def]
  simp only [if_true]
  split
  next a b rest =>
    split
    next x y ha hb => exact absurd ⟨a, b, rest, rfl, by simp [ha], by simp [hb]⟩ h
    next => rfl
  next => rfl

theorem hexVal_hexDigit : ∀ n < 16, hexVal (hexDigit n) = some n := by decide

theorem units_escapes {bytes : List Nat} (hbytes : ∀ b ∈ bytes, b < 256) (text : List Char) :
    units (bytes.flatMap escape ++ text) = bytes.map .inr ++ units text := by
  induction bytes with
  | nil => rfl
  | cons b bytes ih =>
    have hb : b < 256 := hbytes b List.mem_cons_self
    have hrest := ih fun b' hb' => hbytes b' (List.mem_cons_of_mem _ hb')
    simp only [List.flatMap_cons, escape, List.cons_append, List.nil_append, List.map_cons]
    rw [units_escape (hexVal_hexDigit _ (by omega)) (hexVal_hexDigit _ (by omega)), hrest]
    have hdiv : 16 * (b / 16) + b % 16 = b := by omega
    rw [hdiv]

theorem utf8Encode_lt (c : Char) : ∀ b ∈ utf8Encode c, b < 256 := by
  have hvalid : c.toNat < 0x110000 := by
    have h : c.toNat < 0xD800 ∨ 0xDFFF < c.toNat ∧ c.toNat < 0x110000 := c.valid
    omega
  intro b hb
  unfold utf8Encode at hb
  split at hb
  · simp only [List.mem_cons, List.not_mem_nil, or_false] at hb
    omega
  split at hb
  · simp only [List.mem_cons, List.not_mem_nil, or_false] at hb
    omega
  split at hb
  · simp only [List.mem_cons, List.not_mem_nil, or_false] at hb
    omega
  · simp only [List.mem_cons, List.not_mem_nil, or_false] at hb
    omega

/-- A set that leaves the escapes that are there alone. -/
def LeavesEscapes (set : Char → Bool) : Prop := ∀ c, c = '%' ∨ (hexVal c).isSome → set c = false

theorem utf8Encode_ne_nil (c : Char) : utf8Encode c ≠ [] := by
  unfold utf8Encode
  split
  · simp
  split
  · simp
  split
  · simp
  · simp

theorem percentEncode_cons (set : Char → Bool) (c : Char) (text : List Char) :
    percentEncode set (c :: text) =
      (if set c then (utf8Encode c).flatMap escape else [c]) ++ percentEncode set text := rfl

theorem percentEncode_keep {set : Char → Bool} {c : Char} (hc : set c = false) (text : List Char) :
    percentEncode set (c :: text) = c :: percentEncode set text := by
  rw [percentEncode_cons, if_neg (by simp [hc]), List.singleton_append]

/-- The first character of an encoded text is a `%` or one that needs no escape. -/
theorem percentEncode_eq_cons {set : Char → Bool} {a : Char} {text rest : List Char} (ha : a ≠ '%')
    (h : percentEncode set text = a :: rest) :
    ∃ text', text = a :: text' ∧ percentEncode set text' = rest := by
  cases text with
  | nil => cases h
  | cons c text =>
    rw [percentEncode_cons] at h
    split at h
    next hset =>
      obtain ⟨b, bytes, hbytes⟩ := List.exists_cons_of_ne_nil (utf8Encode_ne_nil c)
      rw [hbytes, List.flatMap_cons, escape, List.cons_append, List.cons_append,
        List.cons.injEq] at h
      exact absurd h.1.symm ha
    next hset =>
      rw [List.singleton_append, List.cons.injEq] at h
      exact ⟨text, by rw [h.1], h.2⟩

theorem digits_percentEncode {set : Char → Bool} {text : List Char}
    (h : Digits (percentEncode set text)) :
    Digits text := by
  obtain ⟨a, b, rest, heq, ha, hb⟩ := h
  have hpercent : ¬ (hexVal '%').isSome := by decide
  obtain ⟨text₁, rfl, h₁⟩ := percentEncode_eq_cons (by rintro rfl; exact hpercent ha) heq
  obtain ⟨text₂, rfl, -⟩ := percentEncode_eq_cons (by rintro rfl; exact hpercent hb) h₁
  exact ⟨a, b, text₂, rfl, ha, hb⟩

/-- `units` by what its text begins with. -/
theorem units_induct {motive : List Char → Prop} (nil : motive [])
    (escape : ∀ a b rest x y, hexVal a = some x → hexVal b = some y → motive rest →
      motive ('%' :: a :: b :: rest))
    (percent : ∀ text, ¬ Digits text → motive text → motive ('%' :: text))
    (char : ∀ c text, c ≠ '%' → motive text → motive (c :: text))
    (text : List Char) : motive text := by
  fun_induction units text with
  | case1 => exact nil
  | case2 a b rest x y hb ha ih => exact escape a b rest x y ha hb ih
  | case3 a b rest hno ih =>
    refine percent _ ?_ ih
    rintro ⟨a', b', rest', heq, ha, hb⟩
    cases heq
    obtain ⟨x, hx⟩ := Option.isSome_iff_exists.mp ha
    obtain ⟨y, hy⟩ := Option.isSome_iff_exists.mp hb
    exact hno x y hx hy
  | case4 short hshort ih =>
    refine percent _ ?_ ih
    rintro ⟨a', b', rest', heq, -, -⟩
    exact hshort a' b' rest' heq
  | case5 c text hc ih => exact char c text hc ih

/-- `g` is what becomes of the characters that stand for themselves; the escaped ones it must leave
alone. -/
theorem utf8Decode_percentEncode {set : Char → Bool} (hset : LeavesEscapes set) {g : Char → Char}
    (hg : ∀ c, set c = true → g c = c) (text : List Char) :
    ∀ q : Utf8State, q.Sane → utf8Decode q ((units (percentEncode set text)).map (Sum.map g id)) =
      utf8Decode q ((units text).map (Sum.map g id)) := by
  have hpercent : set '%' = false := hset _ (.inl rfl)
  have hdefault : ({} : Utf8State).Sane := ⟨Nat.le_refl _, Nat.le_refl _⟩
  induction text using units_induct with
  | nil => exact fun q _ => rfl
  | escape a b rest x y ha hb ih =>
    intro q hq
    rw [percentEncode_keep hpercent, percentEncode_keep (hset a (.inr (by simp [ha]))),
      percentEncode_keep (hset b (.inr (by simp [hb]))), units_escape ha hb, units_escape ha hb]
    simp only [List.map_cons, Sum.map_inr, id, utf8Decode]
    rw [ih _ (utf8Step_sane q _)]
  | percent text hno ih =>
    intro q hq
    rw [percentEncode_keep hpercent, units_percent hno,
      units_percent fun h => hno (digits_percentEncode h)]
    simp only [List.map_cons, Sum.map_inl, utf8Decode]
    rw [ih _ hdefault]
  | char c text hc ih =>
    intro q hq
    rw [units_char hc, percentEncode_cons]
    split
    next hmem =>
      have hbytes : ((utf8Encode c).map Sum.inr).map (Sum.map g id) =
        (utf8Encode c).map Sum.inr := by
        rw [List.map_map]
        rfl
      rw [units_escapes (utf8Encode_lt c), List.map_append, hbytes, utf8Decode_utf8Encode hq]
      simp only [List.map_cons, Sum.map_inl, utf8Decode, hg c hmem]
      rw [ih _ hdefault]
    next =>
      rw [List.singleton_append, units_char hc]
      simp only [List.map_cons, Sum.map_inl, utf8Decode]
      rw [ih _ hdefault]

/-- Somewhere in the text is an escape. -/
def HasEscape (text : List Char) : Prop :=
  ∃ a b, (hexVal a).isSome ∧ (hexVal b).isSome ∧ ['%', a, b] <:+: text

theorem hasEscape_cons {c : Char} {text : List Char} :
    HasEscape (c :: text) ↔ (c = '%' ∧ Digits text) ∨ HasEscape text := by
  constructor
  · rintro ⟨a, b, ha, hb, hinside⟩
    rcases List.infix_cons_iff.mp hinside with hprefix | hinside
    · obtain ⟨rest, hrest⟩ := hprefix
      cases hrest
      exact .inl ⟨rfl, a, b, rest, rfl, ha, hb⟩
    · exact .inr ⟨a, b, ha, hb, hinside⟩
  · rintro (⟨rfl, a, b, rest, rfl, ha, hb⟩ | ⟨a, b, ha, hb, hinside⟩)
    · exact ⟨a, b, ha, hb, List.infix_cons_iff.mpr (.inl ⟨rest, rfl⟩)⟩
    · exact ⟨a, b, ha, hb, List.infix_cons_iff.mpr (.inr hinside)⟩

theorem units_eq_map {text : List Char} (h : ¬ HasEscape text) : units text = text.map .inl := by
  induction text using units_induct with
  | nil => rfl
  | escape a b rest x y ha hb ih =>
    exact absurd (hasEscape_cons.mpr (.inl ⟨rfl, a, b, rest, rfl, by simp [ha], by simp [hb]⟩)) h
  | percent text hno ih =>
    rw [units_percent hno, ih fun h' => h (hasEscape_cons.mpr (.inr h')), List.map_cons]
  | char c text hc ih =>
    rw [units_char hc, ih fun h' => h (hasEscape_cons.mpr (.inr h')), List.map_cons]

theorem length_units (text : List Char) : (units text).length ≤ text.length := by
  induction text using units_induct with
  | nil => exact Nat.le_refl _
  | escape a b rest x y ha hb ih =>
    rw [units_escape ha hb]
    simp only [List.length_cons]
    omega
  | percent text hno ih =>
    rw [units_percent hno]
    exact Nat.succ_le_succ ih
  | char c text hc ih =>
    rw [units_char hc]
    exact Nat.succ_le_succ ih

/-- An escape takes three characters and leaves one. -/
theorem length_units_lt {text : List Char} (h : HasEscape text) :
    (units text).length < text.length := by
  induction text using units_induct with
  | nil =>
    obtain ⟨a, b, -, -, hinside⟩ := h
    cases List.infix_nil.mp hinside
  | escape a b rest x y ha hb ih =>
    have hle := length_units rest
    rw [units_escape ha hb]
    simp only [List.length_cons]
    omega
  | percent text hno ih =>
    rw [units_percent hno]
    rcases hasEscape_cons.mp h with ⟨-, hdigits⟩ | h
    · exact absurd hdigits hno
    · exact Nat.succ_lt_succ (ih h)
  | char c text hc ih =>
    rw [units_char hc]
    rcases hasEscape_cons.mp h with ⟨rfl, -⟩ | h
    · exact absurd rfl hc
    · exact Nat.succ_lt_succ (ih h)

/-- A character that cannot be in an escape parts the text. -/
theorem units_append {c : Char} (hc : c ≠ '%') (hhex : hexVal c = none) (text rest : List Char) :
    units (text ++ c :: rest) = units text ++ .inl c :: units rest := by
  induction text using units_induct with
  | nil => rw [List.nil_append, units_char hc, units_nil, List.nil_append]
  | escape a b text x y ha hb ih =>
    simp only [List.cons_append]
    rw [units_escape ha hb, units_escape ha hb, ih, List.cons_append]
  | percent text hno ih =>
    have hno' : ¬ Digits (text ++ c :: rest) := by
      rintro ⟨a, b, rest', heq, ha, hb⟩
      cases text with
      | nil =>
        cases heq
        simp [hhex] at ha
      | cons a' text =>
        cases text with
        | nil =>
          cases heq
          simp [hhex] at hb
        | cons b' text =>
          cases heq
          exact hno ⟨a, b, text, rfl, ha, hb⟩
    rw [List.cons_append, units_percent hno', units_percent hno, ih, List.cons_append]
  | char d text hd ih => rw [List.cons_append, units_char hd, units_char hd, ih, List.cons_append]

theorem utf8Decode_append (q : Utf8State) (us : List (Char ⊕ Nat)) (c : Char)
    (vs : List (Char ⊕ Nat)) :
    utf8Decode q (us ++ .inl c :: vs) = utf8Decode q us ++ c :: utf8Decode {} vs := by
  induction us generalizing q with
  | nil => rfl
  | cons u us ih =>
    cases u with
    | inl d => simp only [List.cons_append, utf8Decode, ih, List.append_assoc]
    | inr b => simp only [List.cons_append, utf8Decode, ih, List.append_assoc]

/-! ## Form parameters -/

/-- A form writes a space as `+`. -/
def unplus (c : Char) : Char := if c = '+' then ' ' else c

/-- A name or a value, as it is read. -/
def formDecode (text : List Char) : List Char := percentDecode (text.map unplus)

/-- One of the pieces between the `&`s. -/
def formPair (piece : List Char) : List Char × List Char :=
  (formDecode (piece.takeWhile (· ≠ '=')), formDecode (piece.dropWhile (· ≠ '=')).tail)

/-- The `application/x-www-form-urlencoded` parser. -/
def formPairs (query : List Char) : List (List Char × List Char) :=
  ((query.splitOn '&').filter (· ≠ [])).map formPair

theorem hexVal_unplus (c : Char) : hexVal (unplus c) = hexVal c := by
  unfold unplus
  split
  next h => rw [h]; rfl
  next => rfl

theorem unplus_eq_percent {c : Char} : unplus c = '%' ↔ c = '%' := by
  unfold unplus
  split
  next h =>
    rw [h]
    decide
  next => rfl

theorem unplus_ne_plus (c : Char) : unplus c ≠ '+' := by
  unfold unplus
  split
  · decide
  · assumption

theorem digits_unplus {text : List Char} : Digits (text.map unplus) ↔ Digits text := by
  constructor
  · rintro ⟨a, b, rest, heq, ha, hb⟩
    obtain ⟨a', text₁, rfl, rfl, h₁⟩ := List.map_eq_cons_iff.mp heq
    obtain ⟨b', text₂, rfl, rfl, rfl⟩ := List.map_eq_cons_iff.mp h₁
    rw [hexVal_unplus] at ha hb
    exact ⟨a', b', text₂, rfl, ha, hb⟩
  · rintro ⟨a, b, rest, rfl, ha, hb⟩
    rw [← hexVal_unplus] at ha hb
    exact ⟨_, _, _, rfl, ha, hb⟩

theorem unplus_of_hex {c : Char} {n : Nat} (h : hexVal c = some n) : unplus c = c := by
  unfold unplus
  split
  next heq =>
    rw [heq] at h
    cases h
  next => rfl

theorem units_unplus (text : List Char) :
    units (text.map unplus) = (units text).map (Sum.map unplus id) := by
  induction text using units_induct with
  | nil => rfl
  | escape a b rest x y ha hb ih =>
    simp only [List.map_cons]
    rw [unplus_eq_percent.mpr rfl, unplus_of_hex ha, unplus_of_hex hb, units_escape ha hb,
      units_escape ha hb, ih]
    rfl
  | percent text hno ih =>
    rw [List.map_cons, unplus_eq_percent.mpr rfl, units_percent hno,
      units_percent (mt digits_unplus.mp hno), ih]
    rfl
  | char c text hc ih =>
    rw [List.map_cons, units_char hc, units_char (mt unplus_eq_percent.mp hc), ih]
    rfl

theorem formDecode_eq (text : List Char) :
    formDecode text = utf8Decode {} ((units text).map (Sum.map unplus id)) := by
  rw [formDecode, percentDecode, units_unplus]

theorem length_formDecode (text : List Char) : (formDecode text).length ≤ text.length := by
  have hdecode := length_utf8Decode {} ((units text).map (Sum.map unplus id))
  have hunits := length_units text
  rw [formDecode_eq]
  simp only [utf8State_flush_default, List.length_nil, List.length_map] at hdecode
  omega

/-- **The texts that are read as they are written.** -/
theorem formDecode_eq_self_iff {text : List Char} : formDecode text = text ↔ '+' ∉ text ∧
    ¬ HasEscape text := by
  constructor
  · intro h
    have hescape : ¬ HasEscape text := by
      intro hescape
      have hdecode := length_utf8Decode {} ((units text).map (Sum.map unplus id))
      have hunits := length_units_lt hescape
      rw [← formDecode_eq, h] at hdecode
      simp only [utf8State_flush_default, List.length_nil, List.length_map] at hdecode
      omega
    refine ⟨?_, hescape⟩
    have hmap : formDecode text = text.map unplus := by
      have hunits : (text.map unplus).map Sum.inl = (units text).map (Sum.map unplus id) := by
        rw [units_eq_map hescape, List.map_map, List.map_map]
        rfl
      rw [formDecode_eq, ← hunits, utf8Decode_chars]
    rw [← h, hmap]
    intro hmem
    obtain ⟨c, -, hc⟩ := List.mem_map.mp hmem
    exact unplus_ne_plus c hc
  · rintro ⟨hplus, hescape⟩
    have hmap : text.map unplus = text := by
      refine (List.map_congr_left fun c hc => ?_).trans (List.map_id _)
      refine if_neg ?_
      rintro rfl
      exact hplus hc
    rw [formDecode, hmap, percentDecode, units_eq_map hescape, utf8Decode_chars]

theorem formDecode_append {c : Char} (hc : c ≠ '%') (hhex : hexVal c = none) (hplus : c ≠ '+')
    (text rest : List Char) :
    formDecode (text ++ c :: rest) = formDecode text ++ c :: formDecode rest := by
  have hunplus : unplus c = c := if_neg hplus
  rw [formDecode_eq, formDecode_eq, formDecode_eq, units_append hc hhex, List.map_append,
    List.map_cons]
  rw [Sum.map_inl, hunplus, utf8Decode_append]

/-- Every delimiter stays one, and no other character becomes one. -/
def KeepsDelimiter (f : Char → List Char) (d : Char) : Prop := f d = [d] ∧ ∀ c, c ≠ d → d ∉ f c

theorem splitOn_append_of_not_mem {d : Char} {pre : List Char} (h : d ∉ pre) (text : List Char) :
    (pre ++ text).splitOn d = (text.splitOn d).modifyHead (pre ++ ·) := by
  induction pre with
  | nil =>
    cases htext : text.splitOn d with
    | nil => exact absurd htext (List.splitOn_ne_nil d text)
    | cons piece pieces => simp [htext]
  | cons c pre ih =>
    have hc : c ≠ d := fun heq => h (heq ▸ List.mem_cons_self)
    rw [List.cons_append, List.splitOn_cons_eq_if_modifyHead, if_neg (by simpa using hc),
      ih fun hmem => h (List.mem_cons_of_mem _ hmem)]
    cases htext : text.splitOn d with
    | nil => exact absurd htext (List.splitOn_ne_nil d text)
    | cons piece pieces => rfl

theorem splitOn_flatMap {f : Char → List Char} {d : Char} (hf : KeepsDelimiter f d)
    (text : List Char) :
    (text.flatMap f).splitOn d = (text.splitOn d).map (List.flatMap f) := by
  induction text with
  | nil => simp
  | cons c text ih =>
    rw [List.flatMap_cons, List.splitOn_cons_eq_if_modifyHead]
    by_cases hc : c = d
    · rw [hc, hf.1, List.singleton_append, List.splitOn_cons_eq_if_modifyHead, ih]
      simp
    · rw [splitOn_append_of_not_mem (hf.2 c hc), ih, if_neg (by simpa using hc)]
      cases htext : text.splitOn d with
      | nil => exact absurd htext (List.splitOn_ne_nil d text)
      | cons piece pieces => simp

theorem takeWhile_flatMap {f : Char → List Char} {d : Char} (hf : KeepsDelimiter f d)
    (text : List Char) :
    (text.flatMap f).takeWhile (· ≠ d) = (text.takeWhile (· ≠ d)).flatMap f ∧
      (text.flatMap f).dropWhile (· ≠ d) = (text.dropWhile (· ≠ d)).flatMap f := by
  induction text with
  | nil => exact ⟨rfl, rfl⟩
  | cons c text ih =>
    rw [List.flatMap_cons]
    by_cases hc : c = d
    · rw [hc, hf.1]
      simp [hf.1]
    · have hall : ∀ x ∈ f c, decide (x ≠ d) = true := by
        intro x hx
        exact decide_eq_true fun heq => hf.2 c hc (heq ▸ hx)
      rw [List.takeWhile_append_of_pos hall, List.dropWhile_append_of_pos hall, ih.1, ih.2]
      simp [hc]

/-- A set that keeps what the form parser looks for. -/
structure KeepsForm (set : Char → Bool) : Prop where
  escapes : LeavesEscapes set
  amp : set '&' = false
  equals : set '=' = false
  plus : set '+' = false

theorem hexVal_hexDigit_isSome {n : Nat} (h : n < 16) : (hexVal (hexDigit n)).isSome := by
  rw [hexVal_hexDigit n h]
  rfl

/-- What an escape is made of. -/
theorem mem_escapes {c d : Char} (h : d ∈ (utf8Encode c).flatMap escape) : d = '%' ∨
    (hexVal d).isSome := by
  obtain ⟨b, hb, hd⟩ := List.mem_flatMap.mp h
  have hlt := utf8Encode_lt c b hb
  simp only [escape, List.mem_cons, List.not_mem_nil, or_false] at hd
  rcases hd with rfl | rfl | rfl
  · exact .inl rfl
  · exact .inr (hexVal_hexDigit_isSome (by omega))
  · exact .inr (hexVal_hexDigit_isSome (by omega))

theorem keepsDelimiter_encode {set : Char → Bool} {d : Char} (hd : set d = false)
    (hpercent : d ≠ '%')
    (hhex : hexVal d = none) :
    KeepsDelimiter (fun c => if set c then (utf8Encode c).flatMap escape else [c]) d := by
  refine ⟨if_neg (by simp [hd]), fun c hc hmem => ?_⟩
  dsimp only at hmem
  split at hmem
  · rcases mem_escapes hmem with h | h
    · exact hpercent h
    · simp [hhex] at h
  · exact hc (List.mem_singleton.mp hmem).symm

theorem formDecode_percentEncode {set : Char → Bool} (hset : KeepsForm set) (text : List Char) :
    formDecode (percentEncode set text) = formDecode text := by
  have hg : ∀ c, set c = true → unplus c = c := by
    intro c hc
    refine if_neg ?_
    rintro rfl
    rw [hset.plus] at hc
    cases hc
  rw [formDecode_eq, formDecode_eq]
  exact utf8Decode_percentEncode hset.escapes hg text {} ⟨Nat.le_refl _, Nat.le_refl _⟩

theorem percentEncode_eq_nil {set : Char → Bool} {text : List Char} : percentEncode set text = [] ↔
    text = [] := by
  constructor
  · intro h
    cases text with
    | nil => rfl
    | cons c text =>
      rw [percentEncode_cons, List.append_eq_nil_iff] at h
      split at h
      · have hbytes := List.flatMap_eq_nil_iff.mp h.1
        obtain ⟨b, bytes, hb⟩ := List.exists_cons_of_ne_nil (utf8Encode_ne_nil c)
        cases hbytes b (hb ▸ List.mem_cons_self)
      · cases h.1
  · rintro rfl
    rfl

theorem formPair_percentEncode {set : Char → Bool} (hset : KeepsForm set) (piece : List Char) :
    formPair (percentEncode set piece) = formPair piece := by
  obtain ⟨htake, hdrop⟩ :=
    takeWhile_flatMap (keepsDelimiter_encode hset.equals (by decide) (by decide)) piece
  have htail : ((piece.dropWhile (· ≠ '=')).flatMap
      fun c => if set c then (utf8Encode c).flatMap escape else [c]).tail =
      percentEncode set (piece.dropWhile (· ≠ '=')).tail := by
    cases hpiece : piece.dropWhile (· ≠ '=') with
    | nil => rfl
    | cons c rest =>
      have hc : c = '=' := by
        have hhead := List.head?_dropWhile_not (· ≠ '=') piece
        rw [hpiece] at hhead
        simpa using hhead
      rw [List.flatMap_cons, hc, if_neg (by simp [hset.equals])]
      rfl
  rw [formPair, formPair, percentEncode, htake, hdrop, htail]
  exact congrArg₂ Prod.mk (formDecode_percentEncode hset _) (formDecode_percentEncode hset _)

/-- **A query means what it meant before it was escaped.** -/
theorem formPairs_percentEncode {set : Char → Bool} (hset : KeepsForm set) (query : List Char) :
    formPairs (percentEncode set query) = formPairs query := by
  have hsplit : (percentEncode set query).splitOn '&' =
    (query.splitOn '&').map (percentEncode set) :=
    splitOn_flatMap (keepsDelimiter_encode hset.amp (by decide) (by decide)) query
  have hfilter : ((fun piece : List Char => decide (piece ≠ [])) ∘ percentEncode set) =
      fun piece => decide (piece ≠ []) := by
    funext piece
    simp [percentEncode_eq_nil]
  rw [formPairs, formPairs, hsplit, List.filter_map, hfilter, List.map_map]
  exact List.map_congr_left fun piece _ => formPair_percentEncode hset piece

theorem formPairs_append (front rest : List Char) :
    formPairs (front ++ '&' :: rest) = formPairs front ++ formPairs rest := by
  rw [formPairs, List.splitOn_append_cons_self, List.filter_append, List.map_append]
  rfl

theorem formPairs_piece {piece : List Char} (hpiece : piece ≠ []) (hamp : '&' ∉ piece) :
    formPairs piece = [formPair piece] := by
  rw [formPairs, List.splitOn_eq_singleton hamp, List.filter_cons_of_pos (by simpa using hpiece)]
  rfl

/-- A piece whose name has no delimiter. -/
theorem formPair_of_name {name : List Char} (hname : '=' ∉ name) (value : List Char) :
    formPair (name ++ '=' :: value) = (formDecode name, formDecode value) := by
  have hall : ∀ c ∈ name, decide (c ≠ '=') = true := by
    intro c hc
    exact decide_eq_true fun h => hname (h ▸ hc)
  rw [formPair, List.takeWhile_append_of_pos hall, List.dropWhile_append_of_pos hall]
  simp

theorem formPair_of_not_mem {piece : List Char} (h : '=' ∉ piece) :
    formPair piece = (formDecode piece, []) := by
  have hall : ∀ c ∈ piece, decide (c ≠ '=') = true := by
    intro c hc
    exact decide_eq_true fun heq => h (heq ▸ hc)
  rw [formPair, List.takeWhile_eq_self_iff.mpr hall, List.dropWhile_eq_nil_iff.mpr hall]
  rfl

end Keycast.Lib
