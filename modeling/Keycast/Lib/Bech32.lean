import Mathlib.Algebra.Group.Nat.Even
import Mathlib.Data.List.DropRight

/-!
# `Lib/Bech32.lean` — bech32 texts

A text in bech32 is a human-readable part, the last `1` of the text, and data, of which the last six
characters are a checksum over all the rest. It is written in lower or in upper case, not in both. A
character of the data stands for five bits.
-/

set_option autoImplicit false

namespace Keycast.Lib

/-- The characters of the data, by the five bits they stand for. -/
def bech32Charset : List Char :=
  ['q', 'p', 'z', 'r', 'y', '9', 'x', '8', 'g', 'f', '2', 't', 'v', 'd', 'w', '0', 's',
    '3', 'j', 'n',
   '5', '4', 'k', 'h', 'c', 'e', '6', 'm', 'u', 'a', '7', 'l']

def bech32Generators : List Nat := [0x3b6a57b2, 0x26508e6d, 0x1ea119fa, 0x3d4233dd, 0x2a1462b3]

/-- One more group of five bits for the checksum. -/
def polymodStep (chk group : Nat) : Nat :=
  bech32Generators.zipIdx.foldl
    (fun acc g => if (chk / 2 ^ 25).testBit g.2 then acc ^^^ g.1 else acc)
    (chk % 2 ^ 25 * 32 ^^^ group)

def polymod (groups : List Nat) : Nat := groups.foldl polymodStep 1

/-- The human-readable part, as it goes into the checksum. -/
def hrpExpand (hrp : List Char) : List Nat := hrp.map (·.toNat / 32) ++ 0 :: hrp.map (·.toNat % 32)

structure Bech32 where
  hrp : List Char
  groups : List Nat
  deriving DecidableEq, Repr

def decodeBech32 (text : List Char) : Option Bech32 :=
  let lower := text.map Char.toLower
  if text ≠ lower ∧ text ≠ text.map Char.toUpper then none
  else
    match lower.rdropWhile (· ≠ '1') with
    | [] => none
    | c :: front =>
      let hrp := (c :: front).dropLast
      if hrp.isEmpty || hrp.any (fun c => c.toNat < 33 || 126 < c.toNat) then none
      else
        match (lower.rtakeWhile (· ≠ '1')).mapM bech32Charset.idxOf? with
        | none => none
        | some groups =>
          if 6 ≤ groups.length ∧ polymod (hrpExpand hrp ++ groups) = 1 then
            some ⟨hrp, groups.take (groups.length - 6)⟩
          else none

/-- What is decoded begins with the human-readable part and a `1`, in one case. -/
theorem decodeBech32_eq_some {text : List Char} {b : Bech32} (h : decodeBech32 text = some b) :
    (text = text.map Char.toLower ∨ text = text.map Char.toUpper) ∧
      ∃ data, text.map Char.toLower = b.hrp ++ '1' :: data := by
  unfold decodeBech32 at h
  dsimp only at h
  split at h
  · cases h
  next hcase =>
  refine ⟨(Decidable.not_and_iff_not_or_not.mp hcase).imp Decidable.not_not.mp Decidable.not_not.mp,
    ?_⟩
  split at h
  · cases h
  next c front hfront =>
  split at h
  · cases h
  split at h
  · cases h
  split at h
  · cases h
    -- what stands before the data ends with the separator
    refine ⟨(text.map Char.toLower).rtakeWhile (· ≠ '1'), ?_⟩
    have hlast : (c :: front).getLast (List.cons_ne_nil _ _) = '1' := by
      have hne : (text.map Char.toLower).rdropWhile (· ≠ '1') ≠ [] := by
        rw [hfront]
        exact List.cons_ne_nil _ _
      have hnot := List.rdropWhile_last_not (· ≠ '1') (text.map Char.toLower) hne
      rw [List.getLast_congr hne (List.cons_ne_nil _ _) hfront] at hnot
      simpa using hnot
    have hsplit := List.dropLast_append_getLast (List.cons_ne_nil c front)
    rw [hlast] at hsplit
    calc text.map Char.toLower
        = (c :: front) ++ (text.map Char.toLower).rtakeWhile (· ≠ '1') := by
          rw [← hfront, List.rdropWhile_append_rtakeWhile]
      _ = (c :: front).dropLast ++ '1' :: (text.map Char.toLower).rtakeWhile (· ≠ '1') := by
          conv_lhs => rw [← hsplit]
          simp
  · cases h

/-- The number that groups of five bits make up, with four bits of padding: 256 bits in all. -/
def secretOfGroups (groups : List Nat) : Option Nat :=
  let bits := groups.foldl (fun acc group => acc * 32 + group) 0
  if groups.length = 52 ∧ bits % 16 = 0 then some (bits / 16) else none

end Keycast.Lib
