import AwardsDesk.Json.Numeral
import Mathlib.Data.List.Induction
import Mathlib.Tactic.SplitIfs

/-!
# Natural numbers in documents

A natural number of 64 bits is written with digits only, is taken for just that number, and is
never beyond the range of numbers.

Main definitions:

- Structure {lit}`Numeral.IsNat`: a numeral is written with digits only and stands for a number.

Main results:

- Theorem {lit}`Numeral.int?_eq_some_iff`: the numerals that are taken for natural numbers.
- Theorem {lit}`Numeral.IsNat.isTooLarge_eq`: numbers of 64 bits are in range.
-/

namespace AwardsDesk
namespace Json
namespace Numeral

/-- A number written with digits only: no sign, no point, no exponent. -/
structure IsNat (n : Numeral) (k : Nat) : Prop where
  negative : n.negative = false
  fraction : n.fraction = []
  exponent : n.exponent = none
  whole : natOf n.whole = k

/-- A number as it is written stands for itself. -/
theorem isNat_ofNat (k : Nat) : (ofNat k).IsNat k where
  negative := rfl
  fraction := rfl
  exponent := rfl
  whole := by simp [ofNat, natOf, Nat.ofDigitChars_ten_toDigits]

/-- An integer that is no negative one is written with digits only. -/
theorem int?_eq_some_iff {n : Numeral} {k : Nat} :
    n.int? = some (k : Int) ↔ n.IsNat k ∧ k < UInt64.size := by
  rcases n with ⟨negative, whole, fraction, exponent⟩
  constructor
  · intro h
    simp only [int?] at h
    split_ifs at h with hshape hsign hneg hlt
    · have hk : (-(natOf whole : Int)) = k := Option.some.inj h
      omega
    · have hk : natOf whole = k := by exact_mod_cast Option.some.inj h
      simp only [Bool.and_eq_true, List.isEmpty_iff, Option.isNone_iff_eq_none] at hshape
      exact ⟨⟨by simpa using hsign, hshape.1, hshape.2, hk⟩, hk ▸ hlt⟩
  · rintro ⟨⟨rfl, rfl, rfl, rfl⟩, hlt⟩
    simp [int?, hlt]

/-- Digits that fit are gathered without loss. -/
theorem foldl_whole {ds : List Char} (h : natOf ds < UInt64.size) :
    ds.foldl Gathered.whole {} = { significand := natOf ds } := by
  induction ds using List.reverseRecOn with
  | nil => rfl
  | append_singleton ds c ih =>
      have hvalue : natOf (ds ++ [c]) = natOf ds * 10 + natOf [c] := by
        simp [natOf, Nat.ofDigitChars_append, Nat.ofDigitChars_cons, Nat.mul_comm]
      rw [hvalue] at h ⊢
      rw [List.foldl_append, ih (by omega)]
      simp [Gathered.whole, h]

/-- A number of 64 bits is not beyond double precision. -/
theorem IsNat.isTooLarge_eq {n : Numeral} {k : Nat} (h : n.IsNat k) (hk : k < UInt64.size) :
    n.isTooLarge = false := by
  have hgathered : n.gathered = { significand := natOf n.whole } := by
    rw [gathered, h.fraction, List.foldl_nil, foldl_whole (h.whole ▸ hk)]
  have hrange : beyondRange (natOf n.whole) (((0 : Nat) : Int) - ((0 : Nat) : Int)) = false := rfl
  simp only [isTooLarge, hgathered, h.exponent, hrange, Bool.and_false]

end Numeral
end Json
end AwardsDesk
