/-!
# Numerals

A number as it stands in a document: sign, digits before and after the point, and
exponent.  A numeral without point and exponent that fits 64 bits is an integer;
the others stand for binary fractions of double precision, and a numeral beyond
their range is refused.

Main definitions:

- Function {lit}`Numeral.int?`: the integer a numeral stands for.
- Function {lit}`Numeral.isTooLarge`: whether it is beyond double precision.
-/

namespace AwardsDesk
namespace Json

/-- The exponent of a numeral. -/
structure Exponent where
  negative : Bool
  digits : List Char
deriving DecidableEq, Repr

/-- A number as written. -/
structure Numeral where
  negative : Bool := false
  whole : List Char := []
  fraction : List Char := []
  exponent : Option Exponent := none
deriving DecidableEq, Repr

namespace Numeral

/-- The number that decimal digits stand for. -/
def natOf (digits : List Char) : Nat :=
  Nat.ofDigitChars 10 digits 0

/-- The numeral of a natural number. -/
def ofNat (n : Nat) : Numeral where
  whole := Nat.toDigits 10 n

/-- The characters of a numeral. -/
def literal (n : Numeral) : List Char :=
  (if n.negative then ['-'] else []) ++ n.whole ++
    (if n.fraction.isEmpty then [] else '.' :: n.fraction) ++
    (match n.exponent with
      | none => []
      | some e => 'e' :: ((if e.negative then ['-'] else []) ++ e.digits))

/-! ## Integers -/

/-- The integer a numeral stands for: one without point and exponent, within 64
bits with or without sign.  Minus zero is no integer. -/
def int? (n : Numeral) : Option Int :=
  if n.fraction.isEmpty && n.exponent.isNone then
    let k := natOf n.whole
    if n.negative then
      if 0 < k ∧ k ≤ Nat.pow 2 63 then some (-(k : Int)) else none
    else if k < UInt64.size then some k else none
  else none

/-- A written number that fits 64 bits is read back. -/
@[simp]
theorem int?_ofNat {k : Nat} (h : k < UInt64.size) : (ofNat k).int? = some (k : Int) := by
  have hk : natOf (Nat.toDigits 10 k) = k := by
    simp [natOf, Nat.ofDigitChars_ten_toDigits]
  simp [int?, ofNat, hk, h]

/-! ## Range -/

/-- The number rounded to its leading binary digits, a half to the even side. -/
def roundBits (bits n : Nat) : Nat :=
  if n < Nat.pow 2 bits then n
  else
    let shift := n.log2 + 1 - bits
    let q := n >>> shift
    let r := n % Nat.pow 2 shift
    let half := Nat.pow 2 (shift - 1)
    let q := if half < r ∨ (r = half ∧ q % 2 = 1) then q + 1 else q
    q <<< shift

/-- Digits gathered into one number of 64 bits: the number, the digits left out
before the point, and the digits taken behind it. -/
structure Gathered where
  significand : Nat := 0
  dropped : Nat := 0
  taken : Nat := 0
  full : Bool := false
deriving Repr

/-- Takes a digit before the point; once one does not fit, all later ones only
count. -/
def Gathered.whole (g : Gathered) (c : Char) : Gathered :=
  let next := g.significand * 10 + natOf [c]
  if g.dropped = 0 ∧ next < UInt64.size then { g with significand := next }
  else { g with dropped := g.dropped + 1 }

/-- Takes a digit behind the point; once one does not fit, all later ones are
left out. -/
def Gathered.fraction (g : Gathered) (c : Char) : Gathered :=
  let next := g.significand * 10 + natOf [c]
  if !g.full ∧ next < UInt64.size then { g with significand := next, taken := g.taken + 1 }
  else { g with full := true }

/-- The digits of a numeral gathered. -/
def gathered (n : Numeral) : Gathered :=
  n.fraction.foldl Gathered.fraction (n.whole.foldl Gathered.whole {})

/-- Whether a significand of 64 bits times a power of ten is beyond double precision,
both rounded before they are multiplied.  Only a positive power can be. -/
def beyondRange (significand : Nat) (exponent : Int) : Bool :=
  if exponent ≤ 0 then false
  else if 308 < exponent then true
  else
    Nat.pow 2 1024 - Nat.pow 2 970 ≤
      roundBits 53 significand * roundBits 53 (Nat.pow 10 exponent.toNat)

/-- Whether a numeral is beyond double precision. -/
def isTooLarge (n : Numeral) : Bool :=
  let g := n.gathered
  let shift : Int := (g.dropped : Int) - g.taken
  g.significand != 0 &&
    match n.exponent with
    | none => beyondRange g.significand shift
    | some e =>
      let k := natOf e.digits
      if Nat.pow 2 31 ≤ k then !e.negative
      else beyondRange g.significand (if e.negative then shift - k else shift + k)

end Numeral
end Json
end AwardsDesk
