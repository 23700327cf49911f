import BlobLifecycle.Text.Digits

/-! Binary floating-point numbers of 53 significant bits, held as exact integers: rounding
fractions to them and rounding them to integers. -/
namespace BlobLifecycle

/-- A finite number is `significand * 2 ^ exponent`. -/
inductive Binary64 where
  | finite (isNegative : Bool) (significand : Nat) (exponent : Int)
  | infinite (isNegative : Bool)
  | nan
  deriving DecidableEq, Repr

namespace Binary64

def leastExponent : Int := -1074
def greatestExponent : Int := 971
def precision : Nat := 53

/-- The quotient rounded to the nearest integer, halves to the even one. -/
def divideNearest (num den : Nat) : Nat :=
  let q := num / den
  let r := num % den
  if den < 2 * r ∨ (2 * r = den ∧ q % 2 = 1) then q + 1 else q

/-- `num / den / 2 ^ exponent` as a fraction of natural numbers. -/
def scaled (num den : Nat) (exponent : Int) : Nat × Nat :=
  if 0 ≤ exponent then (num, den <<< exponent.toNat) else (num <<< (-exponent).toNat, den)

/-- The exponent that gives the quotient all significant bits, as far as the range admits. -/
def exponentFor (num den : Nat) : Int :=
  let estimate : Int := num.log2 - den.log2
  let (n, d) := scaled num den estimate
  max leastExponent ((if n < d then estimate - 1 else estimate) - 52)

/-- The number nearest to a positive fraction, halves to the even significand. -/
def ofFraction (isNegative : Bool) (num den : Nat) : Binary64 :=
  if num = 0 then finite isNegative 0 leastExponent
  else
    let exponent := exponentFor num den
    let (n, d) := scaled num den exponent
    let significand := divideNearest n d
    let (significand, exponent) :=
      if significand = 1 <<< precision then (1 <<< (precision - 1), exponent + 1)
      else (significand, exponent)
    if greatestExponent < exponent then infinite isNegative
    else finite isNegative significand exponent

/-- The number nearest to `digits * 10 ^ scale`. Far outside the range there is no need
to compute the power. -/
def ofDecimal (isNegative : Bool) (digits : Nat) (scale : Int) : Binary64 :=
  let magnitude : Int := (Nat.toDigits 10 digits).length + scale
  if digits = 0 ∨ magnitude < -400 then finite isNegative 0 leastExponent
  else if 400 < magnitude then infinite isNegative
  else if 0 ≤ scale then ofFraction isNegative (digits * Nat.pow 10 scale.toNat) 1
  else ofFraction isNegative digits (Nat.pow 10 (-scale).toNat)

/-- `significand * 2 ^ exponent` as a fraction of natural numbers. -/
def fraction (significand : Nat) (exponent : Int) : Nat × Nat :=
  if 0 ≤ exponent then (significand <<< exponent.toNat, 1)
  else (significand, 1 <<< (-exponent).toNat)

/-- The nearest integer, halves away from zero, kept within the bounds; not a number is zero. -/
def toInteger (least greatest : Int) : Binary64 → Int
  | nan => 0
  | infinite isNegative => if isNegative then least else greatest
  | finite isNegative significand exponent =>
    let (num, den) := fraction significand exponent
    let magnitude : Int := (2 * num + den) / (2 * den)
    max least (min greatest (if isNegative then -magnitude else magnitude))

end Binary64

end BlobLifecycle
