import BlobLifecycle.Number.Binary64

/-! Decimal texts of integers and floating-point numbers. -/
namespace BlobLifecycle.Decimal

def splitSign : List Char → Bool × List Char
  | '-' :: rest => (true, rest)
  | '+' :: rest => (false, rest)
  | text => (false, text)

/-- An optional sign and digits, within the bounds. Where no number is negative a minus
sign is refused, even before zero. -/
def integer? (least greatest : Int) (text : List Char) : Option Int := do
  if text.head? = some '-' ∧ least = 0 then none
  let (isNegative, digits) := splitSign text
  let n ← Digits.natural? 10 digits
  let value : Int := if isNegative then -n else n
  if least ≤ value ∧ value ≤ greatest then some value else none

def lower (text : List Char) : List Char := text.map Char.toLower

def exponent? : List Char → Option Int
  | [] => some 0
  | c :: rest => do
    if c ≠ 'e' ∧ c ≠ 'E' then none
    let (isNegative, digits) := splitSign rest
    let n ← Digits.natural? 10 digits
    return if isNegative then -n else n

/-- Digits with at most one point, then perhaps an exponent; at least one digit stands
before it. -/
def unsignedFloat? (isNegative : Bool) (text : List Char) : Option Binary64 := do
  let whole := text.takeWhile Digits.isDecimal
  let rest := text.drop whole.length
  let (decimals, rest) := match rest with
    | '.' :: rest => (rest.takeWhile Digits.isDecimal, rest.dropWhile Digits.isDecimal)
    | rest => ([], rest)
  let digits ← Digits.natural? 10 (whole ++ decimals)
  let exponent ← exponent? rest
  return .ofDecimal isNegative digits (exponent - decimals.length)

/-- An optional sign, then a number or one of the words for infinity and not a number. -/
def float? (text : List Char) : Option Binary64 :=
  let (isNegative, rest) := splitSign text
  match String.ofList (lower rest) with
  | "inf" | "infinity" => some (.infinite isNegative)
  | "nan" => some .nan
  | _ => unsignedFloat? isNegative rest

/-- The numbers that round to a positive finite one lie between two bounds, which belong to
them if the significand is even. All are multiples of a quarter of the last place. -/
structure Neighbourhood where
  least : Nat
  value : Nat
  greatest : Nat
  isClosed : Bool

/-- Below a power of two the numbers are twice as dense. -/
def neighbourhood (significand : Nat) (exponent : Int) : Neighbourhood :=
  let isPower := significand = 1 <<< (Binary64.precision - 1) ∧ Binary64.leastExponent < exponent
  ⟨4 * significand - (if isPower then 1 else 2), 4 * significand, 4 * significand + 2,
    significand % 2 = 0⟩

/-- The better of the value's two neighbours on the grid of step `den / num`, if one of
them rounds to the value. Of two equally near the upper one is taken. -/
def gridPoint? (n : Neighbourhood) (num den : Nat) : Option Nat :=
  let below := n.value * num / den
  let above := below + 1
  let reaches (a b : Nat) : Bool := if n.isClosed then a ≤ b else a < b
  let isLower := reaches (n.least * num) (below * den)
  let isUpper := reaches (above * den) (n.greatest * num)
  if isLower && isUpper then
    if n.value * num - below * den < above * den - n.value * num then some below else some above
  else if isLower then some below
  else if isUpper then some above
  else none

/-- The first hit on ever finer grids: the fewest digits that read back, and the power of
ten that they count. -/
def shortestFrom (n : Neighbourhood) (num den : Nat) : Nat → Int → Nat × Int
  | 0, power => (0, power)
  | steps + 1, power =>
    let point? :=
      if 0 ≤ power then gridPoint? n num (den * Nat.pow 10 power.toNat)
      else gridPoint? n (num * Nat.pow 10 (-power).toNat) den
    match point? with
    | some digits => (digits, power)
    | none => shortestFrom n num den steps (power - 1)

def greatestPower : Int := 309
def powers : Nat := 660

/-- The fewest decimal digits of a positive number that read back as it. -/
def shortest (significand : Nat) (exponent : Int) : Nat × Int :=
  let (num, den) := Binary64.fraction 1 (exponent - 2)
  shortestFrom (neighbourhood significand exponent) num den powers greatestPower

/-- Positional notation without exponent; whole numbers have no point. -/
def positional (digits : Nat) (power : Int) : List Char :=
  let ds := Nat.toDigits 10 digits
  if 0 ≤ power then ds ++ List.replicate power.toNat '0'
  else
    let places := (-power).toNat
    if places < ds.length then ds.take (ds.length - places) ++ '.' :: ds.drop (ds.length - places)
    else '0' :: '.' :: List.replicate (places - ds.length) '0' ++ ds

def floatText : Binary64 → String
  | .nan => "NaN"
  | .infinite isNegative => if isNegative then "-inf" else "inf"
  | .finite isNegative significand exponent =>
    let body :=
      if significand = 0 then ['0']
      else
        let (digits, power) := shortest significand exponent
        positional digits power
    String.ofList (if isNegative then '-' :: body else body)

end BlobLifecycle.Decimal
