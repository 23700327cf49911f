import BlobLifecycle.Number.Word
import BlobLifecycle.Toml.Datetime

/-! TOML numbers and the other values without quotes. Each reader takes the whole token. -/
namespace BlobLifecycle.Toml

/-- Takes the underscores out of digits; each must stand between two digits. -/
def digits? (base : Nat) : List Char → Option (List Char)
  | [] => none
  | [c] => if (Digits.below? base c).isSome then some [c] else none
  | c :: '_' :: rest => do
    if (Digits.below? base c).isNone then none
    return c :: (← digits? base rest)
  | c :: rest => do
    if (Digits.below? base c).isNone then none
    return c :: (← digits? base rest)

/-- Digits without a leading zero, unless it is the only one. -/
def whole? (text : List Char) : Option (List Char) := do
  let ds ← digits? 10 text
  if ds.head? = some '0' ∧ ds.length ≠ 1 then none else some ds

def signOf (isNegative : Bool) (n : Nat) : Option Int :=
  Word.signed? (if isNegative then -n else n)

def integer? : List Char → Option Int
  | '0' :: 'x' :: rest => do signOf false (← Digits.natural? 16 (← digits? 16 rest))
  | '0' :: 'o' :: rest => do signOf false (← Digits.natural? 8 (← digits? 8 rest))
  | '0' :: 'b' :: rest => do signOf false (← Digits.natural? 2 (← digits? 2 rest))
  | text => do
    let (isNegative, rest) := Decimal.splitSign text
    signOf isNegative (← Digits.natural? 10 (← whole? rest))

def isExponentMark (c : Char) : Bool := c = 'e' || c = 'E'

/-- The exponent with its mark, or nothing. -/
def exponentPart? : List Char → Option (List Char)
  | [] => some []
  | mark :: '-' :: rest => do return mark :: '-' :: (← digits? 10 rest)
  | mark :: '+' :: rest => do return mark :: (← digits? 10 rest)
  | mark :: rest => do return mark :: (← digits? 10 rest)

/-- A number with a point, an exponent or both. Numbers beyond the range are refused; the
first edition lets the negative ones be infinite. -/
def float? (edition : Edition) (text : List Char) : Option Binary64 := do
  let (isNegative, rest) := Decimal.splitSign text
  match String.ofList rest with
  | "inf" => return .infinite isNegative
  | "nan" => return .nan
  | _ =>
    let mantissa := rest.takeWhile fun c => !isExponentMark c
    let exponent ← exponentPart? (rest.drop mantissa.length)
    let whole := mantissa.takeWhile (· ≠ '.')
    let wholeDigits ← whole? whole
    let decimals ← match mantissa.drop whole.length with
      | [] => if exponent = [] then none else some []
      | _ :: decimals => (digits? 10 decimals).map ('.' :: ·)
    match ← Decimal.unsignedFloat? isNegative (wholeDigits ++ decimals ++ exponent) with
    | .infinite isNegative =>
      if isNegative ∧ edition = .v10 then some (.infinite isNegative) else none
    | x => some x

/-- The value of a token that stands outside quotes and brackets. -/
def scalar? (edition : Edition) (token : List Char) : Option Value :=
  match String.ofList token with
  | "true" => some (.boolean true)
  | "false" => some (.boolean false)
  | _ =>
    match integer? token with
    | some n => some (.integer n)
    | none =>
      match float? edition token with
      | some x => some (.float x)
      | none => (datetime? (.literal edition) token).map .datetime

end BlobLifecycle.Toml
