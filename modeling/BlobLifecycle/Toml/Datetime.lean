import BlobLifecycle.Text.Digits
import BlobLifecycle.Toml.Value

/-! TOML dates and times: their readers, which give the normal form at once. -/
namespace BlobLifecycle.Toml

def readDigits (count : Nat) (text : List Char) : Option (Nat × List Char) :=
  if (text.take count).length = count then
    (Digits.natural? 10 (text.take count)).map (·, text.drop count)
  else none

def skip (c : Char) : List Char → Option (List Char)
  | d :: rest => if c = d then some rest else none
  | [] => none

/-- How times of day and offsets may be written, and what becomes of them. -/
structure ClockRule where
  greatestHour : Nat
  needsSeconds : Bool
  /-- Whether a fraction that is zero keeps a digit. -/
  keepsZeroFraction : Bool
  greatestOffsetHour : Nat
  greatestOffsetMinute : Nat
  deriving DecidableEq, Repr

namespace ClockRule

def literal : Edition → ClockRule
  | .v10 => ⟨23, true, false, 23, 59⟩
  | .v11 => ⟨23, false, true, 23, 59⟩

def quoted : Edition → ClockRule
  | .v10 => ⟨24, true, false, 99, 99⟩
  | .v11 => literal .v11

end ClockRule

def isLeap (year : Nat) : Bool := year % 4 = 0 && (year % 100 ≠ 0 || year % 400 = 0)

def daysIn (year month : Nat) : Nat :=
  if month = 2 then if isLeap year then 29 else 28
  else if month ∈ [4, 6, 9, 11] then 30 else 31

def padded (width n : Nat) : List Char :=
  let ds := Nat.toDigits 10 n
  List.replicate (width - ds.length) '0' ++ ds

def readDate (text : List Char) : Option (List Char × List Char) := do
  let (year, rest) ← readDigits 4 text
  let (month, rest) ← readDigits 2 (← skip '-' rest)
  let (day, rest) ← readDigits 2 (← skip '-' rest)
  if 1 ≤ month ∧ month ≤ 12 ∧ 1 ≤ day ∧ day ≤ daysIn year month then
    return (padded 4 year ++ '-' :: padded 2 month ++ '-' :: padded 2 day, rest)
  else none

/-- Fractions of a second count nanoseconds; further digits and final zeros are dropped. -/
def fractionText (rule : ClockRule) (digits : List Char) : List Char :=
  match (((digits.take 9).reverse.dropWhile (· = '0')).reverse) with
  | [] => if rule.keepsZeroFraction then ['.', '0'] else []
  | kept => '.' :: kept

def readFraction (rule : ClockRule) : List Char → Option (List Char × List Char)
  | '.' :: rest =>
    match rest.takeWhile Digits.isDecimal with
    | [] => none
    | digits => some (fractionText rule digits, rest.drop digits.length)
  | rest => some ([], rest)

def readSeconds (rule : ClockRule) (text : List Char) : Option (List Char × List Char) := do
  let (second, rest) ← readDigits 2 (← skip ':' text)
  if 60 < second then none
  let (fraction, rest) ← readFraction rule rest
  return (':' :: padded 2 second ++ fraction, rest)

def readTime (rule : ClockRule) (text : List Char) : Option (List Char × List Char) := do
  let (hour, rest) ← readDigits 2 text
  let (minute, rest) ← readDigits 2 (← skip ':' rest)
  if rule.greatestHour < hour ∨ 59 < minute then none
  let (seconds, rest) ←
    if !rule.needsSeconds ∧ rest.head? ≠ some ':' then some ([], rest) else readSeconds rule rest
  return (padded 2 hour ++ ':' :: padded 2 minute ++ seconds, rest)

/-- An offset counts minutes, of which a day has 1440; none are neither early nor late. -/
def offsetText (isNegative : Bool) (minutes : Nat) : List Char :=
  (if isNegative ∧ minutes ≠ 0 then '-' else '+') ::
    padded 2 (minutes / 60) ++ ':' :: padded 2 (minutes % 60)

def readOffset (rule : ClockRule) : List Char → Option (List Char)
  | [] => some []
  | ['Z'] | ['z'] => some ['Z']
  | sign :: rest => do
    if sign ≠ '+' ∧ sign ≠ '-' then none
    let (hour, rest) ← readDigits 2 rest
    let (minute, rest) ← readDigits 2 (← skip ':' rest)
    let minutes := hour * 60 + minute
    if rule.greatestOffsetHour < hour ∨ rule.greatestOffsetMinute < minute ∨ 1440 < minutes ∨
      rest ≠ [] then none
    return offsetText (sign = '-') minutes

def datetime? (rule : ClockRule) (text : List Char) : Option String := do
  match readDate text with
  | some (date, []) => return String.ofList date
  | some (date, separator :: rest) =>
    if separator ≠ 'T' ∧ separator ≠ 't' ∧ separator ≠ ' ' then none
    let (time, rest) ← readTime rule rest
    return String.ofList (date ++ 'T' :: time ++ (← readOffset rule rest))
  | none =>
    let (time, rest) ← readTime rule text
    if rest = [] then return String.ofList time else none

end BlobLifecycle.Toml
