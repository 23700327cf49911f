import BlobLifecycle.Bytes

/-! Digits and the numbers they spell. -/
namespace BlobLifecycle.Digits

def isDecimal (c : Char) : Bool := '0' ≤ c && c ≤ '9'

/-- The value of a decimal or hexadecimal digit of either case. -/
def value? (c : Char) : Option Nat :=
  if isDecimal c then some (c.toNat - 48)
  else if 'a' ≤ c && c ≤ 'f' then some (c.toNat - 87)
  else if 'A' ≤ c && c ≤ 'F' then some (c.toNat - 55)
  else none

def below? (base : Nat) (c : Char) : Option Nat := (value? c).filter (· < base)

/-- The number that all the digits spell, most significant first. -/
def number? (base : Nat) (digits : List Char) : Option Nat :=
  digits.foldlM (fun n c => (below? base c).map (n * base + ·)) 0

def natural? (base : Nat) (digits : List Char) : Option Nat :=
  if digits = [] then none else number? base digits

/-- The bytes that pairs of hexadecimal digits spell. -/
def pairs? : List Char → Option Bytes
  | [] => some []
  | [_] => none
  | a :: b :: rest => do
    return UInt8.ofNat ((← value? a) * 16 + (← value? b)) :: (← pairs? rest)

def bytes? (text : String) : Option Bytes := pairs? text.toList

end BlobLifecycle.Digits
