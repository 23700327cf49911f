import BlobLifecycle.Number.Word
import BlobLifecycle.Text.Digits

/-! The part of JSON that object metadata needs: quoting, reading of strings and
integers, and passing over values that nobody asks for. Readers take the text from
the current position and return what is left. -/
namespace BlobLifecycle.Json

abbrev Text := List Char

def isBlank (c : Char) : Bool := c = ' ' || c = '\n' || c = '\t' || c = '\r'

def skipBlanks (text : Text) : Text := text.dropWhile isBlank

/-- Passes over blanks and then the given character. -/
def expect (c : Char) (text : Text) : Option Text :=
  match skipBlanks text with
  | d :: rest => if c = d then some rest else none
  | [] => none

/-- Quotes, backslashes and control characters are written as escapes. -/
def escape (c : Char) : Text :=
  match c with
  | '"' => ['\\', '"']
  | '\\' => ['\\', '\\']
  | '\n' => ['\\', 'n']
  | '\r' => ['\\', 'r']
  | '\t' => ['\\', 't']
  | c =>
    if c.toNat = 8 then ['\\', 'b']
    else if c.toNat = 12 then ['\\', 'f']
    else if c.toNat < 32 then
      ['\\', 'u', '0', '0', hexDigit (c.toNat / 16), hexDigit (c.toNat % 16)]
    else [c]

def quote (s : String) : Text := '"' :: s.toList.flatMap escape ++ ['"']

def letterEscape? : Char → Option Char
  | '"' => some '"'
  | '\\' => some '\\'
  | '/' => some '/'
  | 'b' => some (Char.ofNat 8)
  | 'f' => some (Char.ofNat 12)
  | 'n' => some '\n'
  | 'r' => some '\r'
  | 't' => some '\t'
  | _ => none

def readUnit : Text → Option (Nat × Text)
  | a :: b :: c :: d :: rest => (Digits.natural? 16 [a, b, c, d]).map (·, rest)
  | _ => none

def isHighSurrogate (n : Nat) : Bool := 0xD800 ≤ n && n < 0xDC00
def isLowSurrogate (n : Nat) : Bool := 0xDC00 ≤ n && n < 0xE000

/-- The character of a numeric escape. A high surrogate needs its low one. -/
def readNumericEscape (text : Text) : Option (Char × Text) := do
  let (high, rest) ← readUnit text
  if isLowSurrogate high then none
  else if isHighSurrogate high then
    match rest with
    | '\\' :: 'u' :: rest =>
      let (low, rest) ← readUnit rest
      if isLowSurrogate low then
        return (Char.ofNat (0x10000 + (high - 0xD800) * 0x400 + (low - 0xDC00)), rest)
      else none
    | _ => none
  else return (Char.ofNat high, rest)

/-- The characters up to the closing quote. The first argument bounds their number. -/
def readStringBody : Nat → Text → Option (Text × Text)
  | 0, _ => none
  | _, [] => none
  | bound + 1, c :: rest =>
    if c = '"' then some ([], rest)
    else if c.toNat < 32 then none
    else if c = '\\' then do
      let (d, rest) ← match rest with
        | 'u' :: rest => readNumericEscape rest
        | e :: rest => (letterEscape? e).map (·, rest)
        | [] => none
      let (body, rest) ← readStringBody bound rest
      return (d :: body, rest)
    else do
      let (body, rest) ← readStringBody bound rest
      return (c :: body, rest)

def readString (text : Text) : Option (String × Text) := do
  let rest ← expect '"' text
  let (body, rest) ← readStringBody rest.length rest
  return (String.ofList body, rest)

/-- Passes over the rest of a string whose escapes need only be spelled well. -/
def skipStringBody : Nat → Text → Option Text
  | 0, _ => none
  | _, [] => none
  | bound + 1, c :: rest =>
    if c = '"' then some rest
    else if c.toNat < 32 then none
    else if c = '\\' then
      match rest with
      | 'u' :: rest => do
        let (_, rest) ← readUnit rest
        skipStringBody bound rest
      | e :: rest => do
        let _ ← letterEscape? e
        skipStringBody bound rest
      | [] => none
    else skipStringBody bound rest

/-- The digits of a whole number: a single zero, or digits that begin with another. -/
def readWhole (text : Text) : Option (Text × Text) :=
  match text.takeWhile Digits.isDecimal with
  | [] => none
  | ['0'] => some (['0'], text.drop 1)
  | digits@(c :: _) => if c = '0' then none else some (digits, text.drop digits.length)

def skipDigits (text : Text) : Option Text :=
  match text.takeWhile Digits.isDecimal with
  | [] => none
  | digits => some (text.drop digits.length)

def skipSign : Text → Text
  | '+' :: rest | '-' :: rest => rest
  | text => text

def skipNumber (text : Text) : Option Text := do
  let unsigned := match text with
    | '-' :: rest => rest
    | text => text
  let (_, rest) ← readWhole unsigned
  let rest ← match rest with
    | '.' :: rest => skipDigits rest
    | rest => some rest
  match rest with
  | 'e' :: rest | 'E' :: rest => skipDigits (skipSign rest)
  | rest => some rest

/-- An integer of the signed 64-bit range, without fraction or exponent. Negative zero
is a fraction's sign and no integer. -/
def readInteger (text : Text) : Option (Int × Text) := do
  let (negative, unsigned) := match skipBlanks text with
    | '-' :: rest => (true, rest)
    | text => (false, text)
  let (digits, rest) ← readWhole unsigned
  let n ← Digits.natural? 10 digits
  match rest with
  | '.' :: _ | 'e' :: _ | 'E' :: _ => none
  | _ =>
    if negative ∧ n = 0 then none
    else return (← Word.signed? (if negative then -n else n), rest)

def skipLiteral (literal text : Text) : Option Text :=
  if literal.isPrefixOf text then some (text.drop literal.length) else none

/-- Where the reader stands between a container's elements. -/
inductive Separator where
  | next (text : Text)
  | closed (text : Text)

def separator (close : Char) (text : Text) : Option Separator :=
  match skipBlanks text with
  | ',' :: rest => some (.next rest)
  | c :: rest => if c = close then some (.closed rest) else none
  | [] => none

mutual

/-- Passes over one value; the first argument bounds the steps. -/
def skipValue : Nat → Text → Option Text
  | 0, _ => none
  | bound + 1, text =>
    match skipBlanks text with
    | '"' :: rest => skipStringBody (rest.length + 1) rest
    | '[' :: rest =>
      match skipBlanks rest with
      | ']' :: rest => some rest
      | rest => skipElements bound rest
    | '\x7b' :: rest =>
      match skipBlanks rest with
      | '\x7d' :: rest => some rest
      | rest => skipMembers bound rest
    | 't' :: rest => skipLiteral ['r', 'u', 'e'] rest
    | 'f' :: rest => skipLiteral ['a', 'l', 's', 'e'] rest
    | 'n' :: rest => skipLiteral ['u', 'l', 'l'] rest
    | rest => skipNumber rest

def skipElements : Nat → Text → Option Text
  | 0, _ => none
  | bound + 1, text => do
    let rest ← skipValue bound text
    match ← separator ']' rest with
    | .closed rest => some rest
    | .next rest => skipElements bound rest

def skipMembers : Nat → Text → Option Text
  | 0, _ => none
  | bound + 1, text => do
    let rest ← expect '"' text
    let rest ← skipStringBody (rest.length + 1) rest
    let rest ← expect ':' rest
    let rest ← skipValue bound rest
    match ← separator '\x7d' rest with
    | .closed rest => some rest
    | .next rest => skipMembers bound rest

end

end BlobLifecycle.Json
