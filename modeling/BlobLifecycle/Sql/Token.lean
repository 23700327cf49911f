import BlobLifecycle.Text.Digits

/-! The words, names and marks of database scripts. Case does not matter outside texts. -/
namespace BlobLifecycle.Sql

inductive Token where
  | word (s : String)
  /-- A name in double quotes, backquotes or brackets. -/
  | name (s : String)
  | text (s : String)
  | number
  | mark (c : Char)
  /-- What is no token, such as a quote that is never closed. -/
  | bad
  deriving DecidableEq, Repr

namespace Token

def lower (s : List Char) : String := String.ofList (s.map Char.toLower)

def isBlank (c : Char) : Bool :=
  c = ' ' || c = '\t' || c = '\n' || c = '\r' || c.toNat = 12

def isWordStart (c : Char) : Bool := c.isAlpha || c = '_' || 128 ≤ c.toNat

def isWordChar (c : Char) : Bool := isWordStart c || Digits.isDecimal c || c = '$'

def isMark (c : Char) : Bool := "-();+*/%=<>|&~,.?@:$!".toList.contains c

def skipComment : List Char → List Char
  | '*' :: '/' :: rest => rest
  | _ :: rest => skipComment rest
  | [] => []

/-- The text up to a closing quote, which stands for itself when it is doubled, and what
comes after it. -/
def readQuoted (quote : Char) : List Char → Option (List Char × List Char)
  | c :: d :: rest =>
    if c ≠ quote then (readQuoted quote (d :: rest)).map fun (s, rest) => (c :: s, rest)
    else if d = quote then (readQuoted quote rest).map fun (s, rest) => (c :: s, rest)
    else some ([], d :: rest)
  | [c] => if c = quote then some ([], []) else none
  | [] => none

def quoted (quote : Char) (make : String → Token) (text : List Char) : Token × List Char :=
  match readQuoted quote text with
  | some (s, rest) => (make (lower s), rest)
  | none => (bad, [])

/-- A number with its fraction and exponent, which no letter may follow. -/
def numeral (text : List Char) : Token × List Char :=
  let body := text.takeWhile fun c => isWordChar c || c = '.'
  let isPlain := body.all fun c => Digits.isDecimal c || c = '.' || c = '_' || c = 'e' || c = 'E'
  let isHexadecimal := match body with
    | '0' :: 'x' :: rest | '0' :: 'X' :: rest =>
      rest ≠ [] && rest.all fun c => (Digits.value? c).isSome
    | _ => false
  (if isPlain || isHexadecimal then number else bad, text.drop body.length)

/-- The tokens of a script; the first argument bounds their number. -/
def readAll : Nat → List Char → List Token
  | 0, _ => []
  | _, [] => []
  | bound + 1, c :: rest =>
    if isBlank c then readAll bound rest
    else if c = '-' ∧ rest.head? = some '-' then readAll bound (rest.dropWhile (· ≠ '\n'))
    else if c = '/' ∧ rest.head? = some '*' then readAll bound (skipComment (rest.drop 1))
    else
      let (token, rest) :=
        if c = '"' ∨ c = '\x60' then quoted c name rest
        else if c = '\'' then quoted c text rest
        else if c = '[' then
          let body := rest.takeWhile (· ≠ ']')
          if body.length = rest.length then (bad, [])
          else (name (lower body), rest.drop (body.length + 1))
        else if Digits.isDecimal c then numeral (c :: rest)
        else if isWordStart c then
          let body := rest.takeWhile isWordChar
          (word (lower (c :: body)), rest.drop body.length)
        else (if isMark c then mark c else bad, rest)
      token :: readAll bound rest

end Token

def tokens (script : String) : List Token :=
  Token.readAll (script.length + 1) script.toList

end BlobLifecycle.Sql
