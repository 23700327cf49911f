import BlobLifecycle.Toml.DatetimeTable
import BlobLifecycle.Toml.Scalar

/-! The reader of TOML documents. Readers take the text from the current position and
return what is left; their first argument bounds the steps. -/
namespace BlobLifecycle.Toml

abbrev Text := List Char

def isSpace (c : Char) : Bool := c = ' ' || c = '\t'

def skipSpaces (text : Text) : Text := text.dropWhile isSpace

/-- Control characters, the tab apart. -/
def isControl (c : Char) : Bool := (c.toNat < 32 && c ≠ '\t') || c.toNat = 127

def newline? : Text → Option Text
  | '\n' :: rest => some rest
  | '\r' :: '\n' :: rest => some rest
  | _ => none

/-- Passes over a comment, if there is one, up to the end of its line. -/
def skipComment : Text → Text
  | '#' :: rest => rest.dropWhile fun c => !isControl c
  | text => text

/-- Blanks and a comment up to the end of the line or of the text. -/
def lineEnd? (text : Text) : Option Text :=
  match skipComment (skipSpaces text) with
  | [] => some []
  | rest => newline? rest

def skipLines : Nat → Text → Text
  | 0, text => text
  | bound + 1, text =>
    match newline? (skipComment (skipSpaces text)) with
    | some rest => skipLines bound rest
    | none => skipComment (skipSpaces text)

def skipGap (edition : Edition) (text : Text) : Text :=
  match edition with
  | .v10 => skipSpaces text
  | .v11 => skipLines (text.length + 1) text

def character? (code : Nat) : Option Char :=
  if h : code.isValidChar then some (Char.ofNatAux code h) else none

/-- The character that `count` hexadecimal digits number. -/
def readCode (count : Nat) (text : Text) : Option (Char × Text) := do
  let code ← Digits.natural? 16 (text.take count)
  if (text.take count).length = count then return (← character? code, text.drop count) else none

def readEscape (edition : Edition) : Text → Option (Char × Text)
  | 'b' :: rest => some (Char.ofNat 8, rest)
  | 't' :: rest => some ('\t', rest)
  | 'n' :: rest => some ('\n', rest)
  | 'f' :: rest => some (Char.ofNat 12, rest)
  | 'r' :: rest => some ('\r', rest)
  | '"' :: rest => some ('"', rest)
  | '\\' :: rest => some ('\\', rest)
  | 'u' :: rest => readCode 4 rest
  | 'U' :: rest => readCode 8 rest
  | 'x' :: rest => if edition = .v11 then readCode 2 rest else none
  | 'e' :: rest => if edition = .v11 then some (Char.ofNat 27, rest) else none
  | _ => none

def push (c : Char) (result : Option (Text × Text)) : Option (Text × Text) :=
  result.map fun (body, rest) => (c :: body, rest)

def readBasic (edition : Edition) : Nat → Text → Option (Text × Text)
  | 0, _ => none
  | _, [] => none
  | _ + 1, '"' :: rest => some ([], rest)
  | bound + 1, '\\' :: rest => do
    let (c, rest) ← readEscape edition rest
    push c (readBasic edition bound rest)
  | bound + 1, c :: rest =>
    if isControl c then none else push c (readBasic edition bound rest)

/-- The rest of a string in single quotes, which has no escapes. -/
def readLiteral (text : Text) : Option (Text × Text) :=
  let body := text.takeWhile fun c => c ≠ '\'' && !isControl c
  match text.drop body.length with
  | '\'' :: rest => some (body, rest)
  | _ => none

/-- The first line end of a string of several lines does not belong to it. -/
def skipFirstNewline (text : Text) : Text := (newline? text).getD text

/-- Up to two quotes may stand directly before the three that close. -/
def closing? (quote : Char) (text : Text) : Option (Text × Text) :=
  let count := min 5 (text.takeWhile (· = quote)).length
  if 3 ≤ count then some (List.replicate (count - 3) quote, text.drop count) else none

def skipBlankLines : Text → Text
  | ' ' :: rest | '\t' :: rest | '\n' :: rest | '\r' :: '\n' :: rest => skipBlankLines rest
  | text => text

/-- A backslash at the end of a line joins it to the next text. -/
def joinedLine? (text : Text) : Option Text := (newline? (skipSpaces text)).map skipBlankLines

/-- How a line end inside a string is kept: always as a line feed, or as it is. -/
def keptNewline (edition : Edition) (text : Text) : Text :=
  match edition, text with
  | .v11, '\r' :: _ => ['\r', '\n']
  | _, _ => ['\n']

/-- The rest of a string of several lines; single quotes have no escapes. -/
def readMultiline (edition : Edition) (quote : Char) : Nat → Text → Option (Text × Text)
  | 0, _ => none
  | bound + 1, text =>
    match closing? quote text with
    | some result => some result
    | none =>
      match newline? text with
      | some rest =>
        (keptNewline edition text).foldr push (readMultiline edition quote bound rest)
      | none =>
        match text with
        | [] => none
        | c :: rest =>
          if c = '\\' ∧ quote = '"' then
            match joinedLine? rest with
            | some rest => readMultiline edition quote bound rest
            | none => do
              let (c, rest) ← readEscape edition rest
              push c (readMultiline edition quote bound rest)
          else if isControl c then none
          else push c (readMultiline edition quote bound rest)

def readText (edition : Edition) : Text → Option (Text × Text)
  | '"' :: '"' :: '"' :: rest =>
    readMultiline edition '"' (rest.length + 1) (skipFirstNewline rest)
  | '\'' :: '\'' :: '\'' :: rest =>
    readMultiline edition '\'' (rest.length + 1) (skipFirstNewline rest)
  | '"' :: rest => readBasic edition (rest.length + 1) rest
  | '\'' :: rest => readLiteral rest
  | _ => none

def isBareKey (c : Char) : Bool :=
  Digits.isDecimal c || ('a' ≤ c && c ≤ 'z') || ('A' ≤ c && c ≤ 'Z') || c = '_' || c = '-'

def readKeyPart (edition : Edition) (text : Text) : Option (String × Text) :=
  match text with
  | '"' :: rest =>
    (readBasic edition (rest.length + 1) rest).map fun (s, rest) => (String.ofList s, rest)
  | '\'' :: rest => (readLiteral rest).map fun (s, rest) => (String.ofList s, rest)
  | text =>
    match text.takeWhile isBareKey with
    | [] => none
    | key => some (String.ofList key, text.drop key.length)

def readKeyParts (edition : Edition) : Nat → Text → Option (List String × Text)
  | 0, _ => none
  | bound + 1, text => do
    let (part, rest) ← readKeyPart edition (skipSpaces text)
    match skipSpaces rest with
    | '.' :: rest =>
      let (parts, rest) ← readKeyParts edition bound rest
      return (part :: parts, rest)
    | rest => return ([part], rest)

/-- The most parts that a key has and the most levels that a value has. -/
def greatestDepth : Edition → Nat
  | .v10 => 79
  | .v11 => 80

def readKey (edition : Edition) (text : Text) : Option (List String × Text) := do
  let (parts, rest) ← readKeyParts edition (text.length + 1) text
  if parts.length ≤ greatestDepth edition then return (parts, rest) else none

def isToken (c : Char) : Bool := isBareKey c || c = '+' || c = '.' || c = ':'

/-- A token outside quotes and brackets. A date and a time may have a blank between them. -/
def readToken (edition : Edition) (text : Text) : Text × Text :=
  let token := text.takeWhile isToken
  match readDate token, text.drop token.length with
  | some (_, []), ' ' :: rest =>
    let time := rest.takeWhile isToken
    if (readTime (.literal edition) time).isSome then
      (token ++ ' ' :: time, rest.drop time.length)
    else (token, ' ' :: rest)
  | _, rest => (token, rest)

def readScalar (edition : Edition) (text : Text) : Option (Value × Text) := do
  let (token, rest) := readToken edition text
  return (← scalar? edition token, rest)

mutual

/-- A value of at most `depth` nested levels. -/
def readValue (edition : Edition) : (bound depth : Nat) → Text → Option (Value × Text)
  | 0, _, _ => none
  | bound + 1, depth, text =>
    match text with
    | '[' :: rest =>
      match depth with
      | 0 => none
      | depth + 1 => do
        let (elements, rest) ← readElements edition bound depth rest
        return (.array elements, rest)
    | '\x7b' :: rest =>
      match depth with
      | 0 => none
      | depth + 1 =>
        match skipGap edition rest with
        | '\x7d' :: rest => some (.table .braces [], rest)
        | rest => do
          let (entries, rest) ← readEntries edition bound depth [] rest
          return (.table .braces entries, rest)
    | '"' :: _ | '\'' :: _ => do
      let (s, rest) ← readText edition text
      return (.text (String.ofList s), rest)
    | text => readScalar edition text

/-- The elements up to the closing bracket; a comma may follow the last. -/
def readElements (edition : Edition) : (bound depth : Nat) → Text → Option (List Value × Text)
  | 0, _, _ => none
  | bound + 1, depth, text =>
    match skipLines (text.length + 1) text with
    | ']' :: rest => some ([], rest)
    | rest => do
      let (value, rest) ← readValue edition bound depth rest
      match skipLines (rest.length + 1) rest with
      | ']' :: rest => return ([value], rest)
      | ',' :: rest =>
        let (values, rest) ← readElements edition bound depth rest
        return (value :: values, rest)
      | _ => none

/-- The entries up to the closing brace. In the first edition they stand on one line, and
no comma follows the last. -/
def readEntries (edition : Edition) :
    (bound depth : Nat) → Table → Text → Option (Table × Text)
  | 0, _, _, _ => none
  | bound + 1, depth, table, text => do
    let (key, rest) ← readKey edition text
    let rest ← skip '=' (skipGap edition rest)
    let (value, rest) ← readValue edition bound depth (skipGap edition rest)
    let table ← table.insertDotted edition key value
    match skipGap edition rest with
    | '\x7d' :: rest => return (table, rest)
    | ',' :: rest =>
      match edition, skipGap edition rest with
      | .v11, '\x7d' :: rest => return (table, rest)
      | _, rest => readEntries edition bound depth table rest
    | _ => none

end

inductive Statement where
  | table (path : List String)
  | element (path : List String)
  | entry (key : List String) (value : Value)

def readHeader (edition : Edition) : Text → Option (Statement × Text)
  | '[' :: rest => do
    let (path, rest) ← readKey edition rest
    return (.element path, ← skip ']' (← skip ']' rest))
  | text => do
    let (path, rest) ← readKey edition text
    return (.table path, ← skip ']' rest)

def readStatement (edition : Edition) (text : Text) : Option (Statement × Text) :=
  match text with
  | '[' :: rest => readHeader edition rest
  | text => do
    let (key, rest) ← readKey edition text
    let rest ← skip '=' rest
    let (value, rest) ←
      readValue edition (2 * rest.length + 2) (greatestDepth edition) (skipSpaces rest)
    return (.entry key value, rest)

/-- The root table and the path of the table that entries go to. -/
structure Builder where
  root : Table
  path : List String

def Builder.add (edition : Edition) (b : Builder) : Statement → Option Builder
  | .table path => (b.root.openTable path).map (⟨·, path⟩)
  | .element path => (b.root.openElement path).map (⟨·, path⟩)
  | .entry key value => (b.root.insertAt edition b.path key value).map (⟨·, b.path⟩)

def readLines (edition : Edition) : Nat → Builder → Text → Option Table
  | 0, _, _ => none
  | bound + 1, b, text =>
    match skipLines (text.length + 1) text with
    | [] => some b.root
    | rest => do
      let (statement, rest) ← readStatement edition rest
      let b ← b.add edition statement
      readLines edition bound b (← lineEnd? rest)

def skipByteOrderMark : Text → Text
  | '\ufeff' :: rest => rest
  | text => text

/-- The value of a document: its root table, unless that stands for a date and time. -/
def parse? (edition : Edition) (document : String) : Option Value := do
  let text := skipByteOrderMark document.toList
  let root ← readLines edition (text.length + 1) ⟨[], []⟩ text
  Value.settle? edition (.table .header root)

end BlobLifecycle.Toml
