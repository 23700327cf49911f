import BlobLifecycle.Number.Word
import BlobLifecycle.Settings
import BlobLifecycle.Toml.Document

/-! Sources of settings. A layer holds untyped values for some of the settings; each is
converted only once it is known to be the highest. -/
namespace BlobLifecycle.Settings

inductive Key where
  | inlineMaxBytes
  | mediumMaxBytes
  | graceInterval
  | batchSize
  | sweepInterval
  | databasePath
  | largeStoreDirectory
  deriving DecidableEq, Repr

namespace Key

def name : Key → String
  | inlineMaxBytes => "inline_max_bytes"
  | mediumMaxBytes => "medium_max_bytes"
  | graceInterval => "grace_interval_ms"
  | batchSize => "sweep_batch_size"
  | sweepInterval => "sweep_interval_ms"
  | databasePath => "database_path"
  | largeStoreDirectory => "large_store_dir"

def all : List Key :=
  [inlineMaxBytes, mediumMaxBytes, graceInterval, batchSize, sweepInterval, databasePath,
    largeStoreDirectory]

def ofName? (name : List Char) : Option Key := all.find? fun k => k.name.toList = name

end Key

inductive RawValue where
  | boolean (b : Bool)
  | integer (n : Int)
  | float (x : Binary64)
  | text (s : String)
  /-- A list or a table, which serves for no setting. -/
  | composite
  deriving DecidableEq, Repr

namespace RawValue

/-- Words that stand for yes and no where a number is wanted. -/
def word? (s : String) : Option Bool :=
  match String.ofList (Decimal.lower s.toList) with
  | "true" | "on" | "yes" => some true
  | "false" | "off" | "no" => some false
  | _ => none

def ofBool (b : Bool) : Int := if b then 1 else 0

/-- The value as an integer within the bounds. Floating-point numbers are rounded and
kept within them, whole numbers must lie within them. -/
def toInteger? (least greatest : Int) : RawValue → Option Int
  | boolean b => some (ofBool b)
  | integer n => if least ≤ n ∧ n ≤ greatest then some n else none
  | float x => some (x.toInteger least greatest)
  | text s =>
    match word? s with
    | some b => some (ofBool b)
    | none => Decimal.integer? least greatest s.toList
  | composite => none

def toSigned? : RawValue → Option Int := toInteger? Word.least Word.greatest
def toUnsigned? (v : RawValue) : Option Nat := (v.toInteger? 0 Word.greatestUnsigned).map Int.toNat

def toText? : RawValue → Option String
  | boolean b => some (if b then "true" else "false")
  | integer n => some (toString n)
  | float x => some (Decimal.floatText x)
  | text s => some s
  | composite => none

def ofToml : Toml.Value → RawValue
  | .text s | .datetime s => text s
  | .integer n => integer n
  | .float x => float x
  | .boolean b => boolean b
  | .array _ | .table .. | .tables _ => composite

/-- A text is taken for a truth value, an integer or a number if it is one. -/
def ofText (s : String) : RawValue :=
  match String.ofList (Decimal.lower s.toList) with
  | "true" => boolean true
  | "false" => boolean false
  | _ =>
    match Decimal.integer? Word.least Word.greatest s.toList with
    | some n => integer n
    | none =>
      match Decimal.float? s.toList with
      | some x => float x
      | none => text s

end RawValue

abbrev Layer := List (Key × RawValue)

namespace Layer

def isNameChar (c : Char) : Bool := Toml.isBareKey c

/-- A position in a list is a word, which counts from the end if it is negative. -/
def isPosition (text : List Char) : Bool :=
  let (isNegative, digits) := match text with
    | '-' :: digits => (true, digits)
    | digits => (false, digits)
  match Digits.natural? 10 digits with
  | some n => (Word.signed? (if isNegative then -n else n)).isSome
  | none => false

/-- What may follow a name to address a part of its value: members behind points and
positions in brackets. The first argument bounds their number. -/
def isSelector : Nat → List Char → Bool
  | 0, _ => false
  | _, [] => true
  | bound + 1, '.' :: rest =>
    let member := rest.takeWhile isNameChar
    member ≠ [] && isSelector bound (rest.drop member.length)
  | bound + 1, '[' :: rest =>
    let text := Toml.skipSpaces rest
    let position := text.takeWhile fun c => c = '-' || Digits.isDecimal c
    match Toml.skipSpaces (text.drop position.length) with
    | ']' :: rest => isPosition position && isSelector bound rest
    | _ => false
  | _, _ => false

/-- The setting that a name sets. A name that addresses a part of a setting makes the
whole a composite. -/
def entry? (name : List Char) (value : RawValue) : Option (Key × RawValue) :=
  let root := name.takeWhile isNameChar
  match name.drop root.length with
  | [] => (Key.ofName? root).map (·, value)
  | selector =>
    if isSelector (selector.length + 1) selector then
      (Key.ofName? root).map (·, .composite)
    else none

def get? (l : Layer) (key : Key) : Option RawValue := l.reverse.lookup key

/-- The top-level keys of a document count as they are spelled. -/
def ofDocument? : Toml.Value → Option Layer
  | .table _ t => some (t.filterMap fun (name, v) => entry? name.toList (.ofToml v))
  | _ => none

def variableStart : List Char := "blobvault_".toList

/-- Letters in lower case. Outside ASCII only the Kelvin sign has a lower case in it, and
no other matters to a name of settings. -/
def lowerName (name : List Char) : List Char :=
  Decimal.lower (name.map fun c => if c = '\u212a' then 'k' else c)

/-- The setting name of a variable, whose letters may be of either case. -/
def variableName? (name : String) : Option (List Char) :=
  let name := lowerName name.toList
  if variableStart.isPrefixOf name then some (name.drop variableStart.length) else none

/-- The variables of an environment. A value of a variable with the right beginning must
be text, whether or not it names a setting. -/
def ofEnvironment? (environment : List (String × Bytes)) : Option Layer := do
  let named ← environment.filterMapM fun (name, value) =>
    match variableName? name with
    | some name => (utf8? value).map fun s => some (name, s)
    | none => some none
  return named.filterMap fun (name, s) => entry? name (.ofText s)

def ofSettings (s : Settings) : Layer :=
  [(.inlineMaxBytes, .integer s.inlineMaxBytes), (.mediumMaxBytes, .integer s.mediumMaxBytes),
    (.graceInterval, .integer s.graceInterval), (.batchSize, .integer s.batchSize),
    (.sweepInterval, .integer s.sweepInterval), (.databasePath, .text s.databasePath),
    (.largeStoreDirectory, .text s.largeStoreDirectory)]

end Layer

/-- The value of the highest layer that has the setting; the highest comes first. -/
def highest? (layers : List Layer) (key : Key) : Option RawValue :=
  layers.findSome? (·.get? key)

/-- The settings whose every value is the conversion of its highest layer's. -/
def ofLayers? (layers : List Layer) : Option Settings := do
  let value := highest? layers
  return {
    inlineMaxBytes := ← (← value .inlineMaxBytes).toSigned?
    mediumMaxBytes := ← (← value .mediumMaxBytes).toSigned?
    graceInterval := ← (← value .graceInterval).toSigned?
    batchSize := ← (← value .batchSize).toUnsigned?
    sweepInterval := ← (← value .sweepInterval).toUnsigned?
    databasePath := ← (← value .databasePath).toText?
    largeStoreDirectory := ← (← value .largeStoreDirectory).toText? }

end BlobLifecycle.Settings
