import BlobLifecycle.Number.Decimal

/-! TOML values, and the rules by which keys and headers build up tables. -/
namespace BlobLifecycle.Toml

/-- The editions of the language. The later one has more escapes, lets inline tables
stretch over lines and times go without seconds. -/
inductive Edition where
  | v10
  | v11
  deriving DecidableEq, Repr

/-- What brought a table about decides how it may grow. -/
inductive Origin where
  /-- Written in braces; never grows. -/
  | braces
  /-- Defined by its own header. -/
  | header
  /-- Named on the way to another header. -/
  | implied
  /-- Named on the way to a dotted key. -/
  | dotted
  deriving DecidableEq, Repr

inductive Value where
  | text (s : String)
  | integer (n : Int)
  | float (x : Binary64)
  | boolean (b : Bool)
  /-- Dates and times in their normal form. -/
  | datetime (s : String)
  | array (elements : List Value)
  | table (origin : Origin) (entries : List (String × Value))
  /-- Tables of a repeated header, the latest first. -/
  | tables (elements : List (List (String × Value)))

/-- Entries in the order in which their keys came. -/
abbrev Table := List (String × Value)

namespace Table

/-- Replaces the value of a key or adds the key at the end. -/
def set (t : Table) (key : String) (value : Value) : Table :=
  match t with
  | [] => [(key, value)]
  | (k, v) :: rest => if k = key then (k, value) :: rest else (k, v) :: set rest key value

def moveToEnd (t : Table) (key : String) (value : Value) : Table :=
  t.filter (·.1 ≠ key) ++ [(key, value)]

/-- Adds a value under a dotted key. No key is defined twice, and no table that has a
header of its own is extended. In the first edition a dotted key extends only tables that
dotted keys have made; later also those named on the way to a header. -/
def insertDotted (edition : Edition) (t : Table) : List String → Value → Option Table
  | [], _ => none
  | [key], value => if (t.lookup key).isSome then none else some (t.set key value)
  | key :: rest@(_ :: deeper), value =>
    match t.lookup key with
    | none => (insertDotted edition [] rest value).map fun inner => t.set key (.table .dotted inner)
    | some (.table .dotted inner) =>
      (insertDotted edition inner rest value).map fun inner => t.set key (.table .dotted inner)
    | some (.table .implied inner) =>
      if deeper = [] then
        if edition = .v10 then none
        else
          (insertDotted edition inner rest value).map fun inner => t.set key (.table .dotted inner)
      else
        (insertDotted edition inner rest value).map fun inner => t.set key (.table .implied inner)
    | some (.tables (latest :: earlier)) =>
      if deeper = [] then none
      else
        (insertDotted edition latest rest value).map fun inner =>
          t.set key (.tables (inner :: earlier))
    | some _ => none

/-- Changes the innermost table on a header's path. Tables on the way that do not exist
are implied; of a repeated header the latest table is meant. -/
def descend (change : Table → String → Option Table) (t : Table) : List String → Option Table
  | [] => none
  | [key] => change t key
  | key :: rest =>
    match t.lookup key with
    | none => (descend change [] rest).map fun inner => t.set key (.table .implied inner)
    | some (.table .braces _) => none
    | some (.table origin inner) =>
      (descend change inner rest).map fun inner => t.set key (.table origin inner)
    | some (.tables (latest :: earlier)) =>
      (descend change latest rest).map fun inner => t.set key (.tables (inner :: earlier))
    | some _ => none

/-- A header defines its table once. A table that was implied before counts from here. -/
def openTable (t : Table) (path : List String) : Option Table :=
  descend (fun t key =>
    match t.lookup key with
    | none => some (t.set key (.table .header []))
    | some (.table .implied inner) => some (t.moveToEnd key (.table .header inner))
    | some _ => none) t path

/-- A repeated header adds a table to those of the same header. -/
def openElement (t : Table) (path : List String) : Option Table :=
  descend (fun t key =>
    match t.lookup key with
    | none => some (t.set key (.tables [[]]))
    | some (.tables elements) => some (t.set key (.tables ([] :: elements)))
    | some _ => none) t path

/-- Adds a value under a dotted key to the table that the latest header opened. -/
def insertAt (edition : Edition) (t : Table) (opened key : List String) (value : Value) :
    Option Table :=
  if opened = [] then t.insertDotted edition key value
  else
    descend (fun t last =>
      match t.lookup last with
      | some (.table origin inner) =>
        (insertDotted edition inner key value).map fun inner => t.set last (.table origin inner)
      | some (.tables (latest :: earlier)) =>
        (insertDotted edition latest key value).map fun inner =>
          t.set last (.tables (inner :: earlier))
      | _ => none) t opened

end Table

end BlobLifecycle.Toml
