import BlobLifecycle.Sql.Definition

/-! Single statements of all kinds. Each gives the state after it, or nothing if it is
faulty. -/
namespace BlobLifecycle.Sql

def transact? (s : State) (ts : List Token) : Option State :=
  match ts.filter (· ≠ .word "transaction") with
  | [.word "savepoint", name] => name.name?.map fun n => s.beginAs (some n)
  | .word "begin" :: mode =>
    if s.pending ≠ [] ∨ mode ∉ [[], [.word "deferred"], [.word "immediate"], [.word "exclusive"]]
    then none
    else some (s.beginAs none)
  | [.word "commit"] | [.word "end"] => if s.pending = [] then none else some { s with pending := [] }
  | [.word "rollback"] => if s.pending = [] then none else some s.rollback
  | [.word "rollback", .word "to", name]
  | [.word "rollback", .word "to", .word "savepoint", name] => do
    let name ← name.name?
    match s.pending.dropWhile fun (n, _) => n ≠ some name with
    | (n, before) :: rest => some { s with catalog := before, pending := (n, before) :: rest }
    | [] => none
  | [.word "release", name] | [.word "release", .word "savepoint", name] => do
    let name ← name.name?
    match s.pending.dropWhile fun (n, _) => n ≠ some name with
    | _ :: rest => some { s with pending := rest }
    | [] => none
  | _ => none

/-- Whether a query may be read from what comes first. -/
def isSource (s : State) (ts : List Token) : Bool :=
  ts.head? = some (.mark '(') ||
    match readQualified ts with
    | some (name, _) =>
      isInternal name.name || (s.resolve? name.schema name.name [.table, .view]).isSome
    | none => false

def readsTables (s : State) : List Token → Bool
  | [] => true
  | t :: rest =>
    (isSource s rest || (t ≠ .word "from" && t ≠ .word "join")) && readsTables s rest

/-- A query's tables must exist, and without any table it has no columns to name. -/
def isSound (s : State) (query : List Token) : Bool :=
  isQuery query && readsTables s query &&
    (query.contains (.word "from") ||
      match query with
      | .word "select" :: .word w :: rest =>
        w ∈ ["null", "true", "false", "distinct", "all", "case", "not", "cast", "exists"] ||
          rest.head? = some (.mark '(')
      | _ => true)

def rowSize? : List Token → Option Nat
  | .word "values" :: .mark '(' :: ts =>
    (readGroup 0 ts).map fun (row, _) => (splitParts 0 [] row).length
  | _ => none

/-- Whether a new row has a value for each column of the table, or for each that it lists. -/
def fillsColumns (columns : List String) : List Token → Bool
  | .mark '(' :: ts =>
    match readGroup 0 ts with
    | some (group, rest) =>
      let names := (splitParts 0 [] group).map fun part => part.head?.bind Token.name?
      names.all (fun name => name.any columns.contains) &&
        (rowSize? rest).all (· = names.length)
    | none => false
  | ts => (rowSize? ts).all (· = columns.length)

def inserts (s : State) (ts : List Token) : Bool :=
  match readQualified ts with
  | some (name, rest) =>
    (s.table? name.schema name.name).any fun table => table.columns.all (fillsColumns · rest)
  | none => false

def modifies (s : State) (ts : List Token) : Bool :=
  match readQualified ts with
  | some (name, rest) => (s.table? name.schema name.name).isSome && readsTables s rest
  | none => false

def isKnown (s : State) (ts : List Token) : Bool :=
  ts = [] ||
    match readQualified ts with
    | some (name, []) =>
      (name.schema.isNone && s.schemas.contains name.name) ||
        (s.resolve? name.schema name.name [.table, .index]).isSome
    | _ => false

def change? (s : State) : List Token → Option State
  | .word "pragma" :: name :: _ => name.name?.map fun _ => s
  | .word "analyze" :: ts | .word "reindex" :: ts => if isKnown s ts then some s else none
  | .word "vacuum" :: _ => if s.pending = [] then some s else none
  | .word "create" :: ts => create? s ts
  | .word "drop" :: ts => drop? s ts
  | .word "alter" :: ts => alter? s ts
  | .word "attach" :: ts => do
    let name ← ts.getLast?.bind Token.name?
    return { s with attached := s.attached ++ [name] }
  | .word "detach" :: ts => do
    let name ← ts.getLast?.bind Token.name?
    if name ∈ s.attached then return { s with attached := s.attached.erase name } else none
  | .word "insert" :: ts =>
    let ts := (ts.dropWhile (· ≠ .word "into")).drop 1
    if inserts s ts && modifies s ts then some s else none
  | .word "replace" :: .word "into" :: ts | .word "delete" :: .word "from" :: ts
  | .word "update" :: ts => if modifies s ts then some s else none
  | ts => if isSound s ts then some s else transact? s ts

def execute? (s : State) (statement : List Token) : Option State :=
  if .bad ∈ statement then none
  else
    match statement with
    | [] => some s
    | .word "explain" :: .word "query" :: .word "plan" :: ts | .word "explain" :: ts =>
      (change? s ts).map fun _ => s
    | ts => change? s ts

end BlobLifecycle.Sql
