import BlobLifecycle.Sql.Catalog
import BlobLifecycle.Sql.Clause

/-! Statements that make, remove and change tables, views, indexes and triggers. Each gives
the state after it, or nothing if it is faulty. -/
namespace BlobLifecycle.Sql

def State.create? (s : State) (isTemporary isLenient : Bool) (name : QualifiedName) (kind : Kind)
    (columns : Option (List String)) : Option State := do
  if isTemporary ∧ name.schema.isSome ∧ name.schema ≠ some temporarySchema then none
  let schema ← s.schema? (if isTemporary then some temporarySchema else name.schema)
  if isInternal name.name then none
  match s.catalog.find? schema name.name with
  | some old => if isLenient ∧ old.kind ≠ .index then some s else none
  | none => return s.add ⟨schema, kind, name.name, columns, none⟩

def createTable? (s : State) (isTemporary : Bool) (ts : List Token) : Option State := do
  let (isLenient, ts) ← readUnlessExists ts
  let (name, ts) ← readQualified ts
  match ts with
  | .word "as" :: query =>
    if isQuery query then s.create? isTemporary isLenient name .table none else none
  | .mark '(' :: ts =>
    let (body, options) ← readGroup 0 ts
    let columns ← columns? (splitParts 0 [] body)
    if areOptions body options then s.create? isTemporary isLenient name .table (some columns)
    else none
  | _ => none

def createView? (s : State) (isTemporary : Bool) (ts : List Token) : Option State := do
  let (isLenient, ts) ← readUnlessExists ts
  let (name, ts) ← readQualified ts
  let ts ← match ts with
    | .mark '(' :: ts => (readGroup 0 ts).map (·.2)
    | ts => some ts
  match ts with
  | .word "as" :: query =>
    if isQuery query then s.create? isTemporary isLenient name .view none else none
  | _ => none

/-- Kinds of tables whose content a module keeps. -/
def tableModules : List String := ["fts3", "fts4", "fts5", "rtree"]

def createVirtualTable? (s : State) (ts : List Token) : Option State := do
  let (isLenient, ts) ← readUnlessExists ts
  let (name, ts) ← readQualified ts
  match ts with
  | .word "using" :: .word module :: _ =>
    if module ∈ tableModules then s.create? false isLenient name .table none else none
  | _ => none

/-- Whether an indexed expression is no plain name that the table lacks. -/
def isIndexable (columns : Option (List String)) : List Token → Bool
  | [] => false
  | .word name :: rest =>
    rest.head? = some (.mark '(') ||
      match columns with
      | some names => name ∈ names ++ ["rowid", "oid", "_rowid_"]
      | none => true
  | _ => true

def createIndex? (s : State) (ts : List Token) : Option State := do
  let (isLenient, ts) ← readUnlessExists ts
  let (name, ts) ← readQualified ts
  match ts with
  | .word "on" :: owner :: .mark '(' :: ts =>
    let table ← s.table? name.schema (← owner.name?)
    let (body, rest) ← readGroup 0 ts
    if !(splitParts 0 [] body).all (isIndexable table.columns) ∨ isInternal name.name then none
    if rest ≠ [] ∧ rest.head? ≠ some (.word "where") then none
    match s.catalog.find? table.schema name.name with
    | some old => if isLenient ∧ old.kind = .index then some s else none
    | none => return s.add ⟨table.schema, .index, name.name, none, some table.name⟩
  | _ => none

def createTrigger? (s : State) (isTemporary : Bool) (ts : List Token) : Option State := do
  let (isLenient, ts) ← readUnlessExists ts
  let (name, ts) ← readQualified ts
  let owner ← (ts.dropWhile (· ≠ .word "on"))[1]?
  let table ← s.resolve? name.schema (← owner.name?) [.table, .view]
  let schema := if isTemporary then temporarySchema else table.schema
  match s.resolve? (some schema) name.name [.trigger] with
  | some _ => if isLenient then some s else none
  | none => return s.add ⟨schema, .trigger, name.name, none, some table.name⟩

def create? (s : State) : List Token → Option State
  | .word "table" :: ts => createTable? s false ts
  | .word "temp" :: .word "table" :: ts | .word "temporary" :: .word "table" :: ts =>
    createTable? s true ts
  | .word "view" :: ts => createView? s false ts
  | .word "temp" :: .word "view" :: ts | .word "temporary" :: .word "view" :: ts =>
    createView? s true ts
  | .word "virtual" :: .word "table" :: ts => createVirtualTable? s ts
  | .word "index" :: ts | .word "unique" :: .word "index" :: ts => createIndex? s ts
  | .word "trigger" :: ts => createTrigger? s false ts
  | .word "temp" :: .word "trigger" :: ts | .word "temporary" :: .word "trigger" :: ts =>
    createTrigger? s true ts
  | _ => none

/-- The kind that a word names, and the kinds that share its names. -/
def kind? : Token → Option (Kind × List Kind)
  | .word "table" => some (.table, [.table, .view])
  | .word "view" => some (.view, [.table, .view])
  | .word "index" => some (.index, [.index])
  | .word "trigger" => some (.trigger, [.trigger])
  | _ => none

def drop? (s : State) : List Token → Option State
  | [] => none
  | what :: ts => do
    let (kind, kinds) ← kind? what
    let (isLenient, ts) ← readIfExists ts
    let (name, rest) ← readQualified ts
    if rest ≠ [] then none
    match s.resolve? name.schema name.name kinds with
    | none => if isLenient then some s else none
    | some o =>
      if o.kind ≠ kind then none
      else
        return s.change (List.filter fun p =>
          p ≠ o && !(p.schema = o.schema && p.owner = some o.name))

/-- The columns of a table after a change, if it can be made. -/
def alteredColumns? (columns : List String) : List Token → Option (List String)
  | .word "rename" :: .word "column" :: a :: .word "to" :: [b]
  | .word "rename" :: a :: .word "to" :: [b] => do
    let (old, new) := (← a.name?, ← b.name?)
    if old ∉ columns ∨ (new ∈ columns ∧ new ≠ old) then none
    return columns.map fun c => if c = old then new else c
  | .word "drop" :: .word "column" :: [a] | .word "drop" :: [a] => do
    let old ← a.name?
    if old ∉ columns ∨ columns.length = 1 then none
    return columns.filter (· ≠ old)
  | .word "add" :: .word "column" :: a :: _ | .word "add" :: a :: _ => do
    let new ← a.name?
    if new ∈ columns then none
    return columns ++ [new]
  | _ => none

def alter? (s : State) : List Token → Option State
  | .word "table" :: ts => do
    let (name, ts) ← readQualified ts
    let table ← s.table? name.schema name.name
    let replace (new : SchemaObject) : State := s.change (List.map fun o =>
      if o = table then new
      else if o.schema = table.schema ∧ o.owner = some table.name then
        { o with owner := some new.name }
      else o)
    match ts with
    | .word "rename" :: .word "to" :: [new] =>
      let new ← new.name?
      if (s.catalog.find? table.schema new).isSome ∨ isInternal new then none
      return replace { table with name := new }
    | ts =>
      match table.columns with
      | some columns => return replace { table with columns := some (← alteredColumns? columns ts) }
      | none => return s
  | _ => none

end BlobLifecycle.Sql
