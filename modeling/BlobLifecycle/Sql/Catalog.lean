import BlobLifecycle.Sql.Token

/-! The tables, views, indexes and triggers of a database while a script runs, and the
transactions that may undo what it did. -/
namespace BlobLifecycle.Sql

inductive Kind where
  | table
  | view
  | index
  | trigger
  deriving DecidableEq, Repr

structure SchemaObject where
  schema : String
  kind : Kind
  name : String
  /-- The names of a table's columns, where the statement lists them. -/
  columns : Option (List String)
  /-- The table of an index or a trigger. -/
  owner : Option String
  deriving DecidableEq, Repr

abbrev Catalog := List SchemaObject

/-- The permanent schema, that of one connection, and those of attached databases. -/
def mainSchema : String := "main"
def temporarySchema : String := "temp"

namespace Catalog

/-- The table, view or index of a name. -/
def find? (c : Catalog) (schema name : String) : Option SchemaObject :=
  List.find? (fun o => o.schema = schema && o.name = name && o.kind ≠ .trigger) c

end Catalog

/-- What a script has come to: the catalog, the attached schemas, and of each open
transaction, the latest first, its name and the catalog before it. -/
structure State where
  catalog : Catalog
  attached : List String
  pending : List (Option String × Catalog)

namespace State

def empty : State := ⟨[], [], []⟩

/-- Schemas in the order in which a name is looked up. -/
def schemas (s : State) : List String := temporarySchema :: mainSchema :: s.attached

/-- The schema that is named, or the permanent one. -/
def schema? (s : State) : Option String → Option String
  | none => some mainSchema
  | some name => if name ∈ s.schemas then some name else none

def resolve? (s : State) (schema : Option String) (name : String) (kinds : List Kind) :
    Option SchemaObject :=
  ((schema.map ([·])).getD s.schemas).findSome? fun schema =>
    List.find? (fun o => o.schema = schema && o.name = name && kinds.contains o.kind) s.catalog

def table? (s : State) (schema : Option String) (name : String) : Option SchemaObject :=
  (s.resolve? schema name [.table, .view]).filter (·.kind = .table)

def add (s : State) (o : SchemaObject) : State := { s with catalog := o :: s.catalog }

def change (s : State) (f : Catalog → Catalog) : State := { s with catalog := f s.catalog }

def beginAs (s : State) (name : Option String) : State :=
  { s with pending := (name, s.catalog) :: s.pending }

/-- Undoes all since the outermost transaction began. -/
def rollback (s : State) : State :=
  match s.pending.getLast? with
  | some (_, before) => { s with catalog := before, pending := [] }
  | none => s

end State

end BlobLifecycle.Sql
