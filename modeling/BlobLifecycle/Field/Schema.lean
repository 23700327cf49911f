import BlobLifecycle.Identifier

/-! What the repository declares about a field: its versioning scope, the nesting
of its values and whether these hold blobs. -/
namespace BlobLifecycle

/-- How long a field's values, and so their blobs, stay live. -/
inductive Scope where
  | nonVersioned
  | versioned
  | versionedMutable
  deriving DecidableEq, Repr

namespace Scope

def name : Scope → String
  | nonVersioned => "non_versioned"
  | versioned => "versioned"
  | versionedMutable => "versioned_mutable"

def all : List Scope := [nonVersioned, versioned, versionedMutable]

def ofName? (name : String) : Option Scope := all.find? (·.name == name)

end Scope

inductive Shape where
  | scalar
  | list
  | hierarchy
  | listOfHierarchy
  deriving DecidableEq, Repr

namespace Shape

def name : Shape → String
  | scalar => "scalar"
  | list => "list"
  | hierarchy => "hierarchy"
  | listOfHierarchy => "list_of_hierarchy"

def label : Shape → String
  | scalar => "scalar"
  | list => "list"
  | hierarchy => "hierarchy"
  | listOfHierarchy => "list-of-hierarchy"

def all : List Shape := [scalar, list, hierarchy, listOfHierarchy]

def ofName? (name : String) : Option Shape := all.find? (·.name == name)

def arity : Shape → Nat
  | scalar => 0
  | list | hierarchy => 1
  | listOfHierarchy => 2

end Shape

/-- The primitive type of a field's values; `other` carries its name. -/
inductive ValueKind where
  | blob
  | other (name : String)
  deriving DecidableEq, Repr

structure FieldType where
  id : FieldTypeId
  scope : Scope
  shape : Shape
  kind : ValueKind
  deriving DecidableEq, Repr

def FieldType.holdsBlobs (t : FieldType) : Bool := t.kind = .blob

end BlobLifecycle
