import BlobLifecycle.Handle

/-! Field values and the one traversal behind look-up, membership and flattening. -/
namespace BlobLifecycle

/-- An ordered sequence of blobs, addressed by position. -/
abbrev HierarchyPath := List Handle

inductive FieldValue where
  | blob (handle : Handle)
  | list (handles : List Handle)
  | path (elements : HierarchyPath)
  | paths (paths : List HierarchyPath)
  deriving DecidableEq, Repr

namespace FieldValue

def shape : FieldValue → Shape
  | .blob _ => .scalar
  | .list _ => .list
  | .path _ => .hierarchy
  | .paths _ => .listOfHierarchy

/-- A visitor sees the coordinates of a handle and the handle; it goes on with
`yield` and ends the traversal with `done`. -/
abbrev Visitor (σ : Type) := σ → List Nat → Handle → ForInStep σ

def visitSequence (visitor : Visitor σ) (coordinates : Nat → List Nat) :
    Nat → List Handle → σ → ForInStep σ
  | _, [], s => .yield s
  | i, h :: rest, s =>
    match visitor s (coordinates i) h with
    | .done s => .done s
    | .yield s => visitSequence visitor coordinates (i + 1) rest s

def visitPaths (visitor : Visitor σ) : Nat → List HierarchyPath → σ → ForInStep σ
  | _, [], s => .yield s
  | i, p :: rest, s =>
    match visitSequence visitor (fun j => [i, j]) 0 p s with
    | .done s => .done s
    | .yield s => visitPaths visitor (i + 1) rest s

def visit (value : FieldValue) (visitor : Visitor σ) (s : σ) : ForInStep σ :=
  match value with
  | .blob h => visitor s [] h
  | .list hs | .path hs => visitSequence visitor (fun i => [i]) 0 hs s
  | .paths ps => visitPaths visitor 0 ps s

/-- The handle at the given indexes, whose number must be the arity of the shape. -/
def resolve (value : FieldValue) (indexes : List Nat) : Except BlobError Handle :=
  if indexes.length ≠ value.shape.arity then
    .error (.invalidAddressing value.shape indexes.length)
  else
    let found := value.visit (σ := Option Handle)
      (fun s here h => if here = indexes then .done (some h) else .yield s) none
    match found.value with
    | some h => .ok h
    | none => .error (.indexOutOfBounds value.shape indexes)

def anyHandle (value : FieldValue) (p : Handle → Bool) : Bool :=
  (value.visit (fun _ _ h => if p h then .done true else .yield false) false).value

def contains (value : FieldValue) (handle : Handle) : Bool := value.anyHandle (· = handle)

/-- Whether the value holds the object of this tier and locator under any name. -/
def holdsObject (value : FieldValue) (tier : Tier) (locator : Locator) : Bool :=
  value.anyHandle fun h => h.tier = tier ∧ h.locator = locator

def handles (value : FieldValue) : List Handle :=
  (value.visit (σ := List Handle) (fun s _ h => .yield (s ++ [h])) []).value.eraseDups

end FieldValue

end BlobLifecycle
