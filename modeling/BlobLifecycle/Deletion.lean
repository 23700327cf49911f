import BlobLifecycle.Handle.Encoding
import BlobLifecycle.Program

/-! Which handles a record mutation frees, by field scope, and the plan of one commit.
Sets of handles are lists without repetition. -/
namespace BlobLifecycle

inductive Mutation where
  /-- The replaced version keeps its value. -/
  | newVersion
  /-- An existing version is overwritten; only mutable ones can be. -/
  | inPlace
  deriving DecidableEq, Repr

structure FieldChange where
  field : FieldTypeId
  scope : Scope
  /-- The value that is replaced, if the field had one. -/
  before : Option FieldValue
  after : Option FieldValue
  mutation : Mutation
  /-- The field's values in the other live versions of the record. -/
  retained : List FieldValue
  deriving DecidableEq, Repr

abbrev HandleSet := List Handle

namespace HandleSet

def ofValue (value : Option FieldValue) : HandleSet := (value.map FieldValue.handles).getD []

def ofValues (values : List FieldValue) : HandleSet :=
  (values.flatMap FieldValue.handles).eraseDups

def without (a b : HandleSet) : HandleSet := a.filter fun h => ¬h ∈ b

def union (a b : HandleSet) : HandleSet := (a ++ b).eraseDups

end HandleSet

/-- Whether the mutation takes the former value out of the record. -/
def Scope.replacesValue : Scope → Mutation → Bool
  | .nonVersioned, _ => true
  | .versionedMutable, .inPlace => true
  | .versionedMutable, .newVersion => false
  | .versioned, _ => false

/-- Handles of the replaced value that neither the new value nor a retained one holds. -/
def freedHandles (before after : Option FieldValue) (scope : Scope) (mutation : Mutation)
    (retained : List FieldValue) : HandleSet :=
  if scope.replacesValue mutation then
    ((HandleSet.ofValue before).without (.ofValue after)).without (.ofValues retained)
  else []

/-- What an ordinary update frees: only fields without versions lose anything. -/
def freedByUpdate (old new : Option FieldValue) (scope : Scope) : HandleSet :=
  freedHandles old new scope .newVersion []

/-- What overwriting a version in place frees. -/
def freedByOverwrite (old new : Option FieldValue) (scope : Scope) (retained : List FieldValue) :
    HandleSet :=
  freedHandles old new scope .inPlace retained

def freedByRecord (values : List FieldValue) : HandleSet := .ofValues values

/-- What deleting a version frees: what no other live version holds. -/
def freedByVersion (values others : List FieldValue) : HandleSet :=
  (HandleSet.ofValues values).without (.ofValues others)

/-- Handles in the order of their locators. That leaves the order of handles with one locator
open, as iteration over a set does; to put these by their encodings is a choice made here. -/
def sortByLocator (handles : HandleSet) : List Handle :=
  handles.mergeSort fun a b =>
    a.locator < b.locator ∨ (a.locator = b.locator ∧ a.encode ≤ b.encode)

namespace FieldChange

/-- Stored handles of the new value that the replaced one lacks. -/
def introduced (c : FieldChange) : HandleSet :=
  HandleSet.without ((HandleSet.ofValue c.after).filter (·.tier.isStored)) (.ofValue c.before)

def freed (c : FieldChange) : HandleSet :=
  freedHandles c.before c.after c.scope c.mutation c.retained

def references (c : FieldChange) (record : RecordId) : List Reference :=
  (sortByLocator c.introduced).map fun h => ⟨h, record, c.field⟩

end FieldChange

/-- The blob work of one record commit. -/
structure BlobPlan where
  /-- Reserved before the commit and confirmed after it. -/
  toReserve : List Reference
  /-- Deleted once the commit is durable. -/
  toDelete : HandleSet
  deriving DecidableEq, Repr

namespace BlobPlan

def isEmpty (p : BlobPlan) : Bool := p.toReserve = [] ∧ p.toDelete = []

def ofChanges (record : RecordId) (changes : List FieldChange) : BlobPlan :=
  ⟨changes.flatMap (·.references record),
    changes.foldl (fun set c => HandleSet.union set c.freed) []⟩

end BlobPlan

def planMutation (record : RecordId) (changes : List FieldChange) : Program BlobPlan := do
  let plan := BlobPlan.ofChanges record changes
  .log (.planned record plan.toReserve.length plan.toDelete.length)
  return plan

def Handle.deleteContent (h : Handle) : Program Nat := do
  match ← .ask (.delete h.tier h.locator) with
  | .ok () => return 1
  | .error e =>
    .log (if e.isNotFound then .alreadyGone h.label else .deletionFailed h.label h.tier e)
    return 0

def deleteAll : List Handle → Program Nat
  | [] => return 0
  | h :: rest => do
    let deleted ← h.deleteContent
    return deleted + (← deleteAll rest)

/-- Deletes stored content now, as far as it goes, and counts the objects deleted. -/
def deleteNow (handles : List Handle) : Program Nat :=
  deleteAll (handles.filter (·.tier.isStored))

end BlobLifecycle
