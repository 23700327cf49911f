import BlobLifecycle.Uuid

/-! Names of the surrounding repository's records and field types. -/
namespace BlobLifecycle

structure RecordId where
  text : String
  deriving DecidableEq, Repr

structure FieldTypeId where
  text : String
  deriving DecidableEq, Repr

/-- A field of a record, the unit that a blob is claimed for. -/
structure RecordField where
  record : RecordId
  field : FieldTypeId
  deriving DecidableEq, Repr

/-- The text of a fresh identifier drawn from sixteen bytes of entropy. -/
def freshIdentifier (entropy : Bytes) : String := ((Uuid.text? (Uuid.random entropy)).getD "")

def RecordId.fresh (entropy : Bytes) : RecordId := ⟨freshIdentifier entropy⟩
def FieldTypeId.fresh (entropy : Bytes) : FieldTypeId := ⟨freshIdentifier entropy⟩

/-- Identifiers are ordered by their text, code point by code point. -/
def RecordId.order (a b : RecordId) : Ordering := compare a.text b.text
def FieldTypeId.order (a b : FieldTypeId) : Ordering := compare a.text b.text

end BlobLifecycle
