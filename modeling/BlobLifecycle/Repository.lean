import BlobLifecycle.Field.Value

/-! What the engine may ask of the record repository that surrounds it. The engine
never writes records. -/
namespace BlobLifecycle

inductive FieldRead where
  | recordMissing
  | fieldAbsent
  | value (v : FieldValue)
  deriving DecidableEq, Repr

structure Repository where
  fieldType : FieldTypeId → Except BlobError (Option FieldType)
  /-- The field at a version, or at the latest one. -/
  readField : RecordId → Option Nat → FieldTypeId → Except BlobError FieldRead
  /-- The field's values in every live version of the record. -/
  fieldHistory : RecordId → FieldTypeId → Except BlobError (List FieldValue)

namespace Repository

/-- A repository without field types and records. -/
def empty : Repository := ⟨fun _ => .ok none, fun _ _ _ => .ok .recordMissing, fun _ _ => .ok []⟩

end Repository

end BlobLifecycle
