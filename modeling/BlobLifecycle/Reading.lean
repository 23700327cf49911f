import BlobLifecycle.Handle.Encoding
import BlobLifecycle.Program

/-! Reads by handle, by encoded handle and by record field. -/
namespace BlobLifecycle

def openRead (h : Handle) : Operation Bytes := .ofReply (.ask (.openRead h.tier h.locator))

def openEncodedRead (encoded : Bytes) : Operation Bytes := do
  let h ← Operation.ofExcept (Handle.decode encoded)
  openRead h

/-- Reads the blob at the given indexes of a record's field. Faults of the schema come
before those of the record, and both before any store is asked. -/
def openFieldRead (record : RecordId) (version : Option Nat) (field : FieldTypeId)
    (indexes : List Nat) : Operation Bytes := do
  let some type ← .ofReply (.ask (.fieldType field)) | throw (.fieldTypeNotFound field)
  if !type.holdsBlobs then throw (.notABlobField field)
  let value ← match ← .ofReply (.ask (.readField record version field)) with
    | .recordMissing => throw (.recordNotFound record)
    | .fieldAbsent => throw (.fieldNotFound record field)
    | .value v => pure v
  if value.shape ≠ type.shape then
    throw (.storage (.shapeMismatch field value.shape type.shape))
  let h ← Operation.ofExcept (value.resolve indexes)
  openRead h

end BlobLifecycle
