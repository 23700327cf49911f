import BlobLifecycle.Field.Schema
import BlobLifecycle.Tier
import BlobLifecycle.Varint

/-! Every way in which an operation fails, as causes, and the one text of each. -/
namespace BlobLifecycle

abbrev Locator := Bytes

/-- The part of an encoded handle that must be text. -/
inductive TextPart where
  | mediaType
  | displayName
  deriving DecidableEq, Repr

def TextPart.label : TextPart → String
  | mediaType => "media type"
  | displayName => "display name"

inductive Corruption where
  | endOfHandle
  | unknownTag (tag : UInt8)
  | varintOverflow
  | varintTooLong
  | sizeOutOfRange
  | lengthExceedsHandle
  | notUtf8 (part : TextPart)
  | trailingBytes (count : Nat)
  | inlineSize (payload size : Nat)
  | withoutLocator (tier : Tier)
  | notStored
  | negativeSize (size : Int)
  | notUuid (locator : Locator)
  deriving DecidableEq, Repr

def Corruption.message : Corruption → String
  | endOfHandle => "unexpected end of handle"
  | unknownTag tag => s!"unknown tier tag 0x{hexText [tag]}"
  | varintOverflow => "varint overflow"
  | varintTooLong => "varint too long"
  | sizeOutOfRange => "size does not fit in i64"
  | lengthExceedsHandle => "length prefix exceeds handle"
  | notUtf8 part => s!"{part.label} is not valid UTF-8"
  | trailingBytes count => s!"{count} trailing bytes after handle"
  | inlineSize payload size => s!"inline payload is {payload} bytes but size is {size}"
  | withoutLocator tier => s!"{tier.name} handle without locator"
  | notStored => "inline content is embedded, not stored"
  | negativeSize size => s!"size {size} is negative"
  | notUuid locator => s!"large blob locator {hexText locator} is not a uuid"

def Corruption.ofVarint : Varint.Failure → Corruption
  | .endOfInput => endOfHandle
  | .overflow => varintOverflow
  | .tooLong => varintTooLong

/-- What stands in the way of a claim or of its confirmation. -/
inductive Obstacle where
  | expired
  | claimedFor (holder : RecordField)
  | changedConcurrently
  | notClaimed
  | reaped
  deriving DecidableEq, Repr

def Obstacle.message : Obstacle → String
  | expired => "it has expired"
  | claimedFor holder =>
    s!"it is reserved for record {holder.record.text} field {holder.field.text}"
  | changedConcurrently => "it changed concurrently"
  | notClaimed => "it is not reserved"
  | reaped => "it has been reaped"

/-- Why a record may not be committed with a blob; `blob` is the blob's short form. -/
inductive Refusal where
  | unavailable (blob : String)
  | unusable (blob : String) (record : RecordId) (obstacle : Obstacle)
  | unconfirmable (blob : String) (record : RecordId) (obstacle : Obstacle)
  deriving DecidableEq, Repr

def Refusal.message : Refusal → String
  | unavailable blob =>
    s!"blob {blob} is not available: it is already used by a record or has expired"
  | unusable blob record obstacle =>
    s!"blob {blob} cannot be used by record {record.text}: {obstacle.message}"
  | unconfirmable blob record obstacle =>
    s!"blob {blob} cannot be confirmed for record {record.text}: {obstacle.message}"

/-- Failures of the ledger, of a store or of the surrounding repository. -/
inductive StorageFault where
  | unknownTier (name : String)
  | unknownVariant (name : String) (expected : List String)
  | inlineEntry
  | halfClaim (locator : Locator)
  | entryInsertion
  | mediumInsertion
  | foreignLocator (tier : Tier)
  | shapeMismatch (field : FieldTypeId) (actual declared : Shape)
  | io (path : String)
  | directoryCreation (path : String)
  | metadataWrite
  | publication
  | metadataSyntax (path : String)
  /-- A failure in the words of the party that reports it. -/
  | reported (text : String)
  deriving DecidableEq, Repr

def quotedNames (names : List String) : String :=
  ", ".intercalate (names.map fun name => s!"\x60{name}\x60")

def StorageFault.message : StorageFault → String
  | unknownTier name => s!"unknown storage tier: {name}"
  | unknownVariant name expected =>
    s!"unknown variant \x60{name}\x60, expected one of {quotedNames expected}"
  | inlineEntry => "inline blobs are never incubated"
  | halfClaim locator => s!"incubation entry {hexText locator} has a half-written reservation"
  | entryInsertion => "Failed to insert incubation entry"
  | mediumInsertion => "Failed to insert medium blob"
  | foreignLocator tier =>
    s!"{tier.name} backend committed to a different locator than it allocated"
  | shapeMismatch field actual declared =>
    s!"value of field {field.text} is {actual.label} but the field type declares {declared.label}"
  | io path => s!"I/O on {path}"
  | directoryCreation path => s!"Failed to create {path}"
  | metadataWrite => "Failed to write blob meta"
  | publication => "Failed to publish blob data"
  | metadataSyntax path => s!"Failed to parse {path}"
  | reported text => text

inductive BlobError where
  | corruptHandle (reason : Corruption)
  | notFound (tier : Tier) (locator : Locator)
  | indexOutOfBounds (shape : Shape) (indexes : List Nat)
  | invalidAddressing (shape : Shape) (actual : Nat)
  | invalidRecord (refusal : Refusal)
  | fieldTypeNotFound (field : FieldTypeId)
  | fieldNotFound (record : RecordId) (field : FieldTypeId)
  | recordNotFound (record : RecordId)
  | notABlobField (field : FieldTypeId)
  | sizeMismatch (declared written : Int)
  | storage (fault : StorageFault)
  deriving DecidableEq, Repr

namespace BlobError

/-- Indexes in brackets, separated by a comma and a blank. -/
def indexList (indexes : List Nat) : String :=
  "[" ++ ", ".intercalate (indexes.map Nat.repr) ++ "]"

def message : BlobError → String
  | corruptHandle reason => s!"corrupt blob handle: {reason.message}"
  | notFound tier locator => s!"blob not found in {tier.name} store: {hexText locator}"
  | indexOutOfBounds shape indexes =>
    s!"index {indexList indexes} is out of bounds for {shape.label} field value"
  | invalidAddressing shape actual =>
    s!"{shape.label} field value requires {shape.arity} index(es), got {actual}"
  | invalidRecord refusal => s!"invalid record: {refusal.message}"
  | fieldTypeNotFound field => s!"field type not found: {field.text}"
  | fieldNotFound record field => s!"field {field.text} not present on record {record.text}"
  | recordNotFound record => s!"record not found: {record.text}"
  | notABlobField field => s!"field type {field.text} does not hold blobs"
  | sizeMismatch declared written =>
    s!"declared size is {declared} bytes but {written} bytes were written"
  | storage fault => fault.message

def isNotFound : BlobError → Bool
  | notFound .. => true
  | _ => false

end BlobError

def Tier.parse (name : String) : Except BlobError Tier :=
  match Tier.ofName? name with
  | some tier => .ok tier
  | none => .error (.storage (.unknownTier name))

def Scope.parse (name : String) : Except BlobError Scope :=
  match Scope.ofName? name with
  | some scope => .ok scope
  | none => .error (.storage (.unknownVariant name (Scope.all.map Scope.name)))

def Shape.parse (name : String) : Except BlobError Shape :=
  match Shape.ofName? name with
  | some shape => .ok shape
  | none => .error (.storage (.unknownVariant name (Shape.all.map Shape.name)))

end BlobLifecycle
