import BlobLifecycle.LocatorMap
import BlobLifecycle.Store.Metadata
import BlobLifecycle.Text.Path

/-! The bulk store: below its root, one directory per object with the published
content, content that is still being written, and a metadata file. -/
namespace BlobLifecycle

/-- The content is published by one renaming; until then readers see none. -/
structure ObjectDirectory where
  content : Option Bytes
  isPartial : Bool
  metadata : Option String
  deriving DecidableEq, Repr

inductive LargeObject where
  | directory (d : ObjectDirectory)
  | plainFile
  deriving DecidableEq, Repr

namespace LargeObject

def toDirectory : Option LargeObject → ObjectDirectory
  | some (directory d) => d
  | _ => ⟨none, false, none⟩

def isPublished : LargeObject → Bool
  | directory d => d.content.isSome
  | plainFile => false

end LargeObject

structure LargeStore where
  root : String
  /-- Whether a plain file stands in the way of the directory that holds all objects. -/
  isBlocked : Bool
  objects : LocatorMap LargeObject

namespace LargeStore

/-- The directory below a root that holds all objects. -/
def objectsIn (root : String) : String := Path.join root "blobs"

/-- What stands at or above the path of an object. -/
def object? (store : LargeStore) (locator : Locator) : Option LargeObject :=
  if store.isBlocked then some .plainFile else store.objects.find? locator

/-- The directory of a locator, which must be a sixteen-byte identifier. -/
def directoryOf (store : LargeStore) (locator : Locator) : Except BlobError String :=
  match Uuid.text? locator with
  | some name => .ok (Path.join (objectsIn store.root) name)
  | none => .error (.corruptHandle (.notUuid locator))

def contentFile : String := "data.bin"
def metadataFile : String := "meta.json"

def put (store : LargeStore) (locator : Locator) (object : LargeObject) : LargeStore :=
  { store with objects := store.objects.insert locator object }

/-- Makes the object's directory, if need be, and begins its content anew. -/
def beginContent (store : LargeStore) (locator : Locator) : Except BlobError LargeStore := do
  let path ← store.directoryOf locator
  match store.object? locator with
  | some .plainFile => .error (.storage (.directoryCreation path))
  | object =>
    .ok (store.put locator (.directory { LargeObject.toDirectory object with isPartial := true }))

/-- Writes the metadata and publishes the content that was begun. -/
def publish (store : LargeStore) (locator : Locator) (metadata : Metadata) (content : Bytes) :
    Except BlobError Unit × LargeStore :=
  match store.object? locator with
  | some (.directory d) =>
    let d := { d with metadata := some metadata.render }
    if d.isPartial then
      let d := { d with content := some content, isPartial := false }
      (.ok (), store.put locator (.directory d))
    else (.error (.storage .publication), store.put locator (.directory d))
  | _ => (.error (.storage .metadataWrite), store)

def read (store : LargeStore) (locator : Locator) : Except BlobError Bytes := do
  let path ← store.directoryOf locator
  match store.object? locator with
  | some (.directory d) =>
    match d.content with
    | some content => .ok content
    | none => .error (.notFound .large locator)
  | some .plainFile => .error (.storage (.io (Path.join path contentFile)))
  | none => .error (.notFound .large locator)

def readMetadata (store : LargeStore) (locator : Locator) : Except BlobError Metadata := do
  let path ← store.directoryOf locator
  let file := Path.join path metadataFile
  match store.object? locator with
  | some (.directory d) =>
    match d.metadata with
    | some text =>
      match Metadata.parse? text with
      | some metadata => .ok metadata
      | none => .error (.storage (.metadataSyntax file))
    | none => .error (.notFound .large locator)
  | some .plainFile => .error (.storage (.io file))
  | none => .error (.notFound .large locator)

/-- Removes the whole directory, partial content included. -/
def delete (store : LargeStore) (locator : Locator) : Except BlobError Unit × LargeStore :=
  match store.directoryOf locator with
  | .error e => (.error e, store)
  | .ok path =>
    match store.object? locator with
    | some (.directory _) => (.ok (), { store with objects := store.objects.erase locator })
    | some .plainFile => (.error (.storage (.io path)), store)
    | none => (.error (.notFound .large locator), store)

end LargeStore

end BlobLifecycle
