import BlobLifecycle.Ledger.Entry
import BlobLifecycle.LocatorMap

/-! The table store: one row of content per locator. -/
namespace BlobLifecycle

structure MediumBlob where
  mediaType : String
  content : Bytes
  createdAt : Timestamp
  deriving DecidableEq, Repr

abbrev MediumStore := LocatorMap MediumBlob

namespace MediumStore

/-- Adds a row under a locator that has none. -/
def insertNew (store : MediumStore) (locator : Locator) (blob : MediumBlob) :
    Except BlobError MediumStore :=
  if store.contains locator then .error (.storage .mediumInsertion)
  else .ok (store.insert locator blob)

def read (store : MediumStore) (locator : Locator) : Except BlobError Bytes :=
  match store.find? locator with
  | some blob => .ok blob.content
  | none => .error (.notFound .medium locator)

def delete (store : MediumStore) (locator : Locator) : Except BlobError Unit × MediumStore :=
  if store.contains locator then (.ok (), store.erase locator)
  else (.error (.notFound .medium locator), store)

end MediumStore

end BlobLifecycle
