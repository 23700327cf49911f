import BlobLifecycle.Text.Path
import BlobLifecycle.Tier

/-! The seven settings of a vault and their defaults. -/
namespace BlobLifecycle

structure Settings where
  /-- The largest blob that its handle carries. -/
  inlineMaxBytes : Int
  /-- The largest blob in the table store. -/
  mediumMaxBytes : Int
  /-- The least age of an unconfirmed entry before it is reaped, in milliseconds. -/
  graceInterval : Int
  batchSize : Nat
  /-- Milliseconds between two scheduled sweeps. -/
  sweepInterval : Nat
  databasePath : String
  largeStoreDirectory : String
  deriving DecidableEq, Repr

namespace Settings

/-- Defaults whose paths lie in the data directory. -/
def defaults (dataDirectory : String) : Settings :=
  ⟨4 * 1024, 200 * 1024, 60 * 60 * 1000, 100, 60 * 1000,
    Path.join dataDirectory "blobvault.db", Path.join dataDirectory "large"⟩

def thresholds (s : Settings) : Thresholds := ⟨s.inlineMaxBytes, s.mediumMaxBytes⟩

end Settings

end BlobLifecycle
