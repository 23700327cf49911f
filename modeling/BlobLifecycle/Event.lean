import BlobLifecycle.Ledger.Entry

/-! What the engine logs: each event with its level, its message and its fields. -/
namespace BlobLifecycle

structure SweepReport where
  /-- Expired entries looked at. -/
  examined : Nat
  /-- Content deleted and entry removed. -/
  reaped : Nat
  /-- Entry removed whose content was gone already. -/
  staleRemoved : Nat
  /-- Entry removed because a record holds the content. -/
  released : Nat
  /-- Entry changed or gone since it was listed. -/
  skipped : Nat
  /-- Entry left to a later sweep because of an error. -/
  failed : Nat
  deriving DecidableEq, Repr

namespace SweepReport

def zero : SweepReport := ⟨0, 0, 0, 0, 0, 0⟩

/-- Whether the sweep changed anything or ran into an error. -/
def isEventful (r : SweepReport) : Bool := 0 < r.reaped + r.staleRemoved + r.released + r.failed

end SweepReport

inductive Level where
  | error
  | warn
  | info
  | debug
  deriving DecidableEq, Repr

def Level.name : Level → String
  | error => "ERROR"
  | warn => "WARN"
  | info => "INFO"
  | debug => "DEBUG"

inductive Event where
  | incubating (locator : Locator)
  | mediumStored (locator : Locator) (size : Nat)
  | largeStored (locator : Locator) (size : Nat)
  | reserved (blob : String) (holder : RecordField)
  | claimChanged (blob : String) (record : RecordId)
  | undoFailed (blob : String) (record : RecordId) (error : BlobError)
  | lost (blob : String) (record : RecordId) (obstacle : Obstacle)
  | alreadyConfirmed (blob : String)
  | planned (record : RecordId) (reserve delete : Nat)
  | alreadyGone (blob : String)
  | deletionFailed (blob : String) (tier : Tier) (error : BlobError)
  | sweepRunning
  | sweepFinished (report : SweepReport)
  | sweepFailed (error : BlobError)
  | lateConfirm (locator : Locator) (record : RecordId) (released : Bool)
  | reaped (locator : Locator) (tier : Tier)
  | reapFailed (locator : Locator) (tier : Tier) (error : BlobError)
  | schedulerStarted
  | schedulerStopped
  | migrating
  | migrated
  | vaultReady (database largeStore : String) (thresholds : Thresholds)
  deriving DecidableEq, Repr

namespace Event

def level : Event → Level
  | sweepFailed .. => .error
  | claimChanged .. | undoFailed .. | lost .. | deletionFailed .. | reapFailed .. => .warn
  | sweepFinished .. | schedulerStarted | schedulerStopped | migrating | migrated
  | vaultReady .. => .info
  | incubating .. | mediumStored .. | largeStored .. | reserved .. | alreadyConfirmed ..
  | planned .. | alreadyGone .. | sweepRunning | lateConfirm .. | reaped .. => .debug

def message : Event → String
  | incubating .. => "Blob incubating"
  | mediumStored .. => "Medium blob stored"
  | largeStored .. => "Large blob stored"
  | reserved .. => "Blob reserved"
  | claimChanged .. => "Claim changed before it could be undone"
  | undoFailed .. => "Failed to undo blob claim"
  | lost .. => "Blob lost before its commit was confirmed"
  | alreadyConfirmed .. => "Blob already confirmed"
  | planned .. => "Planned blob mutation"
  | alreadyGone .. => "Blob already gone"
  | deletionFailed .. => "Failed to delete blob"
  | sweepRunning => "Sweep already running"
  | sweepFinished .. => "Incubation sweep finished"
  | sweepFailed .. => "Incubation sweep failed"
  | lateConfirm .. => "Late confirm of reserved blob"
  | reaped .. => "Reaped incubating blob"
  | reapFailed .. => "Failed to reap incubating blob"
  | schedulerStarted => "Incubation monitor scheduler started"
  | schedulerStopped => "Incubation monitor scheduler stopped"
  | migrating => "Running database migrations..."
  | migrated => "Database migrations completed"
  | vaultReady .. => "Blob vault ready"

/-- Names and texts of the fields, in the order in which they are written. -/
def fields : Event → List (String × String)
  | incubating locator => [("locator", hexText locator)]
  | mediumStored locator size | largeStored locator size =>
    [("locator", hexText locator), ("size_bytes", size.repr)]
  | reserved blob holder =>
    [("locator", blob), ("record_id", holder.record.text), ("field_type_id", holder.field.text)]
  | claimChanged blob record => [("locator", blob), ("record_id", record.text)]
  | undoFailed blob record error =>
    [("locator", blob), ("record_id", record.text), ("error", error.message)]
  | lost blob record obstacle =>
    [("locator", blob), ("record_id", record.text), ("reason", obstacle.message)]
  | alreadyConfirmed blob | alreadyGone blob => [("locator", blob)]
  | planned record reserve delete =>
    [("record_id", record.text), ("reserve", reserve.repr), ("delete", delete.repr)]
  | deletionFailed blob tier error =>
    [("locator", blob), ("tier", tier.name), ("error", error.message)]
  | sweepFinished r =>
    [("examined", r.examined.repr), ("reaped", r.reaped.repr),
      ("stale_removed", r.staleRemoved.repr), ("released", r.released.repr),
      ("failed", r.failed.repr)]
  | sweepFailed error => [("error", error.message)]
  | lateConfirm locator record released =>
    [("locator", hexText locator), ("record_id", record.text),
      ("released", if released then "true" else "false")]
  | reaped locator tier => [("locator", hexText locator), ("tier", tier.name)]
  | reapFailed locator tier error =>
    [("locator", hexText locator), ("tier", tier.name), ("error", error.message)]
  | vaultReady database largeStore thresholds =>
    [("database", database), ("large_store", largeStore),
      ("inline_max_bytes", toString thresholds.inlineMax),
      ("medium_max_bytes", toString thresholds.mediumMax)]
  | sweepRunning | schedulerStarted | schedulerStopped | migrating | migrated => []

/-- Level, message and fields, separated by blanks. -/
def line (e : Event) : String :=
  " ".intercalate (e.level.name :: e.message :: e.fields.map fun (name, text) => s!"{name}={text}")

end Event

end BlobLifecycle
