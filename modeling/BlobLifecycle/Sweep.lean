import BlobLifecycle.Program

/-! Sweeps remove content whose write was never confirmed. A listed entry is only a
hint: each step acts on the current row, and content is deleted only after the row
was condemned. -/
namespace BlobLifecycle

structure SweepSettings where
  /-- Entries written or claimed less than this long ago are left alone. -/
  graceInterval : Int
  batchSize : Nat
  deriving DecidableEq, Repr

/-- Settings whose batches hold an entry at least. -/
def SweepSettings.ofConfigured (graceInterval : Int) (batchSize : Nat) : SweepSettings :=
  ⟨graceInterval, max batchSize 1⟩

inductive SweepOutcome where
  | completed (report : SweepReport)
  /-- Another sweep holds the lock; nothing was done. -/
  | alreadyRunning
  deriving DecidableEq, Repr

inductive EntryOutcome where
  | reaped
  | staleRemoved
  | released
  | skipped
  deriving DecidableEq, Repr

namespace SweepReport

def count (r : SweepReport) (outcome : Except BlobError EntryOutcome) : SweepReport :=
  let r := { r with examined := r.examined + 1 }
  match outcome with
  | .ok .reaped => { r with reaped := r.reaped + 1 }
  | .ok .staleRemoved => { r with staleRemoved := r.staleRemoved + 1 }
  | .ok .released => { r with released := r.released + 1 }
  | .ok .skipped => { r with skipped := r.skipped + 1 }
  | .error _ => { r with failed := r.failed + 1 }

end SweepReport

namespace Entry

/-- Deletes the content of a condemned entry, then the entry. -/
def reap (e : Entry) : Operation EntryOutcome := do
  let outcome ← match ← ExceptT.lift (.ask (.delete e.tier e.locator)) with
    | .ok () => pure .reaped
    | .error error => if error.isNotFound then pure .staleRemoved else throw error
  let _ ← Operation.ofReply (.ask (.remove e.locator))
  Operation.log (.reaped e.locator e.tier)
  return outcome

def condemnAndReap (e : Entry) (now : Timestamp) : Operation EntryOutcome := do
  let condemned ← .ofReply (.ask (.condemn e now))
  if condemned then e.reap else return .skipped

/-- Drops a claim whose record was committed although the confirmation never came. -/
def confirmLate (e : Entry) (holder : RecordField) : Operation EntryOutcome := do
  let released ← .ofReply (.ask (.release e.locator holder))
  Operation.log (.lateConfirm e.locator holder.record released)
  return if released then .released else .skipped

/-- Decides about the current state of an expired entry. -/
def judge (e : Entry) (now : Timestamp) : Operation EntryOutcome := do
  if e.condemnedAt.isSome then e.reap
  else match e.claim with
    | none => e.condemnAndReap now
    | some holder =>
      let history ← .ofReply (.ask (.fieldHistory holder.record holder.field))
      if history.any (·.holdsObject e.tier e.locator) then e.confirmLate holder
      else e.condemnAndReap now

def isFresh (e : Entry) (cutoff : Timestamp) : Bool :=
  e.condemnedAt.isNone && cutoff ≤ e.lastActivity

def process (listed : Entry) (cutoff now : Timestamp) : Operation EntryOutcome := do
  match ← .ofReply (.ask (.entry listed.locator)) with
  | none => return .skipped
  | some e => if e.isFresh cutoff then return .skipped else e.judge now

end Entry

/-- Handles the entries of a page in order. Errors of single entries are logged and counted. -/
def sweepPage (cutoff now : Timestamp) : List Entry → SweepReport → Program SweepReport
  | [], report => return report
  | e :: rest, report => do
    let outcome ← (e.process cutoff now).run
    if let .error error := outcome then .log (.reapFailed e.locator e.tier error)
    sweepPage cutoff now rest (report.count outcome)

/-- Handles page after page until one is short, and at most `pages` of them. Only a
failure to list ends the sweep with an error. -/
def sweepPages (batchSize : Nat) (cutoff now : Timestamp) :
    (pages : Nat) → Option Locator → SweepReport → Operation SweepReport
  | 0, _, report => return report
  | pages + 1, cursor, report => do
    let page ← .ofReply (.ask (.listExpired cutoff cursor batchSize))
    let report ← ExceptT.lift (sweepPage cutoff now page report)
    match page.getLast? with
    | none => return report
    | some last =>
      if page.length < batchSize then return report
      else sweepPages batchSize cutoff now pages (some last.locator) report

def sweep (settings : SweepSettings) (pages : Nat) : Operation SweepReport := do
  let now ← Operation.now
  let report ← sweepPages settings.batchSize (now.back settings.graceInterval) now pages none .zero
  if report.isEventful then Operation.log (.sweepFinished report)
  return report

/-- Sweeps unless another sweep runs. -/
def runSweep (settings : SweepSettings) (pages : Nat) : Operation SweepOutcome := ExceptT.mk do
  if ← .ask .beginSweep then
    let result ← (sweep settings pages).run
    .ask .endSweep
    return result.map .completed
  else
    .log .sweepRunning
    return .ok .alreadyRunning

end BlobLifecycle
