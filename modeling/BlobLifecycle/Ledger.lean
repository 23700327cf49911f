import BlobLifecycle.Ledger.Entry
import BlobLifecycle.LocatorMap

/-! The ledger of incubating blobs. Every change of a row is one conditional step
whose condition names the state it expects, so that no lock outlives a step. -/
namespace BlobLifecycle

abbrev Ledger := LocatorMap LedgerRow

inductive ClaimOutcome where
  | claimed
  /-- Already held for the same record and field; the claim time is renewed. -/
  | renewed
  | missing
  | conflict (entry : Entry)
  deriving DecidableEq, Repr

namespace Ledger

def get (ledger : Ledger) (locator : Locator) : Except BlobError (Option Entry) :=
  match ledger.find? locator with
  | none => .ok none
  | some row => (row.toEntry locator).map some

/-- Enters new content. A locator is entered once. -/
def incubate (ledger : Ledger) (locator : Locator) (tier : Tier) (time : Timestamp) :
    Except BlobError Ledger :=
  match LedgerRow.ofWrite tier time with
  | .error e => .error e
  | .ok row =>
    if ledger.contains locator then .error (.storage .entryInsertion)
    else .ok (ledger.insert locator row)

/-- Claims a free entry, or renews a claim of the same holder. -/
def claim (ledger : Ledger) (locator : Locator) (holder : RecordField) (time : Timestamp) :
    Except BlobError ClaimOutcome × Ledger :=
  match ledger.find? locator with
  | none => (.ok .missing, ledger)
  | some row =>
    if row.Claimable then
      (.ok .claimed, ledger.modify locator fun row =>
        { row with
          record := some holder.record, field := some holder.field, claimedAt := some time })
    else if row.HeldFor holder then
      (.ok .renewed, ledger.modify locator fun row => { row with claimedAt := some time })
    else ((row.toEntry locator).map .conflict, ledger)

/-- Takes back a claim that the holder still has. -/
def unclaim (ledger : Ledger) (locator : Locator) (holder : RecordField) : Bool × Ledger :=
  match ledger.find? locator with
  | some row =>
    if row.HeldFor holder then
      (true, ledger.modify locator fun row =>
        { row with record := none, field := none, claimedAt := none })
    else (false, ledger)
  | none => (false, ledger)

/-- Removes an entry that the holder still has: its content now belongs to the record. -/
def release (ledger : Ledger) (locator : Locator) (holder : RecordField) : Bool × Ledger :=
  match ledger.find? locator with
  | some row => if row.HeldFor holder then (true, ledger.erase locator) else (false, ledger)
  | none => (false, ledger)

/-- Marks an entry that is still as observed for removal. -/
def condemn (ledger : Ledger) (observed : Entry) (time : Timestamp) : Bool × Ledger :=
  match ledger.find? observed.locator with
  | some row =>
    if row.Unchanged observed then
      (true, ledger.modify observed.locator fun row => { row with condemnedAt := some time })
    else (false, ledger)
  | none => (false, ledger)

def remove (ledger : Ledger) (locator : Locator) : Bool × Ledger :=
  (ledger.contains locator, ledger.erase locator)

/-- A page of at most `limit` elements; limits above the signed words do not bound it. -/
def page (limit : Nat) (l : List α) : List α := if limit ≤ Word.greatest then l.take limit else l

def isAfter (cursor : Option Locator) (locator : Locator) : Bool :=
  match cursor with
  | none => true
  | some c => c < locator

/-- The first expired entries after the cursor, by locator. -/
def listExpired (ledger : Ledger) (cutoff : Timestamp) (cursor : Option Locator) (limit : Nat) :
    Except BlobError (List Entry) :=
  (page limit (ledger.entries.filter fun e => e.2.Expired cutoff && isAfter cursor e.1)).mapM
    fun e => e.2.toEntry e.1

end Ledger

end BlobLifecycle
