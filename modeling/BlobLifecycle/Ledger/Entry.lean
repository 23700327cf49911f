import BlobLifecycle.Handle
import BlobLifecycle.Number.Word

/-! Ledger entries: stored content that no committed record is known to hold yet. -/
namespace BlobLifecycle

/-- Milliseconds of the program's clock, within the signed 64-bit range. -/
abbrev Timestamp := Int

namespace Timestamp

/-- Subtraction that stops at the ends of the range. -/
def back (t : Timestamp) (interval : Int) : Timestamp :=
  max Word.least (min Word.greatest (t - interval))

end Timestamp

/-- The intent that a record's field holds a blob. -/
structure Reference where
  handle : Handle
  record : RecordId
  field : FieldTypeId
  deriving DecidableEq, Repr

def Reference.holder (r : Reference) : RecordField := ⟨r.record, r.field⟩

structure Entry where
  locator : Locator
  tier : Tier
  writtenAt : Timestamp
  claim : Option RecordField
  /-- The latest claim for the same record and field. -/
  claimedAt : Option Timestamp
  /-- Set once a sweep has begun to remove the content. -/
  condemnedAt : Option Timestamp
  deriving DecidableEq, Repr

namespace Entry

inductive State where
  | written
  | reserved
  | reaping
  deriving DecidableEq, Repr

def written (locator : Locator) (tier : Tier) (time : Timestamp) : Entry :=
  ⟨locator, tier, time, none, none, none⟩

/-- The grace interval runs from the write or from a later claim. -/
def lastActivity (e : Entry) : Timestamp :=
  match e.claimedAt with
  | some t => max t e.writtenAt
  | none => e.writtenAt

def state (e : Entry) : State :=
  match e.condemnedAt, e.claim with
  | some _, _ => .reaping
  | none, some _ => .reserved
  | none, none => .written

/-- What keeps others from claiming or confirming the entry; `unclaimed` says why a
free entry does not serve either. -/
def obstacle (e : Entry) (unclaimed : Obstacle) : Obstacle :=
  match e.condemnedAt, e.claim with
  | some _, _ => .expired
  | none, some holder => .claimedFor holder
  | none, none => unclaimed

end Entry

/-- A row of the ledger table. Its columns admit more than entries: any tier name,
and a record without a field. -/
structure LedgerRow where
  tier : String
  writtenAt : Timestamp
  record : Option RecordId
  field : Option FieldTypeId
  claimedAt : Option Timestamp
  condemnedAt : Option Timestamp
  deriving DecidableEq, Repr

namespace LedgerRow

/-- The entry that a row stands for. The tier is judged before the claim. -/
def toEntry (locator : Locator) (row : LedgerRow) : Except BlobError Entry := do
  let tier ← Tier.parse row.tier
  let claim ← match row.record, row.field with
    | some record, some field => .ok (some ⟨record, field⟩)
    | none, none => .ok none
    | _, _ => .error (.storage (.halfClaim locator))
  return ⟨locator, tier, row.writtenAt, claim, row.claimedAt, row.condemnedAt⟩

def ofWrite (tier : Tier) (time : Timestamp) : Except BlobError LedgerRow :=
  if tier.isStored then .ok ⟨tier.name, time, none, none, none, none⟩
  else .error (.storage .inlineEntry)

/-- Free to be claimed: neither held by a record nor condemned. -/
def Claimable (row : LedgerRow) : Prop := row.record = none ∧ row.condemnedAt = none

/-- Held for exactly this record and field, and not condemned. -/
def HeldFor (row : LedgerRow) (holder : RecordField) : Prop :=
  row.record = some holder.record ∧ row.field = some holder.field ∧ row.condemnedAt = none

/-- Still as observed: same claim, same claim time, not condemned. An observed free
entry says nothing about the claim time. -/
def Unchanged (row : LedgerRow) (observed : Entry) : Prop :=
  row.condemnedAt = none ∧
    match observed.claim with
    | none => row.record = none
    | some holder => row.record = some holder.record ∧ row.field = some holder.field ∧
        row.claimedAt = observed.claimedAt

/-- Written, and claimed if at all, before the cutoff. -/
def Expired (row : LedgerRow) (cutoff : Timestamp) : Prop :=
  row.writtenAt < cutoff ∧ ∀ t, row.claimedAt = some t → t < cutoff

instance (row : LedgerRow) : Decidable row.Claimable := inferInstanceAs (Decidable (_ ∧ _))
instance (row : LedgerRow) (holder : RecordField) : Decidable (row.HeldFor holder) :=
  inferInstanceAs (Decidable (_ ∧ _))
instance (row : LedgerRow) (observed : Entry) : Decidable (row.Unchanged observed) :=
  match h : observed.claim with
  | none => decidable_of_iff (row.condemnedAt = none ∧ row.record = none) (by simp [Unchanged, h])
  | some holder =>
    decidable_of_iff (row.condemnedAt = none ∧ row.record = some holder.record ∧
      row.field = some holder.field ∧ row.claimedAt = observed.claimedAt) (by simp [Unchanged, h])
instance (row : LedgerRow) (cutoff : Timestamp) : Decidable (row.Expired cutoff) :=
  decidable_of_iff (row.writtenAt < cutoff ∧ row.claimedAt.all (· < cutoff) = true)
    (by cases h : row.claimedAt <;> simp [Expired, h])

end LedgerRow

end BlobLifecycle
