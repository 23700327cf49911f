import BlobLifecycle.Vault

/-! The effects of single requests, and the one way in which each of them changes the
row of a locator. -/
namespace BlobLifecycle

inductive Effect where
  | read (time : Timestamp)
  | locked
  | unlocked
  | issued (locator : Locator)
  | entered (locator : Locator) (tier : Tier) (time : Timestamp)
  | found (e : Entry)
  | missed (locator : Locator)
  | claimed (locator : Locator) (holder : RecordField) (time : Timestamp)
  | renewed (locator : Locator) (holder : RecordField) (time : Timestamp)
  | unclaimed (locator : Locator) (holder : RecordField)
  | released (locator : Locator) (holder : RecordField)
  | condemned (e : Entry) (time : Timestamp)
  | removed (locator : Locator)
  | published (tier : Tier) (locator : Locator) (content : Bytes)
  | deleted (tier : Tier) (locator : Locator)
  | asked (holder : RecordField) (values : List FieldValue)
  /-- Not a request: the record was written with the handles of these references. -/
  | persisted (references : List Reference)
  deriving DecidableEq, Repr

theorem Tier.name_of_ofName? {name : String} {tier : Tier} (named : ofName? name = some tier) :
    tier.name = name := by
  unfold ofName? at named
  split at named <;> cases named <;> rfl

def Entry.row (e : Entry) : LedgerRow :=
  ⟨e.tier.name, e.writtenAt, e.claim.map (·.record), e.claim.map (·.field), e.claimedAt,
    e.condemnedAt⟩

namespace LedgerRow

theorem toEntry_eq_ok {locator : Locator} {row : LedgerRow} {e : Entry} :
    row.toEntry locator = .ok e ↔ e.locator = locator ∧ row = e.row := by
  obtain ⟨name, writtenAt, record, field, claimedAt, condemnedAt⟩ := row
  constructor
  · intro read
    unfold toEntry Tier.parse at read
    cases named : Tier.ofName? name with
    | none => simp [named, bind, Except.bind] at read
    | some tier =>
      cases record <;> cases field <;>
        simp [named, bind, Except.bind, pure, Except.pure] at read
      all_goals
        subst read
        simp [Entry.row, Tier.name_of_ofName? named]
  · rintro ⟨rfl, same⟩
    simp only [Entry.row, mk.injEq] at same
    obtain ⟨rfl, rfl, rfl, rfl, rfl, rfl⟩ := same
    obtain ⟨locator, tier, writtenAt, claim, claimedAt, condemnedAt⟩ := e
    cases claim <;> simp [toEntry, Tier.parse, bind, Except.bind, pure, Except.pure]

def fresh (tier : Tier) (time : Timestamp) : LedgerRow := ⟨tier.name, time, none, none, none, none⟩

def claimFor (row : LedgerRow) (holder : RecordField) (time : Timestamp) : LedgerRow :=
  { row with record := some holder.record, field := some holder.field, claimedAt := some time }

def unclaim (row : LedgerRow) : LedgerRow :=
  { row with record := none, field := none, claimedAt := none }

end LedgerRow

def Effect.target? : Effect → Option Locator
  | .entered locator _ _ | .claimed locator _ _ | .renewed locator _ _ | .unclaimed locator _
  | .released locator _ | .removed locator => some locator
  | .condemned e _ => some e.locator
  | _ => none

inductive RowStep (locator : Locator) : Effect → Option LedgerRow → Option LedgerRow → Prop
  | other {d : Effect} {row : Option LedgerRow} (apart : d.target? ≠ some locator) :
      RowStep locator d row row
  | entered {tier : Tier} {time : Timestamp} (stored : tier.isStored = true) :
      RowStep locator (.entered locator tier time) none (some (.fresh tier time))
  | claimed {row : LedgerRow} {holder : RecordField} {time : Timestamp} (free : row.Claimable) :
      RowStep locator (.claimed locator holder time) (some row) (some (row.claimFor holder time))
  | renewed {row : LedgerRow} {holder : RecordField} {time : Timestamp} (held : row.HeldFor holder) :
      RowStep locator (.renewed locator holder time) (some row)
        (some { row with claimedAt := some time })
  | unclaimed {row : LedgerRow} {holder : RecordField} (held : row.HeldFor holder) :
      RowStep locator (.unclaimed locator holder) (some row) (some row.unclaim)
  | released {row : LedgerRow} {holder : RecordField} (held : row.HeldFor holder) :
      RowStep locator (.released locator holder) (some row) none
  | condemned {row : LedgerRow} {e : Entry} {time : Timestamp} (here : e.locator = locator)
      (unchanged : row.Unchanged e) :
      RowStep locator (.condemned e time) (some row) (some { row with condemnedAt := some time })
  | removed {row : Option LedgerRow} : RowStep locator (.removed locator) row none

namespace RowStep

variable {locator : Locator} {holder : RecordField} {before after : Option LedgerRow}

theorem unmoved {d : Effect} (step : RowStep locator d before after)
    (apart : d.target? ≠ some locator) : after = before := by
  cases step with
  | other => rfl
  | condemned here unchanged => exact (apart (congrArg some here)).elim
  | _ => exact (apart rfl).elim

theorem of_claimed {time : Timestamp} (step : RowStep locator (.claimed locator holder time) before after) :
    ∃ row, before = some row ∧ row.Claimable ∧ after = some (row.claimFor holder time) := by
  cases step with
  | other apart => exact (apart rfl).elim
  | claimed free => exact ⟨_, rfl, free, rfl⟩

theorem of_released (step : RowStep locator (.released locator holder) before after) :
    ∃ row, before = some row ∧ row.HeldFor holder ∧ after = none := by
  cases step with
  | other apart => exact (apart rfl).elim
  | released held => exact ⟨_, rfl, held, rfl⟩

theorem of_condemned {e : Entry} {time : Timestamp}
    (step : RowStep e.locator (.condemned e time) before after) :
    ∃ row, before = some row ∧ row.Unchanged e ∧ after = some { row with condemnedAt := some time } := by
  cases step with
  | other apart => exact (apart rfl).elim
  | condemned here unchanged => exact ⟨_, rfl, unchanged, rfl⟩

end RowStep

namespace Ledger

variable {ledger ledger' : Ledger} {locator : Locator} {holder : RecordField} {time : Timestamp}

/-- The effect accounts for every row. -/
def Follows (ledger : Ledger) (d : Effect) (ledger' : Ledger) : Prop :=
  ∀ key, RowStep key d (ledger.find? key) (ledger'.find? key)

/-- The effect accounts for every row if there was one, and otherwise nothing changed. -/
def FollowsIf (ledger : Ledger) (d : Effect) : Bool × Ledger → Prop
  | (true, after) => ledger.Follows d after
  | (false, after) => after = ledger

theorem follows_of_target {d : Effect} (aims : d.target? = some locator)
    (here : RowStep locator d (ledger.find? locator) (ledger'.find? locator))
    (elsewhere : ∀ key, key ≠ locator → ledger'.find? key = ledger.find? key) :
    ledger.Follows d ledger' := by
  intro key
  by_cases same : key = locator
  · subst same
    exact here
  · rw [elsewhere key same]
    exact .other (by rw [aims]; intro h; exact same (Option.some.inj h).symm)

theorem follows_self {d : Effect} (aimless : d.target? = none) : ledger.Follows d ledger :=
  fun _ => .other (by rw [aimless]; intro h; cases h)

theorem incubate_follows {tier : Tier} (entered : ledger.incubate locator tier time = .ok ledger') :
    ledger.Follows (.entered locator tier time) ledger' := by
  unfold incubate LedgerRow.ofWrite at entered
  by_cases stored : tier.isStored = true
  · by_cases present : ledger.contains locator = true
    · simp [stored, present] at entered
    · simp only [stored, if_true, present, Bool.false_eq_true, if_false, Except.ok.injEq] at entered
      subst entered
      have absent : ledger.find? locator = none := by simpa [LocatorMap.contains] using present
      apply follows_of_target rfl
      · rw [absent, LocatorMap.find?_insert, if_pos rfl]
        exact .entered stored
      · intro key apart
        rw [LocatorMap.find?_insert, if_neg apart]
  · simp [stored] at entered

theorem modify_follows {d : Effect} {row : LedgerRow} {f : LedgerRow → LedgerRow}
    (aims : d.target? = some locator) (present : ledger.find? locator = some row)
    (step : RowStep locator d (some row) (some (f row))) :
    ledger.Follows d (ledger.modify locator f) := by
  apply follows_of_target aims
  · rw [LocatorMap.find?_modify, if_pos rfl, present]
    exact step
  · intro key apart
    rw [LocatorMap.find?_modify, if_neg apart]

theorem erase_follows {d : Effect} (aims : d.target? = some locator)
    (step : RowStep locator d (ledger.find? locator) none) :
    ledger.Follows d (ledger.erase locator) := by
  apply follows_of_target aims
  · rw [LocatorMap.find?_erase, if_pos rfl]
    exact step
  · intro key apart
    rw [LocatorMap.find?_erase, if_neg apart]

/-- A claim succeeds in two ways, and changes nothing otherwise. -/
theorem claim_follows (ledger : Ledger) (locator : Locator) (holder : RecordField)
    (time : Timestamp) :
    match ledger.claim locator holder time with
    | (.ok .claimed, after) => ledger.Follows (.claimed locator holder time) after
    | (.ok .renewed, after) => ledger.Follows (.renewed locator holder time) after
    | (_, after) => after = ledger := by
  unfold claim
  cases present : ledger.find? locator with
  | none => rfl
  | some row =>
    by_cases free : row.Claimable
    · simp only [free, if_true]
      exact modify_follows rfl present (.claimed free)
    · by_cases held : row.HeldFor holder
      · simp only [free, if_false, held, if_true]
        exact modify_follows rfl present (.renewed held)
      · simp only [free, if_false, held]
        cases row.toEntry locator <;> rfl

theorem unclaim_follows (ledger : Ledger) (locator : Locator) (holder : RecordField) :
    ledger.FollowsIf (.unclaimed locator holder) (ledger.unclaim locator holder) := by
  unfold unclaim
  cases present : ledger.find? locator with
  | none => rfl
  | some row =>
    by_cases held : row.HeldFor holder
    · simp only [held, if_true]
      exact modify_follows rfl present (.unclaimed held)
    · simp only [held, if_false, FollowsIf]

theorem release_follows (ledger : Ledger) (locator : Locator) (holder : RecordField) :
    ledger.FollowsIf (.released locator holder) (ledger.release locator holder) := by
  unfold release
  cases present : ledger.find? locator with
  | none => rfl
  | some row =>
    by_cases held : row.HeldFor holder
    · simp only [held, if_true]
      exact erase_follows rfl (by rw [present]; exact .released held)
    · simp only [held, if_false, FollowsIf]

theorem condemn_follows (ledger : Ledger) (e : Entry) (time : Timestamp) :
    ledger.FollowsIf (.condemned e time) (ledger.condemn e time) := by
  unfold condemn
  cases present : ledger.find? e.locator with
  | none => rfl
  | some row =>
    by_cases unchanged : row.Unchanged e
    · simp only [unchanged, if_true]
      exact modify_follows rfl present (.condemned rfl unchanged)
    · simp only [unchanged, if_false, FollowsIf]

theorem remove_follows (ledger : Ledger) (locator : Locator) :
    ledger.Follows (.removed locator) (ledger.remove locator).2 :=
  erase_follows rfl .removed

end Ledger

end BlobLifecycle
