import BlobLifecycle.Proofs.Dialogue

/-! Rows are well formed from their entry on, whatever is asked of the ledger, so that each
reads as an entry and no listing fails because of one of them. -/
namespace BlobLifecycle

namespace LedgerRow

/-- Of a stored tier, claimed with record and field or not at all, and stamped only if claimed. -/
structure WellFormed (row : LedgerRow) : Prop where
  tier : row.tier = Tier.medium.name ∨ row.tier = Tier.large.name
  claim : row.record = none ↔ row.field = none
  stamp : row.claimedAt ≠ none → row.record ≠ none

/-- As rows were before claims were stamped with their time. -/
structure Unstamped (row : LedgerRow) : Prop where
  tier : row.tier = Tier.medium.name ∨ row.tier = Tier.large.name
  claim : row.record = none ↔ row.field = none
  timeless : row.claimedAt = none

theorem Unstamped.wellFormed {row : LedgerRow} (unstamped : row.Unstamped) : row.WellFormed :=
  ⟨unstamped.tier, unstamped.claim, fun stamped => absurd unstamped.timeless stamped⟩

theorem WellFormed.fresh {tier : Tier} (stored : tier.isStored = true) (time : Timestamp) :
    (LedgerRow.fresh tier time).WellFormed where
  tier := by cases tier <;> simp_all [Tier.isStored, LedgerRow.fresh]
  claim := by simp [LedgerRow.fresh]
  stamp := by simp [LedgerRow.fresh]

theorem IsOf.wellFormed {row : LedgerRow} {tier : Tier} (kind : row.IsOf tier) : row.WellFormed := by
  obtain ⟨name, stored, whole⟩ := kind
  refine ⟨?_, ?_, ?_⟩
  · cases tier <;> simp_all [Tier.isStored]
  · rcases whole with ⟨unrecorded, fieldless, -⟩ | ⟨holder, time, recorded, named, -⟩ <;> simp [*]
  · rcases whole with ⟨-, -, unstamped⟩ | ⟨holder, time, recorded, -⟩ <;> simp [*]

theorem WellFormed.claimFor {row : LedgerRow} (wellFormed : row.WellFormed) (holder : RecordField)
    (time : Timestamp) : (row.claimFor holder time).WellFormed :=
  ⟨wellFormed.tier, by simp [LedgerRow.claimFor], by simp [LedgerRow.claimFor]⟩

/-- Taking back a claim of a free row leaves the row as it was. -/
theorem WellFormed.unclaim_claimFor {row : LedgerRow} (wellFormed : row.WellFormed)
    (free : row.Claimable) (holder : RecordField) (time : Timestamp) :
    (row.claimFor holder time).unclaim = row := by
  obtain ⟨unrecorded, -⟩ := free
  have fieldless := wellFormed.claim.1 unrecorded
  have unstamped : row.claimedAt = none :=
    Classical.byContradiction fun stamped => wellFormed.stamp stamped unrecorded
  simp only [LedgerRow.claimFor, LedgerRow.unclaim, ← unrecorded, ← fieldless, ← unstamped]

theorem WellFormed.entry {row : LedgerRow} (wellFormed : row.WellFormed) (locator : Locator) :
    ∃ e : Entry, e.locator = locator ∧ e.tier.isStored = true ∧ row = e.row := by
  obtain ⟨name, writtenAt, record, field, claimedAt, condemnedAt⟩ := row
  obtain ⟨tier, stored, rfl⟩ : ∃ tier : Tier, tier.isStored = true ∧ tier.name = name := by
    rcases wellFormed.tier with rfl | rfl
    · exact ⟨.medium, rfl, rfl⟩
    · exact ⟨.large, rfl, rfl⟩
  cases record with
  | none =>
    obtain rfl : field = none := wellFormed.claim.1 rfl
    exact ⟨⟨locator, tier, writtenAt, none, claimedAt, condemnedAt⟩, rfl, stored, rfl⟩
  | some record =>
    obtain ⟨field, rfl⟩ : ∃ f, field = some f :=
      Option.ne_none_iff_exists'.1 fun none => nomatch wellFormed.claim.2 none
    exact ⟨⟨locator, tier, writtenAt, some ⟨record, field⟩, claimedAt, condemnedAt⟩, rfl, stored, rfl⟩

end LedgerRow

namespace RowStep

variable {locator : Locator} {d : Effect}

/-- Each change sets or clears what belongs together. -/
theorem wellFormed {before : Option LedgerRow} {row' : LedgerRow}
    (step : RowStep locator d before (some row'))
    (start : ∀ row, before = some row → row.WellFormed) : row'.WellFormed := by
  cases step with
  | other apart => exact start _ rfl
  | entered stored => exact .fresh stored _
  | claimed free => exact (start _ rfl).claimFor _ _
  | renewed held =>
    have old := start _ rfl
    exact ⟨old.tier, old.claim, by simp [held.1]⟩
  | unclaimed held =>
    exact ⟨(start _ rfl).tier, by simp [LedgerRow.unclaim], by simp [LedgerRow.unclaim]⟩
  | condemned here unchanged =>
    have old := start _ rfl
    exact ⟨old.tier, old.claim, old.stamp⟩

/-- Tier and time of the write are set once. -/
theorem origin {row row' : LedgerRow} (step : RowStep locator d (some row) (some row')) :
    row'.tier = row.tier ∧ row'.writtenAt = row.writtenAt := by
  cases step <;> exact ⟨rfl, rfl⟩

end RowStep

namespace RowRun

variable {locator : Locator} {ds : List Effect} {before after : Option LedgerRow}

theorem wellFormed {row' : LedgerRow} (run : RowRun locator ds before after)
    (start : ∀ row, before = some row → row.WellFormed) (present : after = some row') :
    row'.WellFormed := by
  induction run with
  | nil => exact start row' present
  | cons step rest ih =>
    refine ih (fun row between => ?_) present
    subst between
    exact step.wellFormed start

/-- While it is not entered anew a row is the same one. -/
theorem origin {row row' : LedgerRow} (run : RowRun locator ds before after)
    (unentered : Unentered locator ds) (first : before = some row) (last : after = some row') :
    row'.tier = row.tier ∧ row'.writtenAt = row.writtenAt := by
  induction run generalizing row with
  | nil =>
    cases first.symm.trans last
    exact ⟨rfl, rfl⟩
  | @cons d ds before between after step rest ih =>
    subst first
    cases between with
    | none => exact nomatch (rest.gone_stays rfl unentered.cons.2).symm.trans last
    | some row₁ =>
      obtain ⟨tier, written⟩ := step.origin
      obtain ⟨tier', written'⟩ := ih unentered.cons.2 rfl last
      exact ⟨tier'.trans tier, written'.trans written⟩

end RowRun

def Ledger.WellFormed (ledger : Ledger) : Prop :=
  ∀ locator row, ledger.find? locator = some row → row.WellFormed

theorem Dialogue.wellFormed {v v' : Vault} {xs : List Exchange} (dialogue : Dialogue v xs v')
    (start : v.ledger.WellFormed) : v'.ledger.WellFormed :=
  fun locator _ present => (dialogue.run locator).wellFormed (start locator) present

/-- A row that is there all the time keeps its tier and the time of its write. -/
theorem Dialogue.origin {v v' : Vault} {xs : List Exchange} {locator : Locator} {row row' : LedgerRow}
    (dialogue : Dialogue v xs v') (first : v.row locator = some row)
    (there : ∀ x ∈ xs, x.after.row locator ≠ none) (last : v'.row locator = some row') :
    row'.tier = row.tier ∧ row'.writtenAt = row.writtenAt := by
  induction xs generalizing v row with
  | nil =>
    cases first.symm.trans ((Vault.row_of_ledger dialogue locator).symm.trans last)
    exact ⟨rfl, rfl⟩
  | cons x xs ih =>
    obtain ⟨same, happens, rest⟩ := dialogue
    obtain ⟨row₁, present⟩ := Option.ne_none_iff_exists'.1 (there x List.mem_cons_self)
    obtain ⟨tier', written'⟩ := ih rest present fun y member => there y (List.mem_cons_of_mem _ member)
    have run := happens.run locator
    rw [Vault.row_of_ledger same, first, present] at run
    have step : row₁.tier = row.tier ∧ row₁.writtenAt = row.writtenAt := by
      cases effect : x.effect? with
      | none =>
        rw [effect] at run
        cases run
        exact ⟨rfl, rfl⟩
      | some d =>
        rw [effect] at run
        cases run with
        | cons step nothing =>
          cases nothing
          exact step.origin
    exact ⟨tier'.trans step.1, written'.trans step.2⟩

namespace Ledger.WellFormed

variable {ledger : Ledger}

theorem empty : (∅ : Ledger).WellFormed := nofun

theorem insert (wellFormed : ledger.WellFormed) (locator : Locator) {row : LedgerRow}
    (kind : row.WellFormed) : Ledger.WellFormed (ledger.insert locator row) := by
  intro key row' present
  rw [LocatorMap.find?_insert] at present
  split at present
  · exact Option.some.inj present ▸ kind
  · exact wellFormed key row' present

/-- The answer about an entry, about a claim or to a listing never fails for what a row holds. -/
theorem get (wellFormed : ledger.WellFormed) (locator : Locator) :
    ∃ found, ledger.get locator = .ok found := by
  unfold Ledger.get
  cases present : ledger.find? locator with
  | none => exact ⟨none, rfl⟩
  | some row =>
    obtain ⟨e, here, -, read⟩ := (wellFormed locator row present).entry locator
    exact ⟨some e, by simp only [LedgerRow.toEntry_eq_ok.2 ⟨here, read⟩, Except.map]⟩

theorem claim (wellFormed : ledger.WellFormed) (locator : Locator) (holder : RecordField)
    (time : Timestamp) : ∃ outcome, (ledger.claim locator holder time).1 = .ok outcome := by
  unfold Ledger.claim
  cases present : ledger.find? locator with
  | none => exact ⟨.missing, rfl⟩
  | some row =>
    dsimp only
    split
    · exact ⟨.claimed, rfl⟩
    · split
      · exact ⟨.renewed, rfl⟩
      · obtain ⟨e, here, -, read⟩ := (wellFormed locator row present).entry locator
        exact ⟨.conflict e, by simp only [LedgerRow.toEntry_eq_ok.2 ⟨here, read⟩, Except.map]⟩

end Ledger.WellFormed

theorem readAll_eq_ok {l : List (Locator × LedgerRow)} {es : List Entry} :
    (l.mapM fun e => e.2.toEntry e.1) = .ok es ↔ l = es.map fun e => (e.locator, e.row) := by
  induction l generalizing es with
  | nil => cases es <;> simp [pure, Except.pure]
  | cons head rest ih =>
    obtain ⟨locator, row⟩ := head
    rw [List.mapM_cons]
    constructor
    · intro read
      cases first : row.toEntry locator with
      | error e => simp [first, bind, Except.bind] at read
      | ok e =>
        obtain ⟨rfl, rfl⟩ := LedgerRow.toEntry_eq_ok.1 first
        cases others : rest.mapM (fun e => e.2.toEntry e.1) with
        | error e => simp [first, others, bind, Except.bind] at read
        | ok es' =>
          simp only [first, others, bind, Except.bind, pure, Except.pure, Except.ok.injEq] at read
          rw [← read, ih.1 others]
          rfl
    · intro same
      cases es with
      | nil => cases same
      | cons e es' =>
        obtain ⟨here, others⟩ := List.cons.inj same
        cases here
        simp [LedgerRow.toEntry_eq_ok.2 ⟨rfl, rfl⟩, ih.2 others, bind, Except.bind, pure, Except.pure]

theorem readAll_ok {l : List (Locator × LedgerRow)} (wellFormed : ∀ e ∈ l, e.2.WellFormed) :
    ∃ es, (l.mapM fun e => e.2.toEntry e.1) = .ok es := by
  suffices given : ∃ es : List Entry, l = es.map fun e => (e.locator, e.row) from
    given.imp fun _ same => readAll_eq_ok.2 same
  induction l with
  | nil => exact ⟨[], rfl⟩
  | cons head rest ih =>
    obtain ⟨es, rfl⟩ := ih fun e member => wellFormed e (List.mem_cons_of_mem _ member)
    obtain ⟨e, here, -, read⟩ := (wellFormed head List.mem_cons_self).entry head.1
    exact ⟨e :: es, by rw [List.map_cons, here, ← read]⟩

namespace Ledger

theorem page_isPrefix (limit : Nat) (l : List α) : page limit l <+: l := by
  unfold page
  split
  · exact List.take_prefix limit l
  · exact List.prefix_refl l

theorem WellFormed.listExpired {ledger : Ledger} (wellFormed : ledger.WellFormed)
    (cutoff : Timestamp) (cursor : Option Locator) (limit : Nat) :
    ∃ es, ledger.listExpired cutoff cursor limit = .ok es := by
  refine readAll_ok fun e member => ?_
  have listed := (List.mem_filter.1 ((page_isPrefix _ _).subset member)).1
  exact wellFormed e.1 e.2 (LocatorMap.find?_eq_some_iff.2 listed)

end Ledger

structure Vault.Answers (v : Vault) : Prop where
  entry : ∀ locator, ∃ found, (v.answer (.entry locator)).1 = .ok found
  claim : ∀ locator holder time, ∃ outcome, (v.answer (.claim locator holder time)).1 = .ok outcome
  listing : ∀ cutoff cursor limit, ∃ page, (v.answer (.listExpired cutoff cursor limit)).1 = .ok page

theorem Ledger.WellFormed.answers {v : Vault} (wellFormed : v.ledger.WellFormed) : v.Answers :=
  ⟨wellFormed.get, wellFormed.claim, wellFormed.listExpired⟩

/-- From a ledger that is empty, or has rows from before claims were stamped, no requests in
whatever order lead to a row that is not well formed. -/
theorem rows_stay_well_formed {v v' : Vault} {xs : List Exchange}
    (unstamped : ∀ locator row, v.row locator = some row → row.Unstamped)
    (dialogue : Dialogue v xs v') :
    (∀ locator row, v'.row locator = some row →
      row.WellFormed ∧ ∃ e, row.toEntry locator = .ok e) ∧
    (∀ ys v'' locator row row', Dialogue v' ys v'' → v'.row locator = some row →
      (∀ y ∈ ys, y.after.row locator ≠ none) → v''.row locator = some row' →
      row'.tier = row.tier ∧ row'.writtenAt = row.writtenAt) ∧
    v'.Answers := by
  have wellFormed : v'.ledger.WellFormed :=
    dialogue.wellFormed fun locator row present => (unstamped locator row present).wellFormed
  refine ⟨fun locator row present => ?_, ?_, wellFormed.answers⟩
  · have here := wellFormed locator row present
    obtain ⟨e, at', -, read⟩ := here.entry locator
    exact ⟨here, e, LedgerRow.toEntry_eq_ok.2 ⟨at', read⟩⟩
  · intro ys v'' locator row row' later first there last
    exact later.origin first there last

namespace Sample

def unstamped : LedgerRow := ⟨"large", 5, some record, some field, none, none⟩

def aged : Vault := { Vault.numbered 1000000 with ledger := (∅ : Ledger).insert [0] unstamped }

theorem aged_row {locator : Locator} {row : LedgerRow} (present : aged.row locator = some row) :
    locator = [0] ∧ row = unstamped := by
  have found : ((∅ : Ledger).insert [0] unstamped).find? locator = some row := present
  rw [LocatorMap.find?_insert] at found
  split at found
  · next here => exact ⟨here, (Option.some.inj found).symm⟩
  · cases found

/-- The claim is renewed, and three requests fail: the same locator again, content that no
ledger has, and the claim of another. -/
def renewal : List (Option Request) :=
  [some (.claim [0] ⟨record, field⟩ 7), some (.incubate [0] .medium 8), some (.incubate [1] .inline 8),
    some (.claim [0] ⟨record, ⟨"g"⟩⟩ 9)]

end Sample

/-- The claim has its time from then on. -/
theorem unstamped_claim_renewed :
    let v' := ((Program.done ()).play Sample.aged Sample.renewal).2.2
    let row := { Sample.unstamped with claimedAt := some 7 }
    (∀ locator row, Sample.aged.row locator = some row → row.Unstamped) ∧
      v'.row [0] = some row ∧ row.WellFormed ∧ v'.Answers := by
  have unstamped : ∀ locator row, Sample.aged.row locator = some row → row.Unstamped := by
    intro locator row present
    obtain ⟨-, rfl⟩ := Sample.aged_row present
    exact ⟨.inr rfl, by decide, rfl⟩
  have kept := rows_stay_well_formed unstamped
    ((Program.done ()).play_dialogue Sample.aged Sample.renewal).1
  exact ⟨unstamped, rfl, (kept.1 [0] _ rfl).1, kept.2.2⟩

end BlobLifecycle
