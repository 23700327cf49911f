import BlobLifecycle.Proofs.Accounting
import BlobLifecycle.Proofs.Confirmation

/-! Handles that name another object than the entry of their locator does. Reservations and
confirmations look for the locator alone and take such a handle for the entry, which stands for the
object that was entered. -/
namespace BlobLifecycle

def Effect.enters? (locator : Locator) : Effect → Option Tier
  | .entered l tier _ => if l = locator then some tier else none
  | _ => none

/-- The tier for which content of the locator was entered last. -/
def lastTier? (locator : Locator) : List Effect → Option Tier
  | [] => none
  | d :: ds => (lastTier? locator ds).or (d.enters? locator)

section

variable {locator : Locator} {d : Effect} {ds : List Effect} {before after : Option LedgerRow}

theorem RowStep.tier_entered {row : LedgerRow} (step : RowStep locator d before (some row)) :
    match d.enters? locator with
    | some tier => row.tier = tier.name
    | none => ∃ row₀, before = some row₀ ∧ row.tier = row₀.tier := by
  cases step with
  | other apart =>
    have aside : d.enters? locator = none := by
      cases d with
      | entered l tier time => exact if_neg fun here => apart (congrArg some here)
      | _ => rfl
    rw [aside]
    exact ⟨row, rfl, rfl⟩
  | entered stored =>
    simp only [Effect.enters?, if_true]
    rfl
  | claimed free => exact ⟨_, rfl, rfl⟩
  | renewed held => exact ⟨_, rfl, rfl⟩
  | unclaimed held => exact ⟨_, rfl, rfl⟩
  | condemned here unchanged => exact ⟨_, rfl, rfl⟩

/-- The tier of a row is the one for which its locator was entered last. -/
theorem RowRun.tier_entered {row : LedgerRow} (run : RowRun locator ds before after)
    (present : after = some row) : match lastTier? locator ds with
      | some tier => row.tier = tier.name
      | none => ∃ row₀, before = some row₀ ∧ row.tier = row₀.tier := by
  -- On the effects from the first on: one that enters content settles the tier whatever came before.
  induction run with
  | nil => exact ⟨row, present, rfl⟩
  | @cons d ds before between after step rest ih =>
    have later := ih present
    rw [lastTier?]
    cases last : lastTier? locator ds with
    | some tier =>
      rw [last] at later
      exact later
    | none =>
      rw [last] at later
      obtain ⟨row₁, rfl, same⟩ := later
      have first := step.tier_entered
      rw [Option.none_or, same]
      exact first

theorem Dialogue.entry {start v : Vault} {xs : List Exchange} {row : LedgerRow}
    (dialogue : Dialogue start xs v) (empty : start.ledger = ∅) (present : v.row locator = some row) :
    ∃ e : Entry, e.locator = locator ∧ e.row = row ∧ lastTier? locator (effectsOf xs) = some e.tier := by
  have wellFormed : v.ledger.WellFormed := dialogue.wellFormed (empty ▸ Ledger.WellFormed.empty)
  obtain ⟨e, here, -, rfl⟩ := (wellFormed locator row present).entry locator
  have named := (dialogue.run locator).tier_entered present
  cases last : lastTier? locator (effectsOf xs) with
  | some tier =>
    rw [last] at named
    exact ⟨e, here, rfl, congrArg some (Tier.name_injective named).symm⟩
  | none =>
    rw [last] at named
    obtain ⟨row₀, before, -⟩ := named
    have absent : start.row locator = none := by rw [Vault.row, empty]; rfl
    cases absent.symm.trans before

end

structure Vault.Takes (v v' : Vault) (r : Reference) (e : Entry) : Prop where
  here : e.locator = r.handle.locator
  present : v'.row e.locator = some e.row
  claim : e.claim = some r.holder
  claimedAt : e.claimedAt = some v.clock
  unmarked : e.condemnedAt = none

/-- A row that was claimed for a reference is one of an entry with the same tier. -/
theorem Entry.takes {v v' : Vault} {r : Reference} {e : Entry} (here : e.locator = r.handle.locator)
    (grants : e.row.Grants r.holder)
    (after : v'.row r.handle.locator = some (e.row.claimFor r.holder v.clock)) :
    v.Takes v' r { e with claim := some r.holder, claimedAt := some v.clock } where
  here := here
  present := (congrArg v'.row here).trans after
  claim := rfl
  claimedAt := rfl
  unmarked := grants.elim (·.2) (·.2.2)

namespace Vault.Takes

variable {v v' : Vault} {r : Reference} {e : Entry}

theorem held (takes : v.Takes v' r e) :
    ∃ row, v'.row r.handle.locator = some row ∧ row.HeldFor r.holder := by
  refine ⟨e.row, (congrArg v'.row takes.here).symm.trans takes.present, ?_⟩
  simp [LedgerRow.HeldFor, Entry.row, takes.claim, takes.unmarked]

/-- The handle is not compared with the entry when its reference is confirmed. -/
theorem confirmed (takes : v.Takes v' r e) (stored : r.handle.tier.isStored = true) :
    (v'.run (confirm [r]).run).1 = .ok () ∧
      (v'.run (confirm [r]).run).2.ledger = v'.ledger.erase e.locator := by
  have single : storedReferences [r] = [r] := List.filter_cons_of_pos stored
  have ends := Program.ensures_iff.1 (confirm_cases [r] v' [])
  rw [single] at ends
  rcases ends with ⟨ok, confirmed⟩ | ⟨before, r', after, split, -, unready, -⟩
  · refine ⟨ok, confirmed.ledger.trans ?_⟩
    rw [takes.here]
    rfl
  · obtain ⟨rfl, same, -⟩ : before = [] ∧ r = r' ∧ after = [] := by
      cases before <;> simp_all
    exact (unready (.inl ⟨nofun, same ▸ takes.held⟩)).elim

/-- A sweep that reaps what the handle names does so for an entry of the handle's tier. -/
theorem spared {faults : Faults} {cutoff : Timestamp} {all : List Entry}
    {outcome : Entry → Except BlobError EntryOutcome} {swept : Vault} (takes : v.Takes v' r e)
    (apart : e.tier ≠ r.handle.tier) (reckoned : faults.Reckoned cutoff all outcome v' swept) :
    swept.object? r.handle.tier r.handle.locator = v'.object? r.handle.tier r.handle.locator := by
  refine (reckoned.object r.handle.tier r.handle.locator).resolve_right ?_
  rintro ⟨e', member, -, same⟩
  obtain ⟨tier, here⟩ := Prod.mk.inj same
  have present : v'.row e.locator = some e'.row := by
    rw [takes.here, ← here]
    exact ((reckoned.members e').1 member).present
  have row : e.row = e'.row := Option.some.inj (takes.present.symm.trans present)
  exact apart ((Tier.name_injective (congrArg LedgerRow.tier row)).trans tier)

end Vault.Takes

theorem Ledger.WellFormed.after {v : Vault} (wellFormed : v.ledger.WellFormed) (p : Program α) :
    (v.run p).2.ledger.WellFormed := by
  have keeps (v : Vault) (r : Request) (wellFormed : v.ledger.WellFormed) :
      (v.answer r).2.ledger.WellFormed := by
    have single : Dialogue v [⟨true, v, r, (v.answer r).1, (v.answer r).2⟩] (v.answer r).2 :=
      ⟨rfl, .served, rfl⟩
    exact single.wellFormed wellFormed
  have kept : p.Ensures (fun _ _ v => v.ledger.WellFormed) v [] :=
    p.ensures_kept (·.ledger.WellFormed) wellFormed keeps
  exact Program.ensures_iff.1 kept

/-- A reservation grants a reference the entry of its locator. Confirming the reference drops that
entry, whatever the handle names. The two are one object exactly if what was entered last under the
locator is of the handle's tier, and if they are not, no sweep touches the object of the handle. -/
theorem claimed_object_agrees_iff {start v : Vault} {xs : List Exchange} (empty : start.ledger = ∅)
    (dialogue : Dialogue start xs v) {references : List Reference}
    (granted : (v.run (reserve references).run).1 = .ok ()) :
    let v' := (v.run (reserve references).run).2
    ∀ r ∈ storedReferences references, ∃ e : Entry, v.Takes v' r e ∧
      (e.tier = r.handle.tier ↔ lastTier? r.handle.locator (effectsOf xs) = some r.handle.tier) ∧
      ((v'.run (confirm [r]).run).1 = .ok () ∧
        (v'.run (confirm [r]).run).2.ledger = v'.ledger.erase e.locator) ∧
      (e.tier ≠ r.handle.tier → ∀ (faults : Faults) (settings : SweepSettings) (pages : Nat),
        faults.Honest v' → 0 < settings.batchSize → v'.ledger.size ≤ pages → v'.isSweeping = false →
        ((runSweep settings pages).run.interpret faults.answer v').2.object? r.handle.tier
          r.handle.locator = v'.object? r.handle.tier r.handle.locator) := by
  intro v' r member
  have wellFormed : v.ledger.WellFormed := dialogue.wellFormed (empty ▸ Ledger.WellFormed.empty)
  have ensured : Program.Ensures _ _ v [] := reserve_ensures wellFormed references
  have reserves : v.Reserves v.clock references v' := by
    rcases Program.ensures_iff.1 ensured with
      ⟨-, -, reserves⟩ | ⟨before, r, after, refusal, -, failed, -⟩
    · exact reserves
    · exact nomatch failed.symm.trans granted
  obtain ⟨row, present, grants, after⟩ := reserves.granted r member
  obtain ⟨e, here, rfl, last⟩ := dialogue.entry empty present
  have takes := Entry.takes here grants after
  refine ⟨_, takes, ?_, takes.confirmed (List.mem_filter.1 member).2, ?_⟩
  · rw [last, Option.some_inj]
  · intro apart faults settings pages honest positive enough idle
    obtain ⟨all, outcome, -, reckoned⟩ :=
      faults.runSweep_reckoned settings (wellFormed.after _) honest positive enough idle
    exact takes.spared apart reckoned

namespace Sample

def identified : Vault :=
  { Vault.numbered 1000000 with supply := fun n => List.replicate 15 109 ++ [UInt8.ofNat n] }

def identifier : Locator := List.replicate 15 109 ++ [0]

def onlyWrite : List Exchange × Program (Except BlobError Handle) × Vault :=
  (writeBlob ⟨0, 200⟩ "a/b" "n" [7]).run.play identified (List.replicate 7 none)

def genuine : Handle := ⟨"a/b", 1, "n", .medium, identifier⟩

def wanted : Reference := ⟨genuine, record, field⟩

/-- As if the same locator were one of the bulk store. -/
def forged : Handle := { genuine with tier := .large }

end Sample

/-- The handle that the write returned names what it is granted. -/
theorem genuine_handle_agrees :
    let v := Sample.onlyWrite.2.2
    let reserved := v.run (reserve [Sample.wanted]).run
    (Sample.identified.ledger = ∅ ∧ Dialogue Sample.identified Sample.onlyWrite.1 v ∧
      Sample.onlyWrite.2.1 = .done (.ok Sample.genuine) ∧
      reserved.1 = .ok ()) ∧
      ∃ e : Entry, v.Takes reserved.2 Sample.wanted e ∧ e.tier = .medium := by
  have dialogue := ((writeBlob ⟨0, 200⟩ "a/b" "n" [7]).run.play_dialogue Sample.identified
    (List.replicate 7 none)).1
  have granted : (Sample.onlyWrite.2.2.run (reserve [Sample.wanted]).run).1 = .ok () := rfl
  obtain ⟨e, takes, agrees, -⟩ :=
    claimed_object_agrees_iff rfl dialogue granted Sample.wanted List.mem_cons_self
  exact ⟨⟨rfl, dialogue, rfl, granted⟩, e, takes, agrees.2 rfl⟩

/-- A handle of the bulk store, such as clients may build and send, is granted the entry of content
in the table store. Confirming it leaves that content without an entry, and the handle names nothing. -/
theorem forged_tier_granted :
    let v := Sample.onlyWrite.2.2
    let references := [⟨Sample.forged, Sample.record, Sample.field⟩]
    let reserved := v.run (reserve references).run
    let confirmed := reserved.2.run (confirm references).run
    Dialogue Sample.identified Sample.onlyWrite.1 v ∧
      Handle.stored ⟨"a/b", "n", 1⟩ .large Sample.identifier = .ok Sample.forged ∧
      Handle.decode Sample.forged.encode = .ok Sample.forged ∧
      reserved.1 = .ok () ∧
      (¬∃ e : Entry, reserved.2.row Sample.forged.locator = some e.row ∧ e.tier = Sample.forged.tier) ∧
      confirmed.1 = .ok () ∧ confirmed.2.row Sample.identifier = none ∧
      confirmed.2.read .large Sample.identifier = .error (.notFound .large Sample.identifier) ∧
      confirmed.2.read .medium Sample.identifier = .ok [7] := by
  have dialogue := ((writeBlob ⟨0, 200⟩ "a/b" "n" [7]).run.play_dialogue Sample.identified
    (List.replicate 7 none)).1
  refine ⟨dialogue, rfl, by decide +kernel, rfl, ?_, rfl, rfl, rfl, rfl⟩
  rintro ⟨e, present, tier⟩
  have named : e.row.tier = "medium" := congrArg LedgerRow.tier (Option.some.inj present).symm
  have name : e.row.tier = e.tier.name := rfl
  rw [tier] at name
  exact absurd (name.symm.trans named) (by decide)

end BlobLifecycle
