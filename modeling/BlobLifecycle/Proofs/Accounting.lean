import BlobLifecycle.Proofs.Completeness
import Mathlib.Data.Set.Card

/-! The report of a sweep against what it did. Every overdue entry fares in one of five ways, each of
which settles what is counted of it and what is left, so that the counters can be read off the vault
before and after. -/
namespace BlobLifecycle

/-- The number of a set whose members the chosen elements of a list name, each only once. -/
theorem encard_eq_countP {l : List α} (once : l.Nodup) {chosen : α → Bool} {f : α → β} {s : Set β}
    (apart : Set.InjOn f {a | a ∈ l}) (members : ∀ b, b ∈ s ↔ ∃ a ∈ l, chosen a = true ∧ f a = b) :
    s.encard = l.countP chosen := by
  classical
  have named : s = f '' ((l.filter chosen).toFinset : Set α) := by
    ext b
    simp [members, and_assoc]
  have below : ((l.filter chosen).toFinset : Set α) ⊆ {a | a ∈ l} := by
    intro a member
    exact (List.mem_filter.1 (List.mem_toFinset.1 member)).1
  rw [named, (apart.mono below).encard_image, Set.encard_coe_eq_coe_finsetCard,
    List.toFinset_card_of_nodup (once.filter _), List.countP_eq_length_filter]

namespace SweepReport

def Balanced (r : SweepReport) : Prop :=
  r.reaped + r.released + r.staleRemoved + r.skipped + r.failed = r.examined

variable {report : SweepReport} (outcome : Entry → Except BlobError EntryOutcome) (es : List Entry)

theorem Balanced.count (balanced : report.Balanced) (outcome : Except BlobError EntryOutcome) :
    (report.count outcome).Balanced := by
  unfold Balanced at balanced ⊢
  cases outcome with
  | error error => simp only [SweepReport.count]; omega
  | ok outcome => cases outcome <;> simp only [SweepReport.count] <;> omega

theorem Balanced.countAll (balanced : report.Balanced) : (report.countAll outcome es).Balanced :=
  List.foldlRecOn es _ balanced fun _ balanced e _ => balanced.count (outcome e)

theorem examined_countAll (report : SweepReport) :
    (report.countAll outcome es).examined = report.examined + es.length := by
  induction es generalizing report with
  | nil => rfl
  | cons e es ih =>
    have counted : (report.count (outcome e)).examined = report.examined + 1 := by
      cases outcome e with
      | error error => rfl
      | ok outcome => cases outcome <;> rfl
    refine (ih (report.count (outcome e))).trans ?_
    rw [counted, List.length_cons]
    omega

end SweepReport

def Cell.without (c : Cell) : Tier → Cell
  | .inline => c
  | .medium => { c with medium := none }
  | .large => { c with large := none }

namespace Vault

variable {v v' : Vault} {tier : Tier} {locator : Locator}

/-- What the stores hold under a locator is part of its cell. -/
theorem object?_of_cell {row : Option LedgerRow} (isBlocked : v'.large.isBlocked = v.large.isBlocked)
    (cell : v'.cell locator = { v.cell locator with row }) (tier : Tier) :
    v'.object? tier locator = v.object? tier locator := by
  obtain ⟨-, medium, large⟩ := Cell.mk.inj cell
  cases tier with
  | inline => rfl
  | medium => exact congrArg (Option.map StoredObject.row) medium
  | large =>
    have objects : v'.large.objects.find? locator = v.large.objects.find? locator := large
    simp only [object?, LargeStore.object?, isBlocked, objects]

theorem object?_without {row : Option LedgerRow} (isBlocked : v'.large.isBlocked = v.large.isBlocked)
    (cell : v'.cell locator = { (v.cell locator).without tier with row }) (other : Tier) :
    v'.object? other locator = if other = tier then none else v.object? other locator := by
  obtain ⟨-, medium, large⟩ := Cell.mk.inj cell
  cases other with
  | inline => exact (ite_self none).symm
  | medium =>
    have found : v'.medium.find? locator = if .medium = tier then none else v.medium.find? locator := by
      cases tier <;> exact medium
    simp only [object?, found]
    split <;> rfl
  | large =>
    have found : v'.large.objects.find? locator =
        if .large = tier then none else v.large.objects.find? locator := by
      cases tier <;> exact large
    simp only [object?, LargeStore.object?, isBlocked, found]
    by_cases same : Tier.large = tier
    · simp only [if_pos same]
      cases v.large.isBlocked <;> rfl
    · simp only [if_neg same]

/-- A deletion takes an object away, or it fails without effect. -/
theorem delete_account (v : Vault) (stored : tier.isStored = true) (locator : Locator) :
    (v.Holds tier locator ∧ ∃ v', v.delete tier locator = (.ok (), v') ∧
      v'.cell locator = (v.cell locator).without tier) ∨
    ∃ error, v.delete tier locator = (.error error, v) ∧
      (error.isNotFound = true → ¬v.Holds tier locator) := by
  cases tier with
  | inline => cases stored
  | medium =>
    cases there : v.medium.find? locator with
    | none =>
      refine .inr ⟨.notFound .medium locator, ?_, fun _ holds => holds ?_⟩
      · simp [delete, MediumStore.delete, LocatorMap.contains, there]
      · simp [object?, there]
    | some blob =>
      refine .inl ⟨?_, { v with medium := v.medium.erase locator }, ?_, ?_⟩
      · simp [Holds, object?, there]
      · simp [delete, MediumStore.delete, LocatorMap.contains, there]
      · simp [cell, row, Cell.without, LocatorMap.find?_erase]
  | large =>
    cases named : v.large.directoryOf locator with
    | error error =>
      refine .inr ⟨error, by simp only [delete, LargeStore.delete, named], fun missing => ?_⟩
      unfold LargeStore.directoryOf at named
      split at named <;> cases named
      cases missing
    | ok path =>
      cases there : v.large.object? locator with
      | none =>
        refine .inr ⟨.notFound .large locator, ?_, fun _ holds => holds ?_⟩
        · simp only [delete, LargeStore.delete, named, there]
        · simp only [object?, there]
      | some object =>
        cases object with
        | plainFile =>
          refine .inr ⟨.storage (.io path), ?_, fun missing => ?_⟩
          · simp only [delete, LargeStore.delete, named, there]
          · cases missing
        | directory d =>
          refine .inl ⟨?_, { v with large := { v.large with objects := v.large.objects.erase locator } },
            ?_, ?_⟩
          · simp [Holds, object?, there]
          · simp only [delete, LargeStore.delete, named, there]
          · simp [cell, row, Cell.without, LocatorMap.find?_erase]

end Vault

inductive Verdict where
  /-- The record could not be asked. -/
  | unread
  /-- The record holds the content. -/
  | held
  | doomed
  deriving DecidableEq, Repr

namespace Faults

def consult (faults : Faults) (repository : Repository) (holder : RecordField) :
    Except BlobError (List FieldValue) :=
  match faults.history holder.record holder.field with
  | some error => .error error
  | none => repository.fieldHistory holder.record holder.field

/-- What is to become of an overdue entry. Once it is condemned no record is asked. -/
def verdict (faults : Faults) (repository : Repository) (e : Entry) : Verdict :=
  if e.condemnedAt.isSome then .doomed
  else match e.claim with
    | none => .doomed
    | some holder =>
      match faults.consult repository holder with
      | .error _ => .unread
      | .ok history => if HoldObject history e.tier e.locator then .held else .doomed

def Unread (faults : Faults) (repository : Repository) (e : Entry) : Prop :=
  e.condemnedAt = none ∧ ∃ holder error, e.claim = some holder ∧
    faults.consult repository holder = .error error

def Held (faults : Faults) (repository : Repository) (e : Entry) : Prop :=
  e.condemnedAt = none ∧ ∃ holder history, e.claim = some holder ∧
    faults.consult repository holder = .ok history ∧ HoldObject history e.tier e.locator

/-- Content is only said to be missing where there is none. -/
def Honest (faults : Faults) (v : Vault) : Prop :=
  ∀ tier locator error, faults.deletion tier locator = some error → error.isNotFound = true →
    ¬v.Holds tier locator

section

variable {faults : Faults} {repository : Repository} {v v' : Vault} {e : Entry}

theorem answer_history (v : Vault) (holder : RecordField) :
    faults.answer (.fieldHistory holder.record holder.field) v =
      (faults.consult v.repository holder, v) := by
  simp only [answer, consult]
  cases faults.history holder.record holder.field <;> rfl

theorem verdict_unread : faults.verdict repository e = .unread ↔ faults.Unread repository e := by
  unfold verdict Unread
  cases e.condemnedAt with
  | some mark => simp
  | none =>
    cases e.claim with
    | none => simp
    | some holder =>
      cases read : faults.consult repository holder with
      | error error => simp [read]
      | ok history =>
        simp only [read, Option.isSome_none, Bool.false_eq_true, if_false]
        split <;> simp [read]

theorem verdict_held : faults.verdict repository e = .held ↔ faults.Held repository e := by
  unfold verdict Held
  cases e.condemnedAt with
  | some mark => simp
  | none =>
    cases e.claim with
    | none => simp
    | some holder =>
      cases read : faults.consult repository holder with
      | error error => simp [read]
      | ok history => simp [read]

theorem delete_account (honest : faults.Honest v) {tier : Tier} (stored : tier.isStored = true)
    (locator : Locator) :
    (v.Holds tier locator ∧ ∃ v', faults.answer (.delete tier locator) v = (.ok (), v') ∧
      v'.cell locator = (v.cell locator).without tier) ∨
    ∃ error, faults.answer (.delete tier locator) v = (.error error, v) ∧
      (error.isNotFound = true → ¬v.Holds tier locator) := by
  simp only [answer]
  cases fails : faults.deletion tier locator with
  | none => exact v.delete_account stored locator
  | some error => exact .inr ⟨error, rfl, honest tier locator error fails⟩

end

end Faults

/-- What may come of an overdue entry with this cell, and whether its tier holds an object. -/
inductive Fares (verdict : Verdict) (e : Entry) (holds : Prop) (before : Cell) :
    Except BlobError EntryOutcome → Cell → Prop
  | unread {error : BlobError} (unread : verdict = .unread) :
    Fares verdict e holds before (.error error) before
  | released (held : verdict = .held) :
    Fares verdict e holds before (.ok .released) { before with row := none }
  | reaped (doomed : verdict = .doomed) (there : holds) :
    Fares verdict e holds before (.ok .reaped) { before.without e.tier with row := none }
  | stale (doomed : verdict = .doomed) (missing : ¬holds) :
    Fares verdict e holds before (.ok .staleRemoved) { before with row := none }
  | stuck {error : BlobError} {mark : Option Timestamp} (doomed : verdict = .doomed) :
    Fares verdict e holds before (.error error)
      { before with row := some { e.row with condemnedAt := mark } }

namespace Entry

open Program

variable {faults : Faults} {v : Vault} {e : Entry} {now cutoff : Timestamp} {verdict : Verdict}
  {before : Cell}

theorem erased_fares (v : Vault) (event : Event) {outcome : EntryOutcome} {holds : Prop}
    (fares : Fares verdict e holds before (.ok outcome) { v.cell e.locator with row := none }) :
    (Program.call (.log event) fun _ => .done (.ok outcome)).Passes faults.answer (fun _ => True)
      (fun outcome v' => Fares verdict e holds before outcome (v'.cell e.locator))
      { v with ledger := v.ledger.erase e.locator } := by
  refine .answered rfl trivial ?_
  rw [← Faults.cell_erase v e.locator] at fares
  exact fares

theorem reap_fares (honest : faults.Honest v) (stored : e.tier.isStored = true)
    (doomed : verdict = .doomed) {mark : Option Timestamp}
    (here : v.cell e.locator = { before with row := some { e.row with condemnedAt := mark } }) :
    e.reap.run.Passes faults.answer (fun _ => True) (fun outcome v' =>
      Fares verdict e (v.Holds e.tier e.locator) before outcome (v'.cell e.locator)) v := by
  rcases Faults.delete_account honest stored e.locator with
    ⟨there, v', deleted, cell⟩ | ⟨error, fails, missing⟩
  · refine .answered deleted trivial (.answered (r := .remove e.locator) rfl trivial ?_)
    refine erased_fares v' _ ?_
    have left : { v'.cell e.locator with row := none } =
        { before.without e.tier with row := none } := by
      rw [cell, here]
      cases e.tier <;> rfl
    rw [left]
    exact .reaped doomed there
  · refine .answered fails trivial ?_
    show Passes _ _ _ (ExceptT.run (if error.isNotFound = true then _ else _)) _
    split
    · next absent =>
      refine .answered (r := .remove e.locator) rfl trivial (erased_fares v _ ?_)
      rw [here]
      exact .stale doomed (missing absent)
    · show Fares verdict e (v.Holds e.tier e.locator) before (.error error) (v.cell e.locator)
      rw [here]
      exact .stuck doomed

theorem condemnAndReap_fares (honest : faults.Honest v) (stored : e.tier.isStored = true)
    (doomed : verdict = .doomed) (present : v.row e.locator = some e.row)
    (unmarked : e.condemnedAt = none) :
    (e.condemnAndReap now).run.Passes faults.answer (fun _ => True) (fun outcome v' =>
      Fares verdict e (v.Holds e.tier e.locator) (v.cell e.locator) outcome (v'.cell e.locator)) v := by
  obtain ⟨answered, marked⟩ := Faults.condemn_read faults now present unmarked
  generalize v.ledger.modify e.locator _ = ledger at answered marked
  have here : Vault.cell { v with ledger } e.locator =
      { v.cell e.locator with row := some { e.row with condemnedAt := some now } } :=
    Cell.ext marked rfl rfl
  have honest : faults.Honest { v with ledger } := honest
  exact .answered answered trivial (reap_fares honest stored doomed here)

theorem judge_fares (honest : faults.Honest v) (stored : e.tier.isStored = true)
    (present : v.row e.locator = some e.row) :
    (e.judge now).run.Passes faults.answer (fun _ => True) (fun outcome v' =>
      Fares (faults.verdict v.repository e) e (v.Holds e.tier e.locator) (v.cell e.locator) outcome
        (v'.cell e.locator)) v := by
  unfold judge
  split
  · next marked =>
    refine reap_fares honest stored ?_ (Cell.ext present rfl rfl)
    simp only [Faults.verdict, marked, if_true]
  · next unmarked =>
    have unmarked : e.condemnedAt = none := by simpa using unmarked
    cases claim : e.claim with
    | none =>
      refine condemnAndReap_fares honest stored ?_ present unmarked
      simp [Faults.verdict, unmarked, claim]
    | some holder =>
      refine .answered (Faults.answer_history v holder) trivial ?_
      cases read : faults.consult v.repository holder with
      | error error => exact .unread (by simp [Faults.verdict, unmarked, claim, read])
      | ok history =>
        have judged : faults.verdict v.repository e =
            if HoldObject history e.tier e.locator then .held else .doomed := by
          simp only [Faults.verdict, unmarked, claim, read]
          rfl
        show Passes _ _ _ (ExceptT.run (if _ then _ else _)) _
        split
        · next holds =>
          refine .answered (Faults.release_read faults present unmarked claim) trivial ?_
          have holds := FieldValue.any_holdsObject.1 holds
          exact erased_fares v _ (.released (judged.trans (if_pos holds)))
        · next lacks =>
          have lacks := mt FieldValue.any_holdsObject.2 lacks
          exact condemnAndReap_fares honest stored (judged.trans (if_neg lacks)) present unmarked

end Entry

structure Faults.Counts (faults : Faults) (e : Entry) (outcome : Except BlobError EntryOutcome)
    (v v' : Vault) : Prop where
  skipped : outcome.toOption ≠ some .skipped
  reaped : outcome.toOption = some .reaped ↔ v.Holds e.tier e.locator ∧ ¬v'.Holds e.tier e.locator
  released : outcome.toOption = some .released ↔ faults.Held v.repository e
  staleRemoved : outcome.toOption = some .staleRemoved ↔
    ¬faults.Held v.repository e ∧ v'.row e.locator = none ∧ ¬v.Holds e.tier e.locator
  failed : outcome.toOption = none ↔ v'.row e.locator ≠ none
  row : v'.row e.locator = none ∨ ∃ mark, v'.row e.locator = some { e.row with condemnedAt := mark }
  /-- Only the object of the entry's tier goes, and then the entry is counted as reaped. -/
  objects : ∀ tier, v'.object? tier e.locator = v.object? tier e.locator ∨
    tier = e.tier ∧ outcome.toOption = some .reaped
  unread : faults.Unread v.repository e → v'.cell e.locator = v.cell e.locator

theorem Fares.counts {faults : Faults} {v v' : Vault} {e : Entry}
    {outcome : Except BlobError EntryOutcome} (present : v.row e.locator = some e.row)
    (isBlocked : v'.large.isBlocked = v.large.isBlocked)
    (fares : Fares (faults.verdict v.repository e) e (v.Holds e.tier e.locator) (v.cell e.locator)
      outcome (v'.cell e.locator)) : faults.Counts e outcome v v' := by
  generalize cell : v'.cell e.locator = after at fares
  have row : v'.row e.locator = after.row := congrArg Cell.row cell
  have held : faults.Held v.repository e ↔ faults.verdict v.repository e = .held :=
    Faults.verdict_held.symm
  have unread : faults.Unread v.repository e ↔ faults.verdict v.repository e = .unread :=
    Faults.verdict_unread.symm
  -- Only a deletion touches the stores.
  have kept {row : Option LedgerRow} (cell : v'.cell e.locator = { v.cell e.locator with row })
      (tier : Tier) := Vault.object?_of_cell isBlocked cell tier
  cases fares with
  | unread verdict =>
    have same := kept cell
    have row : v'.row e.locator = some e.row := row.trans present
    refine ⟨?_, ?_, ?_, ?_, ?_, .inr ⟨e.condemnedAt, row⟩, fun tier => .inl (same tier), fun _ => cell⟩ <;>
      simp [Except.toOption, Vault.Holds, same, held, verdict, row]
  | released verdict =>
    have same := kept cell
    refine ⟨?_, ?_, ?_, ?_, ?_, .inl row, fun tier => .inl (same tier), ?_⟩ <;>
      simp [Except.toOption, Vault.Holds, same, held, unread, verdict, row]
  | reaped verdict there =>
    have left := Vault.object?_without isBlocked cell
    have there : v.object? e.tier e.locator ≠ none := there
    have objects (tier : Tier) : v'.object? tier e.locator = v.object? tier e.locator ∨
        tier = e.tier ∧ (Except.ok .reaped : Except BlobError EntryOutcome).toOption = some .reaped :=
      (Decidable.em (tier = e.tier)).symm.imp (fun apart => (left tier).trans (if_neg apart))
        fun same => ⟨same, rfl⟩
    refine ⟨?_, ?_, ?_, ?_, ?_, .inl row, objects, ?_⟩ <;>
      simp [Except.toOption, Vault.Holds, left, there, held, unread, verdict, row]
  | stale verdict missing =>
    have same := kept cell
    have missing : v.object? e.tier e.locator = none := not_not.1 missing
    refine ⟨?_, ?_, ?_, ?_, ?_, .inl row, fun tier => .inl (same tier), ?_⟩ <;>
      simp [Except.toOption, Vault.Holds, same, missing, held, unread, verdict, row]
  | @stuck error mark verdict =>
    have same := kept cell
    refine ⟨?_, ?_, ?_, ?_, ?_, .inr ⟨mark, row⟩, fun tier => .inl (same tier), ?_⟩ <;>
      simp [Except.toOption, Vault.Holds, same, held, unread, verdict, row]

structure Faults.Reckoned (faults : Faults) (cutoff : Timestamp) (all : List Entry)
    (outcome : Entry → Except BlobError EntryOutcome) (v v' : Vault) : Prop where
  once : all.Nodup
  members : ∀ e, e ∈ all ↔ v.Overdue cutoff e
  counts : ∀ e ∈ all, faults.Counts e (outcome e) v v'
  untouched : ∀ locator, (∀ e ∈ all, e.locator ≠ locator) → v'.cell locator = v.cell locator
  isBlocked : v'.large.isBlocked = v.large.isBlocked

/-- A report that accounts for what became of ledger and stores. -/
structure SweepReport.Accounts (report : SweepReport) (faults : Faults) (cutoff : Timestamp)
    (v v' : Vault) : Prop where
  examined : report.examined = {e | v.Overdue cutoff e}.encard
  skipped : report.skipped = 0
  /-- Partial directories of the bulk store are objects too. -/
  reaped : report.reaped =
    {object : Tier × Locator | v.Holds object.1 object.2 ∧ ¬v'.Holds object.1 object.2}.encard
  released : report.released = {e | v.Overdue cutoff e ∧ faults.Held v.repository e}.encard
  staleRemoved : report.staleRemoved = {e | v.Overdue cutoff e ∧ ¬faults.Held v.repository e ∧
    v'.row e.locator = none ∧ ¬v.Holds e.tier e.locator}.encard
  failed : report.failed = {e | v.Overdue cutoff e ∧ v'.row e.locator ≠ none}.encard
  sum : report.reaped + report.released + report.staleRemoved + report.skipped + report.failed =
    report.examined
  /-- What is left of an entry is its row, condemned perhaps. -/
  left : ∀ e, v.Overdue cutoff e → v'.row e.locator = none ∨
    ∃ mark, v'.row e.locator = some { e.row with condemnedAt := mark }
  held : ∀ e, v.Overdue cutoff e → faults.Held v.repository e → v'.row e.locator = none ∧
    ∀ tier, v'.object? tier e.locator = v.object? tier e.locator
  unread : ∀ e, v.Overdue cutoff e → faults.Unread v.repository e →
    v'.row e.locator = v.row e.locator ∧
      ∀ tier, v'.object? tier e.locator = v.object? tier e.locator
  recent : ∀ locator, (∀ row, v.row locator = some row → ¬row.Expired cutoff) →
    v'.row locator = v.row locator
  objects : ∀ tier locator,
    (∀ e, v.Overdue cutoff e → ¬(e.tier = tier ∧ e.locator = locator)) →
    v'.object? tier locator = v.object? tier locator

namespace Faults.Reckoned

variable {faults : Faults} {cutoff : Timestamp} {all : List Entry}
  {outcome : Entry → Except BlobError EntryOutcome} {v v' : Vault}

theorem number_eq (reckoned : faults.Reckoned cutoff all outcome v v') (kind : Option EntryOutcome)
    {p : Entry → Prop} (same : ∀ e ∈ all, (outcome e).toOption = kind ↔ p e) :
    ((SweepReport.zero.countAll outcome all).number kind : ℕ∞) =
      {e | v.Overdue cutoff e ∧ p e}.encard := by
  rw [SweepReport.number_zero_countAll]
  refine (encard_eq_countP reckoned.once (Set.injOn_id _) fun e => ?_).symm
  simp only [Set.mem_ofPred_eq, ← reckoned.members, decide_eq_true_eq, id]
  constructor
  · exact fun ⟨member, here⟩ => ⟨e, member, (same e member).2 here, rfl⟩
  · rintro ⟨e, member, here, rfl⟩
    exact ⟨member, (same e member).1 here⟩

/-- An object stays, or an entry of its tier and locator was reaped. -/
theorem object (reckoned : faults.Reckoned cutoff all outcome v v') (tier : Tier)
    (locator : Locator) : v'.object? tier locator = v.object? tier locator ∨
      ∃ e ∈ all, (outcome e).toOption = some .reaped ∧ (e.tier, e.locator) = (tier, locator) := by
  by_cases entered : ∃ e ∈ all, e.locator = locator
  · obtain ⟨e, member, rfl⟩ := entered
    refine ((reckoned.counts e member).objects tier).imp_right fun ⟨same, reaped⟩ => ?_
    exact ⟨e, member, reaped, by rw [same]⟩
  · have apart : ∀ e ∈ all, e.locator ≠ locator := by simpa using entered
    exact .inl (Vault.object?_of_cell reckoned.isBlocked (reckoned.untouched locator apart) tier)

theorem vanished_encard (reckoned : faults.Reckoned cutoff all outcome v v') :
    {object : Tier × Locator | v.Holds object.1 object.2 ∧ ¬v'.Holds object.1 object.2}.encard =
      all.countP fun e => (outcome e).toOption = some .reaped := by
  have apart : Set.InjOn (fun e : Entry => (e.tier, e.locator)) {e | e ∈ all} := by
    intro a member b member' same
    have overdue := (reckoned.members a).1 member
    exact (overdue.unique ((reckoned.members b).1 member') (Prod.mk.inj same).2.symm).symm
  refine encard_eq_countP reckoned.once apart fun (tier, locator) => ?_
  simp only [Set.mem_ofPred_eq, decide_eq_true_eq]
  constructor
  · rintro ⟨there, gone⟩
    refine (reckoned.object tier locator).resolve_left fun same => gone ?_
    rw [Vault.Holds, same]
    exact there
  · rintro ⟨e, member, reaped, same⟩
    cases same
    exact (reckoned.counts e member).reaped.1 reaped

theorem accounts (reckoned : faults.Reckoned cutoff all outcome v v') :
    (SweepReport.zero.countAll outcome all).Accounts faults cutoff v v' where
  examined := by
    rw [SweepReport.examined_countAll, show SweepReport.zero.examined = 0 from rfl, Nat.zero_add,
      ← List.countP_true]
    refine (encard_eq_countP reckoned.once (Set.injOn_id _) fun e => ?_).symm
    simp [reckoned.members]
  skipped := by
    refine (SweepReport.number_zero_countAll outcome all (some .skipped)).trans ?_
    rw [List.countP_eq_zero]
    exact fun e member => by simpa using (reckoned.counts e member).skipped
  reaped := by
    rw [reckoned.vanished_encard]
    exact congrArg _ (SweepReport.number_zero_countAll outcome all (some .reaped))
  released := reckoned.number_eq (some .released) fun e member => (reckoned.counts e member).released
  staleRemoved :=
    reckoned.number_eq (some .staleRemoved) fun e member => (reckoned.counts e member).staleRemoved
  failed := reckoned.number_eq none fun e member => (reckoned.counts e member).failed
  sum := by
    have balanced : SweepReport.zero.Balanced := rfl
    exact balanced.countAll outcome all
  left := fun e overdue => (reckoned.counts e ((reckoned.members e).2 overdue)).row
  held := fun e overdue held => by
    have counts := reckoned.counts e ((reckoned.members e).2 overdue)
    have released := counts.released.2 held
    refine ⟨by_contra fun left => ?_, fun tier => (counts.objects tier).resolve_right ?_⟩
    · exact nomatch (counts.failed.2 left).symm.trans released
    · exact fun ⟨_, reaped⟩ => nomatch reaped.symm.trans released
  unread := fun e overdue unread => by
    have cell := (reckoned.counts e ((reckoned.members e).2 overdue)).unread unread
    exact ⟨congrArg Cell.row cell, Vault.object?_of_cell reckoned.isBlocked cell⟩
  recent := fun locator recent => by
    refine congrArg Cell.row (reckoned.untouched locator fun e member here => ?_)
    have overdue := (reckoned.members e).1 member
    exact recent e.row (here ▸ overdue.present) ((e.expired_iff cutoff).2 overdue.late)
  objects := fun tier locator apart => by
    refine (reckoned.object tier locator).resolve_right ?_
    rintro ⟨e, member, -, same⟩
    exact apart e ((reckoned.members e).1 member) (Prod.mk.inj same)

end Faults.Reckoned

theorem Faults.treat_fares (faults : Faults) {cutoff : Timestamp} (now : Timestamp) {v : Vault}
    {e : Entry} (wellFormed : v.ledger.WellFormed) (honest : faults.Honest v) (overdue : v.Overdue cutoff e) :
    Fares (faults.verdict v.repository e) e (v.Holds e.tier e.locator) (v.cell e.locator)
      (faults.treat cutoff now e v).1 ((faults.treat cutoff now e v).2.cell e.locator) := by
  have stored : e.tier.isStored = true := by
    rcases (wellFormed _ _ overdue.present).tier with name | name <;>
      rw [Tier.name_injective name] <;> rfl
  rw [treat_overdue overdue]
  exact (Entry.judge_fares honest stored overdue.present).run

/-- A sweep reports on all overdue entries as they fared. -/
theorem Faults.runSweep_reckoned (faults : Faults) (settings : SweepSettings) {pages : Nat}
    {v : Vault} (wellFormed : v.ledger.WellFormed) (honest : faults.Honest v)
    (positive : 0 < settings.batchSize) (enough : v.ledger.size ≤ pages)
    (idle : v.isSweeping = false) :
    let swept := (runSweep settings pages).run.interpret faults.answer v
    ∃ all outcome, swept.1 = .ok (.completed (SweepReport.zero.countAll outcome all)) ∧
      faults.Reckoned (v.clock.back settings.graceInterval) all outcome v swept.2 := by
  intro swept
  obtain ⟨all, once, members, counts, treated⟩ :=
    faults.sweep_treats (v := { v with isSweeping := true }) settings positive wellFormed enough
  have run : swept = _ := faults.runSweep_run settings pages idle
  generalize (sweep settings pages).run.interpret faults.answer { v with isSweeping := true } = after
    at counts treated run
  rw [run, counts]
  refine ⟨all, _, rfl, once, fun e => ?_, fun e member => ?_, treated.untouched,
    treated.course.alike.isBlocked⟩
  · exact (members e).trans ⟨fun due => ⟨due.present, due.late⟩, fun due => ⟨due.present, due.late⟩⟩
  · have overdue := (members e).1 member
    have fares := faults.treat_fares (v := { v with isSweeping := true }) v.clock wellFormed honest
      overdue
    rw [← treated.treated e member] at fares
    exact Fares.counts overdue.present treated.course.alike.isBlocked fares

/-- The report of a sweep counts what happened: the entries that were due, the objects that are
gone, and the entries that were given to their records, that had nothing to lose, and that are left.
What no entry is due for stays as it was. -/
theorem sweep_report_accounts (faults : Faults) (settings : SweepSettings) {pages : Nat} {v : Vault}
    (wellFormed : v.ledger.WellFormed) (honest : faults.Honest v) (positive : 0 < settings.batchSize)
    (enough : v.ledger.size ≤ pages) (idle : v.isSweeping = false) :
    let swept := (runSweep settings pages).run.interpret faults.answer v
    ∃ report, swept.1 = .ok (.completed report) ∧
      report.Accounts faults (v.clock.back settings.graceInterval) v swept.2 := by
  intro swept
  obtain ⟨all, outcome, reported, reckoned⟩ :=
    faults.runSweep_reckoned settings wellFormed honest positive enough idle
  exact ⟨_, reported, reckoned.accounts⟩

namespace Sample

def flaky : Faults where
  history := fun _ f => if f = ⟨"g"⟩ then some (.storage (.io "history")) else none
  deletion := fun _ locator => if locator = [4] then some (.storage (.io "delete")) else none

theorem flaky_honest (v : Vault) : flaky.Honest v := by
  intro tier locator error fails missing
  simp only [flaky] at fails
  split at fails <;> cases fails
  cases missing

def partialLocator : Locator := List.replicate 16 7

/-- Also with content of which a store will not let go, and with a large write that was given up. -/
def troubled : Vault :=
  { assorted with
    ledger := (assorted.ledger.insert [4] (.fresh .medium 5)).insert partialLocator (.fresh .large 5)
    medium := assorted.medium.insert [4] ⟨"a/b", [9], 5⟩
    large := assorted.large.put partialLocator (.directory ⟨none, true, none⟩) }

theorem troubled_wellFormed : troubled.ledger.WellFormed :=
  (assorted_wellFormed.insert [4] (.fresh rfl 5)).insert partialLocator (.fresh rfl 5)

end Sample

/-- Of six entries one was just written. Of the others one is given to its record, one had lost its
content before, the large write is removed, and two are left. -/
theorem troubled_sweep_accounted :
    let swept := (runSweep ⟨10000, 2⟩ 6).run.interpret Sample.flaky.answer Sample.troubled
    let report : SweepReport :=
      { SweepReport.zero with examined := 5, reaped := 1, staleRemoved := 1, released := 1, failed := 2 }
    (Sample.troubled.ledger.WellFormed ∧ Sample.flaky.Honest Sample.troubled ∧ 0 < 2 ∧
      Sample.troubled.ledger.size ≤ 6 ∧ Sample.troubled.isSweeping = false) ∧
      swept.1 = .ok (.completed report) ∧
      report.Accounts Sample.flaky 990000 Sample.troubled swept.2 ∧
      swept.2.ledger.keys = [[1], [3], [4]] ∧ swept.2.medium.keys = [[0], [1], [3], [4]] ∧
      swept.2.large.objects.keys = [] := by
  have enough : Sample.troubled.ledger.size ≤ 6 := by decide
  obtain ⟨report, reported, accounts⟩ := sweep_report_accounts Sample.flaky ⟨10000, 2⟩
    Sample.troubled_wellFormed (Sample.flaky_honest _) (by decide) enough rfl
  have counts : ((runSweep ⟨10000, 2⟩ 6).run.interpret Sample.flaky.answer Sample.troubled).1 =
      .ok (.completed { SweepReport.zero with
        examined := 5, reaped := 1, staleRemoved := 1, released := 1, failed := 2 }) := by
    decide +kernel
  obtain rfl := SweepOutcome.completed.inj (Except.ok.inj (counts.symm.trans reported))
  exact ⟨⟨Sample.troubled_wellFormed, Sample.flaky_honest _, by decide, enough, rfl⟩, counts, accounts,
    by decide +kernel, by decide +kernel, by decide +kernel⟩

end BlobLifecycle
