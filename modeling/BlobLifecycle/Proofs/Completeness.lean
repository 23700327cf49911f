import BlobLifecycle.Proofs.Impartiality

/-! A sweep in which nothing fails is complete: it leaves no overdue entry, and another one at the
same time finds nothing to do. -/
namespace BlobLifecycle

namespace SweepReport

def number (r : SweepReport) : Option EntryOutcome → Nat
  | some .reaped => r.reaped
  | some .staleRemoved => r.staleRemoved
  | some .released => r.released
  | some .skipped => r.skipped
  | none => r.failed

def countAll (r : SweepReport) (outcome : Entry → Except BlobError EntryOutcome) (es : List Entry) :
    SweepReport :=
  es.foldl (fun report e => report.count (outcome e)) r

theorem number_zero (kind : Option EntryOutcome) : zero.number kind = 0 := by
  rcases kind with _ | _ | _ | _ | _ <;> rfl

theorem number_count (r : SweepReport) (outcome : Except BlobError EntryOutcome)
    (kind : Option EntryOutcome) :
    (r.count outcome).number kind = r.number kind + if outcome.toOption = kind then 1 else 0 := by
  cases outcome with
  | error error => rcases kind with _ | _ | _ | _ | _ <;> rfl
  | ok outcome => cases outcome <;> rcases kind with _ | _ | _ | _ | _ <;> rfl

theorem number_countAll (r : SweepReport) (outcome : Entry → Except BlobError EntryOutcome)
    (es : List Entry) (kind : Option EntryOutcome) : (r.countAll outcome es).number kind =
      r.number kind + es.countP fun e => (outcome e).toOption = kind := by
  induction es generalizing r with
  | nil => rfl
  | cons e es ih =>
    refine (ih (r.count (outcome e))).trans ?_
    rw [number_count, List.countP_cons]
    simp only [decide_eq_true_eq]
    omega

theorem number_zero_countAll (outcome : Entry → Except BlobError EntryOutcome) (es : List Entry)
    (kind : Option EntryOutcome) :
    (zero.countAll outcome es).number kind = es.countP fun e => (outcome e).toOption = kind := by
  rw [number_countAll, number_zero, Nat.zero_add]

end SweepReport

namespace Entry

/-- Treated with success the entry is gone, and never passed over; else its row is still there,
condemned perhaps. -/
def Ends (e : Entry) : Except BlobError EntryOutcome → Vault → Prop
  | .ok outcome, v => outcome ≠ .skipped ∧ v.row e.locator = none
  | .error _, v => ∃ mark, v.row e.locator = some { e.row with condemnedAt := mark }

section

open Program

variable {faults : Faults} {v : Vault} {e : Entry} {now cutoff : Timestamp}

/-- After its row is erased an entry is gone, whatever message follows. -/
theorem erased_ends (v : Vault) (event : Event) {outcome : EntryOutcome}
    (counted : outcome ≠ .skipped) :
    (Program.call (.log event) fun _ => .done (.ok outcome)).Passes faults.answer (fun _ => True)
      e.Ends { v with ledger := v.ledger.erase e.locator } :=
  .answered rfl trivial ⟨counted, congrArg Cell.row (Faults.cell_erase v e.locator)⟩

theorem reap_ends (present : v.row e.locator = some e.row) :
    e.reap.run.Passes faults.answer (fun _ => True) e.Ends v := by
  have ledger := (faults.delete_alike v e.tier e.locator).2
  generalize answered : faults.answer (.delete e.tier e.locator) v = after at ledger
  obtain ⟨reply, v'⟩ := after
  refine .answered answered trivial ?_
  cases reply with
  | ok done => exact .answered (r := .remove e.locator) rfl trivial (erased_ends v' _ (by decide))
  | error error =>
    show Passes _ _ _ (ExceptT.run (if error.isNotFound = true then _ else _)) _
    split
    · exact .answered (r := .remove e.locator) rfl trivial (erased_ends v' _ (by decide))
    · exact ⟨e.condemnedAt, (congrArg (·.find? e.locator) ledger).trans present⟩

theorem condemnAndReap_ends (present : v.row e.locator = some e.row)
    (unmarked : e.condemnedAt = none) :
    (e.condemnAndReap now).run.Passes faults.answer (fun _ => True) e.Ends v := by
  obtain ⟨answered, marked⟩ := Faults.condemn_read faults now present unmarked
  refine .answered answered trivial ?_
  have reaped : { e with condemnedAt := some now }.reap.run.Passes faults.answer (fun _ => True)
      { e with condemnedAt := some now }.Ends _ := reap_ends marked
  rw [reap_mark] at reaped
  exact reaped

theorem judge_ends (present : v.row e.locator = some e.row) :
    (e.judge now).run.Passes faults.answer (fun _ => True) e.Ends v := by
  unfold judge
  split
  · exact reap_ends present
  · next unmarked =>
    have unmarked : e.condemnedAt = none := by simpa using unmarked
    cases claim : e.claim with
    | none => exact condemnAndReap_ends present unmarked
    | some holder =>
      refine .answered (faults.history_silent v holder.record holder.field) trivial ?_
      cases (faults.answer (.fieldHistory holder.record holder.field) v).1 with
      | error error => exact ⟨e.condemnedAt, present⟩
      | ok history =>
        show Passes _ _ _ (ExceptT.run (if _ then _ else _)) _
        split
        · exact .answered (Faults.release_read faults present unmarked claim) trivial
            (erased_ends v _ (by decide))
        · exact condemnAndReap_ends present unmarked

theorem Ends.gone_iff {outcome : Except BlobError EntryOutcome} (ends : e.Ends outcome v)
    (due : e.lastActivity < cutoff) : outcome.isOk = true ↔
      ∀ row, v.row e.locator = some row → ¬row.Expired cutoff := by
  cases outcome with
  | ok outcome =>
    refine ⟨fun _ row present => ?_, fun _ => rfl⟩
    exact nomatch ends.2.symm.trans present
  | error error =>
    obtain ⟨mark, present⟩ := ends
    refine ⟨nofun, fun gone => (gone _ present ?_).elim⟩
    exact (e.expired_iff cutoff).2 due

end

end Entry

namespace Faults

variable {faults : Faults} {cutoff now : Timestamp} {v : Vault} {e : Entry} {es : List Entry}

theorem treat_overdue (overdue : v.Overdue cutoff e) :
    faults.treat cutoff now e v = (e.judge now).run.interpret faults.answer v := by
  have stale : e.isFresh cutoff = false := by
    simp only [Entry.isFresh, Bool.and_eq_false_imp, decide_eq_false_iff_not]
    exact fun _ => Int.not_le.2 overdue.late
  rw [treat_present overdue.present, stale]
  rfl

theorem treat_ends (overdue : v.Overdue cutoff e) :
    e.Ends (faults.treat cutoff now e v).1 (faults.treat cutoff now e v).2 := by
  rw [treat_overdue overdue]
  exact (Entry.judge_ends overdue.present).run

/-- A report without failures is one of entries that are all gone. -/
theorem tally_failed_eq_zero : (faults.tally cutoff now v es .zero).failed = 0 ↔
    ∀ e ∈ es, (faults.treat cutoff now e v).1.isOk = true := by
  have failed := SweepReport.number_zero_countAll (fun e => (faults.treat cutoff now e v).1) es none
  rw [show (faults.tally cutoff now v es .zero).failed = _ from failed, List.countP_eq_zero]
  refine forall₂_congr fun e _ => ?_
  cases (faults.treat cutoff now e v).1 <;> simp [Except.toOption, Except.isOk, Except.toBool]

/-- Between taking the lock and giving it back there is the sweep. -/
theorem runSweep_run (faults : Faults) (settings : SweepSettings) (pages : Nat)
    (idle : v.isSweeping = false) :
    let swept := (sweep settings pages).run.interpret faults.answer { v with isSweeping := true }
    (runSweep settings pages).run.interpret faults.answer v =
      (swept.1.map .completed, { swept.2 with isSweeping := false }) := by
  have locked : faults.answer .beginSweep v = (true, { v with isSweeping := true }) := by
    show ((!v.isSweeping), { v with isSweeping := true }) = _
    rw [idle]
    rfl
  refine (Program.interpret_call (α := Except BlobError SweepOutcome) _).trans ?_
  rw [locked]
  exact Program.interpret_bind_run (sweep settings pages).run _

/-- Without overdue rows a listing is empty, and the sweep ends with its first page. -/
theorem sweep_idle (faults : Faults) (settings : SweepSettings) (pages : Nat)
    (wellFormed : v.ledger.WellFormed) (recent : ∀ locator row, v.row locator = some row →
      ¬row.Expired (v.clock.back settings.graceInterval)) :
    (sweep settings pages).run.interpret faults.answer v = (.ok .zero, v) := by
  have idle : (sweepPages settings.batchSize (v.clock.back settings.graceInterval) v.clock pages
      none .zero).run.interpret faults.answer v = (.ok .zero, v) := by
    cases pages with
    | zero => rfl
    | succ pages =>
      obtain ⟨page, given⟩ := wellFormed.listExpired (v.clock.back settings.graceInterval) none
        settings.batchSize
      have lists : Lists v _ none settings.batchSize page := Vault.lists given
      have empty : page = [] := List.eq_nil_iff_forall_not_mem.2 fun e listed =>
        recent e.locator e.row (lists.present e listed) (lists.overdue e listed)
      subst empty
      have answered : faults.answer (.listExpired (v.clock.back settings.graceInterval) none
          settings.batchSize) v = (.ok [], v) := by
        rw [← given]
        rfl
      exact sweepPages_run answered .zero
  refine (Program.interpret_call (α := Except BlobError SweepReport) _).trans ?_
  refine (Program.interpret_bind_run (sweepPages _ _ _ _ _ _).run _).trans ?_
  rw [show faults.answer .now v = (v.clock, v) from rfl, idle]
  rfl

theorem runSweep_idle (faults : Faults) (settings : SweepSettings) (pages : Nat)
    (idle : v.isSweeping = false) (wellFormed : v.ledger.WellFormed)
    (recent : ∀ locator row, v.row locator = some row →
      ¬row.Expired (v.clock.back settings.graceInterval)) :
    (runSweep settings pages).run.interpret faults.answer v = (.ok (.completed .zero), v) := by
  have swept := faults.sweep_idle (v := { v with isSweeping := true }) settings pages wellFormed recent
  rw [faults.runSweep_run settings pages idle, swept, ← idle]
  rfl

/-- After these entries were treated no row is overdue exactly if none came to an error. -/
theorem Treated.clears_iff {v' : Vault} (treated : faults.Treated cutoff now es v v')
    (wellFormed : v.ledger.WellFormed) (members : ∀ e, e ∈ es ↔ v.Overdue cutoff e) :
    (∀ e ∈ es, (faults.treat cutoff now e v).1.isOk = true) ↔
      ∀ locator row, v'.row locator = some row → ¬row.Expired cutoff := by
  have ends (e : Entry) (member : e ∈ es) : (faults.treat cutoff now e v).1.isOk = true ↔
      ∀ row, v'.row e.locator = some row → ¬row.Expired cutoff := by
    have overdue := (members e).1 member
    rw [show v'.row e.locator = _ from congrArg Cell.row (treated.treated e member)]
    exact (treat_ends overdue).gone_iff overdue.late
  constructor
  · intro succeeds locator row present expired
    by_cases chosen : ∃ e ∈ es, e.locator = locator
    · obtain ⟨e, member, rfl⟩ := chosen
      exact (ends e member).1 (succeeds e member) row present expired
    · have apart : ∀ e ∈ es, e.locator ≠ locator := by simpa using chosen
      -- A row that no treatment touched was there before, so its entry was treated after all.
      have before : v.row locator = some row :=
        (congrArg Cell.row (treated.untouched locator apart)).symm.trans present
      obtain ⟨e, rfl, -, rfl⟩ := (wellFormed locator row before).entry locator
      have overdue : v.Overdue cutoff e := ⟨before, (e.expired_iff cutoff).1 expired⟩
      exact apart e ((members e).2 overdue) rfl
  · exact fun recent e member => (ends e member).2 (recent e.locator)

end Faults

/-- A sweep in which nothing fails, and only such a one, leaves no overdue row. Another one with
the same grace interval at the same time then reports nothing and changes nothing. -/
theorem unfailing_sweep_complete (faults faults' : Faults) (settings : SweepSettings) {pages : Nat}
    {v : Vault} (wellFormed : v.ledger.WellFormed) (positive : 0 < settings.batchSize)
    (enough : v.ledger.size ≤ pages) (idle : v.isSweeping = false) :
    let cutoff := v.clock.back settings.graceInterval
    let first := (runSweep settings pages).run.interpret faults.answer v
    ∃ report, first.1 = .ok (.completed report) ∧
      (report.failed = 0 ↔
        ∀ locator row, first.2.row locator = some row → ¬row.Expired cutoff) ∧
      (report.failed = 0 → ∀ batchSize pages',
        (runSweep ⟨settings.graceInterval, batchSize⟩ pages').run.interpret faults'.answer first.2 =
          (.ok (.completed .zero), first.2)) := by
  intro cutoff first
  obtain ⟨all, -, members, counts, treated⟩ :=
    faults.sweep_treats (v := { v with isSweeping := true }) settings positive wellFormed enough
  have run : first = _ := faults.runSweep_run settings pages idle
  generalize (sweep settings pages).run.interpret faults.answer { v with isSweeping := true } = swept
    at counts treated run
  have clean : (faults.tally cutoff v.clock { v with isSweeping := true } all .zero).failed = 0 ↔
      ∀ locator row, first.2.row locator = some row → ¬row.Expired cutoff := by
    rw [run]
    exact Faults.tally_failed_eq_zero.trans (treated.clears_iff wellFormed members)
  refine ⟨_, by rw [run, counts]; rfl, clean, fun unfailing batchSize pages' => ?_⟩
  have unlocked : first.2.isSweeping = false := by rw [run]
  have sound : first.2.ledger.WellFormed := by
    rw [run]
    exact treated.course.wellFormed wellFormed
  have clock : first.2.clock = v.clock := by
    rw [run]
    exact treated.course.alike.clock
  refine faults'.runSweep_idle _ pages' unlocked sound fun locator row present => ?_
  rw [clock]
  exact clean.1 unfailing locator row present

namespace Sample

/-- Content that its record holds, a claim whose record went without it, an entry that an earlier
sweep condemned after its content had gone, and content that was just written. -/
def assorted : Vault :=
  { Vault.numbered 1000000 with
    ledger := ((((∅ : Ledger).insert
      [0] ((LedgerRow.fresh .medium 5).claimFor ⟨record, field⟩ 6)).insert
      [1] ((LedgerRow.fresh .medium 5).claimFor ⟨record, ⟨"g"⟩⟩ 6)).insert
      [2] { LedgerRow.fresh .medium 5 with condemnedAt := some 7 }).insert
      [3] (.fresh .medium 999999)
    medium := (((∅ : MediumStore).insert [0] ⟨"a/b", [7], 5⟩).insert [1] ⟨"a/b", [8], 5⟩).insert
      [3] ⟨"a/b", [9], 999999⟩
    repository := records (some (.list [note, handle])) }

theorem assorted_wellFormed : assorted.ledger.WellFormed :=
  (((Ledger.WellFormed.empty.insert [0] (.claimFor (.fresh rfl 5) _ 6)).insert
    [1] (.claimFor (.fresh rfl 5) _ 6)).insert
    [2] ⟨.inl rfl, by decide, by decide⟩).insert [3] (.fresh rfl 999999)

end Sample

/-- Page by page, each with one entry, all but the one just written are dealt with, and the next
sweep has nothing to do. -/
theorem assorted_entries_swept :
    let first := (runSweep ⟨10000, 1⟩ 4).run.interpret Sample.faultless.answer Sample.assorted
    (Sample.assorted.ledger.WellFormed ∧ 0 < 1 ∧ Sample.assorted.ledger.size ≤ 4 ∧
      Sample.assorted.isSweeping = false) ∧
      first.1 = .ok (.completed
        { SweepReport.zero with examined := 3, reaped := 1, staleRemoved := 1, released := 1 }) ∧
      first.2.ledger.keys = [[3]] ∧ first.2.medium.keys = [[0], [3]] ∧
      (∀ locator row, first.2.row locator = some row → ¬row.Expired 990000) ∧
      (runSweep ⟨10000, 1⟩ 4).run.interpret Sample.faultless.answer first.2 =
        (.ok (.completed .zero), first.2) := by
  have enough : Sample.assorted.ledger.size ≤ 4 := by decide
  obtain ⟨report, reported, complete, again⟩ := unfailing_sweep_complete Sample.faultless
    Sample.faultless ⟨10000, 1⟩ Sample.assorted_wellFormed (by decide) enough rfl
  have counts : ((runSweep ⟨10000, 1⟩ 4).run.interpret Sample.faultless.answer Sample.assorted).1 =
      .ok (.completed
        { SweepReport.zero with examined := 3, reaped := 1, staleRemoved := 1, released := 1 }) := by
    decide +kernel
  have unfailing : report.failed = 0 := by
    obtain rfl := SweepOutcome.completed.inj (Except.ok.inj (counts.symm.trans reported))
    rfl
  exact ⟨⟨Sample.assorted_wellFormed, by decide, enough, rfl⟩, counts, by decide +kernel,
    by decide +kernel, complete.1 unfailing, again unfailing 1 4⟩

end BlobLifecycle
