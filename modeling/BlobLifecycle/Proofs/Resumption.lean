import BlobLifecycle.Proofs.Coverage
import BlobLifecycle.Proofs.Settlement
import Mathlib.Data.List.Sort

/-! A sweep that stops anywhere is completed by the next one. On the way of a sweep the end of each
locator is the same at every moment, and a whole sweep brings all of them there. -/
namespace BlobLifecycle

theorem LocatorMap.eq_of_find? {m n : LocatorMap α} (same : ∀ key, m.find? key = n.find? key) : m = n := by
  have irrefl : Std.Irrefl fun a b : Locator × α => a.1 < b.1 := ⟨fun a => List.lt_irrefl a.1⟩
  have antisymm : Std.Antisymm fun a b : Locator × α => a.1 < b.1 :=
    ⟨fun a b less less' => absurd (List.lt_trans less less') (List.lt_irrefl a.1)⟩
  refine ext (m.sorted.eq_of_mem_iff n.sorted fun (key, value) => ?_)
  rw [← find?_eq_some_iff, ← find?_eq_some_iff, same]

theorem LargeStore.eq_of_parts {a b : LargeStore} (root : a.root = b.root)
    (isBlocked : a.isBlocked = b.isBlocked) (objects : a.objects = b.objects) : a = b := by
  obtain ⟨_, _, _⟩ := a
  cases root; cases isBlocked; cases objects
  rfl

namespace Faults

variable (faults : Faults)

/-- On the way of a sweep. Each locator will end as it would have at first. -/
structure Course (cutoff now : Timestamp) (v v' : Vault) : Prop where
  alike : v.Alike v'
  destiny : ∀ locator, faults.destiny cutoff now v' locator = faults.destiny cutoff now v locator
  wanes : ∀ locator, v.Wanes v' locator

structure Clears (cutoff now : Timestamp) (chosen : Locator → Prop) (v v' : Vault) : Prop where
  course : faults.Course cutoff now v v'
  stays : ∀ locator, faults.Settled cutoff now v locator → faults.Settled cutoff now v' locator
  settled : ∀ locator, chosen locator → faults.Settled cutoff now v' locator

section

variable {faults} {cutoff now : Timestamp} {v v' v'' : Vault} {locator : Locator}

namespace Course

theorem refl (v : Vault) : faults.Course cutoff now v v :=
  ⟨.refl v, fun _ => rfl, fun _ => .of_same rfl⟩

theorem trans (first : faults.Course cutoff now v v') (second : faults.Course cutoff now v' v'') :
    faults.Course cutoff now v v'' where
  alike := first.alike.trans second.alike
  destiny := fun locator => (second.destiny locator).trans (first.destiny locator)
  wanes := fun locator => (first.wanes locator).trans (second.wanes locator)

theorem wellFormed (course : faults.Course cutoff now v v') (wellFormed : v.ledger.WellFormed) :
    v'.ledger.WellFormed := by
  intro locator row' present
  obtain ⟨row, mark, present', rfl⟩ := course.wanes locator row' present
  have old := wellFormed locator row present'
  exact ⟨old.tier, old.claim, old.stamp⟩

theorem expired (course : faults.Course cutoff now v v')
    (due : ∀ row, v.row locator = some row → row.Expired cutoff) (row' : LedgerRow)
    (present : v'.row locator = some row') : row'.Expired cutoff := by
  obtain ⟨row, mark, present', rfl⟩ := course.wanes locator row' present
  exact due row present'

end Course

/-- Nothing happens to the other locators. -/
theorem Advance.course (advance : faults.Advance cutoff now locator v v') :
    faults.Course cutoff now v v' where
  alike := advance.alike
  destiny := fun other => by
    by_cases same : other = locator
    · rw [same]
      exact advance.destiny
    · exact destiny_congr advance.alike (advance.apart other same)
  wanes := fun other => by
    by_cases same : other = locator
    · rw [same]
      exact advance.wanes
    · exact .of_same (congrArg Cell.row (advance.apart other same))

theorem Advance.clears (advance : faults.Advance cutoff now locator v v')
    (settled : faults.Settled cutoff now v' locator) :
    faults.Clears cutoff now (· = locator) v v' where
  course := advance.course
  stays := fun other before => by
    by_cases same : other = locator
    · rw [same]
      exact settled
    · exact (advance.apart other same).trans (before.trans (advance.course.destiny other).symm)
  settled := fun other same => same ▸ settled

theorem course_log (event : Event) : faults.Course cutoff now v (faults.answer (.log event) v).2 :=
  (advance_log event []).course

theorem Clears.trans {first second : Locator → Prop} (before : faults.Clears cutoff now first v v')
    (after : faults.Clears cutoff now second v' v'') :
    faults.Clears cutoff now (fun locator => first locator ∨ second locator) v v'' where
  course := before.course.trans after.course
  stays := fun locator settled => after.stays locator (before.stays locator settled)
  settled := fun locator chosen =>
    chosen.elim (fun early => after.stays locator (before.settled locator early))
      (after.settled locator)

theorem Clears.told {chosen : Locator → Prop} (clears : faults.Clears cutoff now chosen v v')
    (event : Event) : faults.Clears cutoff now chosen v (faults.answer (.log event) v').2 := by
  have step : faults.Course cutoff now v' (faults.answer (.log event) v').2 := course_log event
  have stays (locator : Locator) (settled : faults.Settled cutoff now v' locator) :
      faults.Settled cutoff now (faults.answer (.log event) v').2 locator :=
    Eq.trans settled (step.destiny locator).symm
  exact ⟨clears.course.trans step, fun locator settled => stays locator (clears.stays locator settled),
    fun locator member => stays locator (clears.settled locator member)⟩

/-- Requests that settle these locators, each leaving the others to their end. -/
def Clearing (faults : Faults) (cutoff now : Timestamp) (chosen : Locator → Prop) (p : Program α)
    (v : Vault) : Prop :=
  p.Passes faults.answer (faults.Course cutoff now v)
    (fun _ => faults.Clears cutoff now chosen v) v

theorem Clearing.after {first chosen goal : Locator → Prop} {p : Program α}
    (clearing : faults.Clearing cutoff now chosen p v') (before : faults.Clears cutoff now first v v')
    (all : ∀ locator, goal locator → first locator ∨ chosen locator) :
    p.Passes faults.answer (faults.Course cutoff now v) (fun _ => faults.Clears cutoff now goal v) v' :=
  clearing.mono (fun _ => before.course.trans) fun _ _ after =>
    let both := before.trans after
    ⟨both.course, both.stays, fun locator wanted => both.settled locator (all locator wanted)⟩

end

end Faults

section

open Faults Program

variable {faults : Faults} {cutoff now : Timestamp} {v : Vault}

theorem sweepPage_clearing {page : List Entry} (wellFormed : v.ledger.WellFormed)
    (due : ∀ e ∈ page, ∀ row, v.row e.locator = some row → row.Expired cutoff)
    (report : SweepReport) :
    faults.Clearing cutoff now (· ∈ page.map (·.locator)) (sweepPage cutoff now page report) v := by
  induction page generalizing v report with
  | nil => exact ⟨.refl v, fun _ settled => settled, nofun⟩
  | cons e page ih =>
    obtain ⟨here, others⟩ := List.forall_mem_cons.1 due
    have processed : faults.Settles cutoff now e.locator (e.process cutoff now).run v :=
      e.process_settles wellFormed here
    have first : (e.process cutoff now).run.Passes faults.answer (faults.Course cutoff now v)
        (fun _ => faults.Clears cutoff now (· = e.locator) v) v :=
      processed.mono (fun _ => Advance.course) fun _ _ reached => reached.1.clears reached.2
    refine first.bind fun outcome v' cleared => ?_
    have goes {v' : Vault} (cleared : faults.Clears cutoff now (· = e.locator) v v') :
        (sweepPage cutoff now page (report.count outcome)).Passes faults.answer
          (faults.Course cutoff now v)
          (fun _ => faults.Clears cutoff now (· ∈ (e :: page).map (·.locator)) v) v' := by
      refine (ih (cleared.course.wellFormed wellFormed) (fun e' member => ?_) _).after cleared
        fun locator member => List.mem_cons.1 (List.map_cons ▸ member)
      exact cleared.course.expired (others e' member)
    cases outcome with
    | ok outcome => exact goes cleared
    | error error => exact ⟨(cleared.told _).course, goes (cleared.told _)⟩

/-- After a page a locator is settled, or comes after all of a full page. -/
theorem Lists.settles {v' : Vault} {cursor : Option Locator} {batchSize : Nat} {page : List Entry}
    (lists : Lists v cutoff cursor batchSize page) (wellFormed : v.ledger.WellFormed)
    (before : ∀ locator, Ledger.isAfter cursor locator = false → faults.Settled cutoff now v locator)
    (cleared : faults.Clears cutoff now (· ∈ page.map (·.locator)) v v') (locator : Locator) :
    faults.Settled cutoff now v' locator ∨
      batchSize ≤ page.length ∧ ∀ e ∈ page, e.locator < locator := by
  by_cases listed : locator ∈ page.map (·.locator)
  · exact .inl (cleared.settled locator listed)
  cases after : Ledger.isAfter cursor locator with
  | false => exact .inl (cleared.stays locator (before locator after))
  | true =>
    cases present : v.row locator with
    | none => exact .inl (cleared.stays locator (settled_absent present))
    | some row =>
      by_cases expired : row.Expired cutoff
      · exact .inr (lists.complete locator row present expired after listed)
      · obtain ⟨e, rfl, -, rfl⟩ := (wellFormed locator row present).entry locator
        rw [e.expired_iff] at expired
        exact .inl (cleared.stays e.locator (settled_fresh present expired))

theorem Lists.further {cursor : Option Locator} {batchSize : Nat} {page : List Entry} {last : Entry}
    {locator : Locator} (lists : Lists v cutoff cursor batchSize page)
    (ends : page.getLast? = some last)
    (after : Ledger.isAfter (some last.locator) locator = true) :
    Ledger.isAfter cursor locator = true := by
  have start := lists.after last (Lists.last_mem ends)
  cases cursor with
  | none => rfl
  | some c =>
    simp only [Ledger.isAfter, decide_eq_true_eq] at start after ⊢
    exact List.lt_trans start after

/-- The cursor moves on over locators that are known. -/
theorem Lists.fewer {cursor : Option Locator} {batchSize : Nat} {page : List Entry} {last : Entry}
    {known : List Locator} (lists : Lists v cutoff cursor batchSize page)
    (ends : page.getLast? = some last) (member : last.locator ∈ known) :
    known.countP (Ledger.isAfter (some last.locator)) < known.countP (Ledger.isAfter cursor) := by
  have start := lists.after last (Lists.last_mem ends)
  have further (locator : Locator) (after : Ledger.isAfter (some last.locator) locator = true) :
      Ledger.isAfter cursor locator = true := lists.further ends after
  have ended : Ledger.isAfter (some last.locator) last.locator = false :=
    decide_eq_false (List.lt_irrefl _)
  obtain ⟨front, rest, rfl⟩ := List.append_of_mem member
  have fewer := List.countP_mono_left (l := front) fun locator _ => further locator
  have fewer' := List.countP_mono_left (l := rest) fun locator _ => further locator
  simp only [List.countP_append, List.countP_cons, start, ended, if_true]
  simp only [Bool.false_eq_true, if_false]
  omega

/-- Page after page settles all locators, if the bound of pages leaves room for the rows. -/
theorem sweepPages_clearing {batchSize pages : Nat} {cursor : Option Locator} {known : List Locator}
    (positive : 0 < batchSize) (wellFormed : v.ledger.WellFormed)
    (covers : ∀ locator row, v.row locator = some row → locator ∈ known)
    (enough : known.countP (Ledger.isAfter cursor) ≤ pages)
    (before : ∀ locator, Ledger.isAfter cursor locator = false → faults.Settled cutoff now v locator)
    (report : SweepReport) :
    faults.Clearing cutoff now (fun _ => True)
      (sweepPages batchSize cutoff now pages cursor report).run v := by
  induction pages generalizing v cursor report with
  | zero =>
    refine ⟨.refl v, fun _ settled => settled, fun locator _ => ?_⟩
    cases present : v.row locator with
    | none => exact settled_absent present
    | some row =>
      have none := List.countP_eq_zero.1 (Nat.le_zero.1 enough) locator (covers locator row present)
      exact before locator (eq_false_of_ne_true none)
  | succ pages ih =>
    obtain ⟨page, given⟩ := wellFormed.listExpired cutoff cursor batchSize
    have answered : faults.answer (.listExpired cutoff cursor batchSize) v = (.ok page, v) := by
      rw [← given]
      rfl
    have lists : Lists v cutoff cursor batchSize page := Vault.lists given
    refine .answered answered (.refl v) (Operation.passes_lift ?_)
    have due : ∀ e ∈ page, ∀ row, v.row e.locator = some row → row.Expired cutoff := by
      intro e here row present
      cases (lists.present e here).symm.trans present
      exact lists.overdue e here
    refine (sweepPage_clearing wellFormed due report).bind fun counts v' cleared => ?_
    have settles := lists.settles wellFormed before cleared
    have stop (short : page = [] ∨ page.length < batchSize) :
        faults.Clears cutoff now (fun _ => True) v v' := by
      refine ⟨cleared.course, cleared.stays, fun locator _ => (settles locator).resolve_right ?_⟩
      rintro ⟨full, -⟩
      rcases short with rfl | short
      · exact Nat.lt_irrefl 0 (Nat.lt_of_lt_of_le positive full)
      · omega
    split
    · next empty => exact stop (.inl (List.getLast?_eq_none_iff.1 empty))
    · next last ends =>
      split
      · next short => exact stop (.inr short)
      · have member := Lists.last_mem ends
        have fewer := lists.fewer ends (covers _ _ (lists.present last member))
        refine (ih (cleared.course.wellFormed wellFormed) ?_ (by omega) ?_ counts).after cleared
          fun _ _ => .inr trivial
        · intro locator row' present
          obtain ⟨row, mark, present', -⟩ := cleared.course.wanes locator row' present
          exact covers locator row present'
        · intro locator passed
          refine (settles locator).resolve_right fun beyond => ?_
          exact of_decide_eq_false passed (beyond.2 last member)

/-- A sweep settles all locators, by the reading of the clock with which it begins. -/
theorem sweep_clearing {settings : SweepSettings} {pages : Nat} {known : List Locator}
    (positive : 0 < settings.batchSize) (wellFormed : v.ledger.WellFormed)
    (covers : ∀ locator row, v.row locator = some row → locator ∈ known)
    (enough : known.length ≤ pages) :
    faults.Clearing (v.clock.back settings.graceInterval) v.clock (fun _ => True)
      (sweep settings pages).run v := by
  obtain ⟨finish, run, message⟩ := sweep_run settings
  rw [run]
  refine .answered (r := .now) (show faults.answer .now v = (v.clock, v) from rfl) (.refl v) ?_
  have paged : faults.Clearing (v.clock.back settings.graceInterval) v.clock (fun _ => True)
      (sweepPages settings.batchSize (v.clock.back settings.graceInterval) v.clock pages none
        .zero).run v :=
    sweepPages_clearing positive wellFormed covers (Nat.le_trans List.countP_le_length enough)
      (fun _ passed => Bool.noConfusion passed) .zero
  refine Passes.bind paged fun result v' cleared => ?_
  rcases message result with silent | ⟨event, told⟩
  · rw [silent]
    exact cleared
  · rw [told]
    exact ⟨(cleared.told event).course, cleared.told event⟩

/-- A sweep that stops after any number of requests is completed by the next one: the ledger and
the contents are then what one sweep without a stop would have left, with each locator at its end. -/
theorem interrupted_sweep_completed (faults : Faults) (settings : SweepSettings) (pages : Nat)
    (wellFormed : v.ledger.WellFormed) (positive : 0 < settings.batchSize)
    (enough : v.ledger.size ≤ pages) (requests : Nat) :
    let whole := (sweep settings pages).run.interpret faults.answer v
    let stopped := (sweep settings pages).run.stopped faults.answer requests v
    let resumed := (sweep settings pages).run.interpret faults.answer stopped
    resumed.2.ledger = whole.2.ledger ∧ resumed.2.medium = whole.2.medium ∧
      resumed.2.large = whole.2.large ∧ ∀ locator, whole.2.cell locator =
        faults.destiny (v.clock.back settings.graceInterval) v.clock v locator := by
  intro whole stopped resumed
  have covers (locator : Locator) (row : LedgerRow) (present : v.row locator = some row) :
      locator ∈ v.ledger.keys :=
    List.mem_map.2 ⟨(locator, row), LocatorMap.find?_eq_some_iff.1 present, rfl⟩
  have room : v.ledger.keys.length ≤ pages := (List.length_map _).trans_le enough
  have first : faults.Clearing (v.clock.back settings.graceInterval) v.clock (fun _ => True)
      (sweep settings pages).run v := sweep_clearing positive wellFormed covers room
  have course : faults.Course _ _ v stopped := first.stopped (.refl v) requests
  have second : faults.Clearing (stopped.clock.back settings.graceInterval) stopped.clock
      (fun _ => True) (sweep settings pages).run stopped := by
    refine sweep_clearing positive (course.wellFormed wellFormed) (fun locator row present => ?_) room
    obtain ⟨row', -, present', -⟩ := course.wanes locator row present
    exact covers locator row' present'
  rw [course.alike.clock] at second
  have wholly : faults.Clears _ _ (fun _ => True) v whole.2 := first.run
  have finally' : faults.Clears _ _ (fun _ => True) stopped resumed.2 := second.run
  have ends (locator : Locator) : whole.2.cell locator =
      faults.destiny (v.clock.back settings.graceInterval) v.clock v locator := by
    rw [wholly.settled locator trivial, wholly.course.destiny]
  have same (locator : Locator) : resumed.2.cell locator = whole.2.cell locator := by
    rw [finally'.settled locator trivial, finally'.course.destiny, course.destiny, ends]
  have alike := (course.trans finally'.course).alike
  refine ⟨?_, ?_, ?_, ends⟩
  · exact LocatorMap.eq_of_find? fun key => congrArg Cell.row (same key)
  · exact LocatorMap.eq_of_find? fun key => congrArg Cell.medium (same key)
  · have objects : resumed.2.large.objects = whole.2.large.objects :=
      LocatorMap.eq_of_find? fun key => congrArg Cell.large (same key)
    have root := alike.root.trans wholly.course.alike.root.symm
    have blocked := alike.isBlocked.trans wholly.course.alike.isBlocked.symm
    exact LargeStore.eq_of_parts root blocked objects

end

namespace Sample

def unreadable : Faults := ⟨fun _ _ => some (.storage (.io "history")), fun _ _ => none⟩

/-- Content that was never claimed, and content that was claimed long ago. -/
def neglected : Vault :=
  { Vault.numbered 1000000 with
    ledger := ((∅ : Ledger).insert [0] (.fresh .medium 5)).insert [1]
      ((LedgerRow.fresh .medium 5).claimFor ⟨record, field⟩ 6)
    medium := ((∅ : MediumStore).insert [0] ⟨"a/b", [7], 5⟩).insert [1] ⟨"a/b", [8], 5⟩ }

theorem neglected_wellFormed : neglected.ledger.WellFormed :=
  (Ledger.WellFormed.empty.insert [0] (.fresh rfl 5)).insert [1] (.claimFor (.fresh rfl 5) _ 6)

end Sample

/-- A sweep that stops right after it condemned an entry leaves the entry and its content to the
next one. -/
theorem condemned_entry_completed :
    let job := (sweep ⟨10000, 1⟩ 2).run
    let whole := (job.interpret Sample.unreadable.answer Sample.neglected).2
    let stopped := job.stopped Sample.unreadable.answer 4 Sample.neglected
    let resumed := (job.interpret Sample.unreadable.answer stopped).2
    (Sample.neglected.ledger.WellFormed ∧ 0 < 1 ∧ Sample.neglected.ledger.size ≤ 2) ∧
      stopped.row [0] = some { LedgerRow.fresh .medium 5 with condemnedAt := some 1000000 } ∧
      stopped.medium.contains [0] = true ∧
      (whole.row [0] = none ∧ whole.medium.contains [0] = false) ∧ whole.medium.contains [1] = true ∧
      resumed.ledger = whole.ledger ∧ resumed.medium = whole.medium ∧ resumed.large = whole.large := by
  obtain ⟨ledger, medium, large, -⟩ := interrupted_sweep_completed Sample.unreadable ⟨10000, 1⟩ 2
    Sample.neglected_wellFormed (by decide) (by decide) 4
  exact ⟨⟨Sample.neglected_wellFormed, by decide, by decide⟩, rfl, rfl, ⟨rfl, rfl⟩, rfl, ledger,
    medium, large⟩

end BlobLifecycle
