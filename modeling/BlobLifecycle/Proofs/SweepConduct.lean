import BlobLifecycle.Proofs.Conduct
import BlobLifecycle.Proofs.Traversal
import BlobLifecycle.Sweep

/-! What sweeps may do. An entry is condemned only if it was seen to be overdue and no
record was seen to hold its content; content is deleted and rows are removed only for
entries that were seen condemned or condemned oneself. -/
namespace BlobLifecycle

/-- Condemned before or by oneself, and not removed since. -/
def Doomed (own : List Effect) (e : Entry) : Prop :=
  ∃ later mark earlier, own = later ++ mark :: earlier ∧ Effect.removed e.locator ∉ later ∧
    ((mark = .found e ∧ e.condemnedAt.isSome = true) ∨ ∃ time, mark = .condemned e time)

theorem Doomed.of_found {own : List Effect} {e : Entry} (condemned : e.condemnedAt.isSome = true) :
    Doomed (.found e :: own) e :=
  ⟨[], .found e, own, rfl, List.not_mem_nil, .inl ⟨rfl, condemned⟩⟩

theorem Doomed.of_condemned (own : List Effect) (e : Entry) (time : Timestamp) :
    Doomed (.condemned e time :: own) e :=
  ⟨[], .condemned e time, own, rfl, List.not_mem_nil, .inr ⟨time, rfl⟩⟩

theorem Doomed.cons {own : List Effect} {e : Entry} {d : Effect} (doomed : Doomed own e)
    (other : d ≠ .removed e.locator) : Doomed (d :: own) e := by
  obtain ⟨later, mark, earlier, rfl, unremoved, marked⟩ := doomed
  refine ⟨d :: later, mark, earlier, rfl, ?_, marked⟩
  intro member
  rcases List.mem_cons.1 member with same | member
  · exact other same.symm
  · exact unremoved member

theorem Doomed.marked {own : List Effect} {e : Entry} (doomed : Doomed own e) :
    (.found e ∈ own ∧ e.condemnedAt.isSome = true) ∨ ∃ time, .condemned e time ∈ own := by
  obtain ⟨later, mark, earlier, rfl, _, ⟨rfl, condemned⟩ | ⟨time, rfl⟩⟩ := doomed
  · exact .inl ⟨List.mem_append_right _ List.mem_cons_self, condemned⟩
  · exact .inr ⟨time, List.mem_append_right _ List.mem_cons_self⟩

/-- The cutoff lies at least a grace interval before one's own reading of the clock. -/
def Cutoff (grace : Int) (own : List Effect) (cutoff : Timestamp) : Prop :=
  ∃ now interval, .read now ∈ own ∧ grace ≤ interval ∧ cutoff = now.back interval

theorem Cutoff.mono {grace : Int} {own own' : List Effect} {cutoff : Timestamp}
    (timed : Cutoff grace own cutoff) (grown : own ⊆ own') : Cutoff grace own' cutoff := by
  obtain ⟨now, interval, member, enough, same⟩ := timed
  exact ⟨now, interval, grown member, enough, same⟩

/-- The reasons to condemn an entry, as far as one's own requests tell. -/
structure Overdue (grace : Int) (own : List Effect) (e : Entry) : Prop where
  found : .found e ∈ own
  old : ∃ cutoff, Cutoff grace own cutoff ∧ e.lastActivity < cutoff
  unheld : ∀ holder, e.claim = some holder → ∃ values, .asked holder values ∈ own ∧
    ¬HoldObject values e.tier e.locator

def sweepRule (grace : Int) : Rule := fun own d =>
  match d with
  | .read _ => First own
  | .found _ | .missed _ | .asked .. | .released .. => True
  | .condemned e _ => Overdue grace own e
  | .deleted tier locator => ∃ e, e.tier = tier ∧ e.locator = locator ∧ Doomed own e
  | .removed locator => ∃ e, e.locator = locator ∧ Doomed own e
  | _ => False

def Locked (own : List Effect) : Prop := .locked ∈ own ∧ .unlocked ∉ own

def monitorRule (grace : Int) : Rule := fun own d =>
  match d with
  | .locked => own = []
  | .unlocked => Locked own
  | d => Locked own ∧ sweepRule grace own d

namespace Entry

variable {grace : Int} {own : List Effect} {e : Entry}

/-- The second half of reaping: whatever became of the content, the row goes. -/
theorem removal_obeys (doomed : Doomed own e) (outcome : EntryOutcome) :
    (do
      let _ ← Operation.ofReply (.ask (.remove e.locator))
      Operation.log (.reaped e.locator e.tier)
      return outcome : Operation EntryOutcome).run.Obeys (sweepRule grace) anything own := by
  refine fun reply _ => ⟨?_, ?_⟩
  · intro d effect
    cases reply with
    | error error => cases effect
    | ok removed => cases effect; exact ⟨e, rfl, doomed⟩
  · cases reply with
    | error error => trivial
    | ok removed => exact .silent (fun _ => rfl) fun _ _ => trivial

theorem reap_obeys (doomed : Doomed own e) : e.reap.run.Obeys (sweepRule grace) anything own := by
  refine fun reply _ => ⟨?_, ?_⟩
  · intro d effect
    cases reply with
    | error error => cases effect
    | ok done => cases effect; exact ⟨e, rfl, rfl, doomed⟩
  · cases reply with
    | ok done => exact removal_obeys (doomed.cons (by simp)) .reaped
    | error error =>
      show Program.Obeys _ _ (ExceptT.run (if error.isNotFound = true then _ else _)) _
      split
      · exact removal_obeys doomed .staleRemoved
      · trivial

theorem condemnAndReap_obeys (overdue : Overdue grace own e) (now : Timestamp) :
    (e.condemnAndReap now).run.Obeys (sweepRule grace) anything own := by
  refine fun reply _ => ⟨?_, ?_⟩
  · intro d effect
    cases reply with
    | error error => cases effect
    | ok condemned =>
      cases condemned with
      | false => cases effect
      | true => cases effect; exact overdue
  · cases reply with
    | error error => trivial
    | ok condemned =>
      cases condemned with
      | false => trivial
      | true => exact reap_obeys (.of_condemned own e now)

theorem confirmLate_obeys (holder : RecordField) :
    (e.confirmLate holder).run.Obeys (sweepRule grace) anything own := by
  refine fun reply _ => ⟨?_, ?_⟩
  · intro d effect
    cases reply with
    | error error => cases effect
    | ok released => cases released <;> cases effect; trivial
  · cases reply with
    | error error => trivial
    | ok released => exact .silent (fun _ => rfl) fun _ _ => by trivial

theorem judge_obeys {cutoff : Timestamp} (found : .found e ∈ own)
    (condemned : e.condemnedAt.isSome = true → Doomed own e) (timed : Cutoff grace own cutoff)
    (stale : e.isFresh cutoff = false) (now : Timestamp) :
    (e.judge now).run.Obeys (sweepRule grace) anything own := by
  unfold judge
  split
  · next marked => exact reap_obeys (condemned marked)
  · next unmarked =>
    have old : e.lastActivity < cutoff := by
      have uncondemned : e.condemnedAt = none := by simpa using unmarked
      simpa [isFresh, uncondemned] using stale
    split
    · next free =>
      exact condemnAndReap_obeys ⟨found, ⟨cutoff, timed, old⟩, by simp [free]⟩ now
    · next holder held =>
      refine fun reply _ => ⟨?_, ?_⟩
      · intro d effect
        cases reply with
        | error error => cases effect
        | ok values => cases effect; trivial
      · cases reply with
        | error error => trivial
        | ok values =>
          show Program.Obeys _ _
            (ExceptT.run (if values.any (·.holdsObject e.tier e.locator) = true then _ else _)) _
          split
          · exact confirmLate_obeys holder
          · next unheld =>
            refine condemnAndReap_obeys ⟨?_, ⟨cutoff, ?_, old⟩, ?_⟩ now
            · exact List.mem_cons_of_mem _ found
            · exact timed.mono (List.subset_cons_self _ _)
            · intro holder' same
              obtain rfl : holder = holder' := Option.some.inj (held.symm.trans same)
              exact ⟨values, List.mem_cons_self, mt FieldValue.any_holdsObject.2 unheld⟩

theorem process_obeys {cutoff : Timestamp} (timed : Cutoff grace own cutoff) (listed : Entry)
    (now : Timestamp) : (listed.process cutoff now).run.Obeys (sweepRule grace) anything own := by
  refine fun reply _ => ⟨?_, ?_⟩
  · intro d effect
    cases reply with
    | error error => cases effect
    | ok entry => cases entry <;> cases effect <;> trivial
  · cases reply with
    | error error => trivial
    | ok entry =>
      cases entry with
      | none => trivial
      | some e =>
        show Program.Obeys _ _ (ExceptT.run (if e.isFresh cutoff = true then _ else _)) _
        split
        · trivial
        · next stale =>
          exact judge_obeys List.mem_cons_self Doomed.of_found
            (timed.mono (List.subset_cons_self _ _)) (Bool.eq_false_iff.2 stale) now

end Entry

section

variable {grace : Int} {own : List Effect} {cutoff : Timestamp}

theorem sweepPage_obeys (timed : Cutoff grace own cutoff) (now : Timestamp) (page : List Entry)
    (report : SweepReport) :
    (sweepPage cutoff now page report).Obeys (sweepRule grace)
      (fun own' _ => Cutoff grace own' cutoff) own := by
  induction page generalizing own report with
  | nil => exact timed
  | cons e rest ih =>
    apply (Entry.process_obeys timed e now).growing.bind
    intro own' outcome grown
    have timed' := timed.mono grown.1.subset
    cases outcome with
    | ok outcome => exact ih timed' _
    | error error => exact .silent (fun _ => rfl) fun _ _ => ih timed' _

theorem sweepPages_obeys (timed : Cutoff grace own cutoff) (batchSize : Nat) (now : Timestamp)
    (pages : Nat) (cursor : Option Locator) (report : SweepReport) :
    (sweepPages batchSize cutoff now pages cursor report).run.Obeys (sweepRule grace) anything
      own := by
  induction pages generalizing own cursor report with
  | zero => trivial
  | succ pages ih =>
    refine fun reply _ => ⟨?_, ?_⟩
    · intro d effect
      cases effect
    · cases reply with
      | error error => trivial
      | ok page =>
        apply Operation.obeys_lift (sweepPage_obeys timed now page report)
        intro own' report timed'
        cases page.getLast? with
        | none => trivial
        | some last =>
          dsimp only
          split
          · trivial
          · exact ih timed' _ _

theorem sweep_obeys {settings : SweepSettings} (enough : grace ≤ settings.graceInterval)
    (pages : Nat) (first : First own) :
    (sweep settings pages).run.Obeys (sweepRule grace) anything own := by
  refine fun now _ => ⟨?_, ?_⟩
  · intro d effect
    cases effect
    exact first
  · have timed : Cutoff grace (.read now :: own) (now.back settings.graceInterval) :=
      ⟨now, settings.graceInterval, List.mem_cons_self, enough, rfl⟩
    refine Operation.obeys_bind anything (sweepPages_obeys timed _ now pages none .zero) ?_ ?_
    · exact fun _ _ _ => trivial
    · intro own' report _
      dsimp only
      split
      · exact .silent (fun _ => rfl) fun _ _ => trivial
      · trivial

/-- Between taking the lock and giving it back a monitor only sweeps. -/
theorem runSweep_obeys {settings : SweepSettings} (enough : grace ≤ settings.graceInterval)
    (pages : Nat) : (runSweep settings pages).run.Obeys (monitorRule grace) anything [] := by
  refine fun free _ => ⟨?_, ?_⟩
  · intro d effect
    cases free <;> cases effect
    rfl
  · cases free with
    | false => exact .silent (fun _ => rfl) fun _ _ => trivial
    | true =>
      have swept : (sweep settings pages).run.Obeys (sweepRule grace) anything [.locked] :=
        sweep_obeys enough pages (by simp [First])
      refine ((swept.keeping Locked (by simp [Locked]) ?_).mono ?_ (fun _ _ h => h)).bind ?_
      · intro own d kept allowed
        refine ⟨List.mem_cons_of_mem _ kept.1, ?_⟩
        intro member
        rcases List.mem_cons.1 member with rfl | member
        · exact allowed
        · exact kept.2 member
      · intro own d allowed
        cases d <;> first | exact allowed.2.elim | exact allowed
      · intro own result kept
        refine fun _ _ => ⟨?_, trivial⟩
        intro d effect
        cases effect
        exact kept.1

end

end BlobLifecycle
