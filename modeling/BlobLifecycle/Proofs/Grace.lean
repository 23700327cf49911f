import BlobLifecycle.Proofs.WellFormed

/-! The grace interval at the very moment at which a sweep condemns. Listing, reading again and
condemning are three looks at a row that others change meanwhile; the row that is marked was
written, and claimed if it is, before the sweep's cutoff all the same. -/
namespace BlobLifecycle

theorem Timestamp.back_le_back {now a b : Int} (le : a ≤ b) : back now b ≤ back now a := by
  show (max Word.least (min Word.greatest (now - b)) : Int) ≤
    max Word.least (min Word.greatest (now - a))
  omega

theorem Entry.writtenAt_le_lastActivity (e : Entry) : e.writtenAt ≤ e.lastActivity := by
  unfold lastActivity
  split
  · exact Int.le_max_right _ _
  · exact Int.le_refl _

/-- No locator is entered that had a row at first or was entered before. -/
def EnteredOnce (v : Vault) (xs : List Exchange) : Prop :=
  ∀ earlier locator tier time later, effectsOf xs = earlier ++ .entered locator tier time :: later →
    v.row locator = none ∧ Unentered locator earlier

theorem EnteredOnce.unentered {v v' : Vault} {earlier later : List Exchange} {y : Exchange}
    {locator : Locator} (once : EnteredOnce v (earlier ++ y :: later))
    (dialogue : Dialogue v (earlier ++ y :: later) v') (present : y.after.row locator ≠ none) :
    Unentered locator (effectsOf later) := by
  intro tier time member
  obtain ⟨between, rest, split⟩ := List.append_of_mem member
  obtain ⟨absent, unentered⟩ := once (effectsOf (earlier ++ [y]) ++ between) locator tier time rest (by
    rw [List.append_cons, effectsOf_append, split, List.append_assoc])
  obtain ⟨w, lead, same, happens, -⟩ := Dialogue.append_iff.1 dialogue
  have through : Dialogue v (earlier ++ [y]) y.after := Dialogue.append_iff.2 ⟨w, lead, same, happens, rfl⟩
  exact present ((through.run locator).gone_stays absent
    fun tier time member => unentered tier time (List.mem_append_left _ member))

namespace Exchange

variable {x : Exchange} {locator : Locator} {d : Effect}

theorem Happens.step (happens : x.Happens) (effect : x.effect? = some d) (locator : Locator) :
    RowStep locator d (x.before.row locator) (x.after.row locator) := by
  have leaves := happens.leaves
  rw [show x.request.effect? x.reply = some d from effect] at leaves
  exact leaves.ledger locator

end Exchange

def ReadOnce (own : List Effect) : Prop :=
  ∀ time time', Effect.read time ∈ own → Effect.read time' ∈ own → time = time'

/-- A sweep condemns what it has seen to be overdue, by one reading of the clock. -/
theorem sweep_obeys_once (settings : SweepSettings) (pages : Nat) :
    (sweep settings pages).run.Obeys
      (fun own d => ReadOnce own ∧ sweepRule settings.graceInterval own d)
      (fun own _ => ReadOnce own ∧ anything own ()) [] := by
  refine (sweep_obeys (Int.le_refl _) pages (by simp [First])).keeping ReadOnce ?_ ?_
  · simp [ReadOnce]
  · intro own d once allowed time time' first second
    have new (t : Timestamp) (member : Effect.read t ∈ d :: own) (later : Effect.read t ∉ own) :
        d = .read t := (List.mem_cons.1 member).elim Eq.symm fun old => absurd old later
    by_cases read : ∃ t, d = .read t
    · obtain ⟨t, rfl⟩ := read
      have none := allowed.1
      cases new time first (none time)
      cases new time' second (none time')
      rfl
    · rw [not_exists] at read
      have old {t : Timestamp} (member : Effect.read t ∈ d :: own) : Effect.read t ∈ own :=
        (List.mem_cons.1 member).elim (fun same => absurd same.symm (read t)) id
      exact once time time' (old first) (old second)

theorem sweep_begins {settings : SweepSettings} {pages : Nat} {xs : List Exchange}
    {q : Program (Except BlobError SweepReport)} (joins : (sweep settings pages).run.Joins xs q) :
    (∀ x ∈ xs, x.isOwn = false) ∧ q = (sweep settings pages).run ∨
      ∃ start, (ownEffects xs).head? = some (.read start) := by
  rcases Program.Joins.call (r := .now) joins with
    waiting | ⟨others, before, start, after, rest, rfl, apart, -⟩
  · exact .inl waiting
  · exact .inr ⟨start, ownEffects_read apart⟩

section

variable {settings : SweepSettings} {pages : Nat} {v v' before after : Vault}
  {earlier later : List Exchange} {e : Entry} {time : Timestamp}
  {q : Program (Except BlobError SweepReport)}

/-- What a sweep condemns it saw before, when the row was that of the entry and overdue. -/
theorem sweep_condemns
    (dialogue : Dialogue v (earlier ++ ⟨true, before, .condemn e time, .ok true, after⟩ :: later) v')
    (joins : (sweep settings pages).run.Joins
      (earlier ++ ⟨true, before, .condemn e time, .ok true, after⟩ :: later) q) :
    ∃ start, (ownEffects earlier).head? = some (.read start) ∧ .found e ∈ ownEffects earlier ∧
      e.lastActivity < start.back settings.graceInterval := by
  obtain ⟨once, found, ⟨cutoff, ⟨now, interval, read, enough, rfl⟩, old⟩, -⟩ :=
    joins.allowed (sweep_obeys_once settings pages) dialogue rfl rfl
  obtain ⟨p', first, second⟩ := Program.Joins.append_iff.1 joins
  rcases sweep_begins first with ⟨-, rfl⟩ | ⟨start, begins⟩
  · obtain ⟨next, impossible, -⟩ := (Program.Joins.own_iff rfl).1 second
    cases impossible
  · have started : Effect.read start ∈ ownEffects earlier := List.mem_of_head? begins
    obtain rfl : now = start := once now start read (by simpa using started)
    exact ⟨now, begins, by simpa using found, Int.lt_of_lt_of_le old (Timestamp.back_le_back enough)⟩

/-- When a sweep condemns an entry its row was written before the cutoff, and claimed before it
if it is claimed, whatever others did since the sweep listed and read it. -/
theorem condemned_rows_overdue
    (dialogue : Dialogue v (earlier ++ ⟨true, before, .condemn e time, .ok true, after⟩ :: later) v')
    (joins : (sweep settings pages).run.Joins
      (earlier ++ ⟨true, before, .condemn e time, .ok true, after⟩ :: later) q)
    (once : EnteredOnce v (earlier ++ ⟨true, before, .condemn e time, .ok true, after⟩ :: later)) :
    ∃ start row, (ownEffects earlier).head? = some (.read start) ∧
      before.row e.locator = some row ∧
      after.row e.locator = some { row with condemnedAt := some time } ∧
      row.writtenAt < start.back settings.graceInterval ∧
      (row.record ≠ none → ∀ claimed, row.claimedAt = some claimed →
        claimed < start.back settings.graceInterval) := by
  obtain ⟨start, begins, found, old⟩ := sweep_condemns dialogue joins
  obtain ⟨y, seen, -, effect⟩ := mem_ownEffects.1 found
  obtain ⟨first, between, rfl⟩ := List.append_of_mem seen
  obtain ⟨w, lead, same, happens, -⟩ := Dialogue.append_iff.1 dialogue
  obtain ⟨-, -, -, saw, middle⟩ := Dialogue.append_iff.1 lead
  have read : y.after.row e.locator = some e.row := by
    rw [(saw.step effect e.locator).unmoved (by simp [Effect.target?])]
    exact saw.seen effect
  -- the row that is there now is the one that was read, since none is entered anew
  have unentered : Unentered e.locator (effectsOf between) := by
    rw [List.append_assoc, List.cons_append] at dialogue once
    have present : y.after.row e.locator ≠ none := by simp [read]
    have none := once.unentered dialogue present
    intro tier time member
    exact none tier time (by rw [effectsOf_append]; exact List.mem_append_left _ member)
  obtain ⟨row, present, unchanged, marked⟩ := (happens.step rfl e.locator).of_condemned
  have origin : row.writtenAt = e.writtenAt := by
    have there : w.row e.locator = some row := (Vault.row_of_ledger same _).symm.trans present
    exact ((middle.run e.locator).origin unentered read there).2
  refine ⟨start, row, begins, present, marked, ?_, fun claimed stamp stamped => ?_⟩
  · exact origin ▸ Int.lt_of_le_of_lt e.writtenAt_le_lastActivity old
  · have held : row.claimedAt = e.claimedAt := by
      have same := unchanged.2
      cases claim : e.claim with
      | none => simp only [claim] at same; exact absurd same claimed
      | some holder => simp only [claim] at same; exact same.2.2
    exact Int.lt_of_le_of_lt (Entry.claimedAt_le_lastActivity (held ▸ stamped)) old

end

namespace Sample

def forgotten : Vault :=
  { Vault.numbered 1000000 with ledger := (∅ : Ledger).insert [0] (.fresh .medium 5) }

def entry : Entry := .written [0] .medium 5

/-- Between any two looks of a sweep another claims the entry and gives it back. -/
def contested : List (Option Request) :=
  let claimed := [some (.claim [0] ⟨record, field⟩ 999999), some (.unclaim [0] ⟨record, field⟩)]
  [none, none] ++ claimed ++ [none] ++ claimed

def observed : List Exchange × Program (Except BlobError SweepReport) × Vault :=
  (sweep ⟨10000, 3⟩ 2).run.play forgotten contested

def condemnation : Exchange :=
  ⟨true, observed.2.2, .condemn entry 1000000, .ok true,
    (observed.2.2.answer (.condemn entry 1000000)).2⟩

theorem effectsOf_observed : effectsOf (observed.1 ++ [condemnation]) =
    [.read 1000000, .claimed [0] ⟨record, field⟩ 999999, .unclaimed [0] ⟨record, field⟩, .found entry,
      .claimed [0] ⟨record, field⟩ 999999, .unclaimed [0] ⟨record, field⟩,
      .condemned entry 1000000] := rfl

end Sample

/-- A claim that was given back does not save an entry that was written before the cutoff. -/
theorem undone_claim_condemned :
    let before := Sample.observed.2.2
    let xs := Sample.observed.1 ++ [Sample.condemnation]
    (∃ v' q, Dialogue Sample.forgotten xs v' ∧ (sweep ⟨10000, 3⟩ 2).run.Joins xs q) ∧
      EnteredOnce Sample.forgotten xs ∧
      ∃ start row, (ownEffects Sample.observed.1).head? = some (.read start) ∧
        before.row [0] = some row ∧ row.writtenAt < start.back 10000 ∧
        (row.record ≠ none → ∀ claimed, row.claimedAt = some claimed → claimed < start.back 10000) := by
  have played := (sweep ⟨10000, 3⟩ 2).run.play_dialogue Sample.forgotten (Sample.contested ++ [none])
  have once : EnteredOnce Sample.forgotten (Sample.observed.1 ++ [Sample.condemnation]) := by
    intro earlier locator tier time later split
    have member : Effect.entered locator tier time ∈ effectsOf (Sample.observed.1 ++ [Sample.condemnation]) :=
      split ▸ List.mem_append_right _ List.mem_cons_self
    rw [Sample.effectsOf_observed] at member
    simp at member
  obtain ⟨start, row, begins, present, -, written, claimed⟩ :=
    condemned_rows_overdue played.1 played.2 once
  exact ⟨⟨_, _, played.1, played.2⟩, once, start, row, begins, present, written, claimed⟩

end BlobLifecycle
