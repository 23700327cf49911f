import BlobLifecycle.Proofs.Lawful

/-! What the ledger keeps of every locator, whoever acts: it is entered once, for one tier,
and a row that is gone or condemned never comes back to life. -/
namespace BlobLifecycle

theorem Tier.name_injective {a b : Tier} (same : a.name = b.name) : a = b := by
  have named := congrArg Tier.ofName? same
  simpa using named

/-- Claimed with record, field and time, or free with none of them. -/
def LedgerRow.Whole (row : LedgerRow) : Prop :=
  (row.record = none ∧ row.field = none ∧ row.claimedAt = none) ∨
    ∃ (holder : RecordField) (time : Timestamp), row.record = some holder.record ∧ row.field = some holder.field ∧
      row.claimedAt = some time

def LedgerRow.IsOf (row : LedgerRow) (tier : Tier) : Prop :=
  row.tier = tier.name ∧ tier.isStored = true ∧ row.Whole

theorem RowStep.isOf {locator : Locator} {d : Effect} {row row' : LedgerRow} {tier : Tier}
    (step : RowStep locator d (some row) (some row')) (kind : row.IsOf tier) : row'.IsOf tier := by
  obtain ⟨named, stored, whole⟩ := kind
  cases step with
  | other apart => exact ⟨named, stored, whole⟩
  | claimed free => exact ⟨named, stored, .inr ⟨_, _, rfl, rfl, rfl⟩⟩
  | renewed held => exact ⟨named, stored, .inr ⟨_, _, held.1, held.2.1, rfl⟩⟩
  | unclaimed held => exact ⟨named, stored, .inl ⟨rfl, rfl, rfl⟩⟩
  | condemned here unchanged => exact ⟨named, stored, whole⟩

/-- A claim takes an existing row, which is then held with the time of the claim. -/
theorem RowStep.of_claims {locator : Locator} {d : Effect} {holder : RecordField} {time : Timestamp}
    {before after : Option LedgerRow} (step : RowStep locator d before after)
    (claims : d.Claims locator holder time) :
    ∃ row row', before = some row ∧ after = some row' ∧ row'.HeldFor holder ∧
      row'.claimedAt = some time := by
  rcases claims with rfl | rfl
  · cases step with
    | other apart => exact (apart rfl).elim
    | claimed free => exact ⟨_, _, rfl, rfl, ⟨rfl, rfl, free.2⟩, rfl⟩
  · cases step with
    | other apart => exact (apart rfl).elim
    | renewed held => exact ⟨_, _, rfl, rfl, held, rfl⟩

namespace World

def Enters (w : World) (tier : Tier) (locator : Locator) : Prop :=
  ∃ a time, (a, .entered locator tier time) ∈ w.history

def Closed (w : World) (locator : Locator) : Prop :=
  (∃ tier, w.Enters tier locator) ∧ w.vault.row locator = none

/-- Entered once, and without a row or condemned. -/
def Gone (w : World) (locator : Locator) : Prop :=
  (∃ tier, w.Enters tier locator) ∧
    ∀ row, w.vault.row locator = some row → row.condemnedAt.isSome = true

theorem Gone.unheld {w : World} {locator : Locator} {row : LedgerRow} (gone : w.Gone locator)
    (present : w.vault.row locator = some row) (holder : RecordField) : ¬row.HeldFor holder := by
  intro held
  have marked := gone.2 row present
  rw [held.2.2] at marked
  cases marked

theorem Enters.mono {w w' : World} {tier : Tier} {locator : Locator}
    (enters : w.Enters tier locator) (grown : w.history ⊆ w'.history) : w'.Enters tier locator := by
  obtain ⟨a, time, member⟩ := enters
  exact ⟨a, time, grown member⟩

namespace Unmoved

variable {w w' : World} {tier : Tier} {locator : Locator}

theorem enters (unmoved : w.Unmoved w') : w'.Enters tier locator ↔ w.Enters tier locator := by
  simp [Enters, unmoved.members]

theorem closed (unmoved : w.Unmoved w') : w'.Closed locator ↔ w.Closed locator := by
  simp only [Closed, unmoved.enters, unmoved.row]

theorem gone (unmoved : w.Unmoved w') : w'.Gone locator ↔ w.Gone locator := by
  simp only [Gone, unmoved.enters, unmoved.row]

end Unmoved

end World

structure Tracked (w : World) : Prop where
  distinct : Function.Injective w.vault.supply
  supplied : ∀ a locator, (a, .issued locator) ∈ w.history →
    ∃ n < w.vault.issued, w.vault.supply n = locator
  issuer : ∀ a b locator, (a, .issued locator) ∈ w.history → (b, .issued locator) ∈ w.history → a = b
  enterer : ∀ a locator tier time, (a, .entered locator tier time) ∈ w.history →
    (a, .issued locator) ∈ w.history
  once : ∀ locator tier tier', w.Enters tier locator → w.Enters tier' locator → tier = tier'
  rows : ∀ locator row, w.vault.row locator = some row → ∃ tier, w.Enters tier locator ∧ row.IsOf tier
  released : ∀ a locator holder, (a, .released locator holder) ∈ w.history → w.Closed locator
  claims : ∀ a d locator holder time, (a, d) ∈ w.history → d.Claims locator holder time →
    ∃ tier, w.Enters tier locator
  found : ∀ a e, (a, .found e) ∈ w.history → w.Enters e.tier e.locator ∧ e.row.IsOf e.tier

namespace Tracked

variable {s : Setting} {w w' : World} {a : Actor} {d : Effect} {locator : Locator}

theorem initial (started : w.Initial) : Tracked w where
  distinct := started.distinct
  supplied := by simp [started.history]
  issuer := by simp [started.history]
  enterer := by simp [started.history]
  once := by simp [World.Enters, started.history]
  rows := by
    intro locator row present
    rw [started.row] at present
    cases present
  released := by simp [started.history]
  claims := by simp [started.history]
  found := by simp [started.history]

theorem unreleased {row : LedgerRow} (tracked : Tracked w) (present : w.vault.row locator = some row)
    (b : Actor) (holder : RecordField) : (b, .released locator holder) ∉ w.history := by
  intro released
  rw [(tracked.released b locator holder released).2] at present
  cases present

/-- What has a row was entered for a stored tier. -/
theorem stored {tier : Tier} {row : LedgerRow} (tracked : Tracked w) (entered : w.Enters tier locator)
    (present : w.vault.row locator = some row) : tier.isStored = true := by
  obtain ⟨tier', entered', _, stored, _⟩ := tracked.rows locator row present
  rw [tracked.once locator tier tier' entered entered']
  exact stored

/-- Only the one who was issued a locator enters it, and once. -/
theorem entering {tier : Tier} {time : Timestamp} (acts : w.Acts s a (.entered locator tier time) w') :
    .issued locator ∈ w.own a ∧ ∀ tier time, .entered locator tier time ∉ w.own a := by
  obtain ⟨task, running, lawful, allowed⟩ := acts.allowed
  generalize task.stage = stage at allowed
  cases stage with
  | opening => exact allowed
  | monitoring => exact allowed.2.elim
  | _ => exact allowed.elim

theorem fresh {tier : Tier} {time : Timestamp} (tracked : Tracked w)
    (acts : w.Acts s a (.entered locator tier time) w') (tier' : Tier) : ¬w.Enters tier' locator := by
  rintro ⟨b, time', member⟩
  obtain ⟨issued, unentered⟩ := entering acts
  obtain rfl : a = b :=
    tracked.issuer a b locator (World.mem_own.1 issued) (tracked.enterer b locator tier' time' member)
  exact unentered tier' time' (World.mem_own.2 member)

theorem closed_acts (tracked : Tracked w) (acts : w.Acts s a d w') (closed : w.Closed locator) :
    w'.Closed locator := by
  refine ⟨closed.1.imp fun tier enters => enters.mono acts.grows, ?_⟩
  have step := acts.row locator
  rw [closed.2] at step
  generalize w'.vault.row locator = after at step
  cases step with
  | other apart => rfl
  | entered stored =>
    obtain ⟨tier, enters⟩ := closed.1
    exact (tracked.fresh acts tier enters).elim
  | removed => rfl

theorem gone_acts (tracked : Tracked w) (acts : w.Acts s a d w') (gone : w.Gone locator) :
    w'.Gone locator := by
  refine ⟨gone.1.imp fun tier enters => enters.mono acts.grows, ?_⟩
  intro row' present'
  have step := acts.row locator
  have marked := gone.2
  rw [present'] at step
  generalize w.vault.row locator = before at step marked
  cases step with
  | other apart => exact marked row' rfl
  | entered stored =>
    obtain ⟨tier, enters⟩ := gone.1
    exact (tracked.fresh acts tier enters).elim
  | claimed free =>
    have before := marked _ rfl
    exact before
  | renewed held =>
    have before := marked _ rfl
    exact before
  | unclaimed held =>
    have before := marked _ rfl
    exact before
  | condemned here unchanged => rfl

theorem closed_step (tracked : Tracked w) (lawful : w.Lawful s) (step : Step s w w')
    (closed : w.Closed locator) : w'.Closed locator := by
  rcases step.kinds lawful with still | ⟨a, d, acts⟩ | ⟨a, record, changes, persists⟩
  · exact still.unmoved.closed.2 closed
  · exact tracked.closed_acts acts closed
  · exact persists.unmoved.closed.2 closed

/-- Only the rows, the supply and the effects matter, and not the writing of records. -/
theorem transfer (tracked : Tracked w) (unmoved : w.Unmoved w')
    (supply : w'.vault.supply = w.vault.supply) (issued : w'.vault.issued = w.vault.issued) :
    Tracked w' := by
  have same := unmoved.members
  constructor
  · rw [supply]; exact tracked.distinct
  · simpa [same, supply, issued] using tracked.supplied
  · simpa [same] using tracked.issuer
  · simpa [same] using tracked.enterer
  · simpa [unmoved.enters] using tracked.once
  · simpa [unmoved.enters, unmoved.row] using tracked.rows
  · simpa [same, unmoved.closed] using tracked.released
  · intro b d locator holder time member claims
    have other : ∀ references, d ≠ .persisted references := by
      rcases claims with rfl | rfl <;> simp
    simpa [unmoved.enters] using tracked.claims b d locator holder time ((same b d other).1 member) claims
  · simpa [same, unmoved.enters] using tracked.found

theorem still (tracked : Tracked w) (still : w.Still s w') : Tracked w' :=
  tracked.transfer still.unmoved still.supply still.issued

theorem persists {record : RecordId} {changes : List FieldChange} (tracked : Tracked w)
    (persists : w.Persists s a record changes w') : Tracked w' :=
  tracked.transfer persists.unmoved persists.supply persists.issued

theorem issues (tracked : Tracked w) (acts : w.Acts s a (.issued locator) w') (b : Actor) :
    (b, .issued locator) ∉ w.history := by
  intro member
  obtain ⟨n, earlier, same⟩ := tracked.supplied b locator member
  have next : locator = w.vault.supply w.vault.issued := acts.happens.seen
  have := tracked.distinct (same.trans next)
  omega

theorem rows_acts (tracked : Tracked w) (acts : w.Acts s a d w') (row' : LedgerRow)
    (present' : w'.vault.row locator = some row') :
    ∃ tier, w'.Enters tier locator ∧ row'.IsOf tier := by
  have step := acts.row locator
  have rows := tracked.rows locator
  rw [present'] at step
  generalize w.vault.row locator = before at step rows
  cases before with
  | some row =>
    obtain ⟨tier, enters, kind⟩ := rows row rfl
    exact ⟨tier, enters.mono acts.grows, step.isOf kind⟩
  | none =>
    cases step with
    | @entered tier time stored =>
      refine ⟨tier, ⟨a, time, acts.members.2 (.inl ⟨rfl, rfl⟩)⟩, rfl, stored, .inl ⟨rfl, rfl, rfl⟩⟩

theorem acts (tracked : Tracked w) (acts : w.Acts s a d w') : Tracked w' := by
  have grown := acts.grows
  have known {locator : Locator} {row : LedgerRow} (present : w.vault.row locator = some row) :
      ∃ tier, w'.Enters tier locator := by
    obtain ⟨tier, enters, _⟩ := tracked.rows locator row present
    exact ⟨tier, enters.mono grown⟩
  constructor
  · rw [acts.happens.supply]; exact tracked.distinct
  · intro b locator member
    rw [acts.happens.supply, acts.happens.issued]
    rcases acts.members.1 member with ⟨rfl, rfl⟩ | member
    · exact ⟨w.vault.issued, Nat.lt_succ_self _, acts.happens.seen.symm⟩
    · obtain ⟨n, earlier, same⟩ := tracked.supplied b locator member
      exact ⟨n, by omega, same⟩
  · intro b c locator member member'
    rcases acts.members.1 member with ⟨rfl, rfl⟩ | member <;>
      rcases acts.members.1 member' with ⟨rfl, same⟩ | member'
    · rfl
    · exact (tracked.issues acts c member').elim
    · exact (tracked.issues (same ▸ acts) b member).elim
    · exact tracked.issuer b c locator member member'
  · intro b locator tier time member
    rcases acts.members.1 member with ⟨rfl, rfl⟩ | member
    · exact grown (World.mem_own.1 (entering acts).1)
    · exact grown (tracked.enterer b locator tier time member)
  · rintro locator tier tier' ⟨b, time, member⟩ ⟨c, time', member'⟩
    rcases acts.members.1 member with ⟨rfl, rfl⟩ | member <;>
      rcases acts.members.1 member' with ⟨rfl, same⟩ | member'
    · cases same; rfl
    · exact (tracked.fresh acts tier' ⟨c, time', member'⟩).elim
    · exact (tracked.fresh (same ▸ acts) tier ⟨b, time, member⟩).elim
    · exact tracked.once locator tier tier' ⟨b, time, member⟩ ⟨c, time', member'⟩
  · exact fun locator row' => tracked.rows_acts acts row'
  · intro b locator holder member
    rcases acts.members.1 member with ⟨rfl, rfl⟩ | member
    · obtain ⟨row, present, _, absent⟩ := (acts.row locator).of_released
      exact ⟨known present, absent⟩
    · exact tracked.closed_acts acts (tracked.released b locator holder member)
  · intro b d' locator holder time member claims
    rcases acts.members.1 member with ⟨rfl, rfl⟩ | member
    · obtain ⟨row, _, present, _⟩ := (acts.row locator).of_claims claims
      exact known present
    · exact (tracked.claims b d' locator holder time member claims).imp fun _ e => e.mono grown
  · intro b e member
    rcases acts.members.1 member with ⟨rfl, rfl⟩ | member
    · obtain ⟨tier, enters, named, stored, whole⟩ := tracked.rows e.locator e.row acts.happens.seen
      obtain rfl := Tier.name_injective named
      exact ⟨enters.mono grown, rfl, stored, whole⟩
    · exact (tracked.found b e member).imp (fun enters => enters.mono grown) id

theorem step (tracked : Tracked w) (lawful : w.Lawful s) (step : Step s w w') : Tracked w' := by
  rcases step.kinds lawful with still | ⟨a, d, acts⟩ | ⟨a, record, changes, persists⟩
  · exact tracked.still still
  · exact tracked.acts acts
  · exact tracked.persists persists

end Tracked

theorem Reachable.tracked {s : Setting} {w : World} (reached : Reachable s w) : Tracked w :=
  reached.induction (fun _ => .initial) fun _ _ before tracked step =>
    tracked.step before.lawful step

/-- What was seen condemned, or condemned, is gone. -/
structure Marked (w : World) : Prop where
  found : ∀ a e, (a, .found e) ∈ w.history → e.condemnedAt.isSome = true → w.Gone e.locator
  condemned : ∀ a e time, (a, .condemned e time) ∈ w.history → w.Gone e.locator

namespace Marked

variable {s : Setting} {w w' : World} {a : Actor} {d : Effect}

theorem transfer (marked : Marked w) (unmoved : w.Unmoved w') : Marked w' := by
  constructor
  · simpa [unmoved.members, unmoved.gone] using marked.found
  · simpa [unmoved.members, unmoved.gone] using marked.condemned

theorem acts (tracked : Tracked w) (marked : Marked w) (acts : w.Acts s a d w') : Marked w' := by
  have gone {row : LedgerRow} {locator : Locator} (present : w'.vault.row locator = some row)
      (condemned : row.condemnedAt.isSome = true) : w'.Gone locator := by
    obtain ⟨tier, enters, _⟩ := (tracked.acts acts).rows locator row present
    refine ⟨⟨tier, enters⟩, fun row' present' => ?_⟩
    rw [present] at present'
    cases present'
    exact condemned
  constructor
  · intro b e member condemned
    rcases acts.members.1 member with ⟨rfl, rfl⟩ | member
    · have seen : w.vault.row e.locator = some e.row := acts.happens.seen
      exact gone (((acts.row e.locator).unmoved (by simp [Effect.target?])).trans seen) condemned
    · exact tracked.gone_acts acts (marked.found b e member condemned)
  · intro b e time member
    rcases acts.members.1 member with ⟨rfl, rfl⟩ | member
    · obtain ⟨row, _, _, present⟩ := (acts.row e.locator).of_condemned
      exact gone present rfl
    · exact tracked.gone_acts acts (marked.condemned b e time member)

end Marked

theorem Reachable.marked {s : Setting} {w : World} (reached : Reachable s w) : Marked w := by
  refine reached.induction ?_ ?_
  · intro w started
    exact ⟨by simp [started.history], by simp [started.history]⟩
  · intro w w' before marked step
    rcases step.kinds before.lawful with still | ⟨a, d, acts⟩ | ⟨a, record, changes, persists⟩
    · exact marked.transfer still.unmoved
    · exact marked.acts before.tracked acts
    · exact marked.transfer persists.unmoved

theorem Marked.gone {w : World} {a : Actor} {e : Entry} (marked : Marked w)
    (doomed : Doomed (w.own a) e) : w.Gone e.locator := by
  rcases doomed.marked with ⟨found, condemned⟩ | ⟨time, condemned⟩
  · exact marked.found a e (World.mem_own.1 found) condemned
  · exact marked.condemned a e time (World.mem_own.1 condemned)

/-- No step undoes what was done. -/
theorem Step.grows {s : Setting} {w w' : World} (lawful : w.Lawful s) (step : Step s w w') :
    w.history ⊆ w'.history := by
  rcases step.kinds lawful with still | ⟨a, d, acts⟩ | ⟨a, record, changes, persists⟩
  · simp [still.history]
  · exact acts.grows
  · simp [persists.history]

theorem Delivered.mono {own own' : List Effect} {h : Handle} {content : Bytes}
    (delivered : Delivered own h content) (grown : own ⊆ own') : Delivered own' h content := by
  obtain ⟨⟨time, entered⟩, published⟩ := delivered
  exact ⟨⟨time, grown entered⟩, grown published⟩

/-- A writer that was given a stored handle entered its locator and published its content,
and is done. -/
theorem Reachable.delivered {s : Setting} {w : World} (reached : Reachable s w) {h : Handle}
    {content : Bytes} (member : (h, content) ∈ w.returned) (stored : h.tier.isStored = true) :
    ∃ a, Delivered (w.own a) h content ∧ ¬w.Running a := by
  revert member
  refine reached.induction (P := fun w => (h, content) ∈ w.returned →
    ∃ a, Delivered (w.own a) h content ∧ ¬w.Running a) ?_ ?_
  · intro w started member
    rw [started.returned] at member
    cases member
  · intro w w' before earlier step member
    have lawful := before.lawful
    have given : (h, content) ∈ w.returned ∨
        ∃ a, Delivered (w.own a) h content ∧ ¬w'.Running a := by
      cases step with
      | @deliver _ a accepted h' running =>
        rcases List.mem_cons.1 member with same | member
        · cases same
          obtain ⟨_, _, _, obeys⟩ := lawful _ _ running
          refine .inr ⟨a, obeys h rfl stored, ?_⟩
          rintro ⟨task, running'⟩
          rw [World.tasks_assign_self] at running'
          cases running'
        · exact .inl member
      | _ => exact .inl member
    have grown {a : Actor} (delivered : Delivered (w.own a) h content) :
        Delivered (w'.own a) h content :=
      delivered.mono fun d done => World.mem_own.2 (step.grows lawful (World.mem_own.1 done))
    rcases given with member | ⟨a, delivered, idle⟩
    · obtain ⟨a, delivered, idle⟩ := earlier member
      refine ⟨a, grown delivered, fun running => ?_⟩
      rcases step.kinds lawful with still | ⟨b, d, acts⟩ | ⟨b, record, changes, persists⟩
      · rcases still.running running with running | fresh
        · exact idle running
        · have published := delivered.published
          rw [fresh] at published
          cases published
      · exact idle (acts.running a running)
      · exact idle (persists.running a running)
    · exact ⟨a, grown delivered, idle⟩

theorem Delivered.enters {w : World} {a : Actor} {h : Handle} {content : Bytes}
    (delivered : Delivered (w.own a) h content) : w.Enters h.tier h.locator := by
  obtain ⟨time, member⟩ := delivered.entered
  exact ⟨a, time, World.mem_own.1 member⟩

theorem Tracked.same_enterer {w : World} {a b : Actor} {tier tier' : Tier} {locator : Locator}
    (tracked : Tracked w) (first : Entered (w.own a) tier locator)
    (second : Entered (w.own b) tier' locator) : a = b := by
  obtain ⟨time, first⟩ := first
  obtain ⟨time', second⟩ := second
  exact tracked.issuer a b locator (tracked.enterer a locator tier time (World.mem_own.1 first))
    (tracked.enterer b locator tier' time' (World.mem_own.1 second))

/-- No two handles that writers were given name the same locator. -/
def World.GivenOnce (w : World) : Prop :=
  ∀ h h' content content', (h, content) ∈ w.returned → (h', content') ∈ w.returned →
    h.tier.isStored = true → h'.tier.isStored = true → h.locator = h'.locator →
    h = h' ∧ content = content'

def World.ReleasedOnce (w : World) : Prop :=
  ∀ a b locator holder holder', (a, .released locator holder) ∈ w.history →
    (b, .released locator holder') ∈ w.history → holder = holder'

theorem Reachable.givenOnce {s : Setting} {w : World} (reached : Reachable s w) : w.GivenOnce := by
  refine reached.induction ?_ ?_
  · intro w started h h' content content' member
    rw [started.returned] at member
    cases member
  · intro w w' before earlier step h h' content content' member member' stored stored' same
    cases step with
    | @deliver _ a accepted given running =>
      have other {h' : Handle} {content' : Bytes} (old : (h', content') ∈ w.returned)
          (stored : given.tier.isStored = true) (stored' : h'.tier.isStored = true) :
          given.locator ≠ h'.locator := by
        intro same
        obtain ⟨_, _, _, obeys⟩ := before.lawful _ _ running
        obtain ⟨entered, _⟩ := obeys given rfl stored
        obtain ⟨b, delivered, idle⟩ := before.delivered old stored'
        rw [same] at entered
        obtain rfl := before.tracked.same_enterer entered delivered.entered
        exact idle ⟨_, running⟩
      rcases List.mem_cons.1 member with new | old <;> rcases List.mem_cons.1 member' with new' | old'
      · cases new.trans new'.symm; exact ⟨rfl, rfl⟩
      · cases new; exact (other old' stored stored' same).elim
      · cases new'; exact (other old stored' stored same.symm).elim
      · exact earlier h h' content content' old old' stored stored' same
    | _ => exact earlier h h' content content' member member' stored stored' same

theorem Reachable.releasedOnce {s : Setting} {w : World} (reached : Reachable s w) :
    w.ReleasedOnce := by
  refine reached.induction ?_ ?_
  · intro w started a b locator holder holder' first
    rw [started.history] at first
    cases first
  · intro w w' before earlier step a b locator holder holder' first second
    rcases step.kinds before.lawful with still | ⟨c, d, acts⟩ | ⟨c, record, changes, persists⟩
    · rw [still.history] at first second
      exact earlier a b locator holder holder' first second
    · have other {b : Actor} {holder : RecordField} {locator : Locator}
          (new : d = .released locator holder) {holder' : RecordField}
          (old : (b, .released locator holder') ∈ w.history) : False := by
        subst new
        obtain ⟨row, present, _⟩ := (acts.row locator).of_released
        exact before.tracked.unreleased present b holder' old
      rw [acts.history] at first second
      rcases List.mem_cons.1 first with new | old <;> rcases List.mem_cons.1 second with new' | old'
      · cases new.trans new'.symm; rfl
      · cases new; exact (other rfl old').elim
      · cases new'; exact (other rfl old).elim
      · exact earlier a b locator holder holder' old old'
    · exact earlier a b locator holder holder' ((persists.members a _ (by simp)).1 first)
        ((persists.members b _ (by simp)).1 second)

end BlobLifecycle
